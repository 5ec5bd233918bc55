import AisphereHub.Data.AgentSkillRefs
import AisphereHub.Proof.AgentProjection
import AisphereHub.Proof.AgentVersions
import AisphereHub.Proof.SkillSetRevisions

/-! The query for the agents that bind a skill, over every catalog that calls reach. -/
namespace AisphereHub

open GoJson Transition
open GoStrings (trimSpace)
open Threads (Pool Action)

def AgentSkillBinding.fromCatalog (b : AgentSkillBinding) : Bool :=
  skillSource (trimSpace b.version) b.source ≠ "builtin"

def SkillSetTables.pins (t : SkillSetTables) (skill : String) (b : AgentSkillSetBinding) : Bool :=
  0 < b.revision && (t.frozen (trimSpace b.name) b.revision.toNat).any fun m => m.skillName = skill

def SkillSetTables.holds (t : SkillSetTables) (skill : String) (b : AgentSkillSetBinding) : Bool :=
  (t.members b.name).any fun m => m.skillName = skill

namespace AgentVersionRow

def names (v : AgentVersionRow) (skill : String) : Bool :=
  (unmarshalProjection v.definitionJSON).any fun p =>
    p.skills.any fun b => trimSpace b.name = skill && b.fromCatalog

def pins (v : AgentVersionRow) (t : SkillSetTables) (skill : String) : Bool :=
  (unmarshalProjection v.definitionJSON).any fun p => p.skillSets.any (t.pins skill)

def references (v : AgentVersionRow) (t : SkillSetTables) (skill : String) : Bool :=
  v.names skill || v.pins t skill

end AgentVersionRow

structure HubCatalog where
  calls : Pool AgentTables AgentCall := ⟨{}, []⟩
  sets : SkillSetTables := {}

inductive CatalogEvent where
  | agent (a : Action AgentRequest AgentAnswer)
  | deleteAgent (id : String) (now : Nat) (authzFault : Option String)
  | skillSet (x : SkillSetTransaction)

namespace HubCatalog

def agents (h : HubCatalog) : AgentCatalog := h.calls.shared.catalog

def step {φ : Type} (A : AgentCodec φ) (h : HubCatalog) : CatalogEvent → Option HubCatalog
  | .agent a => ((agentProgram A).step h.calls a).map fun calls => { h with calls := calls }
  | .deleteAgent id now authzFault =>
    (h.calls.shared.delete id now authzFault).map fun s =>
      { h with calls := { h.calls with shared := s } }
  | .skillSet x => (h.sets.commit x).map fun sets => { h with sets := sets }

def referencing (h : HubCatalog) (skill : String) : List AgentSkillReference :=
  ((h.agents.agents.filter AgentRow.live).filter fun a =>
    (h.agents.versionsOf a.agentID).any fun v => v.references h.sets skill).map AgentRow.reference

end HubCatalog

section Recorded

variable {φ : Type} {A : AgentCodec φ}

def DefinitionAccepted (F : FloatCodec φ) (v : AgentVersionRow) : Prop :=
  ∃ raw projection, normalizeAgentDefinition F raw = .ok (v.definitionJSON, projection)

def Proposed (F : FloatCodec φ) : AgentCall → Prop
  | .insert _ v => DefinitionAccepted F v
  | .commit u => DefinitionAccepted F u.version
  | _ => True

def Recorded (F : FloatCodec φ) (s : AgentTables) : Prop :=
  ∀ v ∈ s.catalog.versions, DefinitionAccepted F v

theorem recorded_append {F : FloatCodec φ}
    (recorded : Recorded F s) (accepted : DefinitionAccepted F v)
    (shape : s'.catalog.versions = s.catalog.versions ++ [v]) : Recorded F s' := by
  intro w member
  rw [shape] at member
  rcases List.mem_append.mp member with before | last
  · exact recorded w before
  · rw [List.mem_singleton.mp last]
    exact accepted

theorem recorded_next
    (recorded : Recorded A.toFloatCodec s) (proposed : Proposed A.toFloatCodec call)
    (taken : (agentProgram A).next s call answer = some (s', call')) :
    Recorded A.toFloatCodec s' ∧ Proposed A.toFloatCodec call' := by
  cases call with
  | planCreate caller request =>
    simp only [agentProgram, agentNext] at taken
    split at taken <;> cases taken
    · exact ⟨recorded, trivial⟩
    · rename_i planned
      obtain ⟨_, _, _, _, _, _, shape, projection, normalized⟩ := planCreate_eq_ok planned
      refine ⟨recorded, request.definition, projection, ?_⟩
      rw [shape]
      exact normalized
  | insert row version =>
    simp only [agentProgram, agentNext] at taken
    split at taken <;> cases taken
    · exact ⟨recorded, trivial⟩
    · rename_i created
      obtain ⟨_, _, _, _, rfl⟩ := create_eq_ok.mp (transact_eq_ok.mp created).1
      exact ⟨recorded_append recorded proposed rfl, trivial⟩
  | grant row | mark id =>
    simp only [agentProgram, agentNext] at taken
    split at taken <;> cases taken <;> exact ⟨recorded, trivial⟩
  | dropVersions id =>
    simp only [agentProgram, agentNext] at taken
    split at taken <;> cases taken
    · exact ⟨recorded, trivial⟩
    · exact ⟨fun v member => recorded v (List.mem_of_mem_filter member), trivial⟩
  | planUpdate caller id request =>
    simp only [agentProgram, agentNext] at taken
    split at taken <;> cases taken
    · exact ⟨recorded, trivial⟩
    · rename_i planned
      obtain ⟨_, _, _, _, _, _, _, shape, projection, normalized⟩ := planUpdate_eq_ok planned
      refine ⟨recorded, request.definition, projection, ?_⟩
      rw [shape]
      exact normalized
  | commit u =>
    simp only [agentProgram, agentNext] at taken
    split at taken <;> cases taken
    · exact ⟨recorded, trivial⟩
    · rename_i committed
      obtain ⟨_, _, _, _, _, rfl⟩ := update_eq_ok.mp (transact_eq_ok.mp committed).1
      exact ⟨recorded_append recorded proposed rfl, trivial⟩
  | reconcile u todo =>
    cases todo <;> simp only [agentProgram, agentNext] at taken <;> split at taken <;>
      cases taken <;> exact ⟨recorded, trivial⟩
  | reload id =>
    cases taken
    exact ⟨recorded, trivial⟩
  | returned result => cases taken

theorem recorded_step (h : HubCatalog) (event : CatalogEvent) (h' : HubCatalog)
    (holds : Threads.Holds (Recorded A.toFloatCodec) (fun _ => Proposed A.toFloatCodec)
      (fun _ _ _ => True) h.calls) (taken : h.step A event = some h') :
    Threads.Holds (Recorded A.toFloatCodec) (fun _ => Proposed A.toFloatCodec) (fun _ _ _ => True)
      h'.calls := by
  have outline : Threads.Outline (agentProgram A) (fun _ _ => True) (Recorded A.toFloatCodec)
      (fun _ => Proposed A.toFloatCodec) (fun _ _ _ => True) := {
    fresh := fun _ request _ => by cases request <;> trivial
    freshPair := fun _ _ _ _ _ => ⟨trivial, trivial⟩
    own := fun p n t answer s' t' holds _ found next =>
      recorded_next holds.shared (holds.each n t found) next
    other := fun p n t answer s' t' holds _ found next m u _ foundU =>
      ⟨holds.each m u foundU, trivial, trivial⟩
    rest := fun _ _ _ _ _ _ _ _ _ _ _ _ _ _ _ _ _ _ _ => trivial }
  cases event with
  | agent a =>
    obtain ⟨calls, next, rfl⟩ := Option.map_eq_some_iff.mp taken
    exact outline.step h.calls a calls trivial holds next
  | deleteAgent id now authzFault =>
    obtain ⟨s, deleted, rfl⟩ := Option.map_eq_some_iff.mp taken
    refine ⟨?_, holds.each, holds.pair⟩
    unfold AgentTables.delete at deleted
    split at deleted <;> cases deleted <;> exact holds.shared
  | skillSet x =>
    obtain ⟨sets, _, rfl⟩ := Option.map_eq_some_iff.mp taken
    exact holds

theorem recorded_run (ran : run (HubCatalog.step A) {} events = some h) :
    ∀ v ∈ h.agents.versions, DefinitionAccepted A.toFloatCodec v := by
  have start : Threads.Holds (Recorded A.toFloatCodec) (fun _ => Proposed A.toFloatCodec)
      (fun _ _ _ => True) (⟨{}, []⟩ : Pool AgentTables AgentCall) :=
    .empty (by simp [Recorded])
  exact (run_invariant recorded_step start ran).shared

end Recorded

section Monadic

variable {α ε : Type} {rows : List α}

theorem anyM_eq_ok {test : α → Except ε Bool}
    (each : ∀ x ∈ rows, test x = .ok (holds x)) : rows.anyM test = .ok (rows.any holds) := by
  induction rows with
  | nil => rfl
  | cons x rest ih =>
    rw [List.forall_mem_cons] at each
    rw [List.anyM, each.1, List.any_cons]
    cases holds x with
    | true => rfl
    | false => exact ih each.2

theorem filterM_eq_ok {test : α → Except ε Bool}
    (each : ∀ x ∈ rows, test x = .ok (holds x)) : rows.filterM test = .ok (rows.filter holds) := by
  have from_any : ∀ kept, List.filterAuxM test rows kept = .ok ((rows.filter holds).reverse ++ kept) := by
    induction rows with
    | nil => exact fun _ => rfl
    | cons x rest ih =>
      intro kept
      rw [List.forall_mem_cons] at each
      rw [List.filterAuxM, each.1]
      refine (ih each.2 _).trans ?_
      cases held : holds x <;> simp [held, cond]
  rw [List.filterM, from_any]
  simp [bind, Except.bind, pure, Except.pure]

theorem ok_answer {test : Except ε Bool} (answers : ∃ b, test = .ok b) :
    test = .ok (test.toOption.getD false) := by
  obtain ⟨b, rfl⟩ := answers
  rfl

theorem any_read {β : Type} {R values} {q : β → Bool}
    (each : List.Forall₂ R rows values) (same : ∀ x, ∀ y ∈ values, R x y → p x = q y) :
    rows.any p = values.any q := by
  induction each with
  | nil => rfl
  | cons first _ ih =>
    rw [List.any_cons, List.any_cons, same _ _ List.mem_cons_self first,
      ih fun x y member => same x y (List.mem_cons_of_mem _ member)]

end Monadic

section Query

variable {φ : Type} {F : FloatCodec φ} {doc : AnyMap φ} {field : String}
  {bindings : List (AnyMap φ)} {render : Json Decimal → String}

theorem jsonMember_marshal (key : String) :
    jsonMember (.obj (marshalMembers F doc)) key = (doc.lookup key).map (marshalAny F) := by
  rw [jsonMember, asMap, lookup_marshalMembers]

theorem Listed.elements (listed : Listed doc field bindings)
    (present : jsonMember (.obj (marshalMembers F doc)) field ≠ some .null) :
    jsonArrayElements (jsonMember (.obj (marshalMembers F doc)) field) =
      .ok (bindings.map fun binding => .obj (marshalMembers F binding)) := by
  rw [jsonMember_marshal] at present ⊢
  rcases listed with found | ⟨none | null, rfl⟩
  · rw [found, Option.map_some, marshalAny, marshalItems_eq, jsonArrayElements, List.map_map]
    congr 1
  · rw [none]
    rfl
  · rw [null, Option.map_some, marshalAny] at present
    exact absurd rfl present

theorem elements_coalesced (json : Option (Json Decimal)) :
    jsonArrayElements (json.or (some (.arr []))) = jsonArrayElements json := by
  cases json <;> rfl

theorem memberText_name (named : binding.lookup "name" = some (.str text)) :
    jsonMemberText render (.obj (marshalMembers F binding)) "name" = some text := by
  rw [jsonMemberText, jsonMember_marshal, named, Option.map_some, marshalAny]

end Query

/-- A version that the query reads as it is projected: its lists are spelled as the structs have
them, it has no built-in skill of the name, and the sets it pins have the skill now exactly if they
had it then. -/
@[mk_iff] structure Transparent (t : SkillSetTables) (skill : String) (v : AgentVersionRow) : Prop where
  top : Plain ["skills", "skillsets"] (asMap (some v.definitionJSON))
  skills : ∀ binding ∈ bindingsOf v.definitionJSON "skills", Plain skillFields binding
  sets : ∀ binding ∈ bindingsOf v.definitionJSON "skillsets", Plain skillSetFields binding
  catalog : ∀ p ∈ unmarshalProjection v.definitionJSON, ∀ b ∈ p.skills, b.name = skill →
    b.fromCatalog = true
  current : ∀ p ∈ unmarshalProjection v.definitionJSON, ∀ b ∈ p.skillSets,
    t.pins skill b = t.holds skill b

def NullFree (v : AgentVersionRow) : Prop :=
  ∀ field ∈ ["skills", "skillsets"], jsonMember v.definitionJSON field ≠ some .null

section Exact

variable {φ : Type} {F : FloatCodec φ} {t : SkillSetTables} {skill : String} {v : AgentVersionRow}

theorem elements_succeed {get} {zero : α}
    (part : FieldOf setProjection field get (intoSlice element zero))
    (member : field ∈ projectionFields) (accepted : DefinitionAccepted F v)
    (present : jsonMember v.definitionJSON field ≠ some .null) :
    ∃ items, jsonArrayElements (jsonMember v.definitionJSON field) = .ok items := by
  obtain ⟨raw, p, normalized⟩ := accepted
  obtain ⟨doc, _, stored, projected⟩ := normalizeAgentDefinition_eq_ok normalized
  rw [stored] at projected present ⊢
  obtain ⟨cells, done, _⟩ := Option.map_eq_some_iff.mp projected
  unfold jsonMember at present ⊢
  cases found : (asMap (some (Json.obj (marshalMembers F doc)))).lookup field with
  | none => exact ⟨[], rfl⟩
  | some json =>
    obtain ⟨_, _, z, u, _, _, read, _⟩ := intoMembers_reads part member found done
    cases json with
    | arr items => exact ⟨items, rfl⟩
    | null => exact absurd found present
    | _ => cases read

theorem binds_succeed (render : Json Decimal → String) (t : SkillSetTables) (skill : String)
    (accepted : DefinitionAccepted F v) (free : NullFree v) : (∃ b, bindsSkill render skill v = .ok b) ∧
      ∃ b, bindsSkillSet render t skill v = .ok b := by
  constructor
  · obtain ⟨items, elements⟩ := elements_succeed setProjection_fields.2.2.2.1 (by decide) accepted
      (free "skills" (by decide))
    rw [bindsSkill, elements]
    exact ⟨_, rfl⟩
  · obtain ⟨items, elements⟩ := elements_succeed setProjection_fields.2.2.2.2 (by decide) accepted
      (free "skillsets" (by decide))
    obtain ⟨raw, p, normalized⟩ := accepted
    obtain ⟨doc, normal, stored, _⟩ := normalizeAgentDefinition_eq_ok normalized
    have legacy : jsonMember v.definitionJSON "skillSets" = none := by
      rw [stored, jsonMember_marshal, normal.legacy, Option.map_none]
    rw [bindsSkillSet, legacy, Option.or_none, elements_coalesced, elements]
    exact ⟨_, rfl⟩

theorem bindsInVersion_eq_ok
    {direct viaSet : AgentVersionRow → Bool}
    (each : ∀ v ∈ versions, bindsSkill render skill v = .ok (direct v) ∧
      bindsSkillSet render t skill v = .ok (viaSet v)) :
    bindsInVersion render t skill versions = .ok (versions.any fun v => direct v || viaSet v) := by
  have both : (versions.any fun v => direct v || viaSet v) =
      (versions.any direct || versions.any viaSet) := by
    rw [Bool.eq_iff_iff]
    simp [and_or_left, exists_or]
  rw [bindsInVersion, anyM_eq_ok fun v member => (each v member).1, both]
  cases versions.any direct with
  | true => rfl
  | false => exact anyM_eq_ok fun v member => (each v member).2

theorem binds_version (render : Json Decimal → String) (accepted : DefinitionAccepted F v)
    (free : NullFree v) (transparent : Transparent t skill v) :
    bindsSkill render skill v = .ok (v.names skill) ∧
      bindsSkillSet render t skill v = .ok (v.pins t skill) := by
  obtain ⟨raw, p, normalized⟩ := accepted
  obtain ⟨doc, normal, stored, projected⟩ := normalizeAgentDefinition_eq_ok normalized
  obtain ⟨top, plainSkills, plainSets, catalog, current⟩ := transparent
  specialize catalog p projected
  specialize current p projected
  unfold NullFree at free
  rw [AgentVersionRow.names, AgentVersionRow.pins, projected, Option.any_some, Option.any_some]
  unfold bindsSkill bindsSkillSet
  rw [stored] at top plainSkills plainSets free projected ⊢
  obtain ⟨cells, done, rfl⟩ := Option.map_eq_some_iff.mp projected
  obtain ⟨skills, _, readSkills, listedSkills⟩ :=
    skills_read normal (top "skills" (by decide))
      (fun binding member => plainSkills binding member "version" (by decide)) done
  obtain ⟨sets, _, readSets, listedSets⟩ :=
    skillSets_read normal (top "skillsets" (by decide))
      (fun binding member => plainSets binding member "revision" (by decide)) done
  constructor
  · rw [listedSkills.elements (free "skills" (by decide)), Except.map, List.any_map]
    congr 1
    refine any_read readSkills fun binding b member read => ?_
    rw [Function.comp_apply, memberText_name read.name, trimSpace_of_agentIDRE read.valid]
    by_cases own : b.name = skill
    · simp [own, catalog b member own]
    · simp [own]
  · have legacy : jsonMember (.obj (marshalMembers F doc)) "skillSets" = none := by
      rw [jsonMember_marshal, normal.legacy, Option.map_none]
    rw [legacy, Option.or_none]
    dsimp only
    rw [elements_coalesced, listedSets.elements (free "skillsets" (by decide)), Except.map,
      List.any_map]
    congr 1
    refine any_read readSets fun binding b member read => ?_
    rw [Function.comp_apply, memberText_name read.name, current b member,
      SkillSetTables.holds, SkillSetTables.members, List.any_map, List.any_filter]
    simp only [Option.some.injEq, Function.comp_apply, eq_comm]

end Exact

/-- In every catalog that can be reached, if no document has a null for one of its lists, the query
succeeds; and where the versions of the live agents are transparent, it returns exactly the live
agents that bind the skill. -/
theorem skill_references_exact {φ : Type} (A : AgentCodec φ) (render : Json Decimal → String)
    (events : List CatalogEvent) (h : HubCatalog) (skill : String)
    (ran : run (HubCatalog.step A) {} events = some h)
    (free : ∀ v ∈ h.agents.versions, NullFree v) :
    (∃ refs, listSkillReferences render h.agents h.sets skill = .ok refs) ∧
      ((∀ row ∈ h.agents.agents, row.live = true → ∀ v ∈ h.agents.versionsOf row.agentID,
          Transparent h.sets skill v) →
        listSkillReferences render h.agents h.sets skill = .ok (h.referencing skill)) := by
  have accepted := recorded_run ran
  constructor
  · have each : ∀ row ∈ h.agents.agents.filter AgentRow.live, ∃ b,
        bindsInVersion render h.sets skill (h.agents.versionsOf row.agentID) = .ok b := by
      intro row _
      have succeed (v : AgentVersionRow) (member : v ∈ h.agents.versionsOf row.agentID) :=
        binds_succeed render h.sets skill (accepted v (List.mem_of_mem_filter member))
          (free v (List.mem_of_mem_filter member))
      exact ⟨_, bindsInVersion_eq_ok fun v member =>
        ⟨ok_answer (succeed v member).1, ok_answer (succeed v member).2⟩⟩
    rw [listSkillReferences, filterM_eq_ok fun row member => ok_answer (each row member)]
    exact ⟨_, rfl⟩
  · intro transparent
    have each : ∀ row ∈ h.agents.agents.filter AgentRow.live,
        bindsInVersion render h.sets skill (h.agents.versionsOf row.agentID) =
          .ok ((h.agents.versionsOf row.agentID).any fun v => v.references h.sets skill) := by
      intro row member
      obtain ⟨stored, live⟩ := List.mem_filter.mp member
      apply bindsInVersion_eq_ok
      intro v inside
      have version := List.mem_of_mem_filter inside
      exact binds_version render (accepted v version) (free v version)
        (transparent row stored live v inside)
    rw [listSkillReferences, filterM_eq_ok each]
    rfl

instance (v : AgentVersionRow) : Decidable (NullFree v) :=
  inferInstanceAs (Decidable (∀ _ ∈ _, _))

instance (t : SkillSetTables) (skill : String) (v : AgentVersionRow) :
    Decidable (Transparent t skill v) :=
  decidable_of_iff _ (transparent_iff t skill v).symm

def coreWorld : ResolverState where
  skillSets := (run SkillSetTables.commit {} (coreHistory.take 2)).getD {}
  getRelease := some fun _ version =>
    .ok { tag := version, commitSHA := "c1", treeSHA := "c1", manifestSHA256 := "c1" }

def createsAgent (index : Nat) (id : String) (members : List (String × Json Decimal)) :
    List CatalogEvent :=
  .agent (.call (.create { toPrincipal := launcher } { id := id, definition := sampleDefinition members })) ::
    List.replicate 4 (.agent (.advance index { world := coreWorld }))

def pinsCore : String × Json Decimal :=
  ("skillSets", .arr [.obj [("name", .str "core"), ("revision", .num ⟨1, 0⟩)]])

def pdfEvents : List CatalogEvent :=
  (coreHistory.take 2).map .skillSet ++
    createsAgent 0 "scout" [("skills", .arr [.obj [("name", .str "pdf"), ("version", .str "v1.0.0")]])] ++
    createsAgent 1 "mapper" [pinsCore] ++ createsAgent 2 "idler" []

theorem pdf_references_exact : ∃ h, run (HubCatalog.step plainAgents) {} pdfEvents = some h ∧
    listSkillReferences (fun _ => "") h.agents h.sets "pdf" = .ok (h.referencing "pdf") ∧
    (h.referencing "pdf").map (fun r => r.agentID) = ["scout", "mapper"] := by
  refine exists_run (P := fun h => (∀ v ∈ h.agents.versions, NullFree v) ∧
      (∀ row ∈ h.agents.agents, row.live = true →
        ∀ v ∈ h.agents.versionsOf row.agentID, Transparent h.sets "pdf" v) ∧
      (h.referencing "pdf").map (fun r => r.agentID) = ["scout", "mapper"]) (by decide +kernel)
    fun h ran facts => ?_
  obtain ⟨free, transparent, listed⟩ := facts
  exact ⟨(skill_references_exact plainAgents _ pdfEvents h "pdf" ran free).2 transparent, listed⟩

/-- A definition that is accepted with a null for its skills makes the query fail for every
skill; and an agent that pins a set is not found once the set has lost the member. -/
theorem skill_references_inexact :
    (∃ h, run (HubCatalog.step plainAgents) {} (createsAgent 0 "scout" [("skills", .null)]) =
        some h ∧
      ∀ render skill, listSkillReferences render h.agents h.sets skill =
        .error (.plain "cannot extract elements from a scalar")) ∧
    ∃ h, run (HubCatalog.step plainAgents) {} ((coreHistory.take 2).map .skillSet ++
        createsAgent 0 "mapper" [pinsCore] ++ [.skillSet (.unbind "core" "pdf")]) = some h ∧
      (h.referencing "pdf").map (fun r => r.agentID) = ["mapper"] ∧
      listSkillReferences (fun _ => "") h.agents h.sets "pdf" = .ok [] := by
  constructor
  · refine exists_run (P := fun h => (h.agents.agents.filter AgentRow.live).map (fun row
    =>
        (h.agents.versionsOf row.agentID).map fun v => jsonMember v.definitionJSON "skills") =
        [[some .null]]) (by decide +kernel) fun h _ facts render skill => ?_
    obtain ⟨row, others, agents, versions, rest⟩ := List.map_eq_cons_iff.mp facts
    obtain ⟨v, others, stored, null, rest⟩ := List.map_eq_cons_iff.mp versions
    have fails : bindsSkill render skill v = .error (.plain "cannot extract elements from a scalar") := by
      rw [bindsSkill, null]
      rfl
    have blocked : bindsInVersion render h.sets skill (h.agents.versionsOf row.agentID) =
        .error (.plain "cannot extract elements from a scalar") := by
      rw [bindsInVersion, stored, List.anyM, fails]
      rfl
    rw [listSkillReferences, agents, List.filterM, List.filterAuxM, blocked]
    rfl
  · decide +kernel

end AisphereHub
