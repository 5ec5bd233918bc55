import AisphereHub.Proof.AgentNormalization
import AisphereHub.Proof.ToolConsent
import AisphereHub.Server.AgentRun

/-! A saved version of an agent, planned again for a run. -/
namespace AisphereHub

open GoJson
open GoStrings (trimSpace)

section Monads

variable {ε α β γ : Type} {f : α → Except ε β}

theorem isOk_bind :
    (result >>= f).isOk = true ↔ ∃ x, result = .ok x ∧ (f x).isOk = true := by
  cases result with
  | error e => simp [bind, Except.bind, Except.isOk, Except.toBool]
  | ok x => simp [bind, Except.bind]

variable {items : List α}

theorem isOk_mapM : (items.mapM f).isOk = true ↔ ∀ item ∈ items, (f item).isOk = true := by
  induction items with
  | nil => simp [Except.isOk, Except.toBool, pure, Except.pure]
  | cons item rest ih =>
    rw [List.mapM_cons, isOk_bind, List.forall_mem_cons, ← ih]
    constructor
    · rintro ⟨value, first, later⟩
      obtain ⟨values, others, _⟩ := isOk_bind.mp later
      exact ⟨by rw [first]; rfl, by rw [others]; rfl⟩
    · rintro ⟨first, later⟩
      obtain ⟨value, first⟩ := exists_of_isOk first
      obtain ⟨values, others⟩ := exists_of_isOk later
      exact ⟨value, first, isOk_bind.mpr ⟨values, others, rfl⟩⟩

theorem foldlM_mono {f g : β → α → Except ε β}
    (mono : ∀ acc item out, f acc item = .ok out → g acc item = .ok out)
    (done : items.foldlM f acc = .ok out) : items.foldlM g acc = .ok out := by
  induction items generalizing acc with
  | nil => exact done
  | cons item rest ih =>
    obtain ⟨next, first, later⟩ := bind_eq_ok.mp done
    exact bind_eq_ok.mpr ⟨next, mono acc item next first, ih later⟩

theorem mapM_eq_ok :
    items.mapM f = .ok outs ↔ List.Forall₂ (fun item out => f item = .ok out) items outs := by
  induction items generalizing outs with
  | nil =>
    simp [pure, Except.pure, eq_comm]
  | cons item rest ih =>
    rw [List.mapM_cons, List.forall₂_cons_left_iff]
    constructor
    · intro done
      obtain ⟨value, first, later⟩ := bind_eq_ok.mp done
      obtain ⟨values, others, same⟩ := bind_eq_ok.mp later
      exact ⟨value, values, first, ih.mp others, (Except.ok.inj same).symm⟩
    · rintro ⟨value, values, first, others, rfl⟩
      exact bind_eq_ok.mpr ⟨value, first, bind_eq_ok.mpr ⟨values, ih.mpr others, rfl⟩⟩

end Monads

section Skills

variable {w : ResolverState} {principal : Principal}

theorem checkSkillLifecycle_mono
    (done : checkSkillLifecycle w false name = .ok out) : checkSkillLifecycle w true name = .ok out := by
  unfold checkSkillLifecycle at done ⊢
  split at done
  · exact done
  · obtain ⟨status, found, valid⟩ := bind_eq_ok.mp done
    refine bind_eq_ok.mpr ⟨status, found, ?_⟩
    cases status with
    | active => rfl
    | _ => cases valid

theorem resolveSkillSnapshotEntry_mono
    (done : resolveSkillSnapshotEntry w principal false name version source fromSet = .ok entry) :
    resolveSkillSnapshotEntry w principal true name version source fromSet = .ok entry := by
  unfold resolveSkillSnapshotEntry at done ⊢
  dsimp only at done ⊢
  split_ifs at done ⊢
  · exact done
  all_goals
    obtain ⟨_, visible, done⟩ := bind_eq_ok.mp done
    obtain ⟨_, lifecycle, done⟩ := bind_eq_ok.mp done
    exact bind_eq_ok.mpr ⟨_, visible, bind_eq_ok.mpr ⟨_, checkSkillLifecycle_mono lifecycle, done⟩⟩

theorem addSkillSet_mono (acc : List SkillSnapshotEntry) (binding : AgentSkillSetBinding)
    (out : List SkillSnapshotEntry) (done : addSkillSet w principal false acc binding = .ok out) :
    addSkillSet w principal true acc binding = .ok out := by
  obtain ⟨entries, resolved, done⟩ := bind_eq_ok.mp done
  obtain ⟨members, loaded, resolved⟩ := bind_eq_ok.mp resolved
  refine bind_eq_ok.mpr ⟨entries, bind_eq_ok.mpr ⟨members, loaded, ?_⟩, done⟩
  refine mapM_eq_ok.mpr ((mapM_eq_ok.mp resolved).imp fun member entry done => ?_)
  obtain ⟨resolved, first, done⟩ := bind_eq_ok.mp done
  exact bind_eq_ok.mpr ⟨resolved, resolveSkillSnapshotEntry_mono first, done⟩

theorem resolveAgentSkillSnapshots_mono
    (done : resolveAgentSkillSnapshots w principal false skills sets = .ok out) :
    resolveAgentSkillSnapshots w principal true skills sets = .ok out := by
  obtain ⟨direct, first, later⟩ := bind_eq_ok.mp done
  refine bind_eq_ok.mpr ⟨direct, foldlM_mono (fun acc binding out done => ?_) first,
    foldlM_mono addSkillSet_mono later⟩
  obtain ⟨entry, resolved, done⟩ := bind_eq_ok.mp done
  exact bind_eq_ok.mpr ⟨entry, resolveSkillSnapshotEntry_mono resolved, done⟩

end Skills

def bindingsOf (definition : Json Decimal) (field : String) : List (List (String × Json Decimal)) :=
  (asSlice ((asMap (some definition)).lookup field)).map fun item => asMap (some item)

def hasPositiveRevision (binding : List (String × Json Decimal)) : Bool :=
  match binding.lookup "revision" with
  | some (.num n) => 0 < n.mantissa
  | _ => false

def PositiveRevisions (definition : Json Decimal) : Prop :=
  ∀ binding ∈ bindingsOf definition "skillsets", hasPositiveRevision binding = true

instance (definition : Json Decimal) : Decidable (PositiveRevisions definition) :=
  inferInstanceAs (Decidable (∀ _ ∈ _, _))

section Plan

variable {φ : Type} {F : FloatCodec φ} {w : ResolverState} {principal : Principal} {doc : AnyMap φ}

theorem bindingsOf_arr {bindings : List (AnyMap φ)}
    (found : doc.lookup field = some (.arr (bindings.map .obj))) :
    bindingsOf (.obj (marshalMembers F doc)) field = bindings.map (marshalMembers F) := by
  have stored : (marshalMembers F doc).lookup field =
      some (.arr ((bindings.map .obj).map (marshalAny F))) := by
    rw [lookup_marshalMembers, found, Option.map_some, marshalAny, marshalItems_eq]
  simp only [bindingsOf, asMap, stored, asSlice, List.map_map]
  refine List.map_congr_left fun binding _ => ?_
  simp only [Function.comp_apply, marshalAny]

theorem bindingsOf_other (other : ∀ items, doc.lookup field ≠ some (.arr items)) :
    bindingsOf (.obj (marshalMembers F doc)) field = [] := by
  simp only [bindingsOf, asMap, lookup_marshalMembers]
  cases found : doc.lookup field with
  | none => rfl
  | some value =>
    cases value with
    | arr items => exact absurd found (other items)
    | _ => simp [marshalAny, asSlice]

theorem hasPositiveRevision_marshal
    (pinned : binding.lookup "revision" = some (.num (.int revision))) :
    hasPositiveRevision (marshalMembers F binding) = true ↔ 0 < revision := by
  simp [hasPositiveRevision, lookup_marshalMembers, pinned, marshalAny, marshalNumber]

theorem CheckedSets.bindings (checked : CheckedSets F items) :
    ∃ results : List (AnyMap φ), items = results.map .obj ∧
      ∀ result ∈ results, ∃ revision, result.lookup "revision" = some (.num (.int revision)) := by
  obtain ⟨sources, _, done⟩ := checked
  obtain ⟨bindings, results, -, rfl, passes, -, -⟩ := normalizeEntries_eq_ok.mp done
  refine ⟨results, rfl, ?_⟩
  clear done
  induction passes with
  | nil => simp
  | cons first _ ih =>
    rw [List.forall_mem_cons]
    refine ⟨?_, ih⟩
    obtain ⟨revision, _, _, rfl⟩ := checkSkillSet_eq_ok.mp first.2
    exact ⟨F.int64 revision, by rw [lookup_checkedSkillSet, if_pos rfl]⟩

theorem positiveRevisions_iff (normal : NormalForm F doc) :
    PositiveRevisions (.obj (marshalMembers F doc)) ↔ PositiveDocument doc := by
  by_cases array : ∃ items, doc.lookup "skillsets" = some (.arr items)
  · obtain ⟨items, found⟩ := array
    obtain ⟨results, rfl, pinned⟩ := (normal.sets items found).bindings
    rw [PositiveRevisions, bindingsOf_arr found]
    constructor
    · intro positive others found' binding member revision number
      cases found.symm.trans found'
      obtain ⟨result, inside, same⟩ := List.mem_map.mp member
      cases same
      exact (hasPositiveRevision_marshal number).mp (positive _ (List.mem_map_of_mem inside))
    · intro positive binding member
      obtain ⟨result, inside, rfl⟩ := List.mem_map.mp member
      obtain ⟨revision, number⟩ := pinned result inside
      exact (hasPositiveRevision_marshal number).mpr
        (positive _ found result (List.mem_map_of_mem inside) revision number)
  · have other : ∀ items, doc.lookup "skillsets" ≠ some (.arr items) :=
      fun items found => array ⟨items, found⟩
    rw [PositiveRevisions, bindingsOf_other other]
    exact ⟨fun _ items found => absurd found (other items), fun _ => by simp⟩

/-- A version that saving has accepted is planned, for the same principal in the same state
and with any request, exactly when the tools it binds as disabled resolve as well and its
SkillSets are stored with positive revisions. -/
theorem saved_version_planned_iff (F : FloatCodec φ) (w : ResolverState) (principal : Principal)
    (raw : RawMessage) (canonical : Json Decimal) (projection : AgentDefinitionProjection)
    (normalized : normalizeAgentDefinition F raw = .ok (canonical, projection))
    (validated : (validateToolBindings F w principal projection).isOk = true) (agent : AgentRow)
    (version : AgentVersionRow) (stored : version.definitionJSON = canonical)
    (request : AgentRunRequest) :
    (buildRunPlan F w principal agent version request).isOk = true ↔
      (∀ b ∈ projection.tools, normalizeApprovalMode b.approvalMode = some .disabled →
        (resolveBoundTool F w principal b).isOk = true) ∧ PositiveRevisions canonical := by
  obtain ⟨doc, normal, rfl, found⟩ := normalizeAgentDefinition_eq_ok normalized
  obtain ⟨accepts, needs⟩ := normalizeAgentDefinition_again normal found
  obtain ⟨model, resolvedModel, validated⟩ := isOk_bind.mp validated
  obtain ⟨skills, resolvedSkills, validated⟩ := isOk_bind.mp validated
  replace resolvedSkills := resolveAgentSkillSnapshots_mono resolvedSkills
  have enabled : ∀ b ∈ projection.tools, normalizeApprovalMode b.approvalMode ≠ some .disabled →
      (resolveBoundTool F w principal b).isOk = true := fun b member enabled =>
    isOk_mapM.mp validated b (List.mem_filter.mpr ⟨member, decide_eq_true enabled⟩)
  rw [positiveRevisions_iff normal, buildRunPlan, stored, isOk_bind]
  constructor
  · rintro ⟨⟨again, reread⟩, renormalized, planned⟩
    have positive : PositiveDocument doc := needs (by rw [renormalized]; rfl)
    refine ⟨?_, positive⟩
    cases (accepts positive).symm.trans renormalized
    obtain ⟨_, _, planned⟩ := isOk_bind.mp planned
    obtain ⟨_, _, planned⟩ := isOk_bind.mp planned
    obtain ⟨tools, resolved, _⟩ := isOk_bind.mp planned
    intro b member _
    exact isOk_mapM.mp (by rw [resolved]; rfl) b member
  · rintro ⟨disabled, positive⟩
    refine ⟨_, accepts positive, ?_⟩
    refine isOk_bind.mpr ⟨skills, resolvedSkills, isOk_bind.mpr ⟨model, resolvedModel, ?_⟩⟩
    have all : (projection.tools.mapM (resolveBoundTool F w principal)).isOk = true := by
      rw [isOk_mapM]
      intro b member
      by_cases off : normalizeApprovalMode b.approvalMode = some .disabled
      · exact disabled b member off
      · exact enabled b member off
    obtain ⟨tools, resolved⟩ := exists_of_isOk all
    exact isOk_bind.mpr ⟨tools, resolved, rfl⟩

end Plan

def sampleDefinition (members : List (String × Json Decimal)) : RawMessage :=
  .value (.obj ([("entryPoint", .str "main.md"), ("files", .obj [("main.md", .str "hello")])] ++ members))

def launcher : Principal := { subjectType := "user", subjectID := "ada", orgID := "acme" }

/-- A tool that is bound as disabled and resolves. -/
theorem disabled_tool_planned : ∃ canonical projection,
    normalizeAgentDefinition tenths (sampleDefinition [("tools", .arr
      [.obj [("name", .str "workspace.read"), ("approvalMode", .str "Disabled")]])]) =
      .ok (canonical, projection) ∧
    (validateToolBindings tenths { tools := seeded "workspace.read" [] } launcher projection).isOk = true ∧
    (buildRunPlan tenths { tools := seeded "workspace.read" [] } launcher { agentID := "a" }
      ⟨"a", "v1", "", "", "", "", canonical, 0⟩ {}).isOk = true := by
  refine exists_ok_pair (P := fun canonical projection =>
      (validateToolBindings tenths { tools := seeded "workspace.read" [] } launcher
        projection).isOk = true ∧
      (∀ b ∈ projection.tools,
        (resolveBoundTool tenths { tools := seeded "workspace.read" [] } launcher b).isOk = true) ∧
      PositiveRevisions canonical) (by decide +kernel)
    fun canonical projection normalized facts => ?_
  obtain ⟨validated, resolves, positive⟩ := facts
  exact ⟨validated, (saved_version_planned_iff tenths _ launcher _ canonical projection normalized
    validated _ _ rfl {}).mpr ⟨fun b member _ => resolves b member, positive⟩⟩

/-- A tool that is bound as disabled and does not exist: saving passes it over, planning
fails on it. -/
theorem disabled_tool_blocks_plan : ∃ canonical projection,
    normalizeAgentDefinition tenths (sampleDefinition [("tools", .arr
      [.obj [("name", .str "ghost"), ("approvalMode", .str "disabled")]])]) =
      .ok (canonical, projection) ∧
    (validateToolBindings tenths {} launcher projection).isOk = true ∧
    (buildRunPlan tenths {} launcher { agentID := "a" } ⟨"a", "v1", "", "", "", "", canonical, 0⟩
      {}).isOk = false := by
  decide +kernel

end AisphereHub
