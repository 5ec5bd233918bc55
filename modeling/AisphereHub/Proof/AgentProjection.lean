import AisphereHub.Proof.AgentPlan

/-! What is read from a normalised definition. Where the names that the checks look up have no other
spelling, each binding is the object that was checked: its name is the checked one up to white space,
and the revision of a SkillSet is the converted one. -/
namespace AisphereHub

open GoJson
open GoStrings (trimSpace)

theorem setTool_fields : FieldOf setTool "name" AgentToolBinding.name intoString ∧
    FieldOf setTool "approvalMode" AgentToolBinding.approvalMode intoString := by
  constructor
  all_goals
    intro name json x y done
    unfold setTool at done
    split at done
    all_goals first
      | obtain ⟨value, read, rfl⟩ := Option.map_eq_some_iff.mp done
        simp [FieldStep, read]
      | cases done
        simp_all [FieldStep]

theorem setSkill_fields : FieldOf setSkill "name" AgentSkillBinding.name intoString ∧
    FieldOf setSkill "version" AgentSkillBinding.version intoString := by
  constructor
  all_goals
    intro name json x y done
    unfold setSkill at done
    split at done
    all_goals first
      | obtain ⟨value, read, rfl⟩ := Option.map_eq_some_iff.mp done
        simp [FieldStep, read]
      | cases done
        simp_all [FieldStep]

theorem setSkillSet_fields : FieldOf setSkillSet "name" AgentSkillSetBinding.name intoString ∧
    FieldOf setSkillSet "revision" AgentSkillSetBinding.revision intoInt64 := by
  constructor
  all_goals
    intro name json x y done
    unfold setSkillSet at done
    split at done
    all_goals first
      | obtain ⟨value, read, rfl⟩ := Option.map_eq_some_iff.mp done
        simp [FieldStep, read]
      | cases done
        simp_all [FieldStep]

theorem setProjection_fields :
    FieldOf setProjection "entryPoint" ProjectionCells.entryPoint intoString ∧
      FieldOf setProjection "files" ProjectionCells.files intoStringMap ∧
      FieldOf setProjection "tools" ProjectionCells.tools (intoSlice intoTool { name := "" }) ∧
      FieldOf setProjection "skills" ProjectionCells.skills (intoSlice intoSkill {}) ∧
      FieldOf setProjection "skillsets" ProjectionCells.skillSets (intoSlice intoSkillSet {}) := by
  refine ⟨?_, ?_, ?_, ?_, ?_⟩
  all_goals
    intro name json x y done
    unfold setProjection at done
    split at done
    all_goals first
      | obtain ⟨value, read, rfl⟩ := Option.map_eq_some_iff.mp done
        simp [FieldStep, read]
      | cases done
        simp_all [FieldStep]

theorem isSpace_of_alphanumeric (letter : isAlphanumeric c = true) :
    GoStrings.isSpace c = false := by
  have range : (97 ≤ c.toNat ∧ c.toNat ≤ 122) ∨ (65 ≤ c.toNat ∧ c.toNat ≤ 90) ∨
      (48 ≤ c.toNat ∧ c.toNat ≤ 57) := by
    simp only [isAlphanumeric, Bool.or_eq_true, Bool.and_eq_true, decide_eq_true_eq, or_assoc] at letter
    exact letter
  simp only [GoStrings.isSpace, Bool.or_eq_false_iff, Bool.and_eq_false_iff, decide_eq_false_iff_not,
    beq_eq_false_iff_ne]
  omega

theorem isSpace_of_separator (mark : isSeparator c = true) : GoStrings.isSpace c = false := by
  simp only [isSeparator, Bool.or_eq_true, beq_iff_eq] at mark
  rcases mark with (rfl | rfl) | rfl <;> decide

theorem trimSpace_of_agentIDRE (valid : agentIDRE name = true) : trimSpace name = name := by
  have solid : ∀ c ∈ name.toList, GoStrings.isSpace c = false := by
    unfold agentIDRE at valid
    split at valid
    · cases valid
    rename_i first rest shape
    simp only [Bool.and_eq_true, List.all_eq_true, Bool.or_eq_true] at valid
    intro c member
    rw [shape] at member
    rcases List.mem_cons.mp member with rfl | later
    · exact isSpace_of_alphanumeric valid.1.1
    · rcases valid.1.2 c later with letter | mark
      · exact isSpace_of_alphanumeric letter
      · exact isSpace_of_separator mark
  exact GoStrings.trimSpace_of_solid solid

theorem le_name_of_foldName (folds : foldName key = foldName "name") : key ≤ "name" := by
  have runes : key.toList.map foldRune = ['N', 'A', 'M', 'E'] := folds
  obtain ⟨a, rest, shape, foldA, runes⟩ := List.map_eq_cons_iff.mp runes
  obtain ⟨b, rest, rfl, foldB, runes⟩ := List.map_eq_cons_iff.mp runes
  obtain ⟨c, rest, rfl, foldC, runes⟩ := List.map_eq_cons_iff.mp runes
  obtain ⟨d, rest, rfl, foldD, runes⟩ := List.map_eq_cons_iff.mp runes
  obtain rfl := List.map_eq_nil_iff.mp runes
  obtain rfl : key = String.ofList [a, b, c, d] := by rw [← shape, String.ofList_toList]
  rcases eq_of_foldRune 'n' foldA (by decide) (by decide) (by decide) with rfl | rfl <;>
    rcases eq_of_foldRune 'a' foldB (by decide) (by decide) (by decide) with rfl | rfl <;>
      rcases eq_of_foldRune 'm' foldC (by decide) (by decide) (by decide) with rfl | rfl <;>
        rcases eq_of_foldRune 'e' foldD (by decide) (by decide) (by decide) with rfl | rfl <;>
          decide

variable {φ : Type} {F : FloatCodec φ} {doc : AnyMap φ}

theorem intoString_str
    (read : intoString (.str text) current = some out) : out = text :=
  (Option.some.inj read).symm

variable {α β : Type} {zero : α} {field : String} {binding : AnyMap φ}

theorem binding_field {set get}
    {read : Into β} (part : FieldOf set field get read) (member : field ∈ fields)
    (ordered : Ordered binding) (only : OnlySpelling field (marshalMembers F binding))
    (done : intoStruct fields set (marshalAny F (.obj binding)) zero = some value) :
    match binding.lookup field with
    | none => get value = get zero
    | some json => read (marshalAny F json) (get zero) = some (get value) := by
  have found := intoMembers_field part member only (ordered_marshalMembers.mpr ordered) done
  rw [lookup_marshalMembers] at found
  cases held : binding.lookup field with
  | none | some json =>
    rw [held] at found
    exact found

variable {element : Into α} {cells : ProjectionCells}

def Decodes (F : FloatCodec φ) (doc : AnyMap φ) (cells : ProjectionCells) : Prop :=
  intoMembers projectionFields setProjection (marshalMembers F doc) {} = some cells

theorem projected_slice {get} (part : FieldOf setProjection field get (intoSlice element zero))
    (member : field ∈ projectionFields) (empty : get {} = {}) (ordered : Ordered doc)
    (only : OnlySpelling field (marshalMembers F doc)) (done : Decodes F doc cells) :
    (∃ items, doc.lookup field = some (.arr items) ∧
      List.Forall₂ (fun item value => element (marshalAny F item) zero = some value) items
        (get cells).values) ∨
    (doc.lookup field = none ∨ doc.lookup field = some .null) ∧ (get cells).values = [] := by
  have found := intoMembers_field part member only (ordered_marshalMembers.mpr ordered) done
  rw [lookup_marshalMembers, empty] at found
  cases value : doc.lookup field with
  | none =>
    rw [value] at found
    exact .inr ⟨.inl rfl, by rw [found]; rfl⟩
  | some json =>
    rw [value] at found
    cases json with
    | arr items =>
      refine .inl ⟨items, rfl, ?_⟩
      simp only [Option.map_some, marshalAny, marshalItems_eq] at found
      exact List.forall₂_map_left_iff.mp (intoSlice_values found)
    | null =>
      have cleared : get cells = {} := (Option.some.inj found).symm
      exact .inr ⟨.inr rfl, by rw [cleared]; rfl⟩
    | _ => simp [marshalAny, intoSlice] at found

def Listed (doc : AnyMap φ) (field : String) (bindings : List (AnyMap φ)) : Prop :=
  doc.lookup field = some (.arr (bindings.map .obj)) ∨
    (doc.lookup field = none ∨ doc.lookup field = some .null) ∧ bindings = []

variable {bindings : List (AnyMap φ)}

theorem Listed.objects (listed : Listed doc field bindings) :
    bindingsOf (.obj (marshalMembers F doc)) field = bindings.map (marshalMembers F) := by
  rcases listed with found | ⟨absent, rfl⟩
  · exact bindingsOf_arr found
  · refine bindingsOf_other fun items found => ?_
    rcases absent with none | null
    · cases none.symm.trans found
    · cases null.symm.trans found

structure ReadTool (binding : AnyMap φ) (tool : AgentToolBinding) : Prop where
  name : binding.lookup "name" = some (.str tool.name)
  valid : agentIDRE (trimSpace tool.name) = true
  mode : tool.approvalMode = "" ∨ ∃ mode : ApprovalMode, tool.approvalMode = mode.text

structure ReadSkill (binding : AnyMap φ) (skill : AgentSkillBinding) : Prop where
  name : binding.lookup "name" = some (.str skill.name)
  valid : agentIDRE skill.name = true
  version : trimSpace skill.version ≠ ""

structure ReadSkillSet (binding : AnyMap φ) (set : AgentSkillSetBinding) : Prop where
  name : binding.lookup "name" = some (.str set.name)
  valid : agentIDRE set.name = true
  revision : binding.lookup "revision" = some (.num (.int set.revision))

theorem name_of_valid (valid : agentIDRE (entryName binding) = true) :
    ∃ text, binding.lookup "name" = some (.str text) ∧ entryName binding = trimSpace text := by
  have invalid : agentIDRE (trimSpace "") = false := by decide
  unfold entryName at valid ⊢
  cases found : binding.lookup "name" with
  | none =>
    rw [found, asString, invalid] at valid
    · cases valid
    · simp
  | some json =>
    cases json with
    | str text => exact ⟨text, rfl, rfl⟩
    | _ =>
      rw [found, asString, invalid] at valid
      · cases valid
      · simp

variable {tool : AgentToolBinding}

/-- Other spellings of `name` come before it, so the one that was checked is read. -/
theorem binding_name {set get} (part : FieldOf set "name" get intoString)
    (member : "name" ∈ fields) (ordered : Ordered binding)
    (named : binding.lookup "name" = some (.str text))
    (done : intoStruct fields set (marshalAny F (.obj binding)) zero = some value) :
    get value = text := by
  have stored : (marshalMembers F binding).lookup "name" = some (.str text) := by
    rw [lookup_marshalMembers, named, Option.map_some, marshalAny]
  obtain ⟨_, read⟩ := intoMembers_last part member (fun _ => le_name_of_foldName)
    (ordered_marshalMembers.mpr ordered) stored done
  exact intoString_str read

theorem readTool_of_passes (ordered : Ordered binding)
    (only : OnlySpelling "approvalMode" (marshalMembers F binding))
    (passes : EntryPasses checkTool binding binding)
    (done : intoTool (marshalAny F (.obj binding)) { name := "" } = some tool) :
    ReadTool binding tool := by
  obtain ⟨text, named, same⟩ := name_of_valid passes.1
  have name : tool.name = text := binding_name setTool_fields.1 (by decide) ordered named done
  have readMode := binding_field setTool_fields.2 (by decide : "approvalMode" ∈ toolFields) ordered
    only done
  refine ⟨by rw [named, name], by rw [name, ← same]; exact passes.1, ?_⟩
  rcases checkTool_eq_ok.mp passes.2 with ⟨none, _⟩ | ⟨_, mode, _, _, rewritten⟩
  · rw [none] at readMode
    exact .inl readMode
  · have stored : binding.lookup "approvalMode" = some (.str mode.text) := by
      rw [rewritten, lookup_assign, if_pos rfl]
    rw [stored] at readMode
    exact .inr ⟨mode, intoString_str readMode⟩

theorem readSkill_of_passes (ordered : Ordered binding)
    (only : OnlySpelling "version" (marshalMembers F binding))
    (passes : EntryPasses checkSkill binding binding)
    (done : intoSkill (marshalAny F (.obj binding)) {} = some skill) : ReadSkill binding skill := by
  have lookup := lookup_checkedSkill passes.2
  obtain ⟨nonblank, _⟩ := checkSkill_eq_ok.mp passes.2
  have named : binding.lookup "name" = some (.str (entryName binding)) := by
    rw [lookup, if_neg (by decide), if_neg (by decide), if_pos rfl]
  have versioned : binding.lookup "version" =
      some (.str (trimSpace (asString (binding.lookup "version")))) := by
    have stored := lookup "version"
    rwa [if_neg (by decide), if_pos rfl] at stored
  have readVersion := binding_field setSkill_fields.2
    (by decide : "version" ∈ skillFields) ordered only done
  rw [versioned] at readVersion
  have name : skill.name = entryName binding :=
    binding_name setSkill_fields.1 (by decide) ordered named done
  have version : skill.version = trimSpace (asString (binding.lookup "version")) :=
    intoString_str readVersion
  refine ⟨by rw [name, named], by rw [name]; exact passes.1, ?_⟩
  rwa [version, GoStrings.trimSpace_trimSpace]

theorem readSkillSet_of_passes {set}
    (ordered : Ordered binding) (only : OnlySpelling "revision" (marshalMembers F binding))
    (passes : EntryPasses (checkSkillSet F) source binding)
    (done : intoSkillSet (marshalAny F (.obj binding)) {} = some set) :
    ReadSkillSet binding set ∧ set.name = entryName source := by
  obtain ⟨revision, _, _, shape⟩ := checkSkillSet_eq_ok.mp passes.2
  have lookup := lookup_checkedSkillSet F source (entryName source) revision
  rw [← shape] at lookup
  have named : binding.lookup "name" = some (.str (entryName source)) := by
    rw [lookup, if_neg (by decide), if_pos rfl]
  have revised : binding.lookup "revision" = some (.num (.int (F.int64 revision))) := by
    rw [lookup, if_pos rfl]
  have readRevision := binding_field setSkillSet_fields.2
    (by decide : "revision" ∈ skillSetFields) ordered only done
  rw [revised] at readRevision
  have name : set.name = entryName source :=
    binding_name setSkillSet_fields.1 (by decide) ordered named done
  have number : set.revision = F.int64 revision := by
    simp only [marshalAny, marshalNumber, intoInt64, F.int64_range revision, and_self, if_true,
      Option.some.injEq] at readRevision
    exact readRevision.symm
  exact ⟨⟨by rw [name, named], by rw [name]; exact passes.1, by rw [number, revised]⟩, name⟩

theorem binding_ordered (sound : SoundItems P (bindings.map .obj))
    (member : binding ∈ bindings) : Ordered binding :=
  (soundItems_iff.mp sound (.obj binding) (List.mem_map_of_mem member)).1

theorem passes_of_fixed
    (fixed : normalizeEntries field noun invalid duplicate check items [] = .ok items) :
    ∃ bindings : List (AnyMap φ), items = bindings.map .obj ∧ (bindings.map entryName).Nodup ∧
      ∀ binding ∈ bindings, EntryPasses check binding binding := by
  obtain ⟨bindings, results, rfl, same, passes, distinct, -⟩ := normalizeEntries_eq_ok.mp fixed
  obtain rfl : bindings = results := List.map_injective_iff.mpr (fun _ _ => Json.obj.inj) same
  refine ⟨bindings, rfl, distinct, ?_⟩
  exact List.forall₂_same.mp passes

theorem read_bindings
    (each : ∀ binding ∈ bindings, ∀ value, element (marshalAny F (.obj binding)) zero = some value →
      Read binding value)
    (read : List.Forall₂ (fun item value => element (marshalAny F item) zero = some value)
      (bindings.map .obj) values) : List.Forall₂ Read bindings values := by
  have direct := List.forall₂_map_left_iff.mp read
  clear read
  induction direct with
  | nil => exact .nil
  | cons first _ ih =>
    rw [List.forall_mem_cons] at each
    exact .cons (each.1 _ first) (ih each.2)

theorem forall₂_exists_left {as : List α}
    (each : List.Forall₂ R as bs) {b : β} (member : b ∈ bs) : ∃ a ∈ as, R a b := by
  induction each with
  | nil => cases member
  | cons first _ ih =>
    rcases List.mem_cons.mp member with rfl | later
    · exact ⟨_, List.mem_cons_self, first⟩
    · obtain ⟨a, inside, related⟩ := ih later
      exact ⟨a, List.mem_cons_of_mem _ inside, related⟩

def checkedFields : List String := ["entryPoint", "files", "tools", "skills", "skillsets"]

/-- The names that the checks look up have no other spelling. -/
@[mk_iff] structure Spelled (definition : Json Decimal) : Prop where
  top : Plain checkedFields (asMap (some definition))
  tools : ∀ binding ∈ bindingsOf definition "tools", OnlySpelling "approvalMode" binding
  skills : ∀ binding ∈ bindingsOf definition "skills", OnlySpelling "version" binding
  sets : ∀ binding ∈ bindingsOf definition "skillsets", OnlySpelling "revision" binding

/-- A slice of the projection and the objects it is read from, for a loop that leaves its own
output alone. -/
theorem slice_read {get}
    (part : FieldOf setProjection field get (intoSlice element zero))
    (member : field ∈ projectionFields) (empty : get {} = {}) (plainField : field ≠ "skillsets")
    (reads : ∀ binding value, Ordered binding → OnlySpelling checked (marshalMembers F binding) →
      EntryPasses check binding binding →
      element (marshalAny F (.obj binding)) zero = some value → Read binding value)
    (normal : NormalForm F doc) (fixed : ∀ items, doc.lookup field = some (.arr items) →
      normalizeEntries field noun invalid duplicate check items [] = .ok items)
    (only : OnlySpelling field (marshalMembers F doc))
    (spelled : ∀ binding ∈ bindingsOf (.obj (marshalMembers F doc)) field, OnlySpelling checked binding)
    (done : Decodes F doc cells) : ∃ bindings : List (AnyMap φ), (bindings.map entryName).Nodup ∧
      List.Forall₂ Read bindings (get cells).values ∧ Listed doc field bindings := by
  rcases projected_slice part member empty normal.ordered only done with
    ⟨items, found, read⟩ | ⟨absent, none⟩
  · obtain ⟨bindings, rfl, distinct, passes⟩ := passes_of_fixed (fixed items found)
    have sound : SoundItems Number.isFloat (bindings.map Json.obj) :=
      normal.sound field _ found (fun same => absurd same plainField)
    refine ⟨bindings, distinct, read_bindings ?_ read, .inl found⟩
    intro binding inside value readValue
    refine reads binding value (binding_ordered sound inside) (spelled _ ?_)
      (passes binding inside) readValue
    rw [bindingsOf_arr found]
    exact List.mem_map_of_mem inside
  · exact ⟨[], List.nodup_nil, by rw [none]; exact .nil, .inr ⟨absent, rfl⟩⟩

theorem skills_read (normal : NormalForm F doc)
    (only : OnlySpelling "skills" (marshalMembers F doc))
    (spelled : ∀ binding ∈ bindingsOf (.obj (marshalMembers F doc)) "skills",
      OnlySpelling "version" binding)
    (done : Decodes F doc cells) : ∃ bindings : List (AnyMap φ), (bindings.map entryName).Nodup ∧
      List.Forall₂ ReadSkill bindings cells.skills.values ∧ Listed doc "skills" bindings :=
  slice_read setProjection_fields.2.2.2.1 (by decide) rfl (by decide) (fun _ _ => readSkill_of_passes) normal
    normal.skills only spelled done

theorem skillSets_read (normal : NormalForm F doc)
    (only : OnlySpelling "skillsets" (marshalMembers F doc))
    (spelled : ∀ binding ∈ bindingsOf (.obj (marshalMembers F doc)) "skillsets",
      OnlySpelling "revision" binding) (done : Decodes F doc cells) :
    ∃ bindings : List (AnyMap φ), (cells.skillSets.values.map AgentSkillSetBinding.name).Nodup ∧
      List.Forall₂ ReadSkillSet bindings cells.skillSets.values ∧ Listed doc "skillsets" bindings := by
  rcases projected_slice setProjection_fields.2.2.2.2 (by decide) rfl normal.ordered only done with
    ⟨items, found, read⟩ | ⟨absent, empty⟩
  · obtain ⟨sources, sound, normalized⟩ := normal.sets items found
    have readable := normalizeEntries_sound checkSkillSet_sound sound normalized
    obtain ⟨bindings, results, -, rfl, passes, distinct, -⟩ := normalizeEntries_eq_ok.mp normalized
    have plain : ∀ result ∈ results, OnlySpelling "revision" (marshalMembers F result) := by
      intro result member
      apply spelled
      rw [bindingsOf_arr found]
      exact List.mem_map_of_mem member
    have direct := List.forall₂_map_left_iff.mp read
    have both : List.Forall₂ ReadSkillSet results cells.skillSets.values ∧
        cells.skillSets.values.map AgentSkillSetBinding.name = bindings.map entryName := by
      clear distinct normalized read found
      generalize cells.skillSets.values = values at direct
      induction passes generalizing values with
      | nil =>
        cases direct
        exact ⟨.nil, rfl⟩
      | cons first _ ih =>
        cases direct with
        | cons readFirst direct =>
          rw [List.forall_mem_cons] at plain
          obtain ⟨readSet, named⟩ := readSkillSet_of_passes readable.1.1 plain.1 first readFirst
          obtain ⟨rest, names⟩ := ih readable.2 plain.2 _ direct
          exact ⟨.cons readSet rest, by rw [List.map_cons, List.map_cons, named, names]⟩
    exact ⟨results, both.2 ▸ distinct, both.1, .inl found⟩
  · exact ⟨[], by rw [empty]; exact List.nodup_nil, by rw [empty]; exact .nil, .inr ⟨absent, rfl⟩⟩

theorem keys_intoStringMembers (done : intoStringMembers members m = some out) :
    key ∈ out.map Prod.fst ↔ key ∈ m.map Prod.fst ∨ key ∈ members.map Prod.fst := by
  induction members generalizing m with
  | nil =>
    cases done
    simp
  | cons member rest ih =>
    obtain ⟨text, _, done⟩ := Option.bind_eq_some_iff.mp done
    rw [ih done, mem_keys_assign, List.map_cons, List.mem_cons]
    exact or_assoc.trans or_left_comm

theorem checkEntryPoint_eq_ok (passed : checkEntryPoint doc = .ok ()) :
    ∃ text files, doc.lookup "entryPoint" = some (.str text) ∧ doc.lookup "files" = some (.obj files) ∧
      text ∈ files.map Prod.fst := by
  unfold checkEntryPoint at passed
  dsimp only at passed
  split_ifs at passed with blank
  split at passed
  · rename_i file files found
    split_ifs at passed with present
    have entry : doc.lookup "entryPoint" = some (.str (asString (doc.lookup "entryPoint"))) := by
      cases value : doc.lookup "entryPoint" with
      | none =>
        rw [value] at blank
        exact absurd (GoStrings.trimSpace_of_blank (by simp [GoStrings.Blank, asString])) blank
      | some json =>
        cases json with
        | str text => rfl
        | _ =>
          rw [value] at blank
          exact absurd (GoStrings.trimSpace_of_blank (by simp [GoStrings.Blank, asString])) blank
    refine ⟨_, file :: files, entry, found, ?_⟩
    by_contra absent
    rw [lookup_eq_none.mpr absent] at present
    cases present
  · cases passed

theorem entryPoint_read (normal : NormalForm F doc)
    (spelled : Spelled (.obj (marshalMembers F doc))) (done : Decodes F doc cells) :
    cells.entryPoint ∈ cells.files.map Prod.fst := by
  obtain ⟨text, files, entry, stored, present⟩ := checkEntryPoint_eq_ok normal.entry
  have ordered := ordered_marshalMembers (F := F).mpr normal.ordered
  have readEntry := intoMembers_field setProjection_fields.1 (by decide)
    (spelled.top "entryPoint" (by decide)) ordered done
  have readFiles := intoMembers_field setProjection_fields.2.1 (by decide) (spelled.top "files" (by decide))
    ordered done
  simp only [asMap, lookup_marshalMembers, entry, stored, Option.map_some, marshalAny] at readEntry readFiles
  rw [intoString_str readEntry, keys_intoStringMembers readFiles, keys_marshalMembers]
  exact .inr present

/-- The bindings of a projection are what the checks of the normalisation say. -/
@[mk_iff] structure ProjectionCovered (p : AgentDefinitionProjection) : Prop where
  tools : (p.tools.map AgentToolBinding.name).Nodup
  tool : ∀ t ∈ p.tools, agentIDRE t.name = true ∧ t.approvalMode ∈ ["", "always", "per_run", "disabled"]
  skills : (p.skills.map AgentSkillBinding.name).Nodup
  skill : ∀ s ∈ p.skills, agentIDRE s.name = true ∧ trimSpace s.version ≠ ""
  skillSets : (p.skillSets.map AgentSkillSetBinding.name).Nodup
  skillSet : ∀ s ∈ p.skillSets, agentIDRE s.name = true ∧ 1 ≤ s.revision
  entry : p.entryPoint ∈ p.files.map Prod.fst

instance (p : AgentDefinitionProjection) : Decidable (ProjectionCovered p) :=
  decidable_of_iff _ (projectionCovered_iff p).symm

def unpaddedName (binding : List (String × Json Decimal)) : Bool :=
  match binding.lookup "name" with
  | some (.str name) => trimSpace name = name
  | _ => false

def Unpadded (definition : Json Decimal) : Prop :=
  ∀ binding ∈ bindingsOf definition "tools", unpaddedName binding = true

theorem ReadTool.unpadded_iff (read : ReadTool binding tool) :
    unpaddedName (marshalMembers F binding) = true ↔ trimSpace tool.name = tool.name := by
  simp [unpaddedName, lookup_marshalMembers, read.name, marshalAny]

theorem names_read {values : List α}
    (each : List.Forall₂ (fun binding value => entryName binding = name value) bindings values) :
    values.map name = bindings.map entryName := by
  rw [eq_comm, ← List.forall₂_eq_eq_eq, List.forall₂_map_left_iff, List.forall₂_map_right_iff]
  exact each

instance (field : String) (members : List (String × Json Decimal)) :
    Decidable (OnlySpelling field members) :=
  inferInstanceAs (Decidable (∀ _ ∈ _, _ → _))

instance (fields : List String) (members : List (String × Json Decimal)) :
    Decidable (Plain fields members) :=
  inferInstanceAs (Decidable (∀ _ ∈ _, _))

instance (definition : Json Decimal) : Decidable (Unpadded definition) :=
  inferInstanceAs (Decidable (∀ _ ∈ _, _))

instance (definition : Json Decimal) : Decidable (Spelled definition) :=
  decidable_of_iff _ (spelled_iff definition).symm

def EscapesChecks (members : List (String × Json Decimal)) : Prop :=
  ∃ canonical projection, normalizeAgentDefinition tenths (sampleDefinition members) =
    .ok (canonical, projection) ∧ ¬ ProjectionCovered projection

theorem escapesChecks_of_eval
    (fails : (normalizeAgentDefinition tenths (sampleDefinition members)).map
      (fun out => decide (¬ ProjectionCovered out.2)) = .ok true) : EscapesChecks members := by
  obtain ⟨⟨canonical, projection⟩, accepted, facts⟩ := map_eq_ok fails
  exact ⟨canonical, projection, accepted, of_decide_eq_true facts⟩

end AisphereHub
