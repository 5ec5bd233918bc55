import AisphereHub.Server.AgentDefinition

/-! What `normalizeAgentDefinition` makes of a document, and that it leaves its own output
alone. Revisions of SkillSets are the exception: they are written as integers and read back as
floats. -/
namespace AisphereHub

open GoJson
open GoStrings (toLower trimSpace)

section Normalization

variable {φ : Type} {F : FloatCodec φ}

def entryName (binding : AnyMap φ) : String := trimSpace (asString (binding.lookup "name"))

/-- A binding that passes the checks of its loop and what they leave of it. -/
def EntryPasses (check : EntryCheck φ) (binding result : AnyMap φ) : Prop :=
  agentIDRE (entryName binding) = true ∧ check binding (entryName binding) = .ok result

variable {field noun : String} {invalid duplicate : ErrorCode} {check : EntryCheck φ}
  {items outs : List (Json (Number φ))} {seen : List String}

theorem normalizeEntries_eq_ok :
    normalizeEntries field noun invalid duplicate check items seen = .ok outs ↔
      ∃ bindings results : List (AnyMap φ), items = bindings.map .obj ∧ outs = results.map .obj ∧
        List.Forall₂ (EntryPasses check) bindings results ∧ (bindings.map entryName).Nodup ∧
        ∀ name ∈ seen, name ∉ bindings.map entryName := by
  induction items generalizing outs seen with
  | nil =>
    simp only [normalizeEntries, Except.ok.injEq]
    constructor
    · rintro rfl
      exact ⟨[], [], rfl, rfl, .nil, List.nodup_nil, by simp⟩
    · rintro ⟨bindings, results, none, rfl, passes, _⟩
      obtain rfl : bindings = [] := by simpa using none.symm
      cases passes
      rfl
  | cons item rest ih =>
    constructor
    · intro accepted
      cases item with
      | obj binding =>
        simp only [normalizeEntries] at accepted
        split_ifs at accepted with valid fresh
        obtain ⟨result, checked, accepted⟩ := bind_eq_ok.mp accepted
        obtain ⟨others, later, accepted⟩ := bind_eq_ok.mp accepted
        obtain ⟨bindings, results, rfl, rfl, passes, distinct, unseen⟩ := ih.mp later
        refine ⟨binding :: bindings, result :: results, rfl, (Except.ok.inj accepted).symm,
          .cons ⟨eq_true_of_ne_false valid, checked⟩ passes, ?_, ?_⟩
        · exact List.nodup_cons.mpr ⟨unseen _ List.mem_cons_self, distinct⟩
        · intro name old
          rw [List.map_cons, List.mem_cons, not_or]
          refine ⟨?_, unseen name (List.mem_cons_of_mem _ old)⟩
          rintro rfl
          exact fresh old
      | _ => simp [normalizeEntries] at accepted
    · rintro ⟨bindings, results, shape, rfl, passes, distinct, unseen⟩
      cases passes with
      | nil => simp at shape
      | cons first passes =>
        rename_i binding result bindings results
        obtain ⟨rfl, rfl⟩ := List.cons_eq_cons.mp shape
        rw [List.map_cons, List.nodup_cons] at distinct
        have later := ih.mpr ⟨bindings, results, rfl, rfl, passes, distinct.2, fun name old => by
          rcases List.mem_cons.mp old with rfl | old
          · exact distinct.1
          · exact fun member => unseen name old (List.mem_cons_of_mem _ member)⟩
        have fresh : entryName binding ∉ seen := fun old =>
          unseen _ old (by simp)
        obtain ⟨valid, checked⟩ := first
        unfold entryName at valid checked fresh later
        simp only [normalizeEntries, valid, fresh, if_false, Bool.true_eq_false]
        simp only [checked, later, bind, Except.bind, pure, Except.pure, List.map_cons]

theorem normalizeEntries_again
    (again : ∀ binding result, Ordered binding → check binding (entryName binding) = .ok result →
      entryName result = entryName binding ∧ check result (entryName binding) = .ok result)
    (sound : SoundItems P items)
    (done : normalizeEntries field noun invalid duplicate check items seen = .ok outs) :
    normalizeEntries field noun invalid duplicate check outs seen = .ok outs := by
  obtain ⟨bindings, results, rfl, rfl, passes, distinct, unseen⟩ := normalizeEntries_eq_ok.mp done
  have each : List.Forall₂ (fun b r => entryName r = entryName b ∧ EntryPasses check r r)
      bindings results := by
    clear distinct unseen done
    induction passes with
    | nil => exact .nil
    | cons first _ ih =>
      obtain ⟨same, checked⟩ := again _ _ sound.1.1 first.2
      refine .cons ⟨same, ?_, ?_⟩ (ih sound.2)
      · rw [same]
        exact first.1
      · rw [same]
        exact checked
  have names : results.map entryName = bindings.map entryName := by
    clear passes distinct unseen sound done
    induction each with
    | nil => rfl
    | cons first _ ih => rw [List.map_cons, List.map_cons, ih, first.1]
  refine normalizeEntries_eq_ok.mpr ⟨results, results, rfl, rfl, ?_, names ▸ distinct, names ▸ unseen⟩
  clear names passes distinct unseen sound done
  induction each with
  | nil => exact .nil
  | cons first _ ih => exact .cons first.2 ih

variable {binding result : AnyMap φ} {name : String}

theorem checkTool_eq_ok : checkTool binding name = .ok result ↔
      binding.lookup "approvalMode" = none ∧ result = binding ∨
      ∃ written mode, binding.lookup "approvalMode" = some written ∧
        normalizeApprovalMode (asString (some written)) = some mode ∧
        result = assign binding "approvalMode" (.str mode.text) := by
  unfold checkTool
  cases found : binding.lookup "approvalMode" with
  | none => simp [eq_comm]
  | some written =>
    cases normalized : normalizeApprovalMode (asString (some written)) with
    | none => simp [normalized]
    | some mode => simp [normalized, eq_comm]

theorem checkTool_again (binding result : AnyMap φ) (ordered : Ordered binding)
    (done : checkTool binding (entryName binding) = .ok result) :
    entryName result = entryName binding ∧ checkTool result (entryName binding) = .ok result := by
  rcases checkTool_eq_ok.mp done with ⟨none, rfl⟩ | ⟨written, mode, found, normalized, rfl⟩
  · exact ⟨rfl, done⟩
  · have named : entryName (assign binding "approvalMode" (.str mode.text)) = entryName binding := by
      rw [entryName, lookup_assign, if_neg (by decide), entryName]
    refine ⟨named, checkTool_eq_ok.mpr (.inr ⟨.str mode.text, mode, ?_, ?_, ?_⟩)⟩
    · rw [lookup_assign, if_pos rfl]
    · change normalizeApprovalMode mode.text = some mode
      cases mode <;> decide +kernel
    · refine (assign_same (ordered_assign ordered _ _) ?_).symm
      rw [lookup_assign, if_pos rfl]

def normalSource : Option (Json (Number φ)) → Option (Json (Number φ))
  | some (.str source) => some (.str (toLower (trimSpace source)))
  | other => other

theorem lookup_normalizeSource (binding : AnyMap φ) (key : String) :
    (normalizeSource binding).lookup key =
      if key = "source" then normalSource (binding.lookup "source") else binding.lookup key := by
  unfold normalizeSource
  split
  · rename_i source found
    rw [lookup_assign, found]
    rfl
  · rename_i other
    split_ifs with here
    · rw [here]
      unfold normalSource
      split
      · rename_i source found
        exact absurd found (other source)
      · rfl
    · rfl

theorem ordered_normalizeSource (ordered : Ordered binding) :
    Ordered (normalizeSource binding) := by
  unfold normalizeSource
  split
  · exact ordered_assign ordered _ _
  · exact ordered

theorem checkSkill_eq_ok : checkSkill binding name = .ok result ↔
      trimSpace (asString (binding.lookup "version")) ≠ "" ∧
      result = normalizeSource (assign (assign binding "name" (.str name)) "version"
        (.str (trimSpace (asString (binding.lookup "version"))))) := by
  unfold checkSkill
  simp only
  split_ifs with blank
  · simp [blank]
  · simp [blank, eq_comm]

theorem lookup_checkedSkill (done : checkSkill binding name = .ok result) (key : String) :
    result.lookup key = if key = "source" then normalSource (binding.lookup "source")
      else if key = "version" then some (.str (trimSpace (asString (binding.lookup "version"))))
      else if key = "name" then some (.str name) else binding.lookup key := by
  obtain ⟨_, rfl⟩ := checkSkill_eq_ok.mp done
  rw [lookup_normalizeSource, lookup_assign, lookup_assign, lookup_assign, lookup_assign,
    if_neg (by decide : "source" ≠ "version"), if_neg (by decide : "source" ≠ "name")]

theorem normalSource_again (source : Option (Json (Number φ))) :
    normalSource (normalSource source) = normalSource source := by
  cases source with
  | none => rfl
  | some value =>
    cases value with
    | str text =>
      exact congrArg (fun text => some (Json.str text)) (GoStrings.toLower_trimSpace_again text)
    | _ => rfl

theorem checkSkill_again (binding result : AnyMap φ) (ordered : Ordered binding)
    (done : checkSkill binding (entryName binding) = .ok result) :
    entryName result = entryName binding ∧ checkSkill result (entryName binding) = .ok result := by
  have lookup := lookup_checkedSkill done
  obtain ⟨some, shape⟩ := checkSkill_eq_ok.mp done
  have orderedR : Ordered result := by
    rw [shape]
    exact ordered_normalizeSource (ordered_assign (ordered_assign ordered _ _) _ _)
  have version : trimSpace (asString (result.lookup "version")) =
      trimSpace (asString (binding.lookup "version")) := by
    rw [lookup, if_neg (by decide), if_pos rfl, asString, GoStrings.trimSpace_trimSpace]
  constructor
  · rw [entryName, lookup, if_neg (by decide), if_neg (by decide), if_pos rfl, asString, entryName,
      GoStrings.trimSpace_trimSpace]
  · refine checkSkill_eq_ok.mpr ⟨version ▸ some, ?_⟩
    refine ordered_ext orderedR
      (ordered_normalizeSource (ordered_assign (ordered_assign orderedR _ _) _ _)) ?_
    intro key
    rw [lookup_normalizeSource, lookup_assign, lookup_assign, lookup_assign, lookup_assign,
      if_neg (by decide : "source" ≠ "version"), if_neg (by decide : "source" ≠ "name"), version,
      lookup "source", if_pos rfl, normalSource_again, lookup key]
    split_ifs <;> rfl

theorem checkSkillSet_eq_ok : checkSkillSet F binding name = .ok result ↔
      ∃ revision, binding.lookup "revision" = some (.num (.float revision)) ∧
        F.positive revision = true ∧ result = assign (assign binding "name" (.str name)) "revision"
          (.num (.int (F.int64 revision))) := by
  unfold checkSkillSet
  split
  · rename_i revision found
    split_ifs with positive
    · constructor
      · intro done
        exact ⟨revision, found, positive, (Except.ok.inj done).symm⟩
      · rintro ⟨same, found', _, rfl⟩
        cases found.symm.trans found'
        rfl
    · constructor
      · intro done
        cases done
      · rintro ⟨same, found', above, _⟩
        cases found.symm.trans found'
        exact absurd above positive
  · rename_i other
    constructor
    · intro done
      cases done
    · rintro ⟨revision, found, _⟩
      exact absurd found (other revision)

theorem lookup_checkedSkillSet (F : FloatCodec φ) (binding : AnyMap φ) (name : String) (revision : φ)
    (key : String) :
    (assign (assign binding "name" (Json.str name)) "revision" (.num (.int (F.int64 revision)))).lookup
      key = if key = "revision" then some (.num (.int (F.int64 revision)))
        else if key = "name" then some (.str name) else binding.lookup key := by
  rw [lookup_assign, lookup_assign]

/-- The revision of a checked binding is a number that was converted. -/
def Revised (F : FloatCodec φ) (binding : AnyMap φ) (revision : Int) : Prop :=
  binding.lookup "revision" = some (.num (.int revision)) ∧ ∃ x, revision = F.int64 x

abbrev rereadMap (F : FloatCodec φ) (m : AnyMap φ) : AnyMap φ := mapMembers (Number.reread F) m

theorem lookup_rereadMap_of_sound
    (sound : ∀ value, m.lookup key = some value → SoundValue Number.isFloat value) :
    (rereadMap F m).lookup key = m.lookup key := by
  rw [lookup_mapMembers]
  cases found : m.lookup key with
  | none => rfl
  | some value => exact congrArg some (mapNumbers_id reread_of_isFloat value (sound value found))

/-- A checked binding that is read back: it is checked under the same name, and it passes
exactly when its revision is positive. -/
structure RereadEntry (F : FloatCodec φ) (binding result : AnyMap φ) : Prop where
  valid : agentIDRE (entryName binding) = true
  name : entryName (rereadMap F result) = entryName binding
  revised : ∃ revision, Revised F result revision ∧
    (0 < revision → checkSkillSet F (rereadMap F result) (entryName binding) = .ok result) ∧
    ((checkSkillSet F (rereadMap F result) (entryName binding)).isOk = true → 0 < revision)

theorem EntryPasses.reread (ordered : Ordered binding) (sound : SoundMembers Number.isFloat binding)
    (passes : EntryPasses (checkSkillSet F) binding result) : RereadEntry F binding result := by
  obtain ⟨x, found, _, rfl⟩ := checkSkillSet_eq_ok.mp passes.2
  generalize shape : assign (assign binding "name" (Json.str (entryName binding))) "revision"
    (.num (.int (F.int64 x))) = result
  have lookup (key : String) : result.lookup key =
      if key = "revision" then some (.num (.int (F.int64 x)))
        else if key = "name" then some (.str (entryName binding)) else binding.lookup key := by
    rw [← shape, lookup_checkedSkillSet]
  have orderedR : Ordered result := by
    rw [← shape]
    exact ordered_assign (ordered_assign ordered _ _) _ _
  have orderedB : Ordered (rereadMap F result) := by
    rwa [Ordered, keys_mapMembers]
  have reread : (rereadMap F result).lookup "revision" =
      some (.num (.float (F.ofInt (F.int64 x)))) := by
    rw [lookup_mapMembers, lookup, if_pos rfl]
    rfl
  have positive : F.positive (F.ofInt (F.int64 x)) = true ↔ 0 < F.int64 x := F.positive_ofInt x
  refine ⟨passes.1, ?_, F.int64 x, ⟨by rw [lookup, if_pos rfl], x, rfl⟩, ?_, ?_⟩
  · rw [entryName, lookup_mapMembers, lookup, if_neg (by decide), if_pos rfl]
    exact GoStrings.trimSpace_trimSpace _
  · intro above
    refine checkSkillSet_eq_ok.mpr ⟨_, reread, positive.mpr above, ?_⟩
    refine ordered_ext orderedR (ordered_assign (ordered_assign orderedB _ _) _ _) ?_
    intro key
    rw [lookup_checkedSkillSet, F.int64_ofInt]
    by_cases number : key = "revision"
    · rw [lookup, if_pos number, if_pos number]
    by_cases named : key = "name"
    · rw [lookup, if_neg number, if_pos named, if_neg number, if_pos named]
    · have plain : result.lookup key = binding.lookup key := by
        rw [lookup, if_neg number, if_neg named]
      rw [if_neg number, if_neg named, lookup_rereadMap_of_sound]
      intro value inside
      exact sound_of_lookup sound (plain.symm.trans inside)
  · intro fine
    obtain ⟨again, passes⟩ := exists_of_isOk fine
    obtain ⟨y, found', above, _⟩ := checkSkillSet_eq_ok.mp passes
    rw [reread] at found'
    cases found'
    exact positive.mp above

def PositiveSets (items : List (Json (Number φ))) : Prop :=
  ∀ binding, Json.obj binding ∈ items → ∀ revision,
    binding.lookup "revision" = some (.num (.int revision)) → 0 < revision

theorem mapItems_obj (f : Number φ → Number φ) (bindings : List (AnyMap φ)) :
    mapItems f (bindings.map .obj) = (bindings.map (mapMembers f)).map .obj := by
  rw [mapItems_eq, List.map_map, List.map_map]
  rfl

/-- SkillSets that are read back are accepted again, and as they are, exactly when their
revisions are positive. -/
theorem normalizeSkillSets_reread
    (sound : SoundItems Number.isFloat sources) (done : normalizeSkillSets F sources [] = .ok items)
    : (PositiveSets items →
      normalizeSkillSets F (mapItems (Number.reread F) items) [] = .ok items) ∧
    ((normalizeSkillSets F (mapItems (Number.reread F) items) []).isOk = true →
      PositiveSets items) := by
  obtain ⟨bindings, results, rfl, rfl, passes, distinct, -⟩ := normalizeEntries_eq_ok.mp done
  have each : List.Forall₂ (RereadEntry F) bindings results := by
    clear distinct done
    induction passes with
    | nil => exact .nil
    | cons first _ ih => exact .cons (first.reread sound.1.1 sound.1.2) (ih sound.2)
  clear passes sound done
  have names : (results.map (rereadMap F)).map entryName = bindings.map entryName := by
    clear distinct
    induction each with
    | nil => rfl
    | cons first _ ih => simp only [List.map_cons, ih, first.name]
  rw [mapItems_obj]
  constructor
  · intro positive
    refine normalizeEntries_eq_ok.mpr ⟨_, results, rfl, rfl, ?_, names ▸ distinct, by simp⟩
    clear names distinct
    induction each with
    | nil => exact .nil
    | cons first _ ih =>
      obtain ⟨revision, revised, passes, _⟩ := first.revised
      have above := positive _ List.mem_cons_self revision revised.1
      refine .cons ⟨first.name.symm ▸ first.valid, first.name.symm ▸ passes above⟩ (ih ?_)
      exact fun b member => positive b (List.mem_cons_of_mem _ member)
  · intro fine
    obtain ⟨outs, again⟩ := exists_of_isOk fine
    obtain ⟨rereads, results', shape, -, passes', -⟩ := normalizeEntries_eq_ok.mp again
    obtain rfl : results.map (rereadMap F) = rereads :=
      List.map_injective_iff.mpr (fun _ _ same => Json.obj.inj same) shape
    clear names distinct again fine shape
    induction each generalizing results' with
    | nil =>
      intro b member
      cases member
    | cons first _ ih =>
      obtain ⟨revision, revised, _, needs⟩ := first.revised
      cases passes' with
      | cons pass rest =>
        intro b member number found
        rcases List.mem_cons.mp member with here | later
        · cases here
          cases revised.1.symm.trans found
          rw [← first.name, pass.2] at needs
          exact needs rfl
        · exact ih _ rest b later number found

variable {out : AnyMap φ}
  {normalize : List (Json (Number φ)) → List String → Except HubError (List (Json (Number φ)))}

theorem normalizeMember_eq_ok : normalizeMember doc field normalize = .ok out ↔
      (∃ items outs, doc.lookup field = some (.arr items) ∧ normalize items [] = .ok outs ∧
        out = assign doc field (.arr outs)) ∨
      (∀ items, doc.lookup field ≠ some (.arr items)) ∧ out = doc := by
  unfold normalizeMember
  split
  · rename_i items found
    constructor
    · intro done
      obtain ⟨outs, normalized, rfl⟩ := map_eq_ok done
      exact .inl ⟨items, outs, found, normalized, rfl⟩
    · rintro (⟨same, outs, found', normalized, rfl⟩ | ⟨other, _⟩)
      · cases found.symm.trans found'
        rw [normalized]
        rfl
      · exact absurd found (other items)
  · rename_i other
    constructor
    · intro done
      exact .inr ⟨other, (Except.ok.inj done).symm⟩
    · rintro (⟨items, outs, found, _⟩ | ⟨_, rfl⟩)
      · exact absurd found (other items)
      · rfl

/-- One stage of the normalisation, which rewrites at most the value of one member. -/
structure Stage (field : String) (Done : List (Json (Number φ)) → Prop) (doc out : AnyMap φ) :
    Prop where
  ordered : Ordered out
  others : ∀ key, key ≠ field → out.lookup key = doc.lookup key
  own : (∃ items, out.lookup field = some (.arr items) ∧ Done items) ∨
    (∀ items, out.lookup field ≠ some (.arr items)) ∧ out.lookup field = doc.lookup field

theorem Stage.done
    (stage : Stage field Done doc out) (found : out.lookup field = some (.arr items)) :
    Done items := by
  rcases stage.own with ⟨same, found', done⟩ | ⟨other, _⟩
  · cases found'.symm.trans found
    exact done
  · exact absurd found (other items)

theorem stage_of_normalizeMember (ordered : Ordered doc)
    (sound : ∀ value, doc.lookup field = some value → SoundValue Number.isFloat value)
    (finish : ∀ items outs, SoundItems Number.isFloat items → normalize items [] = .ok outs → Done outs)
    (done : normalizeMember doc field normalize = .ok out) : Stage field Done doc out := by
  rcases normalizeMember_eq_ok.mp done with ⟨items, outs, found, normalized, rfl⟩ | ⟨other, rfl⟩
  · refine ⟨ordered_assign ordered _ _, ?_, .inl ⟨outs, ?_, finish items outs (sound _ found) normalized⟩⟩
    · intro key different
      rw [lookup_assign, if_neg different]
    · rw [lookup_assign, if_pos rfl]
  · exact ⟨ordered, fun _ _ => rfl, .inr ⟨other, rfl⟩⟩

theorem renameSkillSets_eq_ok (done : renameSkillSets doc = .ok out) :
    (Ordered doc → Ordered out) ∧ out.lookup "skillSets" = none ∧
      (out.lookup "skillsets" = doc.lookup "skillsets" ∨
        out.lookup "skillsets" = doc.lookup "skillSets") ∧
      ∀ key, key ≠ "skillsets" → key ≠ "skillSets" → out.lookup key = doc.lookup key := by
  unfold renameSkillSets at done
  split at done
  · cases done
  · rename_i sets found _
    obtain rfl := Except.ok.inj done
    have lookup (key : String) : ((assign doc "skillsets" sets).filter
        fun member => member.1 ≠ "skillSets").lookup key =
        if key ≠ "skillSets" then (assign doc "skillsets" sets).lookup key else none := by
      simpa using lookup_filter_key (m := assign doc "skillsets" sets) (k := key)
        fun name => decide (name ≠ "skillSets")
    refine ⟨fun ordered => ordered_filter _ (ordered_assign ordered _ _), ?_, .inr ?_, ?_⟩
    · rw [lookup, if_neg (by simp)]
    · rw [lookup, if_pos (by decide), lookup_assign, if_pos rfl, found]
    · intro key canonical legacy
      rw [lookup, if_pos legacy, lookup_assign, if_neg canonical]
  · rename_i absent
    obtain rfl := Except.ok.inj done
    exact ⟨id, absent, .inl rfl, fun _ _ _ => rfl⟩

def CheckedSets (F : FloatCodec φ) (items : List (Json (Number φ))) : Prop :=
  ∃ sources, SoundItems Number.isFloat sources ∧ normalizeSkillSets F sources [] = .ok items

structure NormalForm (F : FloatCodec φ) (doc : AnyMap φ) : Prop where
  ordered : Ordered doc
  entry : checkEntryPoint doc = .ok ()
  tools : ∀ items, doc.lookup "tools" = some (.arr items) → normalizeTools items [] = .ok items
  skills : ∀ items, doc.lookup "skills" = some (.arr items) → normalizeSkills items [] = .ok items
  sets : ∀ items, doc.lookup "skillsets" = some (.arr items) → CheckedSets F items
  legacy : doc.lookup "skillSets" = none
  sound : ∀ key value, doc.lookup key = some value →
    (key = "skillsets" → ∀ items, value ≠ .arr items) → SoundValue Number.isFloat value

theorem normalizeEntries_sound
    (keeps : ∀ binding result, Ordered binding → SoundMembers P binding →
      check binding (entryName binding) = .ok result → Ordered result ∧ SoundMembers Q result)
    (sound : SoundItems P items)
    (done : normalizeEntries field noun invalid duplicate check items seen = .ok outs) :
    SoundItems Q outs := by
  obtain ⟨bindings, results, rfl, rfl, passes, -, -⟩ := normalizeEntries_eq_ok.mp done
  clear done
  induction passes with
  | nil => trivial
  | cons first _ ih => exact ⟨keeps _ _ sound.1.1 sound.1.2 first.2, ih sound.2⟩

theorem checkTool_sound (binding result : AnyMap φ) (ordered : Ordered binding)
    (sound : SoundMembers Number.isFloat binding)
    (done : checkTool binding (entryName binding) = .ok result) :
    Ordered result ∧ SoundMembers Number.isFloat result := by
  rcases checkTool_eq_ok.mp done with ⟨_, rfl⟩ | ⟨_, mode, _, _, rfl⟩
  · exact ⟨ordered, sound⟩
  · exact ⟨ordered_assign ordered _ _, soundMembers_assign_str sound _ _⟩

theorem checkSkill_sound (binding result : AnyMap φ) (ordered : Ordered binding)
    (sound : SoundMembers Number.isFloat binding)
    (done : checkSkill binding (entryName binding) = .ok result) :
    Ordered result ∧ SoundMembers Number.isFloat result := by
  obtain ⟨_, rfl⟩ := checkSkill_eq_ok.mp done
  refine ⟨ordered_normalizeSource (ordered_assign (ordered_assign ordered _ _) _ _), ?_⟩
  have rewritten := soundMembers_assign_str (soundMembers_assign_str sound "name" (entryName binding))
    "version" (trimSpace (asString (binding.lookup "version")))
  unfold normalizeSource
  split
  · exact soundMembers_assign_str rewritten _ _
  · exact rewritten

theorem checkSkillSet_sound (binding result : AnyMap φ) (ordered : Ordered binding)
    (sound : SoundMembers Number.isFloat binding)
    (done : checkSkillSet F binding (entryName binding) = .ok result) :
    Ordered result ∧ SoundMembers (Number.Readable F) result := by
  obtain ⟨revision, _, _, rfl⟩ := checkSkillSet_eq_ok.mp done
  refine ⟨ordered_assign (ordered_assign ordered _ _) _ _, ?_⟩
  have readable := soundMembers_mono (Q := Number.Readable F) readable_of_isFloat binding sound
  refine soundMembers_assign (soundMembers_assign_str readable _ _) ?_ _
  exact F.read_int64 revision

theorem CheckedSets.readable (checked : CheckedSets F items) :
    SoundItems (Number.Readable F) items := by
  obtain ⟨sources, sound, done⟩ := checked
  exact normalizeEntries_sound checkSkillSet_sound sound done

theorem checkEntryPoint_congr (entryPoint : out.lookup "entryPoint" = doc.lookup "entryPoint")
    (files : out.lookup "files" = doc.lookup "files") :
    checkEntryPoint out = checkEntryPoint doc := by
  rw [checkEntryPoint, entryPoint, files, checkEntryPoint]

theorem normalForm_of_normalize (ordered : Ordered source)
    (sound : SoundMembers Number.isFloat source) (done : normalizeDocument F source = .ok doc) :
    NormalForm F doc := by
  have floats : ∀ key value, source.lookup key = some value → SoundValue Number.isFloat value :=
    fun _ _ => sound_of_lookup sound
  obtain ⟨_, entry, done⟩ := bind_eq_ok.mp done
  obtain ⟨first, tools, done⟩ := bind_eq_ok.mp done
  obtain ⟨second, skills, done⟩ := bind_eq_ok.mp done
  obtain ⟨third, renamed, sets⟩ := bind_eq_ok.mp done
  let DoneTools (items : List (Json (Number φ))) : Prop :=
    normalizeTools items [] = .ok items ∧ SoundItems Number.isFloat items
  let DoneSkills (items : List (Json (Number φ))) : Prop :=
    normalizeSkills items [] = .ok items ∧ SoundItems Number.isFloat items
  have stageTools : Stage "tools" DoneTools source first :=
    stage_of_normalizeMember ordered (floats "tools") (fun items outs soundItems normalized =>
      ⟨normalizeEntries_again checkTool_again soundItems normalized,
        normalizeEntries_sound checkTool_sound soundItems normalized⟩) tools
  have skillsValue : first.lookup "skills" = source.lookup "skills" :=
    stageTools.others "skills" (by decide)
  have stageSkills : Stage "skills" DoneSkills first second :=
    stage_of_normalizeMember stageTools.ordered
      (fun value found => floats "skills" value (skillsValue ▸ found))
      (fun items outs soundItems normalized =>
        ⟨normalizeEntries_again checkSkill_again soundItems normalized,
          normalizeEntries_sound checkSkill_sound soundItems normalized⟩) skills
  obtain ⟨orderedThird, legacy, renamedValue, others⟩ := renameSkillSets_eq_ok renamed
  have kept : ∀ key, key ≠ "tools" → key ≠ "skills" → second.lookup key = source.lookup key :=
    fun key notTools notSkills =>
      (stageSkills.others key notSkills).trans (stageTools.others key notTools)
  have setsFloat : ∀ value, third.lookup "skillsets" = some value → SoundValue Number.isFloat value := by
    intro value found
    rcases renamedValue with same | same
    all_goals
      rw [same, kept _ (by decide) (by decide)] at found
      exact floats _ value found
  have stageSets : Stage "skillsets" (CheckedSets F) third doc :=
    stage_of_normalizeMember (orderedThird stageSkills.ordered) setsFloat
      (fun items outs soundItems normalized => ⟨items, soundItems, normalized⟩) sets
  have plain : ∀ key, key ≠ "skillsets" → key ≠ "skillSets" → doc.lookup key = second.lookup key :=
    fun key canonical old => (stageSets.others key canonical).trans (others key canonical old)
  have toolsValue : doc.lookup "tools" = first.lookup "tools" :=
    (plain "tools" (by decide) (by decide)).trans (stageSkills.others "tools" (by decide))
  have skillsDone : doc.lookup "skills" = second.lookup "skills" :=
    plain "skills" (by decide) (by decide)
  refine ⟨stageSets.ordered, ?_, fun _ found => (stageTools.done (toolsValue ▸ found)).1,
    fun _ found => (stageSkills.done (skillsDone ▸ found)).1, fun _ found => stageSets.done found,
    (stageSets.others _ (by decide)).trans legacy, ?_⟩
  · rw [← entry]
    exact checkEntryPoint_congr
      ((plain _ (by decide) (by decide)).trans (kept _ (by decide) (by decide)))
      ((plain _ (by decide) (by decide)).trans (kept _ (by decide) (by decide)))
  · intro key value found notSets
    by_cases canonical : key = "skillsets"
    · subst canonical
      rcases stageSets.own with ⟨items, found', _⟩ | ⟨_, same⟩
      · cases found'.symm.trans found
        exact absurd rfl (notSets rfl items)
      · exact setsFloat value (same ▸ found)
    by_cases old : key = "skillSets"
    · subst old
      rw [stageSets.others _ canonical, legacy] at found
      cases found
    rw [plain key canonical old] at found
    by_cases isSkills : key = "skills"
    · subst isSkills
      rcases stageSkills.own with ⟨items, found', fixed⟩ | ⟨_, same⟩
      · cases found'.symm.trans found
        exact fixed.2
      · exact floats "skills" value (skillsValue ▸ same ▸ found)
    by_cases isTools : key = "tools"
    · subst isTools
      rw [stageSkills.others _ (by decide)] at found
      rcases stageTools.own with ⟨items, found', fixed⟩ | ⟨_, same⟩
      · cases found'.symm.trans found
        exact fixed.2
      · exact floats "tools" value (same ▸ found)
    · exact floats key value (kept key isTools isSkills ▸ found)

def PositiveDocument (doc : AnyMap φ) : Prop :=
  ∀ items, doc.lookup "skillsets" = some (.arr items) → PositiveSets items

namespace NormalForm

variable {doc : AnyMap φ}

theorem readable (normal : NormalForm F doc) : SoundMembers (Number.Readable F) doc := by
  rw [soundMembers_iff]
  rintro ⟨key, value⟩ member
  have found := lookup_of_mem normal.ordered member
  by_cases isSets : key = "skillsets" ∧ ∃ items, value = .arr items
  · obtain ⟨rfl, items, rfl⟩ := isSets
    exact (normal.sets items found).readable
  · refine sound_mono readable_of_isFloat value (normal.sound key value found ?_)
    intro canonical items same
    exact isSets ⟨canonical, items, same⟩

theorem ordered_reread (normal : NormalForm F doc) : Ordered (rereadMap F doc) := by
  rw [Ordered, keys_mapMembers]
  exact normal.ordered

theorem lookup_reread (normal : NormalForm F doc)
    (plain : key = "skillsets" → ∀ items, doc.lookup key ≠ some (.arr items)) :
    (rereadMap F doc).lookup key = doc.lookup key := by
  apply lookup_rereadMap_of_sound
  intro value found
  refine normal.sound key value found ?_
  rintro canonical items rfl
  exact plain canonical items found

theorem normalizeMember_fixed (ordered : Ordered out)
    (fixed : ∀ items, out.lookup field = some (.arr items) → normalize items [] = .ok items) :
    normalizeMember out field normalize = .ok out := by
  apply normalizeMember_eq_ok.mpr
  by_cases array : ∃ items, out.lookup field = some (.arr items)
  · obtain ⟨items, found⟩ := array
    exact .inl ⟨items, items, found, fixed items found, (assign_same ordered found).symm⟩
  · exact .inr ⟨fun items found => array ⟨items, found⟩, rfl⟩

theorem normalizeDocument_reread (normal : NormalForm F doc) :
    normalizeDocument F (rereadMap F doc) =
      normalizeMember (rereadMap F doc) "skillsets" (normalizeSkillSets F) := by
  have same (key : String) (other : key ≠ "skillsets") :
      (rereadMap F doc).lookup key = doc.lookup key :=
    normal.lookup_reread fun canonical => absurd canonical other
  have entry : checkEntryPoint (rereadMap F doc) = .ok () := by
    rw [checkEntryPoint_congr (same _ (by decide)) (same _ (by decide)), normal.entry]
  have tools : normalizeMember (rereadMap F doc) "tools" normalizeTools = .ok (rereadMap F doc) := by
    refine normalizeMember_fixed normal.ordered_reread fun items found => ?_
    exact normal.tools items (same "tools" (by decide) ▸ found)
  have skills : normalizeMember (rereadMap F doc) "skills" normalizeSkills = .ok (rereadMap F doc) := by
    refine normalizeMember_fixed normal.ordered_reread fun items found => ?_
    exact normal.skills items (same "skills" (by decide) ▸ found)
  have renamed : renameSkillSets (rereadMap F doc) = .ok (rereadMap F doc) := by
    unfold renameSkillSets
    rw [same "skillSets" (by decide), normal.legacy]
    cases (rereadMap F doc).lookup "skillsets" <;> rfl
  simp only [normalizeDocument, entry, tools, skills, renamed, bind, Except.bind]

/-- A normalised document that is read back is accepted, and as it is, exactly when its
SkillSets have positive revisions. -/
theorem normalizeDocument_again (normal : NormalForm F doc) :
    (PositiveDocument doc → normalizeDocument F (rereadMap F doc) = .ok doc) ∧
      ((normalizeDocument F (rereadMap F doc)).isOk = true → PositiveDocument doc) := by
  rw [normal.normalizeDocument_reread]
  by_cases array : ∃ items, doc.lookup "skillsets" = some (.arr items)
  · obtain ⟨items, found⟩ := array
    obtain ⟨sources, sound, done⟩ := normal.sets items found
    obtain ⟨accepts, needs⟩ := normalizeSkillSets_reread sound done
    have read : (rereadMap F doc).lookup "skillsets" =
        some (.arr (mapItems (Number.reread F) items)) := by
      rw [lookup_mapMembers, found]
      rfl
    constructor
    · intro positive
      refine normalizeMember_eq_ok.mpr (.inl ⟨_, items, read, accepts (positive items found), ?_⟩)
      refine ordered_ext normal.ordered (ordered_assign normal.ordered_reread _ _) ?_
      intro key
      rw [lookup_assign]
      split_ifs with canonical
      · rw [canonical, found]
      · exact (normal.lookup_reread fun here => absurd here canonical).symm
    · intro fine others found'
      cases found.symm.trans found'
      obtain ⟨out, accepted⟩ := exists_of_isOk fine
      rcases normalizeMember_eq_ok.mp accepted with ⟨reads, outs, inside, normalized, _⟩ | ⟨other, _⟩
      · cases read.symm.trans inside
        apply needs
        rw [normalized]
        rfl
      · exact absurd read (other _)
  · have none : ∀ items, doc.lookup "skillsets" ≠ some (.arr items) :=
      fun items found => array ⟨items, found⟩
    have whole : rereadMap F doc = doc := by
      refine ordered_ext normal.ordered_reread normal.ordered fun key => ?_
      exact normal.lookup_reread fun canonical => canonical ▸ none
    rw [whole]
    refine ⟨fun _ => normalizeMember_eq_ok.mpr (.inr ⟨none, rfl⟩), fun _ items found => ?_⟩
    exact absurd found (none items)

end NormalForm

/-- What `normalizeAgentDefinition` returns: the encoding of a normalised document and the
bindings that are read from it. -/
theorem normalizeAgentDefinition_eq_ok
    (done : normalizeAgentDefinition F raw = .ok (canonical, projection)) :
    ∃ doc, NormalForm F doc ∧ canonical = .obj (marshalMembers F doc) ∧
      unmarshalProjection canonical = some projection := by
  unfold normalizeAgentDefinition at done
  split at done
  · cases done
  · cases done
  rename_i json
  split at done
  · cases done
  rename_i source decoded
  obtain ⟨doc, normalized, done⟩ := bind_eq_ok.mp done
  have read : Ordered source ∧ SoundMembers Number.isFloat source := by
    cases json with
    | null =>
      cases decoded
      exact ⟨ordered_nil, trivial⟩
    | obj members => exact unmarshalMembers_sound ordered_nil trivial decoded
    | _ => cases decoded
  dsimp only at done
  split at done
  · cases done
  rename_i found
  cases Except.ok.inj done
  exact ⟨doc, normalForm_of_normalize read.1 read.2 normalized, by rw [marshalAny], found⟩

/-- A stored definition is normalised again for every run: it is accepted, and with the same
bindings, exactly when its SkillSets have positive revisions. -/
theorem normalizeAgentDefinition_again (normal : NormalForm F doc)
    (found : unmarshalProjection (.obj (marshalMembers F doc)) = some projection) :
    (PositiveDocument doc → normalizeAgentDefinition F (.value (.obj (marshalMembers F doc))) =
        .ok (.obj (marshalMembers F doc), projection)) ∧
      ((normalizeAgentDefinition F (.value (.obj (marshalMembers F doc)))).isOk = true →
        PositiveDocument doc) := by
  have read : unmarshalMap F.numbers (.obj (marshalMembers F doc)) = some (rereadMap F doc) := by
    rw [unmarshalMap, unmarshalMembers_marshalMembers doc [] normal.ordered normal.readable]
    rfl
  obtain ⟨accepts, needs⟩ := normal.normalizeDocument_again
  constructor
  · intro positive
    simp only [normalizeAgentDefinition, read, accepts positive, bind, Except.bind, marshalAny, found]
    rfl
  · intro fine
    obtain ⟨out, again⟩ := exists_of_isOk fine
    simp only [normalizeAgentDefinition, read] at again
    obtain ⟨doc', normalized, _⟩ := bind_eq_ok.mp again
    apply needs
    rw [normalized]
    rfl

end Normalization

def tenths : FloatCodec Int where
  read n := if n.exponent = 0 then some (10 * n.mantissa)
    else if n.exponent = -1 then some n.mantissa else none
  print n := toString n
  encode x := if x % 10 = 0 then ⟨x / 10, 0⟩ else ⟨x, -1⟩
  int64 x := if -2 ^ 63 ≤ x.tdiv 10 ∧ x.tdiv 10 < 2 ^ 63 then x.tdiv 10 else -2 ^ 63
  positive x := 0 < x
  ofInt n := 10 * n
  read_encode x := by
    split_ifs <;> simp_all
    omega
  read_int64 x := by simp
  int64_ofInt x := by
    split_ifs <;> simp_all
  positive_ofInt x := by
    simp only [decide_eq_true_eq]
    omega
  int64_range x := by
    split_ifs <;> simp_all

end AisphereHub
