import AisphereHub.Biz.SkillUsecase

/-! The wildcard viewers of the stored skills, and what one step of a projection does to
them. -/
namespace AisphereHub

open GoStrings Keyed

variable {n : String} {skills : List SkillRecord} {w : AuthzSubjectRef} {grant : Bool}
  {tuples : Tuples} {skill : SkillRecord}

def isPublic (skills : List SkillRecord) (name : String) : Bool :=
  (lookup SkillRecord.name skills name).any fun skill => skill.visibility = .public

/-- Every stored skill carries a wildcard viewer exactly when it is public, and then it
carries all of them. -/
def PublicShown (s : SkillTables) : Prop :=
  ∀ skill ∈ s.skills,
    ((∃ w ∈ publicSubjects, publicViewer skill.name w ∈ s.tuples) ↔ skill.visibility = .public) ∧
      (skill.visibility = .public → ∀ w ∈ publicSubjects, publicViewer skill.name w ∈ s.tuples)

instance (s : SkillTables) : Decidable (PublicShown s) :=
  inferInstanceAs (Decidable (∀ skill ∈ s.skills, _))

structure RowsNamed (skills : List SkillRecord) : Prop where
  unique : (skills.map SkillRecord.name).Nodup
  named : ∀ name ∈ skills.map SkillRecord.name, name ≠ "" ∧ trimSpace name = name

def Shown (s : SkillTables) (name : String) (shown : Bool) (subjects : List AuthzSubjectRef) : Prop :=
  ∀ w ∈ subjects, (publicViewer name w ∈ s.tuples ↔ shown = true)

def Mirrored (s : SkillTables) (name : String) : Prop :=
  Shown s name (isPublic s.skills name) publicSubjects

/-- The tuples mirror the rows, also on names that have no row. -/
structure Mirrors (s : SkillTables) : Prop where
  rows : RowsNamed s.skills
  viewers : ∀ name, Mirrored s name

theorem publicShown_of_mirrors (mirrors : Mirrors s) : PublicShown s := by
  intro skill member
  have found : lookup SkillRecord.name s.skills skill.name = some skill :=
    (lookup_eq_some_iff mirrors.rows.unique).mpr ⟨member, rfl⟩
  have shown : ∀ w ∈ publicSubjects,
      (publicViewer skill.name w ∈ s.tuples ↔ skill.visibility = .public) := by
    intro w subject
    simpa [isPublic, found] using mirrors.viewers skill.name w subject
  refine ⟨⟨?_, ?_⟩, fun isPublic w subject => (shown w subject).mpr isPublic⟩
  · intro carried
    obtain ⟨w, subject, viewer⟩ := carried
    exact (shown w subject).mp viewer
  · intro isPublic
    exact ⟨{ type := "user", id := "*" }, by simp [publicSubjects],
      (shown _ (by simp [publicSubjects])).mpr isPublic⟩

theorem publicViewer_inj : publicViewer m v = publicViewer n w ↔ m = n ∧ v = w := by
  simp [publicViewer, skillResource]

theorem publicSubjects_solid (subject : w ∈ publicSubjects) :
    w.type ≠ "" ∧ w.id ≠ "" ∧ w.relation = "" := by
  simp only [publicSubjects, List.mem_cons, List.not_mem_nil, or_false] at subject
  rcases subject with rfl | rfl | rfl <;> decide

/-- The revocation of a wildcard subject on a named skill reaches that viewer alone
among the wildcard viewers. -/
theorem revokeAllFilter_matches (named : n ≠ "")
    (left : v ∈ publicSubjects) (right : w ∈ publicSubjects) :
    (revokeAllFilter (skillResource n) w).matches (publicViewer m v) = true ↔ m = n ∧ v = w := by
  have solid := publicSubjects_solid right
  have whole : v = w ↔ v.type = w.type ∧ v.id = w.id := by
    have bare := (publicSubjects_solid left).2.2
    cases v
    cases w
    simp_all
  rw [whole]
  simp only [AuthzRelationshipFilter.matches, revokeAllFilter, publicViewer, skillResource,
    Bool.and_eq_true, fieldMatches_iff named, fieldMatches_iff solid.1, fieldMatches_iff solid.2.1]
  simp [fieldMatches, and_assoc]

/-- A projection step that takes effect decides its own viewer and leaves the other
wildcard viewers as they were. -/
theorem mem_projectViewer (named : n ≠ "")
    (subject : w ∈ publicSubjects) (done : projectViewer tuples n grant w fault = .ok tuples')
    (other : v ∈ publicSubjects) : publicViewer m v ∈ tuples' ↔
      if m = n ∧ v = w then grant = true else publicViewer m v ∈ tuples := by
  cases grant with
  | true =>
    obtain ⟨_, _, rfl⟩ := writeRelationships_eq_ok.mp done
    have touched : publicViewer m v ∈ List.foldl touch tuples [publicViewer n w] ↔
        publicViewer m v ∈ tuples ∨ m = n ∧ v = w := by
      rw [mem_foldl_touch, List.mem_singleton, publicViewer_inj]
    refine touched.trans ?_
    split_ifs with same
    · simp [same]
    · simp [same]
  | false =>
    obtain ⟨_, _, rfl⟩ := deleteRelationships_eq_ok.mp done
    have reached := revokeAllFilter_matches (m := m) named other subject
    split_ifs with same
    · simp [reached.mpr same]
    · simp [Bool.eq_false_iff.mpr (mt reached.mp same)]

theorem projectViewer_eq_ok (tuples : Tuples) (grant : Bool) (named : n ≠ "")
    (subject : w ∈ publicSubjects) :
    ∃ tuples', projectViewer tuples n grant w none = .ok tuples' := by
  have solid := publicSubjects_solid subject
  have related : trimSpace "viewer" ≠ "" := by decide +kernel
  cases grant with
  | true =>
    refine ⟨[publicViewer n w].foldl touch tuples, ?_⟩
    refine writeRelationships_eq_ok.mpr ⟨?_, rfl, rfl⟩
    intro r member
    rw [List.mem_singleton.mp member]
    simp [validateRelationship, skillResource, named, related, solid]
  | false =>
    refine ⟨_, deleteRelationships_eq_ok.mpr ⟨?_, rfl, rfl⟩⟩
    simp [revokeAllFilter, skillResource]

theorem isPublic_append
    (free : lookup SkillRecord.name skills item.name = none) (m : String) :
    isPublic (skills ++ [item]) m =
      if m = item.name then decide (item.visibility = .public) else isPublic skills m := by
  unfold isPublic
  rw [lookup_append]
  by_cases same : m = item.name
  · rw [same]
    simp [free]
  · simp [same, Ne.symm same]

theorem isPublic_amend (f : SkillRecord → SkillRecord) (keep : ∀ r, (f r).name = r.name)
    (skills : List SkillRecord) (n m : String) : isPublic (amend SkillRecord.name skills n f) m =
      if m = n then (lookup SkillRecord.name skills n).any
        (fun skill => (f skill).visibility = .public) else isPublic skills m := by
  unfold isPublic
  rw [lookup_amend keep]
  split_ifs
  · cases lookup SkillRecord.name skills n <;> rfl
  · rfl

theorem isPublic_remove (skills : List SkillRecord) (n m : String) :
    isPublic (deleteRepository skills n) m = if m = n then false else isPublic skills m := by
  unfold isPublic deleteRepository
  rw [lookup_remove]
  split_ifs <;> rfl

theorem isPublic_of_free (free : lookup SkillRecord.name skills n = none)
    : isPublic skills n = false := by
  simp [isPublic, free]

theorem isPublic_of_found (found : lookup SkillRecord.name skills n = some skill) :
    isPublic skills n = decide (skill.visibility = .public) := by
  simp [isPublic, found]

theorem RowsNamed.amend (rows : RowsNamed skills) (f : SkillRecord → SkillRecord)
    (keep : ∀ r, (f r).name = r.name) (n : String) :
    RowsNamed (amend SkillRecord.name skills n f) := by
  constructor
  · rw [map_key_amend keep]
    exact rows.unique
  · rw [map_key_amend keep]
    exact rows.named

theorem RowsNamed.remove (rows : RowsNamed skills) (n : String) :
    RowsNamed (deleteRepository skills n) := by
  have kept : ((deleteRepository skills n).map SkillRecord.name).Sublist
      (skills.map SkillRecord.name) := List.filter_sublist.map _
  exact ⟨rows.unique.sublist kept, fun name member => rows.named name (kept.subset member)⟩

theorem RowsNamed.append (rows : RowsNamed skills)
    (free : lookup SkillRecord.name skills item.name = none) (solid : item.name ≠ "")
    (trimmed : trimSpace item.name = item.name) : RowsNamed (skills ++ [item]) := by
  constructor
  · rw [List.map_append, List.nodup_append']
    refine ⟨rows.unique, by simp, ?_⟩
    intro name old new
    obtain ⟨skill, member, rfl⟩ := List.mem_map.mp old
    exact lookup_eq_none_iff.mp free skill member (by simpa using new)
  · intro name member
    rw [List.map_append, List.mem_append] at member
    rcases member with old | new
    · exact rows.named name old
    · obtain rfl : name = item.name := by simpa using new
      exact ⟨solid, trimmed⟩

theorem RowsNamed.found (rows : RowsNamed skills)
    (found : lookup SkillRecord.name skills n = some skill) : n ≠ "" ∧ trimSpace n = n := by
  have member := List.mem_map_of_mem (f := SkillRecord.name) (mem_of_lookup found)
  rw [key_of_lookup found] at member
  exact rows.named n member

theorem writeSkillVisibility_isOk (trimmed : trimSpace n = n)
    (found : lookup SkillRecord.name skills n = some skill) (visibility : SkillVisibility)
    : (writeSkillVisibility skills n visibility).isOk = true := by
  rw [← trimmed] at found
  have written : writeSkillVisibility skills n visibility = .ok _ :=
    updateSkillRow_eq_ok.mpr ⟨skill, found, rfl, rfl⟩
  rw [written]
  rfl

theorem Mirrors.rows_changed (mirrors : Mirrors s) (rows : RowsNamed skills)
    (same : ∀ m, isPublic skills m = isPublic s.skills m) :
    Mirrors { s with skills := skills } := by
  refine ⟨rows, ?_⟩
  intro m w subject
  rw [same]
  exact mirrors.viewers m w subject

section Projection

variable {s : SkillTables} {fault : Option String}

theorem mirrored_elsewhere (named : n ≠ "") (subject : w ∈ publicSubjects)
    (done : projectViewer s.tuples n grant w fault = .ok tuples) (other : m ≠ n)
    (mirrored : Mirrored s m) : Mirrored { s with tuples := tuples } m := by
  intro v member
  rw [mem_projectViewer named subject done member, if_neg (by simp [other])]
  exact mirrored v member

theorem shown_projected (named : n ≠ "")
    (subject : w ∈ publicSubjects) (done : projectViewer s.tuples n grant w fault = .ok tuples)
    (inside : ∀ v ∈ subjects, v ∈ publicSubjects) (shown : Shown s n grant subjects) :
    Shown { s with tuples := tuples } n grant (subjects ++ [w]) := by
  intro v member
  have listed : v ∈ publicSubjects := by
    rcases List.mem_append.mp member with old | new
    · exact inside v old
    · rwa [List.mem_singleton.mp new]
  rw [mem_projectViewer named subject done listed]
  by_cases same : v = w
  · simp [same]
  · rw [if_neg (by simp [same])]
    refine shown v ?_
    simpa [same] using member

theorem projectViewer_error (named : n ≠ "") (subject : w ∈ publicSubjects)
    (failed : projectViewer tuples n grant w fault = .error e) : fault.isSome = true := by
  cases fault with
  | some cause => rfl
  | none =>
    obtain ⟨tuples', done⟩ := projectViewer_eq_ok tuples grant named subject
    rw [done] at failed
    cases failed

end Projection

inductive SwitchStep (s : SkillTables) (fault : Option String) :
    SkillVisibilityCall → SkillTables → SkillVisibilityCall → Prop
  | refused (request : SkillVisibilityRequest) (e : HubError) :
      SwitchStep s fault (.load request) s (.returned (.error e))
  | unchanged (frame : SwitchFrame) (text : String)
      (found : lookup SkillRecord.name s.skills (trimSpace frame.name) = some frame.current)
      (parsed : SkillVisibility.ofString text = some frame.visibility)
      (same : frame.current.visibility = frame.visibility) :
      SwitchStep s fault (.load ⟨frame.name, text⟩) s (.reconcile frame publicSubjects)
  | changed (frame : SwitchFrame) (text : String)
      (found : lookup SkillRecord.name s.skills (trimSpace frame.name) = some frame.current)
      (parsed : SkillVisibility.ofString text = some frame.visibility)
      (differs : frame.current.visibility ≠ frame.visibility) :
      SwitchStep s fault (.load ⟨frame.name, text⟩) s (.project frame [] publicSubjects)
  | reconciled (frame : SwitchFrame) (w : AuthzSubjectRef) (rest : List AuthzSubjectRef)
      (tuples : Tuples)
      (done : projectViewer s.tuples frame.name frame.grants w fault = .ok tuples) :
      SwitchStep s fault (.reconcile frame (w :: rest)) { s with tuples := tuples }
        (frame.reconciling rest)
  | reconcileFailed (frame : SwitchFrame) (w : AuthzSubjectRef) (rest : List AuthzSubjectRef)
      (e : HubError) (failed : projectViewer s.tuples frame.name frame.grants w fault = .error e) :
      SwitchStep s fault (.reconcile frame (w :: rest)) s (.returned (.error e))
  | projected (frame : SwitchFrame) (before : List AuthzSubjectRef) (w : AuthzSubjectRef)
      (rest : List AuthzSubjectRef) (tuples : Tuples)
      (done : projectViewer s.tuples frame.name frame.grants w fault = .ok tuples) :
      SwitchStep s fault (.project frame before (w :: rest)) { s with tuples := tuples }
        (frame.projecting (before ++ [w]) rest)
  | projectFailed (frame : SwitchFrame) (before : List AuthzSubjectRef) (w : AuthzSubjectRef)
      (rest : List AuthzSubjectRef) (e : HubError)
      (failed : projectViewer s.tuples frame.name frame.grants w fault = .error e) :
      SwitchStep s fault (.project frame before (w :: rest)) s (frame.unproject before e)
  | written (frame : SwitchFrame) (skills : List SkillRecord)
      (done : writeSkillVisibility s.skills frame.name frame.visibility = .ok skills) :
      SwitchStep s fault (.write frame) { s with skills := skills } (.reread frame)
  | writeFailed (frame : SwitchFrame) (e : HubError)
      (failed : underFault fault (writeSkillVisibility s.skills frame.name frame.visibility) =
        .error e) :
      SwitchStep s fault (.write frame) s (frame.unwrite e)
  | reread (frame : SwitchFrame) (skill : SkillRecord) :
      SwitchStep s fault (.reread frame) s (.returned (.ok skill))
  | rereadFailed (frame : SwitchFrame) (e : HubError)
      (failed : underFault fault (getSkill s.skills frame.name) = .error e) :
      SwitchStep s fault (.reread frame) s (frame.unwrite e)
  | compensated (name : String) (grant : Bool) (w : AuthzSubjectRef) (rest : List AuthzSubjectRef)
      (e : HubError) (tuples : Tuples)
      (done : projectViewer s.tuples name grant w fault = .ok tuples) :
      SwitchStep s fault (.compensate name grant (w :: rest) e) { s with tuples := tuples }
        (compensating name grant e rest)
  | compensateFailed (name : String) (grant : Bool) (w : AuthzSubjectRef)
      (rest : List AuthzSubjectRef) (e e' : HubError) (call' : SkillVisibilityCall)
      (failed : projectViewer s.tuples name grant w fault = .error e') :
      SwitchStep s fault (.compensate name grant (w :: rest) e) s call'

theorem next_switchStep (taken : call.next s fault = some (s', call')) :
    SwitchStep s fault call s' call' := by
  unfold SkillVisibilityCall.next at taken
  split at taken
  · rename_i request
    cases parsed : SkillVisibility.ofString request.visibility with
    | none =>
      simp only [parsed] at taken
      cases taken
      exact .refused request _
    | some visibility =>
      simp only [parsed] at taken
      split at taken
      · cases taken
        exact .refused request _
      · rename_i current read
        have found := getSkill_eq_ok.mp (underFault_eq_ok.mp read).2
        split_ifs at taken with same
        · cases taken
          exact .unchanged ⟨request.name, visibility, current⟩ _ found parsed same
        · cases taken
          exact .changed ⟨request.name, visibility, current⟩ _ found parsed same
  · split at taken <;> cases taken
    · exact .reconcileFailed _ _ _ _ ‹_›
    · exact .reconciled _ _ _ _ ‹_›
  · split at taken <;> cases taken
    · exact .projectFailed _ _ _ _ _ ‹_›
    · exact .projected _ _ _ _ _ ‹_›
  · split at taken <;> cases taken
    · exact .writeFailed _ _ ‹_›
    · rename_i written
      exact .written _ _ (underFault_eq_ok.mp written).2
  · split at taken <;> cases taken
    · exact .rereadFailed _ _ ‹_›
    · exact .reread _ _
  · split at taken <;> cases taken
    · exact .compensateFailed _ _ _ _ _ _ _ ‹_›
    · exact .compensated _ _ _ _ _ _ ‹_›
  all_goals cases taken

end AisphereHub
