import AisphereHub.Biz.SkillUsecase

/-! What the removal of a share and the deletion of a skill leave behind. -/
namespace AisphereHub

open GoStrings Keyed

/-- The request of the service, which has no field for the subject's own relation. -/
structure DeleteSkillShareRequest where
  name : String
  relation : String
  subjectType : String
  subjectID : String
deriving DecidableEq

def SkillShare.request (share : SkillShare) : DeleteSkillShareRequest :=
  ⟨share.skillName, share.relation, share.subjectType, share.subjectID⟩

def SkillService.deleteSkillShare (tuples : Tuples) (request : DeleteSkillShareRequest)
    (fault : Option String) : Except HubError Tuples :=
  AisphereHub.deleteSkillShare tuples
    { skillName := request.name
      relation := request.relation
      subjectType := request.subjectType
      subjectID := request.subjectID } fault

def RemovesAtMost (tuples : Tuples) (named : AuthzRelationship) (result : Except HubError Tuples) :
    Prop :=
  ∀ left, result = .ok left → (∀ r ∈ left, r ∈ tuples) ∧ ∀ r ∈ tuples, r ≠ named → r ∈ left

/-- The tuple is on the skill and its subject has the type and the id of the share, where
an empty field of the share stands for any. -/
def SkillShare.reaches (share : SkillShare) (r : AuthzRelationship) : Bool :=
  r.resource.type = "skill" && fieldMatches share.skillName r.resource.id &&
    fieldMatches share.subjectType r.subject.type && fieldMatches share.subjectID r.subject.id

theorem reaches_iff (share : SkillShare) (r : AuthzRelationship) :
    (revokeAllFilter (skillResource share.skillName) share.subject).matches r = share.reaches r := by
  rw [Bool.eq_iff_iff]
  simp only [AuthzRelationshipFilter.matches, revokeAllFilter, skillResource, SkillShare.reaches,
    SkillShare.subject, Bool.and_eq_true, fieldMatches_iff (by decide : "skill" ≠ ""),
    fieldMatches_empty, and_true, decide_eq_true_eq]

theorem deleteSkillShare_left
    (deleted : deleteSkillShare tuples share fault = .ok left) (r : AuthzRelationship) :
    r ∈ left ↔ r ∈ tuples ∧ share.reaches r = false := by
  obtain ⟨_, _, rfl⟩ := deleteRelationships_eq_ok.mp deleted
  rw [List.mem_filter, reaches_iff, Bool.not_eq_true']

theorem deleteSkillShare_ok (tuples : Tuples) (share : SkillShare) :
    ∃ left, deleteSkillShare tuples share none = .ok left :=
  ⟨_, deleteRelationships_eq_ok.mpr ⟨by simp [revokeAllFilter, skillResource], rfl, rfl⟩⟩

theorem removesAtMost_iff (tuples : Tuples) (share : SkillShare) (named : AuthzRelationship) :
    (∀ fault, RemovesAtMost tuples named (deleteSkillShare tuples share fault)) ↔
      ∀ r ∈ tuples, share.reaches r = true → r = named := by
  constructor
  · intro removes r member reached
    obtain ⟨left, deleted⟩ := deleteSkillShare_ok tuples share
    by_contra other
    have kept := (removes none left deleted).2 r member other
    rw [deleteSkillShare_left deleted, reached] at kept
    cases kept.2
  · intro exact fault left deleted
    constructor
    · intro r member
      exact ((deleteSkillShare_left deleted r).mp member).1
    · intro r member other
      rw [deleteSkillShare_left deleted]
      refine ⟨member, ?_⟩
      by_contra reached
      rw [Bool.not_eq_false] at reached
      exact other (exact r member reached)

/-- The removal of a share, through the usecase and through the service, removes at most
the tuple it names exactly when no other tuple of the skill has a matching subject. -/
theorem share_removal_exact_iff (tuples : Tuples) (share : SkillShare) :
    ((∀ fault, RemovesAtMost tuples share.tuple (deleteSkillShare tuples share fault)) ∧
      ∀ fault, RemovesAtMost tuples share.tuple
        (SkillService.deleteSkillShare tuples share.request fault)) ↔
      ∀ r ∈ tuples, share.reaches r = true → r = share.tuple := by
  have service := removesAtMost_iff tuples { share with subjectRelation := "" } share.tuple
  rw [removesAtMost_iff]
  constructor
  · exact And.left
  · intro exact
    exact ⟨exact, service.mpr exact⟩

def weatherTuples : Tuples :=
  [⟨skillResource "weather", "owner", { type := "user", id := "ada" }⟩,
    ⟨skillResource "weather", "zone", { type := "zone", id := "acme" }⟩,
    ⟨skillResource "weather", "editor", { type := "user", id := "bob" }⟩]

theorem editor_removal_exact :
    (∀ fault, RemovesAtMost weatherTuples ⟨skillResource "weather", "editor", ⟨"user", "bob", ""⟩⟩
      (deleteSkillShare weatherTuples ⟨"weather", "editor", "user", "bob", ""⟩ fault)) ∧
    ∀ fault, RemovesAtMost weatherTuples ⟨skillResource "weather", "editor", ⟨"user", "bob", ""⟩⟩
      (SkillService.deleteSkillShare weatherTuples ⟨"weather", "editor", "user", "bob"⟩ fault) :=
  (share_removal_exact_iff weatherTuples ⟨"weather", "editor", "user", "bob", ""⟩).mpr
    (by decide +kernel)

/-- Removing a viewer share of the owner takes the owner's tuple, and a request without a
subject takes every tuple of the skill. -/
theorem owner_removed_with_share :
    deleteSkillShare weatherTuples ⟨"weather", "viewer", "user", "ada", ""⟩ none =
      .ok (weatherTuples.drop 1) ∧
    deleteSkillShare weatherTuples ⟨"weather", "viewer", "", "", ""⟩ none = .ok [] ∧
    ¬ ∀ fault, RemovesAtMost weatherTuples ⟨skillResource "weather", "viewer", ⟨"user", "ada", ""⟩⟩
      (deleteSkillShare weatherTuples ⟨"weather", "viewer", "user", "ada", ""⟩ fault) := by
  have taken : deleteSkillShare weatherTuples ⟨"weather", "viewer", "user", "ada", ""⟩ none =
      .ok (weatherTuples.drop 1) := by decide +kernel
  refine ⟨taken, by decide +kernel, ?_⟩
  intro removes
  have kept := (removes none _ taken).2 ⟨skillResource "weather", "owner", ⟨"user", "ada", ""⟩⟩
  revert kept
  decide +kernel

section Deletion

variable {s : SkillTables} {name : String} {skill : SkillRecord}

/-- Deleting again, with every dependency working and no agent in the way, removes the
skill and all tuples on it. -/
def FinishesDeletion (s : SkillTables) (name : String) : Prop :=
  let again := deleteSkill s [] name fun _ => none
  again.2 = .ok () ∧ lookup SkillRecord.name again.1.skills (trimSpace name) = none ∧
    ∀ r ∈ again.1.tuples, r.resource ≠ skillResource (trimSpace name)

def SkillTables.marked (s : SkillTables) (name : String) : List SkillRecord :=
  amend SkillRecord.name s.skills (trimSpace name) (·.transitioned .deleting)

theorem getSkill_trimmed
    (found : lookup SkillRecord.name skills (trimSpace name) = some skill) :
    getSkill skills (trimSpace name) = .ok skill := by
  rw [getSkill_eq_ok, trimSpace_trimSpace]
  exact found

def DeleteStep.early : DeleteStep → Bool
  | .references | .read | .writeStatus => true
  | _ => false

section Marked

variable (found : lookup SkillRecord.name s.skills (trimSpace name) = some skill)

include found

theorem lookup_marked : lookup SkillRecord.name (s.marked name) (trimSpace name) =
      some (skill.transitioned .deleting) :=
  lookup_amend_self (SkillRecord.transitioned · .deleting) (fun _ => rfl) found

theorem writeSkillStatus_marked :
    writeSkillStatus s.skills (trimSpace name) skill.status .deleting = .ok (s.marked name) := by
  refine updateSkillRow_eq_ok.mpr ⟨skill, ?_, by simp, ?_⟩
  · rw [trimSpace_trimSpace]
    exact found
  · rw [trimSpace_trimSpace]
    rfl

/-- A deletion of a stored skill that no agent binds and whose first steps work: what
follows once the row is marked. -/
theorem deleteSkill_marked (deletable : mutableSkillLifecycle skill.status = true)
    (works : ∀ step, step.early = true → faults step = none) : deleteSkill s [] name faults =
      removeMarked { s with skills := s.marked name } (trimSpace name) faults := by
  unfold deleteSkill
  simp only [works .references rfl, works .read rfl, works .writeStatus rfl, underFault,
    getSkill_trimmed found, deletable, writeSkillStatus_marked found, ne_eq, not_true_eq_false,
    if_false, Bool.true_eq_false]

theorem finishes_of_mutable
    (deletable : mutableSkillLifecycle skill.status = true) : FinishesDeletion s name := by
  have revoked : revokeResource s.tuples (skillResource (trimSpace name)) none = .ok _ :=
    deleteRelationships_eq_ok.mpr ⟨by simp [skillResource], rfl, rfl⟩
  unfold FinishesDeletion
  rw [deleteSkill_marked found deletable (fun _ _ => rfl)]
  simp only [removeMarked, underFault, getSkill_trimmed (lookup_marked found), revoked]
  refine ⟨trivial, ?_, ?_⟩
  · rw [deleteRepository, lookup_remove, if_pos rfl]
  · intro r member same
    have kept := (List.mem_filter.mp member).2
    simp [AuthzRelationshipFilter.matches, fieldMatches, same] at kept

theorem not_finishes_of_deleting (deleting : skill.status = .deleting) :
    ¬FinishesDeletion s name := by
  intro finishes
  have refused : (deleteSkill s [] name fun _ => none).2 = .error ⟨.SKILL_LIFECYCLE_INVALID, ""⟩ := by
    simp [deleteSkill, underFault, getSkill_trimmed found, deleting, mutableSkillLifecycle]
  have answered := finishes.1
  rw [refused] at answered
  cases answered

theorem deleteSkill_unchanged (stopped : refs ≠ [] ∨ step.early = true) :
    (deleteSkill s refs name (failAt (some (step, cause)))).1 = s := by
  by_cases bound : refs = []
  · subst bound
    cases step with
    | references => rfl
    | read => simp [deleteSkill, failAt, underFault]
    | writeStatus =>
      simp only [deleteSkill, failAt, underFault, getSkill_trimmed found]
      simp only [reduceCtorEq, if_false, if_true, ne_eq, not_true_eq_false]
      split_ifs <;> rfl
    | rereadStatus | revokeResource | deleteRepository => simp [DeleteStep.early] at stopped
  · unfold deleteSkill
    split
    · rfl
    · rw [if_pos bound]

theorem deleteSkill_leaves_marked (cause : String)
    (deletable : mutableSkillLifecycle skill.status = true) (late : step.early = false) :
    (deleteSkill s [] name (failAt (some (step, cause)))).1.skills = s.marked name := by
  have revoked : revokeResource s.tuples (skillResource (trimSpace name)) none = .ok _ :=
    deleteRelationships_eq_ok.mpr ⟨by simp [skillResource], rfl, rfl⟩
  have failing : revokeResource s.tuples (skillResource (trimSpace name)) (some cause) =
      .error ⟨.AUTHZ_BACKEND_FAILED, cause⟩ := rfl
  have reread := getSkill_trimmed (lookup_marked found)
  rw [deleteSkill_marked found deletable]
  · cases step with
    | rereadStatus => rfl
    | revokeResource => simp [removeMarked, failAt, underFault, reread, failing]
    | deleteRepository => simp [removeMarked, failAt, underFault, reread, revoked]
    | references | read | writeStatus => cases late
  · intro other early
    have apart : other ≠ step := by
      intro same
      rw [same, late] at early
      cases early
    simp [failAt, apart]

end Marked

/-- Of the steps of a deletion, exactly those before the row is marked leave a skill whose
deletion can be finished, unless an agent stood in the way. -/
theorem deletion_finishes_iff (refs : List AgentRef) (step : DeleteStep) (cause : String)
    (found : lookup SkillRecord.name s.skills (trimSpace name) = some skill)
    (deletable : mutableSkillLifecycle skill.status = true) :
    FinishesDeletion (deleteSkill s refs name (failAt (some (step, cause)))).1 name ↔
      refs ≠ [] ∨ step.early = true := by
  constructor
  · intro finishes
    by_contra stopped
    rw [not_or, not_not, Bool.not_eq_true] at stopped
    obtain ⟨rfl, late⟩ := stopped
    have marked := lookup_marked found
    rw [← deleteSkill_leaves_marked found cause deletable late] at marked
    exact not_finishes_of_deleting marked rfl finishes
  · intro stopped
    rw [deleteSkill_unchanged found stopped]
    exact finishes_of_mutable found deletable

end Deletion

def storedWeather : SkillTables where
  skills := [{ name := "weather", status := .active }]
  tuples := weatherTuples

theorem unread_deletion_finishes :
    FinishesDeletion (deleteSkill storedWeather [] " weather "
      (failAt (some (.writeStatus, "down")))).1 " weather " := by
  have found : lookup SkillRecord.name storedWeather.skills (trimSpace " weather ") =
      some { name := "weather", status := .active } := by decide +kernel
  exact (deletion_finishes_iff [] .writeStatus "down" found rfl).mpr (.inr rfl)

/-- After a failed revocation or a failed removal of the repository the skill stays marked,
and deleting it again is refused. -/
theorem marked_deletion_stuck :
    (deleteSkill (deleteSkill storedWeather [] "weather"
      (failAt (some (.revokeResource, "down")))).1 [] "weather" fun _ => none).2 =
        .error ⟨.SKILL_LIFECYCLE_INVALID, ""⟩ ∧
    ¬FinishesDeletion (deleteSkill storedWeather [] "weather"
      (failAt (some (.revokeResource, "down")))).1 "weather" ∧
    ¬FinishesDeletion (deleteSkill storedWeather [] "weather"
      (failAt (some (.deleteRepository, "down")))).1 "weather" := by
  refine ⟨by decide +kernel, ?_, ?_⟩
  · exact fun finishes => absurd finishes.1 (by decide +kernel)
  · exact fun finishes => absurd finishes.1 (by decide +kernel)

end AisphereHub
