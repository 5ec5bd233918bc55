import AisphereHub.Biz.SkillLifecycle
import AisphereHub.Foundation.Transition
import AisphereHub.Proof.RejectedWrite

/-! A skill that is not active, while calls and pushes are served. -/
namespace AisphereHub

open GoStrings Transition

variable {β : Type} {S : SemVer} {P : Plumbing β}

/-- A skill while requests are served: its row, its repository, and the pushes that
have passed the gate. -/
structure SkillHub (β : Type) where
  status : SkillStatus
  repository : Repository β
  pushing : List Nat := []

/-- The steps of a run. A push passes the gate, updates its refs one by one, and ends;
every other call moves its ref in one step. -/
inductive HubStep (β : Type) where
  | lifecycle (read : Except HubError SkillStatus) (name next : String)
  | gitRequest (id : Nat) (action : GitAction) (fault : Option String)
  | gitUpdate (id : Nat) (services : HookServices) (env : HookEnv) (defaultBranch ref : String)
      (new : Option (Commit β))
  | gitDone (id : Nat)
  | fileWrite (authz : Option (AuthzCheckRequest → Except HubError Unit)) (a : EngineAnswer β)
      (principal : FilePrincipal) (edit : FileEdit) (verb path message branch : String)
  | merge (a : EngineAnswer β) (sourceRef targetRef expectedTargetSHA : String)
  | restore (a b : EngineAnswer β) (checked : Repository β) (principal : SkillPrincipal)
      (request : RestoreSkillRef)
  | release (a b : EngineAnswer β) (A : TagAnswer) (checked : Repository β)
      (principal : SkillPrincipal) (request : CreateSkillRelease)

def HubStep.ungated : HubStep β → Bool
  | .fileWrite .. | .merge .. | .restore .. | .release .. => true
  | _ => false

def hubStep (S : SemVer) (P : Plumbing β) (s : SkillHub β) : HubStep β → Option (SkillHub β)
  | .lifecycle read name next =>
    match updateSkillLifecycle read s.status name next with
    | .error _ => some s
    | .ok status => some { s with status := status }
  | .gitRequest id action fault =>
    if gitHandler fault (some s.status) action = .serve ∧ action = .write then
      some { s with pushing := id :: s.pushing }
    else some s
  | .gitUpdate id services env defaultBranch ref new =>
    if id ∈ s.pushing then
      (receivePack P services env defaultBranch s.repository ref new).map fun r =>
        { s with repository := r }
    else none
  | .gitDone id => some { s with pushing := s.pushing.filter (· ≠ id) }
  | .fileWrite authz a principal edit verb path message branch =>
    some { s with repository :=
      (fileWrite P authz a s.repository principal edit verb path message branch).1 }
  | .merge a sourceRef targetRef expectedTargetSHA =>
    some { s with repository :=
      (mergeRefs P a s.repository sourceRef targetRef expectedTargetSHA).1 }
  | .restore a b checked principal request =>
    some { s with repository := (restoreSkillRef P a b checked s.repository principal request).1 }
  | .release a b A checked principal request =>
    some { s with repository :=
      (createSkillRelease S P a b A checked s.repository principal request).1 }

def SkillStatus.inactive : SkillStatus → Bool
  | .disabled | .archived | .deleting => true
  | _ => false

def Freezes (S : SemVer) (P : Plumbing β) (s : SkillHub β) (i : HubStep β) : Prop :=
  s.status.inactive = true → ∀ t, hubStep S P s i = some t → RefsKept s.repository t.repository

/-- What keeps an inactive skill frozen: no call without a gate is made while it is
inactive, and it is asked to become inactive only while no push is served. -/
def Respects (s : SkillHub β) : HubStep β → Prop
  | .lifecycle _ _ next => ∀ status, SkillStatus.ofString (toLower (trimSpace next)) = some status →
      status.inactive = true → s.pushing = []
  | i => i.ungated = true → s.status.inactive = false

def Settled (s : SkillHub β) : Prop := s.status.inactive = true → s.pushing = []

theorem gitHandler_serves
    (served : gitHandler fault (some status) .write = .serve) : status = .active := by
  cases fault with
  | some cause => cases served
  | none =>
    cases status with
    | active => rfl
    | _ => cases served

theorem freezes_of_respects (s : SkillHub β) (i : HubStep β) (settled : Settled s)
    (respects : Respects s i) : Freezes S P s i := by
  intro inactive t taken
  have quiet := settled inactive
  cases i with
  | lifecycle read name next =>
    simp only [hubStep] at taken
    split at taken <;> cases taken <;> exact fun _ => rfl
  | gitRequest id action fault =>
    simp only [hubStep] at taken
    split_ifs at taken <;> cases taken <;> exact fun _ => rfl
  | gitUpdate id services env defaultBranch ref new => simp [hubStep, quiet] at taken
  | gitDone id =>
    cases taken
    exact fun _ => rfl
  | _ => exact absurd inactive (by simp [respects rfl])

theorem settled_step (s : SkillHub β) (i : HubStep β) (t : SkillHub β) (respects : Respects s i)
    (settled : Settled s) (taken : hubStep S P s i = some t) : Settled t := by
  cases i with
  | lifecycle read name next =>
    simp only [hubStep] at taken
    split at taken
    · cases taken
      exact settled
    · rename_i status updated
      cases taken
      intro inactive
      rcases updateSkillLifecycle_eq_ok updated with rfl | wanted
      · exact settled inactive
      · exact respects status wanted inactive
  | gitRequest id action fault =>
    simp only [hubStep] at taken
    split_ifs at taken with served
    · cases taken
      obtain ⟨served, rfl⟩ := served
      intro inactive
      rw [gitHandler_serves served] at inactive
      cases inactive
    · cases taken
      exact settled
  | gitUpdate id services env defaultBranch ref new =>
    simp only [hubStep] at taken
    split_ifs at taken
    obtain ⟨r, _, rfl⟩ := Option.map_eq_some_iff.mp taken
    exact settled
  | gitDone id =>
    cases taken
    intro inactive
    simp [settled inactive]
  | _ =>
    cases taken
    exact settled

/-- A run in which every step respects the lifecycle freezes the skill while it is
inactive. -/
theorem inactive_skill_frozen (S : SemVer) (P : Plumbing β) (start : SkillHub β)
    (labels : List (HubStep β)) (idle : start.pushing = [])
    (respects : Guarded (hubStep S P) Respects start labels) :
    Guarded (hubStep S P) (Freezes S P) start labels :=
  guarded_of_invariant (I := Settled) freezes_of_respects settled_step
    (fun _ => idle) respects

def weatherHub (status : SkillStatus) : SkillHub String := ⟨status, weatherRepository, []⟩

def releaseFirst : HubStep String :=
  .release {} { revParse := fun name => if name = "c" then weatherRepository.lookup skillDefaultRef
      else none } (oneCommit ["v1.0.0"]) weatherRepository { subjectID := "ada" }
    { version := "1.0.0", sourceRef := "main", expectedCommitSHA := "c" }

def pushDev : HubStep String :=
  .gitUpdate 1 openServices { repoPath := "/srv" } "main" "refs/heads/dev"
    (some { tree := weatherTree })

def addNotes : HubStep String :=
  .fileWrite none {} {} (.create "Rain.") "Create " "NOTES.md" "" "main"

theorem archived_weather_frozen :
    Guarded (hubStep coreSemVer plainPlumbing) (Freezes coreSemVer plainPlumbing)
      (weatherHub .active)
      [addNotes, .lifecycle (.ok .active) "weather" " Archived ", .gitRequest 1 .read none,
        .gitRequest 2 .write none] := by
  refine inactive_skill_frozen coreSemVer plainPlumbing (weatherHub .active) _ rfl ?_
  refine ⟨fun _ => rfl, ?_⟩
  rintro s ⟨⟩
  refine ⟨fun _ _ _ => rfl, fun t _ => ⟨?_, fun u _ => ⟨?_, fun _ _ => trivial⟩⟩⟩
  · intro gate
    cases gate
  · intro gate
    cases gate

/-- An archived skill still takes a file and a release, and a push that passed the
gate before the skill was archived still updates its refs. -/
theorem archived_weather_changes :
    (∃ t, hubStep coreSemVer plainPlumbing (weatherHub .archived) addNotes = some t ∧
      ¬RefsKept weatherRepository t.repository) ∧
    (∃ t, hubStep coreSemVer plainPlumbing (weatherHub .archived) releaseFirst = some t ∧
      ¬RefsKept weatherRepository t.repository) ∧
    ∃ s t, run (hubStep coreSemVer plainPlumbing) (weatherHub .active)
        [.gitRequest 1 .write none, .lifecycle (.ok .active) "weather" " Archived "] = some s ∧
      s.status = .archived ∧ hubStep coreSemVer plainPlumbing s pushDev = some t ∧
      ¬RefsKept s.repository t.repository := by
  refine ⟨⟨_, rfl, not_refsKept skillDefaultRef (by decide +kernel)⟩,
    ⟨_, rfl, not_refsKept "refs/tags/v1.0.0" (by decide +kernel)⟩, ?_⟩
  obtain ⟨s, ran, archived, t, taken, moved⟩ : ∃ s, run (hubStep coreSemVer plainPlumbing)
        (weatherHub .active)
        [.gitRequest 1 .write none, .lifecycle (.ok .active) "weather" " Archived "] = some s ∧
      s.status = .archived ∧ ∃ t, hubStep coreSemVer plainPlumbing s pushDev = some t ∧
      (t.repository.lookup "refs/heads/dev").map Commit.parents ≠
        (s.repository.lookup "refs/heads/dev").map Commit.parents := by
    decide +kernel
  exact ⟨s, t, ran, archived, taken, not_refsKept "refs/heads/dev" moved⟩

end AisphereHub
