import AisphereHub.Biz.SkillLifecycle

/-! The rows of the skills and the tuples on them. A row is a repository joined
with its profile; the profile goes when the repository does. `fault` is what the
database fails with, and a failing statement has no effect. -/
namespace AisphereHub

open GoStrings

inductive SkillVisibility where
  | «private»
  | internal
  | «public»
deriving DecidableEq

def SkillVisibility.ofString : String → Option SkillVisibility
  | "private" => some .private
  | "internal" => some .internal
  | "public" => some .public
  | _ => none

/-- The columns of a `GitSkill` the usecases read or write. -/
structure SkillRecord where
  name : String
  displayName : String := ""
  description : String := ""
  orgID : String := ""
  projectID : String := ""
  ownerID : String := ""
  ownerType : String := ""
  ownerName : String := ""
  visibility : SkillVisibility := .private
  status : SkillStatus := .provisioning
deriving DecidableEq

def SkillRecord.switched (skill : SkillRecord) (visibility : SkillVisibility) : SkillRecord :=
  { skill with visibility := visibility }

def SkillRecord.transitioned (skill : SkillRecord) (status : SkillStatus) : SkillRecord :=
  { skill with status := status }

structure SkillTables where
  skills : List SkillRecord := []
  tuples : Tuples := []
deriving DecidableEq

def underFault {α : Type} (fault : Option String) (result : Except HubError α) :
    Except HubError α :=
  match fault with
  | some cause => .error (.plain cause)
  | none => result

def failAt {κ : Type} [DecidableEq κ] (failing : Option (κ × String)) (step : κ) : Option String :=
  match failing with
  | none => none
  | some (failed, cause) => if step = failed then some cause else none

def getSkill (skills : List SkillRecord) (name : String) : Except HubError SkillRecord :=
  match Keyed.lookup SkillRecord.name skills (trimSpace name) with
  | none => .error ⟨.SKILL_NOT_FOUND, ""⟩
  | some skill => .ok skill

def insertSkill (skills : List SkillRecord) (skill : SkillRecord) : Except HubError (List SkillRecord) :=
  match Keyed.lookup SkillRecord.name skills skill.name with
  | some _ => .error ⟨.SKILL_ALREADY_EXISTS, ""⟩
  | none => .ok (skills ++ [skill])

/-- The guarded update of a row; no row affected is answered as not found. -/
def updateSkillRow (skills : List SkillRecord) (name : String) (guard : SkillRecord → Bool)
    (f : SkillRecord → SkillRecord) : Except HubError (List SkillRecord) :=
  match Keyed.update SkillRecord.name skills (trimSpace name) guard f with
  | none => .error ⟨.SKILL_NOT_FOUND, ""⟩
  | some out => .ok out.1

/-- The transaction of `UpdateSkillVisibility`; the call rereads the row after it. -/
def writeSkillVisibility (skills : List SkillRecord) (name : String) (visibility : SkillVisibility) :
    Except HubError (List SkillRecord) :=
  updateSkillRow skills name (fun _ => true) (·.switched visibility)

/-- The statement of `UpdateSkillStatus`; the call rereads the row after it. -/
def writeSkillStatus (skills : List SkillRecord) (name : String) (expected next : SkillStatus) :
    Except HubError (List SkillRecord) :=
  updateSkillRow skills name (fun skill => skill.status = expected) (·.transitioned next)

def deleteRepository (skills : List SkillRecord) (name : String) : List SkillRecord :=
  Keyed.remove SkillRecord.name skills name

theorem underFault_eq_ok {x : α} :
    underFault fault result = .ok x ↔ fault = none ∧ result = .ok x := by
  cases fault <;> simp [underFault]

theorem underFault_eq_error {result : Except HubError α}
    (failed : underFault fault result = .error e) (fine : result.isOk = true) :
    fault.isSome = true := by
  cases fault with
  | some cause => rfl
  | none =>
    simp only [underFault] at failed
    simp [failed, Except.isOk, Except.toBool] at fine

theorem getSkill_eq_ok : getSkill skills name = .ok skill ↔
      Keyed.lookup SkillRecord.name skills (trimSpace name) = some skill := by
  unfold getSkill
  cases Keyed.lookup SkillRecord.name skills (trimSpace name) <;> simp

theorem insertSkill_eq_ok : insertSkill skills skill = .ok skills' ↔
      Keyed.lookup SkillRecord.name skills skill.name = none ∧ skills' = skills ++ [skill] := by
  unfold insertSkill
  cases Keyed.lookup SkillRecord.name skills skill.name <;> simp [eq_comm]

theorem updateSkillRow_eq_ok {guard} :
    updateSkillRow skills name guard f = .ok skills' ↔
      ∃ skill, Keyed.lookup SkillRecord.name skills (trimSpace name) = some skill ∧
        guard skill = true ∧ skills' = Keyed.amend SkillRecord.name skills (trimSpace name) f := by
  unfold updateSkillRow Keyed.update
  cases Keyed.lookup SkillRecord.name skills (trimSpace name) with
  | none => simp
  | some skill =>
    by_cases pass : guard skill = true
    · simp only [pass, if_true, Except.ok.injEq, Option.some.injEq, exists_eq_left', true_and]
      exact eq_comm
    · simp [pass]

end AisphereHub
