import AisphereHub.Gitengine.Release

/-! The lifecycle of a skill, the gate it puts in front of the git protocol, and the
usecases that write refs through the engine. One skill is modelled: its row and its
repository. The other writers of refs do not read the row. -/
namespace AisphereHub

open GoStrings

variable {β : Type}

inductive SkillStatus where
  | provisioning
  | active
  | disabled
  | archived
  | deleting
deriving DecidableEq

def SkillStatus.ofString : String → Option SkillStatus
  | "provisioning" => some .provisioning
  | "active" => some .active
  | "disabled" => some .disabled
  | "archived" => some .archived
  | "deleting" => some .deleting
  | _ => none

def mutableSkillLifecycle : SkillStatus → Bool
  | .active | .disabled | .archived => true
  | _ => false

def allowedSkillLifecycleTransition : SkillStatus → SkillStatus → Bool
  | .active, next => next == .disabled || next == .archived
  | .disabled, next => next == .active || next == .archived
  | .archived, next => next == .active
  | _, _ => false

/-- `UpdateSkillStatus`: the row changes only from the expected status. -/
def updateSkillStatus (stored expected next : SkillStatus) : Except HubError SkillStatus :=
  if stored = expected then .ok next else .error ⟨.SKILL_NOT_FOUND, ""⟩

/-- `read` is what `GetSkill` answered; `stored` is the row when the update runs. -/
def updateSkillLifecycle (read : Except HubError SkillStatus) (stored : SkillStatus)
    (name next : String) : Except HubError SkillStatus :=
  match SkillStatus.ofString (toLower (trimSpace next)) with
  | none => .error ⟨.SKILL_LIFECYCLE_INVALID, ""⟩
  | some next =>
    if trimSpace name = "" ∨ mutableSkillLifecycle next = false then
      .error ⟨.SKILL_LIFECYCLE_INVALID, ""⟩
    else
      match read with
      | .error e => .error e
      | .ok current =>
        if current = next then .ok stored
        else if allowedSkillLifecycleTransition current next = false then
          .error ⟨.SKILL_LIFECYCLE_INVALID, ""⟩
        else
          match updateSkillStatus stored current next with
          | .error e =>
            if e.code = .SKILL_NOT_FOUND then .error ⟨.SKILL_LIFECYCLE_CONFLICT, ""⟩
            else .error e
          | .ok status => .ok status

theorem updateSkillLifecycle_eq_ok {read}
    (updated : updateSkillLifecycle read stored name next = .ok status) :
    status = stored ∨ SkillStatus.ofString (toLower (trimSpace next)) = some status := by
  unfold updateSkillLifecycle at updated
  cases parsed : SkillStatus.ofString (toLower (trimSpace next)) with
  | none => simp [parsed] at updated
  | some wanted =>
    simp only [parsed] at updated
    split at updated
    · cases updated
    split at updated
    · cases updated
    rename_i current
    split at updated
    · cases updated
      exact .inl rfl
    split at updated
    · cases updated
    by_cases same : stored = current
    · simp only [updateSkillStatus, same, if_true, Except.ok.injEq] at updated
      exact .inr (by rw [updated])
    · simp [updateSkillStatus, same] at updated

/-- `softweb.Action` of a git request. -/
inductive GitAction where
  | read
  | write
deriving DecidableEq

def allowGitLifecycle (status : SkillStatus) (action : GitAction) : Bool :=
  if status = .active then true else status == .archived && action == .read

inductive GateAnswer where
  | notFound
  | unavailable
  | notActive
  | serve
deriving DecidableEq

/-- The handler in front of the git protocol. `fault` is a failure to read the row. -/
def gitHandler (fault : Option String) (status : Option SkillStatus) (action : GitAction) :
    GateAnswer :=
  match fault, status with
  | some _, _ => .unavailable
  | none, none => .notFound
  | none, some status => if allowGitLifecycle status action then .serve else .notActive

structure SkillPrincipal extends FilePrincipal where
  name : String := ""
  authenticated : Bool := true
deriving DecidableEq

def errUnauthenticated : HubError := ⟨.UNAUTHENTICATED, "authenticated principal is required"⟩

def Repository.resolveRef (P : Plumbing β) (a : EngineAnswer β) (r : Repository β) (ref : String) :
    Except HubError String :=
  match a.check .open .plain, a.check .showRef .plain, r.lookup (normalizeRef ref) with
  | .error e, _, _ => .error e
  | .ok _, .error e, _ => .error e
  | .ok _, .ok _, none => .error (.plain "reference does not exist")
  | .ok _, .ok _, some commit => .ok (P.commitHash commit)

/-- `SkillUsecase.RestoreRef`. The check of the head reads the repository as it was
then, `checked`; `a` answers it, and `b` the engine call. -/
def restoreSkillRef (P : Plumbing β) (a b : EngineAnswer β) (checked r : Repository β)
    (principal : SkillPrincipal) (request : RestoreSkillRef) :
    Repository β × Except HubError SkillCommit :=
  if principal.authenticated = false then (r, .error errUnauthenticated)
  else if trimSpace r.name = "" ∨ trimSpace request.sourceRef = "" ∨
      trimSpace request.expectedHeadSHA = "" then (r, .error ⟨.SKILL_INVALID_ARGUMENT, ""⟩)
  else
    let branch := if trimSpace request.targetBranch = "" then "main"
      else trimSpace request.targetBranch
    let targetBranch := trimPrefix (normalizeRef branch) "refs/heads/"
    match checked.resolveRef P a ("refs/heads/" ++ targetBranch) with
    | .error e => (r, .error e)
    | .ok current =>
      if trimSpace current ≠ trimSpace request.expectedHeadSHA then
        (r, .error ⟨.SKILL_RESTORE_STALE, ""⟩)
      else
        restoreRef P b r
          { request with
            sourceRef := trimSpace request.sourceRef
            targetBranch := targetBranch
            expectedHeadSHA := trimSpace request.expectedHeadSHA
            actorID := principal.subjectID
            actorName := if principal.name = "" then principal.subjectID else principal.name
            actorEmail := principal.email
            createTime := if request.createTime = 0 then b.now else request.createTime }

def createSkillRelease (S : SemVer) (P : Plumbing β) (a b : EngineAnswer β) (A : TagAnswer)
    (checked r : Repository β) (principal : SkillPrincipal) (request : CreateSkillRelease) :
    Repository β × Except HubError SkillRelease :=
  if principal.authenticated = false then (r, .error errUnauthenticated)
  else if trimSpace r.name = "" ∨ trimSpace request.expectedCommitSHA = "" then
    (r, .error ⟨.SKILL_INVALID_ARGUMENT, ""⟩)
  else
    match normalizeReleaseVersion S request.version with
    | none => (r, .error ⟨.SKILL_INVALID_ARGUMENT, ""⟩)
    | some version =>
      let sourceRef := if trimSpace request.sourceRef = "" then "refs/heads/main"
        else normalizeRef (trimSpace request.sourceRef)
      match checked.resolveRef P a sourceRef with
      | .error e => (r, .error e)
      | .ok current =>
        if trimSpace current ≠ trimSpace request.expectedCommitSHA then
          (r, .error ⟨.SKILL_RELEASE_STALE, ""⟩)
        else
          createRelease S P b A r
            { request with
              version := version
              sourceRef := sourceRef
              expectedCommitSHA := trimSpace request.expectedCommitSHA
              actorID := principal.subjectID
              actorName :=
                if trimSpace principal.name = "" then principal.subjectID else principal.name
              actorEmail := principal.email
              createTime := if request.createTime = 0 then b.now else request.createTime }

end AisphereHub
