import AisphereHub.Biz.FileUsecase

/-! The update hook of a push and the ref update behind it. Every pushed ref is one
run of the hook, which answers with an exit code and a line on standard error. -/
namespace AisphereHub

open GoStrings

variable {β : Type}

structure HookEnv where
  principalID : String := ""
  principalType : String := ""
  principalTenantID : String := ""
  principalOrgID : String := ""
  repoName : String := ""
  repoPath : String := ""
  gitDefaultBranch : String := ""
deriving DecidableEq

/-- What the hook asks: the principal type of the kernel, the IAM client and its
decision, `git merge-base --is-ancestor`, and `git show`, trimmed. -/
structure HookServices where
  normalize : FilePrincipal → FilePrincipal
  isAuthenticated : FilePrincipal → Bool
  newClient : Option String
  allowed : AuthzCheckRequest → Except String Bool
  isAncestor : String → String → Except String Bool
  gitShow : String → Except String String
  yaml : Yaml

def SkillPermission.text : SkillPermission → String
  | .edit => "edit"
  | .publish => "publish"
  | .manage => "manage"

def HookEnv.defaultBranch (env : HookEnv) : String :=
  if trimSpace env.gitDefaultBranch = "" then "main"
  else trimPrefix (trimSpace env.gitDefaultBranch) "refs/heads/"

variable {env : HookEnv}

def hookPrincipal (services : HookServices) (env : HookEnv) : FilePrincipal :=
  services.normalize
    { subjectID := trimSpace env.principalID
      subjectType := trimSpace env.principalType
      tenantID := trimSpace env.principalTenantID
      orgID := trimSpace env.principalOrgID }

def hookFastForward (services : HookServices) (env : HookEnv) (oldSHA newSHA : String) :
    Except String Bool :=
  if isZero oldSHA || isZero newSHA then .ok false
  else if trimSpace env.repoPath = "" then .error "repository path is missing"
  else services.isAncestor oldSHA newSHA

def authorizeRefUpdate (services : HookServices) (principal : FilePrincipal) (repository : String)
    (permission : SkillPermission) : Except String Unit :=
  match services.allowed
      { subject := { type := principal.subjectType, id := principal.subjectID }
        resource := ⟨"skill", repository⟩
        permission := permission
        tenantID := principal.tenantID
        orgID := principal.orgID } with
  | .error cause =>
    .error ("authorize " ++ permission.text ++ " on skill " ++ repository ++ ": " ++ cause)
  | .ok false => .error ("permission " ++ permission.text ++ " denied on skill " ++ repository)
  | .ok true => .ok ()

/-- The metadata check of `RunHook`, of the default branch only and not of its
deletion. -/
def checkPushedMetadata (services : HookServices) (env : HookEnv) (repository ref newSHA : String) :
    Nat × String :=
  if trimPrefix (normalizeRef ref) "refs/heads/" = env.defaultBranch ∧ isZero newSHA = false then
    match services.gitShow (newSHA ++ ":SKILL.md") with
    | .error cause => (1, "skillhub: read default-branch SKILL.md: " ++ cause)
    | .ok content =>
      match parseSkillMetadata services.yaml repository content with
      | .error cause => (1, "skillhub: invalid default-branch metadata: " ++ cause)
      | .ok _ => (0, "")
  else (0, "")

def updateHook (services : HookServices) (env : HookEnv) (ref oldSHA newSHA : String) :
    Nat × String :=
  let principal := hookPrincipal services env
  let repository := trimSpace env.repoName
  if services.isAuthenticated principal = false then
    (1, "skillhub: authenticated principal missing from push")
  else if repository = "" then (1, "skillhub: repository identity missing from push")
  else
    match services.newClient, hookFastForward services env oldSHA newSHA with
    | some cause, _ => (1, "skillhub: initialize IAM authorization: " ++ cause)
    | none, .error cause => (1, "skillhub: inspect ref update: " ++ cause)
    | none, .ok fastForward =>
      match authorizeRefUpdate services principal repository
          (requiredPermissionForRefUpdate env.gitDefaultBranch ref oldSHA newSHA fastForward) with
      | .error cause => (1, "skillhub: " ++ cause)
      | .ok _ => checkPushedMetadata services env repository ref newSHA

/-- Only the hook named `update` enforces anything. -/
def runHook (services : HookServices) (env : HookEnv) : List String → Nat × String
  | ["update", ref, oldSHA, newSHA] => updateHook services env ref oldSHA newSHA
  | "update" :: _ => (2, "skillhub: update hook expects ref old-sha new-sha")
  | _ => (0, "")

def Repository.setRef (r : Repository β) (name : String) (commit : Option (Commit β)) :
    Repository β :=
  { r with refs := Keyed.remove Ref.name r.refs name ++
      (commit.map fun value => (⟨name, value⟩ : Ref β)).toList }

/-- The object name of a ref's value in a push; a ref that is not there has the
zero name. -/
def pushedSHA (P : Plumbing β) (commit : Option (Commit β)) : String :=
  (commit.map P.commitHash).getD zeroHash

/-- `git show` of a pushed object; `services` says whether the command fails. -/
def HookServices.serving (services : HookServices) (P : Plumbing β) (new : Option (Commit β)) :
    HookServices :=
  { services with
    yaml := P.yaml
    gitShow := fun object =>
      match services.gitShow object, new with
      | .error cause, _ => .error cause
      | .ok other, none => .ok other
      | .ok other, some commit =>
        if object = P.commitHash commit ++ ":SKILL.md" then gitShowSkill P commit else .ok other }

variable {services : HookServices}

/-- One ref of a push: git updates it if the hook exits with zero. The engine names
the repository and the default branch in the environment of the hook. -/
def receivePack (P : Plumbing β) (services : HookServices) (env : HookEnv) (defaultBranch : String)
    (r : Repository β) (ref : String) (new : Option (Commit β)) : Option (Repository β) :=
  let env := { env with repoName := r.name, gitDefaultBranch := defaultBranch }
  let args := ["update", ref, pushedSHA P (r.lookup ref), pushedSHA P new]
  if (runHook (services.serving P new) env args).1 = 0 then some (r.setRef ref new) else none

theorem updateHook_eq_zero
    (accepted : (updateHook services env ref oldSHA newSHA).1 = 0) :
    (checkPushedMetadata services env (trimSpace env.repoName) ref newSHA).1 = 0 := by
  unfold updateHook at accepted
  by_cases anonymous : services.isAuthenticated (hookPrincipal services env) = false
  · simp [anonymous] at accepted
  by_cases unnamed : trimSpace env.repoName = ""
  · simp [anonymous, unnamed] at accepted
  rw [if_neg anonymous, if_neg unnamed] at accepted
  cases client : services.newClient with
  | some cause => simp [client] at accepted
  | none =>
    cases forward : hookFastForward services env oldSHA newSHA with
    | error cause => simp [client, forward] at accepted
    | ok fastForward =>
      simp only [client, forward] at accepted
      split at accepted
      · cases accepted
      · exact accepted

theorem receivePack_eq_some {defaultBranch} {new : Option (Commit β)}
    (pushed : receivePack P services env defaultBranch r ref new = some r') :
    r' = r.setRef ref new ∧ (checkPushedMetadata (services.serving P new)
        { env with repoName := r.name, gitDefaultBranch := defaultBranch } (trimSpace r.name) ref
        (pushedSHA P new)).1 = 0 := by
  unfold receivePack at pushed
  simp only [runHook] at pushed
  split_ifs at pushed with accepted
  exact ⟨(Option.some.inj pushed).symm, updateHook_eq_zero accepted⟩

theorem receivePack_default {commit : Commit β}
    (pushed : receivePack P services env "main" r skillDefaultRef (some commit) = some r') :
    ∃ content, gitShowSkill P commit = .ok content ∧
      (parseSkillMetadata P.yaml (trimSpace r.name) content).isOk = true := by
  obtain ⟨_, checked⟩ := receivePack_eq_some pushed
  have default : trimPrefix (normalizeRef skillDefaultRef) "refs/heads/" = "main" := by decide
  have branch : HookEnv.defaultBranch { env with repoName := r.name, gitDefaultBranch := "main" } =
      "main" := by
    simp only [HookEnv.defaultBranch]
    decide
  have live : isZero (pushedSHA P (some commit)) = false := P.commitHash_nonzero commit
  have named : pushedSHA P (some commit) = P.commitHash commit := rfl
  unfold checkPushedMetadata at checked
  rw [if_pos ⟨default.trans branch.symm, live⟩, named] at checked
  simp only [HookServices.serving] at checked
  cases run : services.gitShow (P.commitHash commit ++ ":SKILL.md") with
  | error cause => simp [run] at checked
  | ok other =>
    simp only [run, if_true] at checked
    cases shown : gitShowSkill P commit with
    | error cause => simp [shown] at checked
    | ok content =>
      refine ⟨content, rfl, ?_⟩
      cases parsed : parseSkillMetadata P.yaml (trimSpace r.name) content with
      | error cause => simp [shown, parsed] at checked
      | ok metadata => rfl

def openServices : HookServices where
  normalize := id
  isAuthenticated _ := true
  newClient := none
  allowed _ := .ok true
  isAncestor _ _ := .ok true
  gitShow _ := .ok ""
  yaml := plainYaml

end AisphereHub
