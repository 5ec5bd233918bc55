import AisphereHub.Biz.Authz
import AisphereHub.Gitengine.Engine
import AisphereHub.Gitengine.File

/-! The writes of the file API. They bypass the update hook of `git push`, so the
usecase asks for the permission itself before it calls the engine. -/
namespace AisphereHub

open GoStrings

variable {β : Type}

structure FilePrincipal where
  subjectType : String := ""
  subjectID : String := ""
  tenantID : String := ""
  orgID : String := ""
  username : String := ""
  email : String := ""
deriving DecidableEq

structure AuthzCheckRequest where
  subject : AuthzSubjectRef
  resource : AuthzObjectRef
  permission : SkillPermission
  tenantID : String
  orgID : String
deriving DecidableEq

def principalSubject (principal : FilePrincipal) : AuthzSubjectRef where
  type := if principal.subjectType = "" then "user" else principal.subjectType
  id := principal.subjectID

def writePermissionFor (ref : String) : SkillPermission :=
  let ref := trimSpace ref
  if ref = "" ∨ ref = "HEAD" ∨ ref = "refs/heads/main" ∨ ref = "main" then .publish else .edit

def branchRef (branch : String) : String :=
  let branch := trimSpace branch
  if branch = "" then "refs/heads/main"
  else if hasPrefix branch "refs/" then branch
  else "refs/heads/" ++ branch

def defaultBranch (branch : String) : String :=
  if trimSpace branch = "" then "main" else trimSpace branch

def resolveCommitter (principal : FilePrincipal) : Committer where
  name := if trimSpace principal.username = "" then "Aisphere Hub" else trimSpace principal.username
  email :=
    if trimSpace principal.email = "" then "noreply@aisphere.io" else trimSpace principal.email

def fileCheckRequest (principal : FilePrincipal) (name ref : String) : AuthzCheckRequest where
  subject := principalSubject principal
  resource := ⟨"skill", trimSpace name⟩
  permission := writePermissionFor ref
  tenantID := principal.tenantID
  orgID := principal.orgID

/-- The fallback of every write is `edit`. Without an authorizer nothing is asked. -/
def requireFilePermission (authz : Option (AuthzCheckRequest → Except HubError Unit))
    (principal : FilePrincipal) (name ref : String) : Except HubError Unit :=
  match authz with
  | none => .ok ()
  | some require => require (fileCheckRequest principal name ref)

/-- A write of the file API: `verb` starts the message of a write that has none. -/
def fileWrite (P : Plumbing β) (authz : Option (AuthzCheckRequest → Except HubError Unit))
    (a : EngineAnswer β) (r : Repository β) (principal : FilePrincipal) (edit : FileEdit)
    (verb path message branch : String) : Repository β × Except HubError WriteResult :=
  match requireFilePermission authz principal r.name (branchRef branch) with
  | .error e => (r, .error e)
  | .ok _ =>
    editFile P a r edit (trimSpace path) (if message = "" then verb ++ path else message)
      (defaultBranch branch) (resolveCommitter principal)

def fileCreate (P : Plumbing β) (authz : Option (AuthzCheckRequest → Except HubError Unit))
    (a : EngineAnswer β) (r : Repository β) (principal : FilePrincipal)
    (path content message branch : String) : Repository β × Except HubError WriteResult :=
  fileWrite P authz a r principal (.create content) "Create " path message branch

def fileUpdate (P : Plumbing β) (authz : Option (AuthzCheckRequest → Except HubError Unit))
    (a : EngineAnswer β) (r : Repository β) (principal : FilePrincipal)
    (path content message sha branch : String) : Repository β × Except HubError WriteResult :=
  fileWrite P authz a r principal (.update content sha) "Update " path message branch

def fileDelete (P : Plumbing β) (authz : Option (AuthzCheckRequest → Except HubError Unit))
    (a : EngineAnswer β) (r : Repository β) (principal : FilePrincipal)
    (path message sha branch : String) : Repository β × Except HubError WriteResult :=
  fileWrite P authz a r principal (.delete sha) "Delete " path message branch

end AisphereHub
