import AisphereHub.Biz.ToolUsecase

/-! The tool service: what a request becomes before it reaches the usecase, and the access
policies that `tool.proto` declares for the methods on one tool. -/
namespace AisphereHub

open GoStrings (trimSpace)

/-- The fields of `CreateToolRequest` and `UpdateToolRequest`; the latter has no organisation
and no project. The definition has its texts read as JSON. -/
structure ToolRequest where
  id : String
  definition : Option ToolDefinition
  version : String := ""
  commitMsg : String := ""
  displayName : String := ""
  description : String := ""
  status : String := ""
  scope : String := ""
  labels : Option (List (String × String)) := none
  orgID : String := ""
  projectID : String := ""
deriving DecidableEq

def protoToTool (r : ToolRequest) : Except HubError Tool :=
  match r.definition with
  | none => .error ⟨.INVALID_ARGUMENT, "definition is required"⟩
  | some definition =>
    let ver := trimSpace r.version
    let ver := if ver = "" then "v1" else ver
    .ok {
      id := r.id
      displayName := r.displayName
      description := r.description
      status := r.status
      scope := r.scope
      labels := r.labels
      orgID := trimSpace r.orgID
      projectID := trimSpace r.projectID
      latestVersion := ver
      versions := [(ver, { version := ver, commitMsg := r.commitMsg, definition := definition })] }

/-- The methods whose policy names the resource `tool:{id}`. -/
inductive ToolMethod where
  | get
  | update
  | delete
deriving DecidableEq

def ToolMethod.action : ToolMethod → String
  | .get => "view"
  | .update => "edit"
  | .delete => "manage"

/-- The object a policy checks: the id is that of the request, as it is. -/
def policyResource (requestID : String) : AuthzObjectRef := ⟨"tool", requestID⟩

/-- The check of the policy, made before the method is called. -/
def ToolMethod.policy (m : ToolMethod) (spice : SpiceDB) (principal : CatalogPrincipal)
    (requestID : String) : CheckAnswer :=
  spice.answer principal (policyResource requestID) m.action

def ToolMethod.usecase (m : ToolMethod) (spice : SpiceDB) (h : ToolHub) (principal : CatalogPrincipal)
    (requestID : String) : Except HubError StoredTool :=
  match m with
  | .get => getTool { check := spice } h principal requestID ""
  | .update => readTool { check := spice.answer principal (toolResource requestID) "edit" } h
      principal requestID "forbidden: no edit permission on tool"
  | .delete => readTool { check := spice.answer principal (toolResource requestID) "manage" } h
      principal requestID "forbidden: no manage permission on tool"

end AisphereHub
