import AisphereHub.Biz.ToolUsecase
import AisphereHub.Data.SandboxRepo

/-! The tools of a sandbox as a projection of the tool catalog, and the calls of
them. Nothing executes a tool yet: a call that is authorized ends in an error of
its own. The catalog is wired; of a projected tool, what a call reads is kept. -/
namespace AisphereHub

open GoStrings (trimSpace)

/-- `strings.Cut` at a separator of one character. -/
def cut (s : String) (sep : Char) : Option (String × String) :=
  match s.toList.span (· ≠ sep) with
  | (_, []) => none
  | (before, _ :: after) => some (.ofList before, .ofList after)

structure SandboxToolSchema where
  name : String
  privileged : Bool := false
  permission : String := ""
deriving DecidableEq

def capabilityParts (cap : String) : Option (String × String) :=
  ((cut (trimSpace cap) ':').or (cut cap '.')).filter fun parts => parts.1 ≠ "" ∧ parts.2 ≠ ""

/-- One round of the loop over the capabilities: the last one is left. -/
def addCapability (out : SandboxToolSchema) (cap : String) : Except HubError SandboxToolSchema :=
  match capabilityParts cap with
  | none => .error (.plain ("tool " ++ out.name.quote ++ ": malformed capability " ++ cap.quote))
  | some (kind, perm) =>
    if kind ≠ "skill" then
      .error (.plain ("tool " ++ out.name.quote ++ ": unsupported capability resource kind " ++
        kind.quote))
    else .ok { out with privileged := true, permission := perm }

def sandboxSchemaFromCatalogTool (t : Tool) : Except HubError SandboxToolSchema :=
  t.definition.capabilities.foldlM addCapability { name := t.id }

/-- `sandboxToolSurface` of the listed tools: a tool with a malformed capability is skipped. -/
def sandboxToolSurface (tools : List Tool) : List SandboxToolSchema :=
  tools.filterMap fun t => (sandboxSchemaFromCatalogTool t).toOption

/-- `skillResourceFromInput`; `readName` is how `encoding/json` reads the field `name`. -/
def skillResourceFromInput (readName : String → Except String String) (inputJSON : String) :
    Except String AuthzObjectRef :=
  match readName inputJSON with
  | .error e => .error ("parse tool input: " ++ e)
  | .ok name =>
    if trimSpace name = "" then .error "tool input missing required field: name"
    else .ok ⟨"skill", trimSpace name⟩

def toolExecutionUnavailable : HubError := ⟨.SANDBOX_TOOL_EXECUTION_NOT_AVAILABLE,
  "sandbox tool execution is not yet available; the runtime executor is not connected"⟩

def checkPrivileged (spice : SpiceDB) (readName : String → Except String String)
    (subject : AuthzSubjectRef) (orgID inputJSON : String) (schema : SandboxToolSchema) :
    Except HubError Unit :=
  if schema.privileged then
    match skillResourceFromInput readName inputJSON with
    | .error e => .error ⟨.INVALID_ARGUMENT, e⟩
    | .ok resource =>
      (spice subject resource schema.permission orgID).require ("forbidden: no " ++
        schema.permission ++ " permission on " ++ resource.type ++ ":" ++ resource.id)
  else .ok ()

/-- `CallSandboxTool`; `listed` is what `ListTools` returned to the caller. -/
def callSandboxTool (spice : SpiceDB) (readName : String → Except String String)
    (sandboxes : List Sandbox) (listed : Except HubError (List Tool)) (principal : Principal)
    (id tool inputJSON : String) : Except HubError Unit := do
  let s ← getSandbox sandboxes id
  let subject ← canonicalSubject principal
  (spice subject (sandboxResource s.id) "use" principal.orgID).require
    "forbidden: no use permission on sandbox"
  let tools ← listed
  match (sandboxToolSurface tools).find? fun schema => schema.name = tool with
  | none => .error ⟨.INVALID_ARGUMENT, "unknown tool " ++ tool.quote⟩
  | some schema =>
    checkPrivileged spice readName subject principal.orgID inputJSON schema
    .error toolExecutionUnavailable

end AisphereHub
