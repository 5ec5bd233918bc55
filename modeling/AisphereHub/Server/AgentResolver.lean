import AisphereHub.Data.ToolRepo

/-! How an agent run resolves the tools it binds. The resolver reads the two tool tables
itself and takes a stored definition as an untyped document. -/
namespace AisphereHub

open GoJson
open GoStrings (contains toLower trimSpace)

inductive ApprovalMode where
  | always
  | disabled
  | perRun
deriving DecidableEq

def ApprovalMode.text : ApprovalMode → String
  | .always => "always"
  | .disabled => "disabled"
  | .perRun => "per_run"

/-- `normalizeApprovalMode`; `none` is the empty mode. -/
def normalizeApprovalMode (value : String) : Option ApprovalMode :=
  match toLower (trimSpace value) with
  | "always" => some .always
  | "disabled" => some .disabled
  | "per_run" | "prompt" | "ask" => some .perRun
  | _ => none

structure AgentToolBinding where
  name : String
  version : String := ""
  label : String := ""
  required : Bool := false
  approvalMode : String := ""
deriving DecidableEq

structure ResolvedAgentTool (φ : Type) where
  binding : AgentToolBinding
  version : String
  revision : String
  status : String
  scope : String
  definition : Json Decimal
  capabilities : List String
  snapshot : List (String × Json φ)
deriving DecidableEq

/-- The failures of the two queries, and what SpiceDB answers to a subject, a resource, a
permission and an organisation. -/
structure ResolverAnswer where
  toolFault : Option String := none
  versionFault : Option String := none
  check : AuthzSubjectRef → AuthzObjectRef → String → String → CheckAnswer := fun _ _ _ _ => .allowed

def agentDBErr (cause : String) : HubError :=
  if contains (toLower cause) "duplicate" ∨ contains cause "23505" then
    ⟨.AGENT_ALREADY_EXISTS, "agent already exists"⟩
  else ⟨.AGENT_INTERNAL, "agent operation failed"⟩

def agentSubject (p : Principal) : AuthzSubjectRef :=
  let t := trimSpace p.subjectType
  { type := if t = "" then "user" else t, id := p.subjectID }

section Resolve

variable {φ : Type} (F : Floats φ)

/-- A type assertion to `map[string]any`; a failed one gives the nil map. -/
def asMap : Option (Json φ) → List (String × Json φ)
  | some (.obj members) => members
  | _ => []

/-- A type assertion to `[]any`. -/
def asSlice : Option (Json φ) → List (Json φ)
  | some (.arr items) => items
  | _ => []

def extractToolCapabilities (definition : List (String × Json φ)) : List String :=
  let execution := asMap (definition.lookup "execution")
  let values := asSlice (execution.lookup "capabilities")
  let out := values.foldl (fun out value =>
    let capability := trimSpace (sprint F value)
    if capability = "" ∨ capability ∈ out then out else out ++ [capability]) []
  out.insertionSort (· ≤ ·)

def defaultApprovalMode (capabilities : List String) : ApprovalMode :=
  if capabilities.length > 0 then .perRun else .always

/-- The keys of the definition go over those of the resolver. -/
def toolSnapshot (binding : AgentToolBinding) (tool : ToolRow) (row : ToolVersionRow)
    (mode : ApprovalMode) (definition : List (String × Json φ)) : List (String × Json φ) :=
  definition.foldl (fun snapshot entry => assign snapshot entry.1 entry.2)
    [("approvalMode", .str mode.text), ("name", .str binding.name), ("revision", .str row.revision),
      ("status", .str tool.status), ("version", .str row.version)]

def resolveToolVersion (a : ResolverAnswer) (c : ToolCatalog) (binding : AgentToolBinding)
    (tool : ToolRow) : Except HubError (ResolvedAgentTool φ) :=
  let version := trimSpace binding.version
  let version := if version = "" then tool.latestVersion else version
  match a.versionFault, findToolVersion c.versions binding.name version with
  | some cause, _ => .error (agentDBErr cause)
  | none, none =>
    .error ⟨.AGENT_TOOL_VERSION_NOT_FOUND, "tool version not found: " ++ binding.name ++ "@" ++ version⟩
  | none, some row =>
    match unmarshalMap F row.definitionJSON with
    | none => .error ⟨.AGENT_TOOL_DEFINITION_INVALID, "stored tool definition is invalid"⟩
    | some definition =>
      let capabilities := extractToolCapabilities F definition
      let mode := (normalizeApprovalMode binding.approvalMode).getD
        (defaultApprovalMode capabilities)
      .ok {
        binding := { binding with approvalMode := mode.text }
        version := row.version
        revision := row.revision
        status := tool.status
        scope := tool.scope
        definition := row.definitionJSON
        capabilities := capabilities
        snapshot := toolSnapshot binding tool row mode definition }

def resolveTool (a : ResolverAnswer) (c : ToolCatalog) (principal : Principal)
    (binding : AgentToolBinding) : Except HubError (ResolvedAgentTool φ) :=
  match a.toolFault, liveTool c.tools binding.name with
  | some cause, _ => .error (agentDBErr cause)
  | none, none => .error ⟨.AGENT_TOOL_NOT_FOUND, "tool " ++ binding.name ++ " not found"⟩
  | none, some tool =>
    let check := a.check (agentSubject principal) ⟨"tool", toolAuthzObjectID binding.name⟩ "execute"
      principal.orgID
    if tool.status = "disabled" then
      .error ⟨.AGENT_TOOL_DISABLED, "tool " ++ binding.name ++ " is disabled"⟩
    else if tool.scope ≠ "system" ∧ tool.status ≠ "builtin" ∧ check ≠ .allowed then
      .error ⟨.AGENT_TOOL_EXECUTE_DENIED, "caller cannot bind or execute tool " ++ binding.name⟩
    else resolveToolVersion F a c binding tool

variable {F} {a : ResolverAnswer} {c : ToolCatalog} {principal : Principal}
  {binding : AgentToolBinding} {r : ResolvedAgentTool φ}

theorem resolveTool_shape (resolved : resolveTool F a c principal binding = .ok r) :
    ∃ tool row definition, findToolVersion c.versions binding.name row.version = some row ∧
      unmarshalMap F row.definitionJSON = some definition ∧
      r.version = row.version ∧ r.capabilities = extractToolCapabilities F definition ∧
      ∃ mode : ApprovalMode,
        mode = (normalizeApprovalMode binding.approvalMode).getD (defaultApprovalMode r.capabilities) ∧
        r.binding = { binding with approvalMode := mode.text } ∧
        r.snapshot = toolSnapshot binding tool row mode definition := by
  unfold resolveTool at resolved
  split at resolved
  · cases resolved
  · cases resolved
  rename_i tool _ _
  dsimp only at resolved
  split_ifs at resolved
  unfold resolveToolVersion at resolved
  dsimp only at resolved
  split at resolved
  · cases resolved
  · cases resolved
  rename_i row _ found
  split at resolved
  · cases resolved
  rename_i definition decoded
  cases resolved
  refine ⟨tool, row, definition, ?_, decoded, rfl, rfl, _, rfl, rfl, rfl⟩
  rw [(key_of_found found).2]
  exact found

structure ResolvedFrom (F : Floats φ) (c : ToolCatalog) (binding : AgentToolBinding)
    (r : ResolvedAgentTool φ) (row : ToolVersionRow) (definition : List (String × Json φ)) : Prop where
  found : findToolVersion c.versions binding.name r.version = some row
  decoded : unmarshalMap F row.definitionJSON = some definition
  capabilities : r.capabilities = extractToolCapabilities F definition
  mode : r.binding.approvalMode = ((normalizeApprovalMode binding.approvalMode).getD
    (defaultApprovalMode r.capabilities)).text

theorem resolveTool_eq_ok (resolved : resolveTool F a c principal binding = .ok r) :
    ∃ row definition, ResolvedFrom F c binding r row definition := by
  obtain ⟨tool, row, definition, found, decoded, version, capabilities, mode, chosen, bound, _⟩ :=
    resolveTool_shape resolved
  refine ⟨row, definition, version ▸ found, decoded, capabilities, ?_⟩
  rw [bound, chosen]

end Resolve

end AisphereHub
