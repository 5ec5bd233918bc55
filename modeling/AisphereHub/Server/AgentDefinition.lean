import AisphereHub.Foundation.GoDecode
import AisphereHub.Server.AgentResolver

/-! Agent definitions. A definition is checked and normalised as an untyped document, under
the exact names of its members; what is bound is read from the document that comes out. -/
namespace AisphereHub

open GoJson
open GoStrings (toLower trimSpace)

/-- `^[A-Za-z0-9][A-Za-z0-9_.-]{0,127}$`, for agents and for SkillSets. -/
def agentIDRE (id : String) : Bool :=
  match id.toList with
  | [] => false
  | first :: rest =>
    isAlphanumeric first && rest.all (fun c => isAlphanumeric c || isSeparator c) &&
      rest.length ≤ 127

inductive AgentStatus where
  | active
  | disabled
deriving DecidableEq

def normalizeAgentStatus (value : String) : AgentStatus :=
  match toLower (trimSpace value) with
  | "disabled" | "disable" => .disabled
  | _ => .active

inductive AgentScope where
  | system
  | «private»
  | «public»
  | project
deriving DecidableEq

def normalizeAgentScope (value : String) : AgentScope :=
  match toLower (trimSpace value) with
  | "system" => .system
  | "private" => .private
  | "public" => .public
  | "project" => .project
  | _ => .private

structure AgentSkillBinding where
  name : String := ""
  version : String := ""
  source : String := ""
deriving DecidableEq

structure AgentSkillSetBinding where
  name : String := ""
  revision : Int := 0
deriving DecidableEq

structure AgentModelBinding where
  profileID : String := ""
  revision : Int := 0
deriving DecidableEq

structure AgentDefinitionProjection where
  entryPoint : String
  files : List (String × String)
  model : Option AgentModelBinding
  tools : List AgentToolBinding
  skills : List AgentSkillBinding
  skillSets : List AgentSkillSetBinding
deriving DecidableEq

def setTool : String → Into AgentToolBinding
  | "name", json, b => (intoString json b.name).map fun name => { b with name := name }
  | "version", json, b => (intoString json b.version).map fun version => { b with version := version }
  | "label", json, b => (intoString json b.label).map fun label => { b with label := label }
  | "required", json, b => (intoBool json b.required).map fun required => { b with required := required }
  | "approvalMode", json, b => (intoString json b.approvalMode).map fun mode => { b with approvalMode := mode }
  | _, _, b => some b

def toolFields : List String := ["name", "version", "label", "required", "approvalMode"]

def intoTool : Into AgentToolBinding := intoStruct toolFields setTool

def setSkill : String → Into AgentSkillBinding
  | "name", json, b => (intoString json b.name).map fun name => { b with name := name }
  | "version", json, b => (intoString json b.version).map fun version => { b with version := version }
  | "source", json, b => (intoString json b.source).map fun source => { b with source := source }
  | _, _, b => some b

def skillFields : List String := ["name", "version", "source"]

def intoSkill : Into AgentSkillBinding := intoStruct skillFields setSkill

def setSkillSet : String → Into AgentSkillSetBinding
  | "name", json, b => (intoString json b.name).map fun name => { b with name := name }
  | "revision", json, b => (intoInt64 json b.revision).map fun revision => { b with revision := revision }
  | _, _, b => some b

def skillSetFields : List String := ["name", "revision"]

def intoSkillSet : Into AgentSkillSetBinding := intoStruct skillSetFields setSkillSet

def setModel : String → Into AgentModelBinding
  | "profileId", json, b => (intoString json b.profileID).map fun id => { b with profileID := id }
  | "revision", json, b => (intoInt64 json b.revision).map fun revision => { b with revision := revision }
  | _, _, b => some b

def modelFields : List String := ["profileId", "revision"]

def intoModel : Into AgentModelBinding := intoStruct modelFields setModel

structure ProjectionCells where
  entryPoint : String := ""
  files : List (String × String) := []
  model : Option AgentModelBinding := none
  tools : Slice AgentToolBinding := {}
  skills : Slice AgentSkillBinding := {}
  skillSets : Slice AgentSkillSetBinding := {}
deriving DecidableEq

def setProjection : String → Into ProjectionCells
  | "entryPoint", json, p => (intoString json p.entryPoint).map fun entry => { p with entryPoint := entry }
  | "files", json, p => (intoStringMap json p.files).map fun files => { p with files := files }
  | "model", json, p => (intoPointer intoModel {} json p.model).map fun model => { p with model := model }
  | "tools", json, p =>
    (intoSlice intoTool { name := "" } json p.tools).map fun tools => { p with tools := tools }
  | "skills", json, p => (intoSlice intoSkill {} json p.skills).map fun skills => { p with skills := skills }
  | "skillsets", json, p =>
    (intoSlice intoSkillSet {} json p.skillSets).map fun sets => { p with skillSets := sets }
  | _, _, p => some p

def projectionFields : List String := ["entryPoint", "files", "model", "tools", "skills", "skillsets"]

def ProjectionCells.projection (p : ProjectionCells) : AgentDefinitionProjection where
  entryPoint := p.entryPoint
  files := p.files
  model := p.model
  tools := p.tools.values
  skills := p.skills.values
  skillSets := p.skillSets.values

def unmarshalProjection (json : Json Decimal) : Option AgentDefinitionProjection :=
  (intoStruct projectionFields setProjection json {}).map ProjectionCells.projection

def errAgentDefinitionInvalid : HubError := ⟨.AGENT_DEFINITION_INVALID, "agent definition is required"⟩

section Normalize

variable {φ : Type} (F : FloatCodec φ)

abbrev AnyMap (φ : Type) := List (String × Json (Number φ))

/-- A type assertion to `string`; a failed one gives the empty string. -/
def asString : Option (Json (Number φ)) → String
  | some (.str s) => s
  | _ => ""

/-- One pass of a loop over bindings: the name that is now seen and the binding as it is
left. -/
abbrev EntryCheck (φ : Type) := AnyMap φ → String → Except HubError (AnyMap φ)

/-- A loop over bindings: each is an object with a valid name that no earlier one has. -/
def normalizeEntries (field noun : String) (invalid duplicate : ErrorCode) (check : EntryCheck φ) :
    List (Json (Number φ)) → List String → Except HubError (List (Json (Number φ)))
  | [], _ => .ok []
  | .obj binding :: rest, seen =>
    let name := trimSpace (asString (binding.lookup "name"))
    if agentIDRE name = false then
      .error ⟨invalid, "definition." ++ field ++ " contains an invalid " ++ noun ++ " name"⟩
    else if name ∈ seen then
      .error ⟨duplicate, "definition." ++ field ++ " contains duplicate " ++ noun ++ " " ++ name⟩
    else do
      let binding ← check binding name
      let rest ← normalizeEntries field noun invalid duplicate check rest (name :: seen)
      return .obj binding :: rest
  | _ :: _, _ =>
    .error ⟨.AGENT_DEFINITION_INVALID, "definition." ++ field ++ " entries must be objects"⟩

/-- The mode of a tool is normalised when there is one; its name stays as it is written. -/
def checkTool : EntryCheck φ := fun binding _ =>
  match binding.lookup "approvalMode" with
  | none => .ok binding
  | some mode =>
    match normalizeApprovalMode (asString (some mode)) with
    | none =>
      .error ⟨.AGENT_APPROVAL_MODE_INVALID, "approvalMode must be always, per_run, or disabled"⟩
    | some normalized => .ok (assign binding "approvalMode" (.str normalized.text))

/-- A source that is no string is left. -/
def normalizeSource (binding : AnyMap φ) : AnyMap φ :=
  match binding.lookup "source" with
  | some (.str source) => assign binding "source" (.str (toLower (trimSpace source)))
  | _ => binding

def checkSkill : EntryCheck φ := fun binding name =>
  let version := trimSpace (asString (binding.lookup "version"))
  if version = "" then
    .error ⟨.AGENT_SKILL_VERSION_REQUIRED, "definition.skills.version is required"⟩
  else .ok (normalizeSource (assign (assign binding "name" (.str name)) "version" (.str version)))

/-- The revision is checked as a float and then converted. -/
def checkSkillSet : EntryCheck φ := fun binding name =>
  match binding.lookup "revision" with
  | some (.num (.float revision)) =>
    if F.positive revision then
      .ok (assign (assign binding "name" (.str name)) "revision" (.num (.int (F.int64 revision))))
    else .error ⟨.AGENT_SKILLSET_REVISION_REQUIRED,
      "definition.skillsets.revision is required and must be a positive integer"⟩
  | _ => .error ⟨.AGENT_SKILLSET_REVISION_REQUIRED,
      "definition.skillsets.revision is required and must be a positive integer"⟩

def normalizeTools : List (Json (Number φ)) → List String → Except HubError (List (Json (Number φ))) :=
  normalizeEntries "tools" "tool" .AGENT_TOOL_INVALID .AGENT_TOOL_DUPLICATE checkTool

def normalizeSkills : List (Json (Number φ)) → List String → Except HubError (List (Json (Number φ))) :=
  normalizeEntries "skills" "skill" .AGENT_SKILL_INVALID .AGENT_SKILL_DUPLICATE checkSkill

def normalizeSkillSets : List (Json (Number φ)) → List String → Except HubError (List (Json (Number φ))) :=
  normalizeEntries "skillsets" "skillset" .AGENT_SKILLSET_INVALID .AGENT_SKILLSET_DUPLICATE
    (checkSkillSet F)

/-- A member that holds an array is normalised in its place; another value is left. -/
def normalizeMember (doc : AnyMap φ) (field : String)
    (normalize : List (Json (Number φ)) → List String → Except HubError (List (Json (Number φ)))) :
    Except HubError (AnyMap φ) :=
  match doc.lookup field with
  | some (.arr items) => (normalize items []).map fun items => assign doc field (.arr items)
  | _ => .ok doc

/-- The legacy name of the SkillSets is replaced by the canonical one. -/
def renameSkillSets (doc : AnyMap φ) : Except HubError (AnyMap φ) :=
  match doc.lookup "skillsets", doc.lookup "skillSets" with
  | some _, some _ => .error ⟨.AGENT_SKILLSET_FIELD_CONFLICT,
      "definition must not contain both skillsets and legacy skillSets"⟩
  | _, some sets => .ok ((assign doc "skillsets" sets).filter fun member => member.1 ≠ "skillSets")
  | _, none => .ok doc

def checkEntryPoint (doc : AnyMap φ) : Except HubError Unit :=
  let entryPoint := asString (doc.lookup "entryPoint")
  if trimSpace entryPoint = "" then
    .error ⟨.AGENT_DEFINITION_INVALID, "definition.entryPoint is required"⟩
  else
    match doc.lookup "files" with
    | some (.obj (file :: files)) =>
      if ((file :: files).lookup entryPoint).isSome then .ok ()
      else .error ⟨.AGENT_DEFINITION_INVALID,
        "definition.entryPoint must reference a file in definition.files"⟩
    | _ => .error ⟨.AGENT_DEFINITION_INVALID, "definition.files must contain at least one file"⟩

def normalizeDocument (doc : AnyMap φ) : Except HubError (AnyMap φ) := do
  checkEntryPoint doc
  let doc ← normalizeMember doc "tools" normalizeTools
  let doc ← normalizeMember doc "skills" normalizeSkills
  let doc ← renameSkillSets doc
  normalizeMember doc "skillsets" (normalizeSkillSets F)

def normalizeAgentDefinition (raw : RawMessage) :
    Except HubError (Json Decimal × AgentDefinitionProjection) :=
  match raw with
  | .nil => .error errAgentDefinitionInvalid
  | .malformed _ => .error ⟨.AGENT_DEFINITION_INVALID, "definition must be valid JSON"⟩
  | .value json =>
    match unmarshalMap F.numbers json with
    | none => .error ⟨.AGENT_DEFINITION_INVALID, "definition must be valid JSON"⟩
    | some doc => do
        let doc ← normalizeDocument F doc
        let canonical := marshalAny F (.obj doc)
        match unmarshalProjection canonical with
        | none => .error ⟨.AGENT_DEFINITION_INVALID, "json: cannot unmarshal"⟩
        | some projection => return (canonical, projection)

end Normalize

end AisphereHub
