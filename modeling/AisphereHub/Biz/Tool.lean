import AisphereHub.Biz.Authz
import AisphereHub.Foundation.GoJson

/-! The tool catalog's types. None of the structs has a `json` tag, so each field is encoded
under its own name. A nil slice, map or pointer is `none`. -/
namespace AisphereHub

open GoJson

structure ToolRuntimeDefinition where
  type : String := ""
  server : String := ""
  name : String := ""
  url : String := ""
  method : String := ""
  package : String := ""
  entryPoint : String := ""
  headers : Option (List (String × String)) := none
  config : RawMessage := .nil
  credentialRef : String := ""
  description : String := ""
deriving DecidableEq

structure ToolMount where
  name : String
  ref : String
  mountPath : String
  mode : String
deriving DecidableEq

structure ToolResources where
  cpu : String
  memory : String
  timeoutMillis : Int
  maxOutputBytes : Int
deriving DecidableEq

structure ToolExecutionDefinition where
  placement : String := ""
  runner : String := ""
  image : String := ""
  command : String := ""
  args : Option (List String) := none
  workingDir : String := ""
  filesystem : String := ""
  network : String := ""
  mounts : Option (List ToolMount) := none
  env : Option (List (String × String)) := none
  secretRefs : Option (List String) := none
  allowHosts : Option (List String) := none
  denyHosts : Option (List String) := none
  resources : Option ToolResources := none
  capabilities : Option (List String) := none
deriving DecidableEq

structure ToolRetryPolicy where
  maxAttempts : Int
  backoffMillis : Int
  retryOnErrorCodes : Option (List String)
deriving DecidableEq

structure ToolDefinition where
  runtime : ToolRuntimeDefinition := {}
  execution : Option ToolExecutionDefinition := none
  inputSchema : RawMessage := .nil
  outputSchema : RawMessage := .nil
  timeoutMillis : Int := 0
  retry : Option ToolRetryPolicy := none
  metadata : RawMessage := .nil
deriving DecidableEq

structure ToolVersion where
  version : String
  revision : String := ""
  sha256 : String := ""
  author : String := ""
  commitMsg : String := ""
  createTime : Nat := 0
  definition : ToolDefinition
deriving DecidableEq

/-- A catalog record. `versions` is the map from labels to versions, in the order in which a
loop visits it. -/
structure Tool where
  id : String
  displayName : String := ""
  description : String := ""
  status : String := ""
  scope : String := ""
  labels : Option (List (String × String)) := none
  object : String := ""
  latestVersion : String := ""
  versions : List (String × ToolVersion) := []
  ownerType : String := ""
  ownerID : String := ""
  ownerName : String := ""
  orgID : String := ""
  projectID : String := ""
deriving DecidableEq

def ToolMount.marshal (m : ToolMount) : Json Decimal :=
  .obj [("Name", .str m.name), ("Ref", .str m.ref), ("MountPath", .str m.mountPath),
    ("Mode", .str m.mode)]

def ToolResources.marshal (r : ToolResources) : Json Decimal :=
  .obj [("CPU", .str r.cpu), ("Memory", .str r.memory), ("TimeoutMillis", marshalInt r.timeoutMillis),
    ("MaxOutputBytes", marshalInt r.maxOutputBytes)]

def ToolExecutionDefinition.marshal (e : ToolExecutionDefinition) : Json Decimal :=
  .obj [("Placement", .str e.placement), ("Runner", .str e.runner), ("Image", .str e.image),
    ("Command", .str e.command), ("Args", marshalSlice .str e.args),
    ("WorkingDir", .str e.workingDir), ("Filesystem", .str e.filesystem),
    ("Network", .str e.network), ("Mounts", marshalSlice ToolMount.marshal e.mounts),
    ("Env", marshalMap e.env), ("SecretRefs", marshalSlice .str e.secretRefs),
    ("AllowHosts", marshalSlice .str e.allowHosts), ("DenyHosts", marshalSlice .str e.denyHosts),
    ("Resources", marshalPointer ToolResources.marshal e.resources),
    ("Capabilities", marshalSlice .str e.capabilities)]

def ToolRetryPolicy.marshal (r : ToolRetryPolicy) : Json Decimal :=
  .obj [("MaxAttempts", marshalInt r.maxAttempts), ("BackoffMillis", marshalInt r.backoffMillis),
    ("RetryOnErrorCodes", marshalSlice .str r.retryOnErrorCodes)]

def ToolRuntimeDefinition.marshal (r : ToolRuntimeDefinition) : Except String (Json Decimal) := do
  let config ← r.config.marshal
  return .obj [("Type", .str r.type), ("Server", .str r.server), ("Name", .str r.name),
    ("URL", .str r.url), ("Method", .str r.method), ("Package", .str r.package),
    ("EntryPoint", .str r.entryPoint), ("Headers", marshalMap r.headers), ("Config", config),
    ("CredentialRef", .str r.credentialRef), ("Description", .str r.description)]

/-- `json.Marshal` of a definition. It fails on a raw message that is no JSON. -/
def ToolDefinition.marshal (d : ToolDefinition) : Except String (Json Decimal) := do
  let runtime ← d.runtime.marshal
  let inputSchema ← d.inputSchema.marshal
  let outputSchema ← d.outputSchema.marshal
  let metadata ← d.metadata.marshal
  return .obj [("Runtime", runtime),
    ("Execution", marshalPointer ToolExecutionDefinition.marshal d.execution),
    ("InputSchema", inputSchema), ("OutputSchema", outputSchema),
    ("TimeoutMillis", marshalInt d.timeoutMillis),
    ("Retry", marshalPointer ToolRetryPolicy.marshal d.retry), ("Metadata", metadata)]

def isAlphanumeric (c : Char) : Bool :=
  ('a' ≤ c && c ≤ 'z') || ('A' ≤ c && c ≤ 'Z') || ('0' ≤ c && c ≤ '9')

def isSeparator (c : Char) : Bool := c == '.' || c == '_' || c == '-'

def validToolID (id : String) : Bool :=
  let id := GoStrings.trimSpace id
  match id.toList with
  | [] => false
  | first :: rest =>
    id.utf8ByteSize ≤ 128 && isAlphanumeric first &&
      rest.all (fun c => isAlphanumeric c || isSeparator c) &&
      !isSeparator ((first :: rest).getLast (by simp))

/-- The fields of `authn.Principal` that the catalogs of tools, models and agents read. -/
structure CatalogPrincipal extends Principal where
  name : String := ""
  projectID : String := ""
deriving DecidableEq

/-- `ToolAuthzObjectID`: dots are no part of an object id. -/
def toolAuthzObjectID (toolID : String) : String := GoStrings.replaceChar toolID '.' '/'

def toolResource (id : String) : AuthzObjectRef := ⟨"tool", toolAuthzObjectID id⟩

def Tool.definition (t : Tool) : ToolDefinition :=
  if t.latestVersion = "" then {}
  else ((t.versions.lookup t.latestVersion).map ToolVersion.definition).getD {}

def ToolDefinition.capabilities (d : ToolDefinition) : List String :=
  (d.execution.bind ToolExecutionDefinition.capabilities).getD []

theorem marshal_eq_ok {d : ToolDefinition} (encoded : d.marshal = .ok json) :
    ∃ members, json = .obj members ∧ members.map Prod.fst = ["Runtime", "Execution", "InputSchema",
      "OutputSchema", "TimeoutMillis", "Retry", "Metadata"] := by
  obtain ⟨_, _, encoded⟩ := bind_eq_ok.mp encoded
  obtain ⟨_, _, encoded⟩ := bind_eq_ok.mp encoded
  obtain ⟨_, _, encoded⟩ := bind_eq_ok.mp encoded
  obtain ⟨_, _, encoded⟩ := bind_eq_ok.mp encoded
  cases encoded
  exact ⟨_, rfl, rfl⟩

end AisphereHub
