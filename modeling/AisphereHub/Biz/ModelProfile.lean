import AisphereHub.Biz.Tool
import AisphereHub.Foundation.GoStrconv

/-! Model profiles of the v1 catalog and their revisions. -/
namespace AisphereHub

open GoJson
open GoStrings (trimSpace)

structure ModelProfileLimits where
  maxInputTokens : Int := 0
  maxOutputTokens : Int := 0
deriving DecidableEq

structure ModelProfileRevision where
  revision : String
  provider : String
  apiFormat : String
  endpoint : String
  model : String
  upstreamModel : String
  upstreamPath : String
  secretRef : String
  allowedTools : Option (List String)
  limits : ModelProfileLimits
  reasoning : String
  defaultParameters : String := ""
  metadata : String
  sha256 : String := ""
  author : String
  commitMsg : String
  createTime : Nat
deriving DecidableEq

/-- `revisions` is the map from labels to revisions, in the order in which a loop visits it. -/
structure ModelProfile where
  id : String
  version : String := ""
  status : String := ""
  displayName : String := ""
  description : String := ""
  provider : String := ""
  apiFormat : String := ""
  endpoint : String := ""
  model : String := ""
  upstreamModel : String := ""
  upstreamPath : String := ""
  secretRef : String := ""
  allowedTools : Option (List String) := none
  limits : ModelProfileLimits := {}
  reasoning : String := ""
  labels : Option (List (String × String)) := none
  metadata : String := ""
  object : String := ""
  ownerType : String := ""
  ownerID : String := ""
  ownerName : String := ""
  orgID : String := ""
  projectID : String := ""
  revisions : List (String × ModelProfileRevision) := []
deriving DecidableEq

def validModelProfileID (id : String) : Bool :=
  let id := trimSpace id
  match id.toList with
  | [] => false
  | first :: rest =>
    id.utf8ByteSize ≤ 128 &&
      (first :: rest).all (fun c => ('a' ≤ c && c ≤ 'z') || ('0' ≤ c && c ≤ '9') || c == '-') &&
      first != '-' && (first :: rest).getLast (List.cons_ne_nil first rest) != '-'

def validateModelProfileForCreate (p : ModelProfile) : Except HubError Unit :=
  if validModelProfileID p.id = false then
    .error ⟨.INVALID_ARGUMENT,
      "id must match [a-z0-9][a-z0-9-]\x7b0,127\x7d (lowercase, no trailing hyphen)"⟩
  else if trimSpace p.provider = "" then .error ⟨.INVALID_ARGUMENT, "provider is required"⟩
  else if trimSpace p.apiFormat = "" then .error ⟨.INVALID_ARGUMENT, "api_format is required"⟩
  else if trimSpace p.endpoint = "" then .error ⟨.INVALID_ARGUMENT, "endpoint is required"⟩
  else if trimSpace p.upstreamModel = "" then .error ⟨.INVALID_ARGUMENT, "upstream_model is required"⟩
  else .ok ()

def resolveProjectID (requested : String) (principal : CatalogPrincipal) : Except HubError String :=
  if trimSpace requested ≠ "" then .ok (trimSpace requested)
  else if trimSpace principal.projectID ≠ "" then .ok (trimSpace principal.projectID)
  else if trimSpace principal.orgID ≠ "" then .ok (trimSpace principal.orgID)
  else .error ⟨.INVALID_ARGUMENT,
    "project_id is required (request, principal.project_id, or principal.org_id)"⟩

/-- How texts of JSON are read by the database and documents are hashed. -/
structure ModelCodec where
  readJSON : String → Option (Json Decimal)
  sha256Hex : Json Decimal → String

def ModelProfileLimits.marshal (l : ModelProfileLimits) : Json Decimal :=
  .obj [("MaxInputTokens", marshalInt l.maxInputTokens), ("MaxOutputTokens", marshalInt l.maxOutputTokens)]

/-- `revisionDefinitionForHash`. -/
def ModelProfileRevision.definition (r : ModelProfileRevision) : Json Decimal :=
  .obj [("Provider", .str r.provider), ("APIFormat", .str r.apiFormat), ("Endpoint", .str r.endpoint),
    ("Model", .str r.model), ("UpstreamModel", .str r.upstreamModel),
    ("UpstreamPath", .str r.upstreamPath), ("SecretRef", .str r.secretRef),
    ("AllowedTools", marshalSlice .str r.allowedTools), ("Limits", r.limits.marshal),
    ("Reasoning", .str r.reasoning), ("DefaultParameters", .str r.defaultParameters),
    ("Metadata", .str r.metadata)]

def computeRevisionSHA256 (C : ModelCodec) (r : ModelProfileRevision) : String :=
  C.sha256Hex r.definition

/-- `currentRevision`. A copy of an empty list of tools is nil. -/
def ModelProfile.currentRevision (C : ModelCodec) (p : ModelProfile) (now : Nat)
    (author commitMsg : String) : ModelProfileRevision :=
  let revision : ModelProfileRevision := {
    revision := p.version
    provider := p.provider
    apiFormat := p.apiFormat
    endpoint := p.endpoint
    model := p.model
    upstreamModel := p.upstreamModel
    upstreamPath := p.upstreamPath
    secretRef := p.secretRef
    allowedTools := if p.allowedTools.getD [] = [] then none else p.allowedTools
    limits := p.limits
    reasoning := p.reasoning
    metadata := p.metadata
    author := author
    commitMsg := commitMsg
    createTime := now }
  { revision with sha256 := computeRevisionSHA256 C revision }

def modelProfileResource (id : String) : AuthzObjectRef := ⟨"model_profile", id⟩

end AisphereHub
