import AisphereHub.Biz.ModelProfile
import AisphereHub.Data.ToolRepo
import AisphereHub.Foundation.GoDecode

/-! The repository of model profiles. A profile is removed by marking its row, its revisions
stay, and the unique constraint on its id counts marked rows too. -/
namespace AisphereHub

open GoJson
open GoStrings (trimSpace)

structure ModelProfileRow where
  profileID : String
  displayName : String
  description : String
  status : String
  provider : String
  apiFormat : String
  endpoint : String
  modelName : String
  upstreamModel : String
  upstreamPath : String
  secretRef : String
  latestRevision : String
  ownerType : String
  ownerID : String
  ownerName : String
  orgID : String
  projectID : String
  labelsJSON : Json Decimal
  objectRef : String
  deletedAt : Option Nat := none
deriving DecidableEq

structure ModelProfileRevisionRow where
  profileID : String
  revision : String
  provider : String
  apiFormat : String
  endpoint : String
  modelName : String
  upstreamModel : String
  upstreamPath : String
  secretRef : String
  allowedToolsJSON : Json Decimal
  limitsJSON : Json Decimal
  reasoningJSON : Json Decimal
  defaultParametersJSON : Json Decimal
  metadataJSON : Json Decimal
  sha256 : String
  author : String
  commitMsg : String
  createdAt : Nat
deriving DecidableEq

structure ModelCatalog where
  profiles : List ModelProfileRow := []
  revisions : List ModelProfileRevisionRow := []
deriving DecidableEq

/-- What `Get` loads, the documents still encoded. -/
structure StoredModelProfile where
  row : ModelProfileRow
  revisions : List ModelProfileRevisionRow
deriving DecidableEq

def ModelProfileRow.live (r : ModelProfileRow) : Bool := r.deletedAt.isNone

/-- `UNIQUE(profile_id, revision)`. -/
def ModelProfileRevisionRow.key (r : ModelProfileRevisionRow) : String × String :=
  (r.profileID, r.revision)

/-- The check and the column sizes of `aihub_model_profiles`. -/
def ModelProfileRow.accepted (r : ModelProfileRow) : Bool :=
  r.status ∈ ["active", "disabled"] && r.profileID.length ≤ 128 && r.displayName.length ≤ 256 &&
    r.provider.length ≤ 64 && r.apiFormat.length ≤ 64 && r.endpoint.length ≤ 256 &&
    r.modelName.length ≤ 128 && r.upstreamModel.length ≤ 128 && r.upstreamPath.length ≤ 256 &&
    r.secretRef.length ≤ 256 && r.latestRevision.length ≤ 64 && r.ownerType.length ≤ 32 &&
    r.ownerID.length ≤ 128 && r.ownerName.length ≤ 256 && r.orgID.length ≤ 128 &&
    r.projectID.length ≤ 128 && r.objectRef.length ≤ 256

def ModelProfileRevisionRow.accepted (r : ModelProfileRevisionRow) : Bool :=
  r.profileID.length ≤ 128 && r.revision.length ≤ 64 && r.provider.length ≤ 64 &&
    r.apiFormat.length ≤ 64 && r.endpoint.length ≤ 256 && r.modelName.length ≤ 128 &&
    r.upstreamModel.length ≤ 128 && r.upstreamPath.length ≤ 256 && r.secretRef.length ≤ 256 &&
    r.sha256.length ≤ 64 && r.author.length ≤ 128

def errDuplicateKey : HubError := .plain "duplicate key value violates unique constraint"
def errInvalidJSON : HubError := .plain "invalid input syntax for type json"
def errModelProfileNotFound : HubError := ⟨.MODEL_PROFILE_NOT_FOUND, ""⟩

def modelProfileBizToModel (p : ModelProfile) : ModelProfileRow where
  profileID := p.id
  displayName := p.displayName
  description := p.description
  status := orDefault p.status "active"
  provider := p.provider
  apiFormat := orDefault p.apiFormat "openai_responses"
  endpoint := p.endpoint
  modelName := p.model
  upstreamModel := p.upstreamModel
  upstreamPath := p.upstreamPath
  secretRef := p.secretRef
  latestRevision := p.version
  ownerType := orDefault p.ownerType "user"
  ownerID := p.ownerID
  ownerName := p.ownerName
  orgID := p.orgID
  projectID := p.projectID
  labelsJSON := labelsToJSON p.labels
  objectRef := p.object

/-- `stringToJSONRaw`, once the database has read the text. -/
def stringToJSONRaw (C : ModelCodec) (text : String) : Except HubError (Json Decimal) :=
  if trimSpace text = "" then .ok (.obj [])
  else
    match C.readJSON (trimSpace text) with
    | none => .error errInvalidJSON
    | some json => .ok json

def modelProfileRevisionBizToModel (C : ModelCodec) (profileID : String)
    (v : ModelProfileRevision) : Except HubError ModelProfileRevisionRow := do
  let reasoning ← stringToJSONRaw C v.reasoning
  let parameters ← stringToJSONRaw C v.defaultParameters
  let metadata ← stringToJSONRaw C v.metadata
  return {
    profileID := profileID
    revision := v.revision
    provider := v.provider
    apiFormat := v.apiFormat
    endpoint := v.endpoint
    modelName := v.model
    upstreamModel := v.upstreamModel
    upstreamPath := v.upstreamPath
    secretRef := v.secretRef
    allowedToolsJSON := .arr ((v.allowedTools.getD []).map .str)
    limitsJSON := v.limits.marshal
    reasoningJSON := reasoning
    defaultParametersJSON := parameters
    metadataJSON := metadata
    sha256 := v.sha256
    author := v.author
    commitMsg := v.commitMsg
    createdAt := v.createTime }

/-- One pass of the loop in `writeModelProfileRevisionRows`: a revision that is stored stays. -/
def writeModelProfileRevisionRow (C : ModelCodec) (profileID : String)
    (rows : List ModelProfileRevisionRow) (entry : String × ModelProfileRevision) :
    Except HubError (List ModelProfileRevisionRow) :=
  if rows.any (fun r => r.key = (profileID, entry.1)) then .ok rows
  else do
    let row ← modelProfileRevisionBizToModel C profileID entry.2
    if row.accepted = false then .error errTooLong
    else if (Keyed.lookup ModelProfileRevisionRow.key rows row.key).isSome then .error errDuplicateKey
    else .ok (rows ++ [row])

namespace ModelProfileRepo

def insert (C : ModelCodec) (c : ModelCatalog) (p : ModelProfile) : Except HubError ModelCatalog :=
  let row := modelProfileBizToModel p
  if row.accepted = false then .error errTooLong
  else if (Keyed.lookup ModelProfileRow.profileID c.profiles row.profileID).isSome then
    .error errDuplicateKey
  else do
    let revisions ← p.revisions.foldlM (writeModelProfileRevisionRow C p.id) c.revisions
    return ⟨c.profiles ++ [row], revisions⟩

def get (c : ModelCatalog) (id : String) : Except HubError StoredModelProfile :=
  match Keyed.select ModelProfileRow.profileID ModelProfileRow.live c.profiles (trimSpace id) with
  | none => .error errModelProfileNotFound
  | some row => .ok ⟨row, c.revisions.filter fun r => r.profileID = row.profileID⟩

/-- `Delete`; no live row of the id is an error that its caller here drops. -/
def delete (c : ModelCatalog) (id : String) (now : Nat) : ModelCatalog :=
  { c with profiles := Keyed.amend ModelProfileRow.profileID c.profiles (trimSpace id) fun r =>
      if r.live then { r with deletedAt := some now } else r }

end ModelProfileRepo

end AisphereHub
