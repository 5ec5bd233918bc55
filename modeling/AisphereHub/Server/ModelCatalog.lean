import AisphereHub.Data.Store
import AisphereHub.Foundation.GoDecode
import AisphereHub.Foundation.Threads
import AisphereHub.Server.ModelProbe

/-! The v2 model catalog of `model_management_http_endpoints.go`: endpoints are
created and updated under a model, profiles under an endpoint, and resources are
soft-deleted once a count finds no reference. Each query and each transaction is one
step of a call. Columns are kept as far as these calls read them, JSON as its text;
models stay as they are but for their deletion. The rules for reasoning policies
are any two functions. -/
namespace AisphereHub

open GoStrings (trimSpace)

/-- `normalizeReasoningPolicy` and `buildProviderReasoningPatch`. -/
structure ReasoningRules where
  normalizePolicy : (policy capability : String) → Except String String
  providerPatch : (policy mapping : String) → Except String String

structure ModelRowV2 where
  id : String
  orgID : String
  status : String := "active"
  reasoning : String := ""
  deletedAt : Option Nat := none
deriving DecidableEq

structure EndpointRowV2 where
  id : String
  modelID : String
  orgID : String
  status : String := "active"
  reasoningMapping : String := ""
  deletedAt : Option Nat := none
deriving DecidableEq

structure ProfileRowV2 where
  id : String
  code : String
  orgID : String
  status : String := "active"
  endpointID : String
  limits : String := ""
  reasoningPolicy : String := ""
  latestRevision : Int
  deletedAt : Option Nat := none
deriving DecidableEq

structure ProfileSnapshot where
  code : String
  limits : String
  modelID : String
  endpointID : String
  policy : String
  providerRequestPatch : String
deriving DecidableEq

structure ProfileRevisionRowV2 where
  profileID : String
  revision : Int
  snapshot : ProfileSnapshot
  author : String := ""
  commitMsg : String := ""
deriving DecidableEq

structure CatalogV2 where
  models : List ModelRowV2 := []
  endpoints : List EndpointRowV2 := []
  profiles : List ProfileRowV2 := []
  revisions : List ProfileRevisionRowV2 := []
deriving DecidableEq

structure EndpointWriteRequest where
  modelID : String
  displayName : String
  baseURL : String
  providerModelID : String
  status : String := ""
  reasoningMapping : String := ""
  apiFormat : String := ""
deriving DecidableEq

structure ProfileWriteRequest where
  code : String
  status : String := ""
  endpointID : String
  limits : String := ""
  reasoningPolicy : String := ""
  commitMsg : String := ""
deriving DecidableEq

inductive CatalogResource where
  | model
  | endpoint
  | profile
deriving DecidableEq

/-- A write names the row it updates, if it does not create one. -/
inductive CatalogRequest where
  | endpoint (principal : Principal) (target : Option String) (req : EndpointWriteRequest)
  | profile (principal : Principal) (target : Option String) (req : ProfileWriteRequest)
  | delete (principal : Principal) (kind : CatalogResource) (id : String)
deriving DecidableEq

inductive CatalogCall where
  | authorize (request : CatalogRequest)
  | ensureModel (orgID : String) (target : Option String) (req : EndpointWriteRequest)
  | storeEndpoint (target : Option String) (row : EndpointRowV2)
  | loadProfile (principal : Principal) (id : String) (req : ProfileWriteRequest)
  | loadEndpoint (principal : Principal) (target : Option String) (revision : Int)
    (req : ProfileWriteRequest)
  | loadModel (principal : Principal) (target : Option String) (revision : Int)
    (req : ProfileWriteRequest) (endpoint : EndpointRowV2)
  | storeProfile (target : Option String) (row : ProfileRowV2) (revision : ProfileRevisionRowV2)
  | count (orgID : String) (kind : CatalogResource) (id : String)
  | softDelete (orgID : String) (kind : CatalogResource) (id : String)
  | returned (result : Except HubError Unit)
deriving DecidableEq

def CatalogRequest.principal : CatalogRequest → Principal
  | .endpoint principal _ _ | .profile principal _ _ | .delete principal _ _ => principal

def CatalogRequest.first : CatalogRequest → CatalogCall
  | .endpoint principal target req => .ensureModel principal.orgID target req
  | .profile principal none req => .loadEndpoint principal none 1 req
  | .profile principal (some id) req => .loadProfile principal id req
  | .delete principal kind id => .count principal.orgID kind id

def ModelRowV2.visible (orgID : String) (m : ModelRowV2) : Bool :=
  m.deletedAt.isNone && m.orgID == orgID

def EndpointRowV2.visible (orgID : String) (e : EndpointRowV2) : Bool :=
  e.deletedAt.isNone && e.orgID == orgID

def ProfileRowV2.visible (orgID : String) (p : ProfileRowV2) : Bool :=
  p.deletedAt.isNone && p.orgID == orgID

def modelNotFound : HubError := ⟨.MODEL_MANAGEMENT_NOT_FOUND, "model resource not found"⟩

def modelConflict : HubError := ⟨.MODEL_MANAGEMENT_CONFLICT, "model resource already exists"⟩

/-- `First` or a guarded `Updates`, with the error of no row. -/
def orNotFound {α : Type} : Option α → Except HubError α
  | some found => .ok found
  | none => .error modelNotFound

def ensure (holds : Bool) (e : HubError) : Except HubError Unit :=
  if holds then .ok () else .error e

/-- `^[a-z0-9][a-z0-9-]{0,127}$`. -/
def isModelCode (code : String) : Bool :=
  let lower (c : Char) := ('a' ≤ c && c ≤ 'z') || ('0' ≤ c && c ≤ '9')
  match code.toList with
  | [] => false
  | first :: rest => lower first && rest.length ≤ 127 && rest.all fun c => lower c || c == '-'

/-- `strings.EqualFold` with a word of ASCII letters is equality of the folded names. -/
def normalizeStatus (value : String) : String :=
  if GoJson.foldName (trimSpace value) = GoJson.foldName "disabled" then "disabled" else "active"

def requireZone (principal : Principal) (check : CheckAnswer) : Except HubError Unit :=
  ensure (trimSpace principal.orgID ≠ "" ∧ check = .allowed)
    ⟨.MODEL_MANAGEMENT_FORBIDDEN, "permission denied"⟩

def buildEndpointRow (req : EndpointWriteRequest) (orgID id : String) :
    Except HubError EndpointRowV2 := do
  ensure (trimSpace req.modelID ≠ "" ∧ trimSpace req.displayName ≠ "" ∧
      trimSpace req.baseURL ≠ "" ∧ trimSpace req.providerModelID ≠ "")
    ⟨.MODEL_ENDPOINT_REQUIRED_FIELDS_MISSING,
      "modelId, displayName, baseUrl and providerModelId are required"⟩
  discard ((normalizeModelAPIFormat req.apiFormat).mapError
    (HubError.mk .MODEL_ENDPOINT_API_FORMAT_INVALID))
  return ⟨id, trimSpace req.modelID, orgID, normalizeStatus req.status, req.reasoningMapping, none⟩

/-- The end of `buildProfile`, once endpoint and model are loaded. -/
def buildProfile (R : ReasoningRules) (principal : Principal) (req : ProfileWriteRequest)
    (id : String) (revision : Int) (endpoint : EndpointRowV2) (model : ModelRowV2) :
    Except HubError (ProfileRowV2 × ProfileRevisionRowV2) := do
  ensure (model.status = "active") ⟨.MODEL_DISABLED, "selected model is disabled"⟩
  let policy ← (R.normalizePolicy req.reasoningPolicy model.reasoning).mapError
    (HubError.mk .MODEL_PROFILE_REASONING_INVALID)
  let patch ← (R.providerPatch policy endpoint.reasoningMapping).mapError
    (HubError.mk .MODEL_REASONING_MAPPING_INVALID)
  return (⟨id, trimSpace req.code, principal.orgID, normalizeStatus req.status, endpoint.id,
      req.limits, policy, revision, none⟩,
    ⟨id, revision, ⟨trimSpace req.code, req.limits, model.id, endpoint.id, policy, patch⟩,
      principal.subjectID, if trimSpace req.commitMsg = "" then "update model profile"
        else trimSpace req.commitMsg⟩)

def ProfileRowV2.updates (row p : ProfileRowV2) : ProfileRowV2 :=
  { p with
    code := row.code
    status := row.status
    endpointID := row.endpointID
    limits := row.limits
    reasoningPolicy := row.reasoningPolicy
    latestRevision := row.latestRevision }

/-- `aihub_model_profiles_v2_org_code_uniq` against the other live rows. -/
def profileCodeTaken (profiles : List ProfileRowV2) (row : ProfileRowV2) : Bool :=
  profiles.any fun p => p.visible row.orgID && p.code == row.code && p.id != row.id

/-- The insert of a revision under `UNIQUE(profile_id, revision)`. -/
def insertProfileRevision (s : CatalogV2) (v : ProfileRevisionRowV2) :
    Except HubError CatalogV2 :=
  if s.revisions.any fun w => w.profileID == v.profileID && w.revision == v.revision then
    .error modelConflict
  else .ok { s with revisions := s.revisions ++ [v] }

/-- The transactions of `createProfile` and `updateProfile`: nothing is left of one that fails. -/
def storeProfileRevision (s : CatalogV2) (target : Option String) (row : ProfileRowV2)
    (v : ProfileRevisionRowV2) : Except HubError CatalogV2 :=
  match target with
  | none =>
    if (Keyed.lookup ProfileRowV2.id s.profiles row.id).isSome || profileCodeTaken s.profiles row then
      .error modelConflict
    else insertProfileRevision { s with profiles := s.profiles ++ [row] } v
  | some id => do
    let out ← orNotFound (Keyed.update ProfileRowV2.id s.profiles id (fun p => p.deletedAt.isNone)
      row.updates)
    ensure (!profileCodeTaken out.1 out.2) modelConflict
    insertProfileRevision { s with profiles := out.1 } v

def storeEndpointRow (s : CatalogV2) (target : Option String) (row : EndpointRowV2) :
    Except HubError CatalogV2 :=
  match target with
  | none =>
    if (Keyed.lookup EndpointRowV2.id s.endpoints row.id).isSome then .error modelConflict
    else .ok { s with endpoints := s.endpoints ++ [row] }
  | some id =>
    (orNotFound (Keyed.update EndpointRowV2.id s.endpoints id (EndpointRowV2.visible row.orgID)
      fun e => { e with
        modelID := row.modelID
        status := row.status
        reasoningMapping := row.reasoningMapping })).map fun out => { s with endpoints := out.1 }

def catalogReferences (s : CatalogV2) (id : String) : CatalogResource → Nat
  | .model => s.endpoints.countP fun e => e.modelID == id && e.deletedAt.isNone
  | .endpoint => s.profiles.countP fun p => p.endpointID == id && p.deletedAt.isNone
  | .profile => 0

def softDeleteResource (s : CatalogV2) (orgID id : String) (now : Nat) :
    CatalogResource → Option CatalogV2
  | .model => (Keyed.update ModelRowV2.id s.models id (ModelRowV2.visible orgID)
      fun m => { m with deletedAt := some now }).map fun out => { s with models := out.1 }
  | .endpoint => (Keyed.update EndpointRowV2.id s.endpoints id (EndpointRowV2.visible orgID)
      fun e => { e with deletedAt := some now }).map fun out => { s with endpoints := out.1 }
  | .profile => (Keyed.update ProfileRowV2.id s.profiles id (ProfileRowV2.visible orgID)
      fun p => { p with deletedAt := some now }).map fun out => { s with profiles := out.1 }

section
variable (R : ReasoningRules)

/-- One query or transaction of a call, or the error it returns with. -/
def CatalogCall.attempt (s : CatalogV2) (a : Answer) :
    CatalogCall → Except HubError (CatalogV2 × CatalogCall)
  | .authorize request => do
    requireZone request.principal a.check
    return (s, request.first)
  | .ensureModel orgID target req => do
    let _ ← a.orFault (orNotFound
      (Keyed.select ModelRowV2.id (ModelRowV2.visible orgID) s.models req.modelID))
    let row ← buildEndpointRow req orgID a.uuid
    return (s, .storeEndpoint target row)
  | .storeEndpoint target row => do
    let s' ← a.orFault (storeEndpointRow s target row)
    return (s', .returned (.ok ()))
  | .loadProfile principal id req => do
    let existing ← a.orFault (orNotFound
      (Keyed.select ProfileRowV2.id (ProfileRowV2.visible principal.orgID) s.profiles id))
    return (s, .loadEndpoint principal (some id) (existing.latestRevision + 1) req)
  | .loadEndpoint principal target revision req => do
    ensure (isModelCode (trimSpace req.code)) ⟨.MODEL_PROFILE_CODE_INVALID,
      "profile code must contain lowercase letters, numbers, and hyphens"⟩
    let endpoint ← a.orFault (orNotFound (Keyed.select EndpointRowV2.id
      (EndpointRowV2.visible principal.orgID) s.endpoints req.endpointID))
    ensure (endpoint.status = "active") ⟨.MODEL_ENDPOINT_DISABLED, "selected endpoint is disabled"⟩
    return (s, .loadModel principal target revision req endpoint)
  | .loadModel principal target revision req endpoint => do
    let model ← a.orFault (orNotFound (Keyed.select ModelRowV2.id
      (ModelRowV2.visible principal.orgID) s.models endpoint.modelID))
    let built ← buildProfile R principal req (target.getD a.uuid) revision endpoint model
    return (s, .storeProfile target built.1 built.2)
  | .storeProfile target row revision => do
    let s' ← a.orFault (storeProfileRevision s target row revision)
    return (s', .returned (.ok ()))
  | .count orgID kind id => do
    let references ← a.orFault (.ok (catalogReferences s id kind))
    ensure (references = 0) ⟨.MODEL_RESOURCE_IN_USE, "resource is referenced and cannot be deleted"⟩
    return (s, .softDelete orgID kind id)
  | .softDelete orgID kind id => do
    let s' ← a.orFault (orNotFound (softDeleteResource s orgID id a.now kind))
    return (s', .returned (.ok ()))
  | .returned result => .ok (s, .returned result)

def CatalogCall.finished : CatalogCall → Bool
  | .returned _ => true
  | _ => false

def CatalogCall.next (s : CatalogV2) (call : CatalogCall) (a : Answer) :
    Option (CatalogV2 × CatalogCall) :=
  if call.finished then none
  else
    match call.attempt R s a with
    | .error e => some (s, .returned (.error e))
    | .ok out => some out

def modelCatalogProgram : Threads.Program CatalogV2 CatalogCall CatalogRequest Answer where
  start := .authorize
  next := CatalogCall.next R
  finished := CatalogCall.finished

end

theorem ensure_eq_ok : ensure holds e = .ok u ↔ holds = true := by
  cases holds <;> simp [ensure]

theorem orNotFound_eq_ok {x : α} :
    orNotFound found = .ok x ↔ found = some x := by
  cases found <;> simp [orNotFound]

theorem insertProfileRevision_eq_ok (stored : insertProfileRevision s v = .ok s') :
    (∀ w ∈ s.revisions, w.profileID = v.profileID → w.revision ≠ v.revision) ∧
      s' = { s with revisions := s.revisions ++ [v] } := by
  unfold insertProfileRevision at stored
  split_ifs at stored with taken
  cases stored
  simp only [List.any_eq_true, Bool.and_eq_true, beq_iff_eq, not_exists, not_and] at taken
  exact ⟨taken, rfl⟩

theorem storeProfileRevision_eq_ok (stored : storeProfileRevision s target row v = .ok s') :
    (∀ w ∈ s.revisions, w.profileID = v.profileID → w.revision ≠ v.revision) ∧
      ∃ profiles, s' = { s with profiles := profiles, revisions := s.revisions ++ [v] } ∧
      (target = none ∧ Keyed.lookup ProfileRowV2.id s.profiles row.id = none ∧
          profiles = s.profiles ++ [row] ∨
        ∃ p ∈ s.profiles, target = some p.id ∧ p.deletedAt = none ∧
          profiles = Keyed.amend ProfileRowV2.id s.profiles p.id row.updates) := by
  unfold storeProfileRevision at stored
  cases target with
  | none =>
    split_ifs at stored with taken
    obtain ⟨fresh, rfl⟩ := insertProfileRevision_eq_ok stored
    rw [Bool.or_eq_true, not_or] at taken
    exact ⟨fresh, _, rfl, .inl ⟨rfl, by simpa using taken.1, rfl⟩⟩
  | some id =>
    obtain ⟨out, found, stored⟩ := bind_eq_ok.mp stored
    obtain ⟨p, here, live, rfl⟩ := Keyed.update_eq_some.mp (orNotFound_eq_ok.mp found)
    obtain ⟨_, _, stored⟩ := bind_eq_ok.mp stored
    obtain ⟨fresh, rfl⟩ := insertProfileRevision_eq_ok stored
    cases Keyed.key_of_lookup here
    exact ⟨fresh, _, rfl, .inr ⟨p, Keyed.mem_of_lookup here, rfl, by simpa using live, rfl⟩⟩

inductive CatalogMove (s : CatalogV2) : CatalogCall → CatalogV2 → CatalogCall → Prop
  | failed (call : CatalogCall) (e : HubError) : CatalogMove s call s (.returned (.error e))
  | authorized (request : CatalogRequest) : CatalogMove s (.authorize request) s request.first
  | ensured (orgID : String) (target : Option String) (req : EndpointWriteRequest)
      (m : ModelRowV2) (row : EndpointRowV2)
      (found : Keyed.select ModelRowV2.id (ModelRowV2.visible orgID) s.models req.modelID = some m)
      (built : row.modelID = trimSpace req.modelID ∧ row.orgID = orgID ∧ row.deletedAt = none) :
      CatalogMove s (.ensureModel orgID target req) s (.storeEndpoint target row)
  | endpointStored (target : Option String) (row : EndpointRowV2) (s' : CatalogV2)
      (stored : storeEndpointRow s target row = .ok s') :
      CatalogMove s (.storeEndpoint target row) s' (.returned (.ok ()))
  | profileLoaded (principal : Principal) (id : String) (req : ProfileWriteRequest)
      (p : ProfileRowV2) (found : Keyed.select ProfileRowV2.id
        (ProfileRowV2.visible principal.orgID) s.profiles id = some p) :
      CatalogMove s (.loadProfile principal id req) s
        (.loadEndpoint principal (some id) (p.latestRevision + 1) req)
  | endpointLoaded (principal : Principal) (target : Option String) (n : Int)
      (req : ProfileWriteRequest) (e : EndpointRowV2) (found : Keyed.select EndpointRowV2.id
        (EndpointRowV2.visible principal.orgID) s.endpoints req.endpointID = some e) :
      CatalogMove s (.loadEndpoint principal target n req) s (.loadModel principal target n req e)
  | built (principal : Principal) (target : Option String) (n : Int) (req : ProfileWriteRequest)
      (e : EndpointRowV2) (row : ProfileRowV2) (v : ProfileRevisionRowV2)
      (same : row.orgID = principal.orgID ∧ row.endpointID = e.id ∧ row.latestRevision = n ∧
        row.deletedAt = none ∧ v.revision = n ∧ v.profileID = target.getD row.id ∧
        v.snapshot.endpointID = row.endpointID ∧ v.snapshot.policy = row.reasoningPolicy ∧
        v.snapshot.limits = row.limits) :
      CatalogMove s (.loadModel principal target n req e) s (.storeProfile target row v)
  | profileStored (target : Option String) (row : ProfileRowV2) (v : ProfileRevisionRowV2)
      (s' : CatalogV2) (stored : storeProfileRevision s target row v = .ok s') :
      CatalogMove s (.storeProfile target row v) s' (.returned (.ok ()))
  | counted (orgID : String) (kind : CatalogResource) (id : String)
      (unused : catalogReferences s id kind = 0) :
      CatalogMove s (.count orgID kind id) s (.softDelete orgID kind id)
  | deleted (orgID : String) (kind : CatalogResource) (id : String) (now : Nat)
      (s' : CatalogV2) (gone : softDeleteResource s orgID id now kind = some s') :
      CatalogMove s (.softDelete orgID kind id) s' (.returned (.ok ()))

theorem CatalogCall.move
    (taken : call.next R s a = some (s', call')) : CatalogMove s call s' call' := by
  unfold CatalogCall.next at taken
  split_ifs at taken with busy
  split at taken
  · cases taken
    exact .failed _ _
  rename_i made
  cases taken
  cases call with
  | authorize request =>
    obtain ⟨_, _, made⟩ := bind_eq_ok.mp made
    cases made
    exact .authorized request
  | ensureModel orgID target req =>
    obtain ⟨m, found, made⟩ := bind_eq_ok.mp made
    obtain ⟨row, built, made⟩ := bind_eq_ok.mp made
    cases made
    obtain ⟨_, _, built⟩ := bind_eq_ok.mp built
    obtain ⟨_, _, built⟩ := bind_eq_ok.mp built
    cases built
    exact .ensured _ _ _ m _ (orNotFound_eq_ok.mp (orFault_eq_ok.mp found).2) ⟨rfl, rfl, rfl⟩
  | storeEndpoint target row =>
    obtain ⟨_, stored, made⟩ := bind_eq_ok.mp made
    cases made
    exact .endpointStored _ _ _ (orFault_eq_ok.mp stored).2
  | loadProfile principal id req =>
    obtain ⟨p, found, made⟩ := bind_eq_ok.mp made
    cases made
    exact .profileLoaded _ _ _ p (orNotFound_eq_ok.mp (orFault_eq_ok.mp found).2)
  | loadEndpoint principal target n req =>
    obtain ⟨_, _, made⟩ := bind_eq_ok.mp made
    obtain ⟨e, found, made⟩ := bind_eq_ok.mp made
    obtain ⟨_, _, made⟩ := bind_eq_ok.mp made
    cases made
    exact .endpointLoaded _ _ _ _ e (orNotFound_eq_ok.mp (orFault_eq_ok.mp found).2)
  | loadModel principal target n req e =>
    obtain ⟨_, _, made⟩ := bind_eq_ok.mp made
    obtain ⟨out, built, made⟩ := bind_eq_ok.mp made
    cases made
    obtain ⟨_, _, built⟩ := bind_eq_ok.mp built
    obtain ⟨policy, _, built⟩ := bind_eq_ok.mp built
    obtain ⟨patch, _, built⟩ := bind_eq_ok.mp built
    cases built
    refine .built _ _ _ _ _ _ _ ⟨rfl, rfl, rfl, rfl, rfl, ?_, rfl, rfl, rfl⟩
    cases target <;> rfl
  | storeProfile target row v =>
    obtain ⟨_, stored, made⟩ := bind_eq_ok.mp made
    cases made
    exact .profileStored _ _ _ _ (orFault_eq_ok.mp stored).2
  | count orgID kind id =>
    obtain ⟨references, read, made⟩ := bind_eq_ok.mp made
    obtain ⟨_, zero, made⟩ := bind_eq_ok.mp made
    cases made
    cases (orFault_eq_ok.mp read).2
    exact .counted _ _ _ (of_decide_eq_true (ensure_eq_ok.mp zero))
  | softDelete orgID kind id =>
    obtain ⟨_, gone, made⟩ := bind_eq_ok.mp made
    cases made
    exact .deleted _ _ _ a.now _ (orNotFound_eq_ok.mp (orFault_eq_ok.mp gone).2)
  | returned result => exact absurd rfl busy

end AisphereHub
