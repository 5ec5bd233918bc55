import AisphereHub.Foundation.GoStrconv
import AisphereHub.Foundation.Threads
import AisphereHub.Server.AgentRun

/-! The endpoints that create and update agents. A call is cut into its atomic steps: what it
checks and reads, its database transaction, and each request to SpiceDB. -/
namespace AisphereHub

open GoJson
open GoStrconv (atoi wrapInt64)
open GoStrings (hasPrefix split trimPrefix trimSpace)

structure AgentWriteRequest where
  id : String := ""
  displayName : String := ""
  description : String := ""
  status : String := ""
  scope : String := ""
  labels : Option (List (String × String)) := none
  version : String := ""
  commitMsg : String := ""
  definition : RawMessage := .nil
  projectID : String := ""
deriving DecidableEq

def errAgentZoneRequired : HubError :=
  ⟨.AGENT_ZONE_REQUIRED, "authenticated principal has no zone"⟩

def errAgentInvalidID : HubError :=
  ⟨.AGENT_INVALID_ID, "agent id must match [A-Za-z0-9][A-Za-z0-9_.-]\x7b0,127\x7d"⟩

def allowCreateInScope (a : ResolverAnswer) (principal : CatalogPrincipal) (projectID : String)
    (scope : AgentScope) : Except HubError Unit :=
  let permission := if scope = .public ∨ scope = .system then "manage_agents" else "create_agent"
  if trimSpace principal.orgID = "" then .error errAgentZoneRequired
  else if trimSpace projectID ≠ "" ∧ scope ≠ .system then
    a.requirePermission principal.toPrincipal "project" (trimSpace projectID) permission
  else a.requirePermission principal.toPrincipal "zone" principal.orgID permission

/-- The version after a number, or after anything else the time in seconds. -/
def nextNumber (now : Nat) (lead body : String) : String :=
  match atoi body with
  | some n => lead ++ toString (wrapInt64 (n + 1))
  | none => "v" ++ toString now

def nextAgentVersion (now : Nat) (latest : String) : String :=
  let latest := trimSpace latest
  let lead := if hasPrefix latest "v" then "v" else ""
  let body := trimPrefix latest "v"
  if latest = "" then "v1"
  else
    match split body '.' with
    | [major, minor, rest] =>
      match atoi ((split rest '-').headD "") with
      | some patch => lead ++ major ++ "." ++ minor ++ "." ++ toString (wrapInt64 (patch + 1))
      | none => nextNumber now lead body
    | _ => nextNumber now lead body

def labelsJSON (labels : Option (List (String × String))) : Json Decimal :=
  match labels with
  | none => .obj []
  | some _ => marshalMap labels

def firstNonEmpty (values : List String) : String :=
  (values.find? fun value => trimSpace value ≠ "").getD ""

structure AgentCodec (φ : Type) extends FloatCodec φ where
  sha256Hex : Json Decimal → String

structure AgentUpdate where
  id : String
  existing : AgentRow
  displayName : String
  description : String
  status : AgentStatus
  scope : AgentScope
  projectID : String
  labelsJSON : Json Decimal
  version : AgentVersionRow
deriving DecidableEq

def AgentUpdate.apply (u : AgentUpdate) (row : AgentRow) : AgentRow :=
  { row with
    displayName := u.displayName
    description := u.description
    status := u.status
    scope := u.scope
    projectID := u.projectID
    labelsJSON := u.labelsJSON
    latestVersion := u.version.version }

section Checks

variable {φ : Type} (A : AgentCodec φ) (w : ResolverState) (now : Nat)

def definitionDigest (definition : Json Decimal) : String × String :=
  let sha := A.sha256Hex definition
  (sha, String.ofList (sha.toList.take 16))

def createdRow (principal : CatalogPrincipal) (request : AgentWriteRequest) (version : String) :
    AgentRow where
  agentID := trimSpace request.id
  displayName := trimSpace request.displayName
  description := trimSpace request.description
  status := normalizeAgentStatus request.status
  scope := normalizeAgentScope request.scope
  ownerType := principal.subjectType
  ownerID := principal.subjectID
  ownerName := principal.name
  orgID := principal.orgID
  projectID := trimSpace request.projectID
  latestVersion := version
  labelsJSON := labelsJSON request.labels
  objectRef := "agent:" ++ trimSpace request.id

def versionRow (principal : CatalogPrincipal) (id version message verb : String)
    (definition : Json Decimal) : AgentVersionRow where
  agentID := id
  version := version
  revision := (definitionDigest A definition).2
  sha256 := (definitionDigest A definition).1
  author := principal.subjectID
  commitMsg := firstNonEmpty [trimSpace message, verb]
  definitionJSON := definition
  createdAt := now

/-- `createEndpoint` up to its transaction. -/
def planCreate (caller : CatalogPrincipal) (request : AgentWriteRequest) :
    Except HubError (AgentRow × AgentVersionRow) :=
  if agentIDRE (trimSpace request.id) = false then .error errAgentInvalidID
  else do
    let principal ← agentPrincipal caller
    allowCreateInScope w.answer principal request.projectID (normalizeAgentScope request.scope)
    let (definition, projection) ← normalizeAgentDefinition A.toFloatCodec request.definition
    let _ ← validateToolBindings A.toFloatCodec w principal.toPrincipal projection
    let version := trimSpace request.version
    let version := if version = "" then "v1" else version
    return (createdRow principal request version,
      versionRow A now principal (trimSpace request.id) version request.commitMsg "create agent" definition)

/-- Moving an agent to another scope or project takes `manage` on the agent. -/
def requireMove (principal : CatalogPrincipal) (existing : AgentRow) (id : String)
    (scope : AgentScope) (projectID : String) : Except HubError Unit :=
  if scope ≠ existing.scope ∨ projectID ≠ trimSpace existing.projectID then
    w.answer.requirePermission principal.toPrincipal "agent" id "manage"
  else .ok ()

/-- `updateEndpoint` up to its transaction. -/
def planUpdate (c : AgentCatalog) (loadFault : Option String) (caller : CatalogPrincipal)
    (id : String) (request : AgentWriteRequest) : Except HubError AgentUpdate := do
  let principal ← agentPrincipal caller
  w.answer.requirePermission principal.toPrincipal "agent" id "edit"
  let existing ← loadAgent c id "" loadFault
  let scope := normalizeAgentScope request.scope
  let projectID := trimSpace request.projectID
  requireMove w principal existing.row id scope projectID
  let (definition, projection) ← normalizeAgentDefinition A.toFloatCodec request.definition
  let _ ← validateToolBindings A.toFloatCodec w principal.toPrincipal projection
  let version := trimSpace request.version
  let version := if version = "" then nextAgentVersion now existing.row.latestVersion else version
  return {
    id := id
    existing := existing.row
    displayName := trimSpace request.displayName
    description := trimSpace request.description
    status := normalizeAgentStatus request.status
    scope := scope
    projectID := projectID
    labelsJSON := labelsJSON request.labels
    version := versionRow A now principal id version request.commitMsg "update agent" definition }

end Checks

def agentSpaceObjectID (orgID projectID : String) : String :=
  trimSpace orgID ++ "/" ++ trimSpace projectID ++ "/agents"

def agentObject (id : String) : AuthzObjectRef := ⟨"agent", id⟩

def everyone : AuthzSubjectRef := { type := "user", id := "*" }

def agentAuthzRelationships (row : AgentRow) : List AuthzRelationship :=
  let agent := agentObject row.agentID
  let spaceID := agentSpaceObjectID row.orgID row.projectID
  [⟨agent, "owner", { type := row.ownerType, id := row.ownerID }⟩] ++
    (if (row.scope = .project ∨ row.scope = .public) ∧ trimSpace row.projectID ≠ "" then
      [⟨⟨"agent_space", spaceID⟩, "parent", { type := "project", id := row.projectID }⟩,
        ⟨agent, "parent", { type := "agent_space", id := spaceID }⟩]
    else []) ++
    (if row.scope = .public then
      [⟨agent, "public_viewer", everyone⟩, ⟨agent, "public_executor", everyone⟩]
    else [])

def AgentUpdate.target (u : AgentUpdate) : AgentRow where
  agentID := u.id
  scope := u.scope
  ownerType := u.existing.ownerType
  ownerID := u.existing.ownerID
  orgID := u.existing.orgID
  projectID := u.projectID

/-- The relations that `updateEndpoint` deletes before it writes. -/
def ownedRelations : List String := ["parent", "public_viewer", "public_executor"]

structure AgentTables where
  catalog : AgentCatalog := {}
  tuples : Tuples := []
deriving DecidableEq

def AgentTables.deleteRelation (s : AgentTables) (id relation : String) : AgentTables :=
  { s with tuples := s.tuples.filter fun r =>
      !({ resourceType := "agent", resourceID := id, relation := relation } :
        AuthzRelationshipFilter).matches r }

def AgentTables.write (s : AgentTables) (row : AgentRow) : AgentTables :=
  { s with tuples := (agentAuthzRelationships row).foldl touch s.tuples }

/-- The writes of `deleteEndpoint`. The row goes first; a failure to delete the tuples is
dropped. -/
def AgentTables.delete (s : AgentTables) (id : String) (now : Nat) (authzFault : Option String) :
    Option AgentTables :=
  match s.catalog.live id, authzFault with
  | none, _ => none
  | some _, some _ => some { s with catalog := s.catalog.mark id now }
  | some _, none => some ⟨s.catalog.mark id now, s.tuples.filter fun r =>
    !({ resourceType := "agent", resourceID := id } : AuthzRelationshipFilter).matches r⟩

inductive AgentRequest where
  | create (caller : CatalogPrincipal) (request : AgentWriteRequest)
  | update (caller : CatalogPrincipal) (id : String) (request : AgentWriteRequest)
deriving DecidableEq

inductive AgentCall where
  | planCreate (caller : CatalogPrincipal) (request : AgentWriteRequest)
  | insert (row : AgentRow) (version : AgentVersionRow)
  | grant (row : AgentRow)
  | dropVersions (id : String)
  | mark (id : String)
  | planUpdate (caller : CatalogPrincipal) (id : String) (request : AgentWriteRequest)
  | commit (u : AgentUpdate)
  | reconcile (u : AgentUpdate) (todo : List String)
  | reload (id : String)
  | returned (result : Except HubError LoadedAgent)
deriving DecidableEq

/-- What a step meets: the answers of the other services, the time, and its own failure. -/
structure AgentAnswer where
  world : ResolverState := {}
  now : Nat := 0
  fault : Option String := none

def transact (c : Except HubError AgentCatalog) (fault : Option String) :
    Except HubError AgentCatalog :=
  match fault with
  | some cause => .error (agentDBErr cause)
  | none => c

section Steps

variable {φ : Type} (A : AgentCodec φ)

def agentNext (s : AgentTables) : AgentCall → AgentAnswer → Option (AgentTables × AgentCall)
  | .planCreate caller request, a =>
    match planCreate A a.world a.now caller request with
    | .error e => some (s, .returned (.error e))
    | .ok (row, version) => some (s, .insert row version)
  | .insert row version, a =>
    match transact (s.catalog.create row version) a.fault with
    | .error e => some (s, .returned (.error e))
    | .ok catalog => some ({ s with catalog := catalog }, .grant row)
  | .grant row, a =>
    match a.fault with
    | some _ => some (s, .dropVersions row.agentID)
    | none => some (s.write row, .reload row.agentID)
  | .dropVersions id, a =>
    -- The errors of the compensation are dropped.
    match a.fault with
    | some _ => some (s, .mark id)
    | none => some ({ s with catalog := s.catalog.dropVersions id }, .mark id)
  | .mark id, a =>
    match a.fault with
    | some _ => some (s, .returned (.error errAgentAuthzUnavailable))
    | none => some ({ s with catalog := s.catalog.mark id a.now },
        .returned (.error errAgentAuthzUnavailable))
  | .planUpdate caller id request, a =>
    match planUpdate A a.world a.now s.catalog a.fault caller id request with
    | .error e => some (s, .returned (.error e))
    | .ok u => some (s, .commit u)
  | .commit u, a =>
    match transact (s.catalog.update u.id u.apply u.version) a.fault with
    | .error e => some (s, .returned (.error e))
    | .ok catalog => some ({ s with catalog := catalog }, .reconcile u ownedRelations)
  | .reconcile u (relation :: todo), a =>
    match a.fault with
    | some _ => some (s, .returned (.error errAgentAuthzUnavailable))
    | none => some (s.deleteRelation u.id relation, .reconcile u todo)
  | .reconcile u [], a =>
    match a.fault with
    | some _ => some (s, .returned (.error errAgentAuthzUnavailable))
    | none => some (s.write u.target, .reload u.id)
  | .reload id, a => some (s, .returned (loadAgent s.catalog id "" a.fault))
  | .returned _, _ => none

def AgentRequest.start : AgentRequest → AgentCall
  | .create caller request => .planCreate caller request
  | .update caller id request => .planUpdate caller (trimSpace id) request

def AgentCall.finished : AgentCall → Bool
  | .returned _ => true
  | _ => false

def agentProgram : Threads.Program AgentTables AgentCall AgentRequest AgentAnswer where
  start := AgentRequest.start
  next s call answer := agentNext A s call answer
  finished := AgentCall.finished

end Steps

end AisphereHub
