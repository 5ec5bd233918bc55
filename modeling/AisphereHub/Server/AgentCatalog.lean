import AisphereHub.Server.AgentDefinition

/-! The rows of agents and of their versions. An agent is removed by marking its row, and the
unique constraint on its id counts marked rows too. -/
namespace AisphereHub

open GoJson
open GoStrings (trimSpace)

structure AgentRow where
  agentID : String
  displayName : String := ""
  description : String := ""
  status : AgentStatus := .active
  scope : AgentScope := .private
  ownerType : String := ""
  ownerID : String := ""
  ownerName : String := ""
  orgID : String := ""
  projectID : String := ""
  latestVersion : String := ""
  labelsJSON : Json Decimal := .obj []
  objectRef : String := ""
  deletedAt : Option Nat := none
deriving DecidableEq

structure AgentVersionRow where
  agentID : String
  version : String
  revision : String
  sha256 : String
  author : String
  commitMsg : String
  definitionJSON : Json Decimal
  createdAt : Nat
deriving DecidableEq

structure AgentCatalog where
  agents : List AgentRow := []
  versions : List AgentVersionRow := []
deriving DecidableEq

/-- `UNIQUE(agent_id, version)`. -/
def AgentVersionRow.key (r : AgentVersionRow) : String × String := (r.agentID, r.version)

def AgentRow.live (r : AgentRow) : Bool := r.deletedAt.isNone

/-- The check on the scope, which has no `public`, and the column sizes of `aihub_agents`. -/
def AgentRow.accepted (r : AgentRow) : Bool :=
  r.scope ≠ .public && r.agentID.length ≤ 128 && r.displayName.length ≤ 256 &&
    r.ownerType.length ≤ 32 && r.ownerID.length ≤ 128 && r.ownerName.length ≤ 256 &&
    r.orgID.length ≤ 128 && r.projectID.length ≤ 256 && r.latestVersion.length ≤ 64 &&
    r.objectRef.length ≤ 256

def AgentVersionRow.accepted (r : AgentVersionRow) : Bool :=
  r.agentID.length ≤ 128 && r.version.length ≤ 64 && r.revision.length ≤ 128 &&
    r.sha256.length ≤ 64 && r.author.length ≤ 128

def errAgentNotFound : HubError := ⟨.AGENT_NOT_FOUND, "agent not found"⟩
def errAgentVersionNotFound : HubError := ⟨.AGENT_VERSION_NOT_FOUND, "agent version not found"⟩
def errAgentAlreadyExists : HubError := ⟨.AGENT_ALREADY_EXISTS, "agent already exists"⟩

/-- A violated check or column size, as `agentDBErr` answers it. -/
def errAgentInternal : HubError := ⟨.AGENT_INTERNAL, "agent operation failed"⟩

namespace AgentCatalog

/-- `WHERE agent_id = ? AND deleted_at IS NULL`. -/
def live (c : AgentCatalog) (id : String) : Option AgentRow :=
  Keyed.select AgentRow.agentID AgentRow.live c.agents id

def labels (c : AgentCatalog) (id : String) : List String :=
  (c.versions.filter fun v => v.agentID = id).map AgentVersionRow.version

def insertAgent (c : AgentCatalog) (row : AgentRow) : Except HubError AgentCatalog :=
  if row.accepted = false then .error errAgentInternal
  else if (Keyed.lookup AgentRow.agentID c.agents row.agentID).isSome then
    .error errAgentAlreadyExists
  else .ok { c with agents := c.agents ++ [row] }

def insertVersion (c : AgentCatalog) (row : AgentVersionRow) : Except HubError AgentCatalog :=
  if row.accepted = false then .error errAgentInternal
  else if (Keyed.lookup AgentVersionRow.key c.versions row.key).isSome then
    .error errAgentAlreadyExists
  else .ok { c with versions := c.versions ++ [row] }

def updateAgent (c : AgentCatalog) (id : String) (f : AgentRow → AgentRow) :
    Except HubError AgentCatalog :=
  match c.live id with
  | none => .error errAgentNotFound
  | some row =>
    if (f row).accepted then .ok { c with agents := Keyed.amend AgentRow.agentID c.agents id f }
    else .error errAgentInternal

def create (c : AgentCatalog) (row : AgentRow) (version : AgentVersionRow) :
    Except HubError AgentCatalog := do
  let c ← c.insertAgent row
  c.insertVersion version

def update (c : AgentCatalog) (id : String) (f : AgentRow → AgentRow) (version : AgentVersionRow) :
    Except HubError AgentCatalog := do
  let c ← c.updateAgent id f
  c.insertVersion version

/-- The two steps that compensate a failed creation: the versions go, the row is marked. -/
def dropVersions (c : AgentCatalog) (id : String) : AgentCatalog :=
  { c with versions := c.versions.filter fun v => v.agentID ≠ id }

def mark (c : AgentCatalog) (id : String) (now : Nat) : AgentCatalog :=
  { c with agents := Keyed.amend AgentRow.agentID c.agents id fun r => { r with deletedAt := some now } }

end AgentCatalog

structure LoadedAgent where
  row : AgentRow
  versions : List AgentVersionRow
deriving DecidableEq

def loadAgent (c : AgentCatalog) (id version : String) (fault : Option String) :
    Except HubError LoadedAgent :=
  match fault, c.live id with
  | some cause, _ => .error (agentDBErr cause)
  | none, none => .error errAgentNotFound
  | none, some row =>
    let version := trimSpace version
    let rows := c.versions.filter fun v => v.agentID = id && (version = "" || v.version = version)
    if version ≠ "" ∧ rows = [] then .error errAgentVersionNotFound
    else .ok ⟨row, rows⟩

def selectedVersion (agent : LoadedAgent) (requested : String) : Except HubError AgentVersionRow :=
  let version := trimSpace requested
  let version := if version = "" then agent.row.latestVersion else version
  match agent.versions.find? fun v => v.version = version with
  | none => .error errAgentVersionNotFound
  | some row => .ok row

end AisphereHub
