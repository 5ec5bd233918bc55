import AisphereHub.Data.ClusterRepo
import AisphereHub.Data.NamespaceRepo
import AisphereHub.Data.SandboxProvider
import Mathlib.Data.List.Sort

/-! The `k8s_sandboxes` repository. Every query is one statement, or one transaction
around one statement. -/
namespace AisphereHub

variable {id : String}

structure SandboxStore where
  kube : KubeStore := {}
  templates : List SandboxTemplate := []
  sandboxes : List Sandbox := []
  remote : List RemoteSandbox := []
  policies : List EgressPolicy := []
deriving DecidableEq

/-- `WHERE id = ? AND deleted_at IS NULL`. -/
def liveSandbox (rows : List Sandbox) (id : String) : Option Sandbox :=
  Keyed.select Sandbox.id Sandbox.live rows id

def getSandbox (rows : List Sandbox) (id : String) : Except HubError Sandbox :=
  match liveSandbox rows id with
  | some s => .ok s
  | none => .error ⟨.SANDBOX_NOT_FOUND, ""⟩

def getSandboxTemplate (rows : List SandboxTemplate) (id : String) :
    Except HubError SandboxTemplate :=
  match Keyed.select SandboxTemplate.id SandboxTemplate.live rows id with
  | some t => .ok t
  | none => .error ⟨.SANDBOX_TEMPLATE_NOT_FOUND, ""⟩

/-- `ORDER BY name ASC`; the live rows of a namespace have different names. -/
def listSandboxesByNamespace (rows : List Sandbox) (namespaceID : String) : List Sandbox :=
  (rows.filter fun s => s.namespaceID = namespaceID ∧ s.live = true).insertionSort
    fun s t => s.name ≤ t.name

/-- `uq_k8s_sandboxes_namespace_name`. -/
def sandboxCollides (s other : Sandbox) : Bool :=
  other.live && other.namespaceID == s.namespaceID && other.name == s.name

/-- The insert under the primary key, the foreign keys and the unique index. -/
def insertSandbox (store : SandboxStore) (s : Sandbox) : Except HubError (List Sandbox) :=
  let failed (cause : String) : Except HubError (List Sandbox) :=
    .error (.plain ("sandbox repo: create sandbox " ++ s.id ++ ": " ++ cause))
  if (Keyed.lookup Sandbox.id store.sandboxes s.id).isSome then failed "duplicate key"
  else if (Keyed.lookup Namespace.id store.kube.namespaces s.namespaceID).isNone ∨
      (Keyed.lookup Cluster.id store.kube.clusters s.clusterID).isNone ∨
      (s.templateID ≠ "" ∧ (Keyed.lookup SandboxTemplate.id store.templates s.templateID).isNone) then
    failed "foreign key violation"
  else if store.sandboxes.any (sandboxCollides s) then failed "duplicate key"
  else .ok (store.sandboxes ++ [s])

structure SandboxStatusExtra where
  operatingMode : Option SandboxOperatingMode := none
  networkMode : Option SandboxNetworkMode := none
  lastSyncAt : Option Nat := none
deriving DecidableEq

def Sandbox.transitioned (s : Sandbox) (lifecycle : SandboxLifecycle) (healthMessage : String)
    (extra : SandboxStatusExtra) (now : Nat) : Sandbox :=
  { s with
    lifecycle := lifecycle
    healthMessage := healthMessage
    operatingMode := extra.operatingMode.getD s.operatingMode
    networkMode := extra.networkMode.getD s.networkMode
    lastSyncAt := extra.lastSyncAt.or s.lastSyncAt
    updatedAt := now
    revision := s.revision + 1 }

/-- `UpdateSandboxStatus`, which asks for no revision. -/
def updateSandboxStatus (rows : List Sandbox) (id : String) (lifecycle : SandboxLifecycle)
    (healthMessage : String) (extra : SandboxStatusExtra) (now : Nat) :
    Except HubError (List Sandbox × Sandbox) :=
  affected (Keyed.update Sandbox.id rows id Sandbox.live
    fun s => s.transitioned lifecycle healthMessage extra now) .SANDBOX_NOT_FOUND

def Sandbox.synced (s : Sandbox) (observed : SandboxObserved) (lastSyncAt now : Nat) : Sandbox :=
  { s with
    observed := observed
    lastSyncAt := some lastSyncAt
    updatedAt := now
    revision := s.revision + 1 }

def updateSandboxSync (rows : List Sandbox) (id : String) (observed : SandboxObserved)
    (lastSyncAt now : Nat) : Except HubError (List Sandbox × Sandbox) :=
  affected (Keyed.update Sandbox.id rows id Sandbox.live
    fun s => s.synced observed lastSyncAt now) .SANDBOX_NOT_FOUND

def Sandbox.softDeleted (s : Sandbox) (now : Nat) : Sandbox :=
  { s with
    deletedAt := some now
    lifecycle := .DELETED
    updatedAt := now
    revision := s.revision + 1 }

variable {rows table : List Sandbox}

/-- A write that affects no row is a conflict while the row is live. -/
def deleteSandboxRow (rows : List Sandbox) (id : String) (expectedRevision : Int) (now : Nat) :
    Except HubError (List Sandbox × Sandbox) :=
  affected (Keyed.update Sandbox.id rows id
      (fun s => s.revision == expectedRevision && s.live) fun s => s.softDeleted now)
    (if (liveSandbox rows id).isSome then .REVISION_CONFLICT else .SANDBOX_NOT_FOUND)

theorem getSandbox_eq_ok : getSandbox rows id = .ok s ↔
      Keyed.lookup Sandbox.id rows id = some s ∧ s.live = true := by
  rw [← Keyed.select_eq_some, getSandbox, liveSandbox]
  cases Keyed.select Sandbox.id Sandbox.live rows id <;> simp

theorem insertSandbox_eq_ok (inserted : insertSandbox store s = .ok rows) :
    Keyed.lookup Sandbox.id store.sandboxes s.id = none ∧ rows = store.sandboxes ++ [s] := by
  unfold insertSandbox at inserted
  split_ifs at inserted with known
  exact ⟨by simpa using known, (Except.ok.inj inserted).symm⟩

theorem updateSandboxStatus_eq_ok :
    updateSandboxStatus rows id lifecycle healthMessage extra now = .ok (table, updated) ↔
      ∃ s, getSandbox rows id = .ok s ∧ updated = s.transitioned lifecycle healthMessage extra now ∧
        table = Keyed.amend Sandbox.id rows id
          fun s => s.transitioned lifecycle healthMessage extra now := by
  simp only [updateSandboxStatus, affected_update, Keyed.select_eq_some, getSandbox_eq_ok]

theorem updateSandboxSync_eq_ok :
    updateSandboxSync rows id observed lastSyncAt now = .ok (table, updated) ↔
      ∃ s, getSandbox rows id = .ok s ∧ updated = s.synced observed lastSyncAt now ∧
        table = Keyed.amend Sandbox.id rows id fun s => s.synced observed lastSyncAt now := by
  simp only [updateSandboxSync, affected_update, Keyed.select_eq_some, getSandbox_eq_ok]

end AisphereHub
