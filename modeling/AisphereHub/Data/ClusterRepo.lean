import AisphereHub.Data.Store

/-! The `k8s_clusters` repository: revision-guarded updates, status-guarded
transitions, soft deletion. -/
namespace AisphereHub

variable {id : String} {now : Nat}

/-- `WHERE id = ? AND deleted_at IS NULL`. -/
def liveCluster (rows : List Cluster) (id : String) : Option Cluster :=
  Keyed.select Cluster.id Cluster.live rows id

def getCluster (rows : List Cluster) (id : String) : Except HubError Cluster :=
  match liveCluster rows id with
  | some c => .ok c
  | none => .error ⟨.CLUSTER_NOT_FOUND, ""⟩

/-- `uq_k8s_clusters_org_name`. -/
def clusterNameCollides (c other : Cluster) : Bool :=
  other.live && other.id != c.id && other.orgID == c.orgID && other.name == c.name

/-- `uq_k8s_clusters_uid`. -/
def clusterUIDCollides (c other : Cluster) : Bool :=
  other.live && other.id != c.id && c.clusterUID != "" && other.clusterUID == c.clusterUID

/-- The insert of a row whose id the caller allocated, under the primary key
and the unique indexes. -/
def insertCluster (rows : List Cluster) (c : Cluster) : Except HubError (List Cluster) :=
  if (Keyed.lookup Cluster.id rows c.id).isSome then
    .error (.plain ("cluster repo: create " ++ c.id ++ ": duplicate key"))
  else if rows.any (clusterNameCollides c) then
    .error (.plain ("cluster repo: create " ++ c.id ++ ": duplicate key"))
  else if rows.any (clusterUIDCollides c) then
    .error (.plain ("cluster repo: create " ++ c.id ++ ": duplicate key"))
  else .ok (rows ++ [c])

/-- The columns `clusterFieldMaskToUpdates` lets through. None of them is one
that `isImmutableClusterField` refuses. -/
inductive ClusterUpdate where
  | name (value : String)
  | displayName (value : String)
  | description (value : String)
  | serverURL (value : String)
  | distribution (value : String)
  | labels (value : List (String × String))
deriving DecidableEq

def ClusterUpdate.apply (c : Cluster) : ClusterUpdate → Cluster
  | .name v => { c with name := v }
  | .displayName v => { c with displayName := v }
  | .description v => { c with description := v }
  | .serverURL v => { c with serverURL := v }
  | .distribution v => { c with distribution := v }
  | .labels v => { c with labels := v }

def Cluster.patched (c : Cluster) (updates : List ClusterUpdate) (now : Nat) : Cluster :=
  { updates.foldl ClusterUpdate.apply c with revision := c.revision + 1, updatedAt := now }

/-- A row change that the unique indexes may still refuse. -/
def indexed (rows : List Cluster) (id : String) (result : Except HubError (List Cluster × Cluster)) :
    Except HubError (List Cluster × Cluster) :=
  match result with
  | .error e => .error e
  | .ok (table, c) =>
    if rows.any (clusterNameCollides c) || rows.any (clusterUIDCollides c) then
      .error (.plain ("cluster repo: update " ++ id ++ ": duplicate key"))
    else .ok (table, c)

def updateClusterWithCAS (rows : List Cluster) (id : String) (expectedRevision : Int)
    (updates : List ClusterUpdate) (now : Nat) : Except HubError (List Cluster × Cluster) :=
  if updates.isEmpty then (getCluster rows id).map fun c => (rows, c)
  else
    indexed rows id (affected (Keyed.update Cluster.id rows id
      (fun c => c.revision == expectedRevision && c.live)
      (fun c => c.patched updates now)) .REVISION_CONFLICT)

structure ClusterStatusExtra where
  healthMessage : Option String := none
  clusterUID : Option String := none
  kubernetesVersion : Option String := none
  lastProbeAt : Option Nat := none
deriving DecidableEq

def Cluster.transitioned (c : Cluster) (next : ClusterStatus) (extra : ClusterStatusExtra)
    (now : Nat) : Cluster :=
  { c with
    status := next
    healthMessage := extra.healthMessage.getD c.healthMessage
    clusterUID := extra.clusterUID.getD c.clusterUID
    kubernetesVersion := extra.kubernetesVersion.getD c.kubernetesVersion
    lastProbeAt := extra.lastProbeAt.or c.lastProbeAt
    updatedAt := now }

/-- An absent expected status skips the guard. -/
def updateClusterStatus (rows : List Cluster) (id : String) (expected : Option ClusterStatus)
    (next : ClusterStatus) (extra : ClusterStatusExtra) (now : Nat) :
    Except HubError (List Cluster × Cluster) :=
  indexed rows id (affected (Keyed.update Cluster.id rows id
    (fun c => c.live && (expected.isNone || expected == some c.status))
    (fun c => c.transitioned next extra now)) .CLUSTER_NOT_FOUND)

def Cluster.rekeyed (c : Cluster) (newRevision : Int) (newRef : String) (now : Nat) : Cluster :=
  { c with
    credentialRef := newRef
    credentialRevision := newRevision
    revision := c.revision + 1
    updatedAt := now }

def updateClusterCredential (rows : List Cluster) (id : String)
    (expectedRevision newRevision : Int) (newRef : String) (now : Nat) :
    Except HubError (List Cluster × Cluster) :=
  affected (Keyed.update Cluster.id rows id
    (fun c => c.revision == expectedRevision && c.live)
    (fun c => c.rekeyed newRevision newRef now)) .REVISION_CONFLICT

def Cluster.softDeleted (c : Cluster) (now : Nat) : Cluster :=
  { c with deletedAt := some now, status := .DELETED, updatedAt := now }

variable {rows : List Cluster} {updated : Cluster} {c : Cluster}

def softDeleteCluster (rows : List Cluster) (id : String) (now : Nat) :
    Except HubError (List Cluster × Cluster) :=
  affected (Keyed.update Cluster.id rows id Cluster.live
    (fun c => c.softDeleted now)) .CLUSTER_NOT_FOUND

theorem liveCluster_eq_some : liveCluster rows id = some c ↔
      Keyed.lookup Cluster.id rows id = some c ∧ c.live = true :=
  Keyed.select_eq_some

theorem getCluster_eq_ok : getCluster rows id = .ok c ↔ liveCluster rows id = some c := by
  unfold getCluster
  cases liveCluster rows id <;> simp

theorem clusterID_of_live (found : liveCluster rows id = some c) : c.id = id :=
  Keyed.key_of_select found

theorem live_amend (f : Cluster → Cluster)
    (keep : ∀ c, (f c).id = c.id) (keepLive : ∀ c, (f c).live = c.live)
    (live : liveCluster (Keyed.amend Cluster.id rows id f) j = some c') :
    ∃ c, liveCluster rows j = some c ∧ (j ≠ id ∧ c' = c ∨ j = id ∧ c' = f c) := by
  unfold liveCluster at live ⊢
  rw [Keyed.select_amend f keep keepLive] at live
  split_ifs at live with same
  · obtain ⟨c, found, rfl⟩ := Option.map_eq_some_iff.mp live
    exact ⟨c, same ▸ found, .inr ⟨same, rfl⟩⟩
  · exact ⟨c', live, .inl ⟨same, rfl⟩⟩

theorem indexed_eq_ok (accepted : indexed rows id result = .ok out) :
    result = .ok out := by
  unfold indexed at accepted
  split at accepted
  · cases accepted
  · split_ifs at accepted
    exact accepted

variable {table : List Cluster} {expectedRevision : Int}

theorem updateClusterWithCAS_eq_ok (masked : updates ≠ [])
    (committed : updateClusterWithCAS rows id expectedRevision updates now = .ok (table, updated)) :
    ∃ c, liveCluster rows id = some c ∧ c.revision = expectedRevision ∧
      updated = c.patched updates now ∧
      table = Keyed.amend Cluster.id rows id (fun c => c.patched updates now) := by
  have nonempty : updates.isEmpty = false := by simpa using masked
  simp only [updateClusterWithCAS, nonempty, Bool.false_eq_true, if_false] at committed
  simpa only [liveCluster, beq_iff_eq] using affected_guarded.mp (indexed_eq_ok committed)

theorem updateClusterWithCAS_empty (unmasked : updates = [])
    (committed : updateClusterWithCAS rows id expectedRevision updates now = .ok (table, updated))
    : table = rows := by
  subst unmasked
  simp only [updateClusterWithCAS, List.isEmpty_nil, if_true] at committed
  cases read : getCluster rows id with
  | error e => simp [read, Except.map] at committed
  | ok c =>
    simp only [read, Except.map, Except.ok.injEq, Prod.mk.injEq] at committed
    exact committed.1.symm

theorem updateClusterStatus_eq_ok
    (committed : updateClusterStatus rows id expected next extra now = .ok (table, updated)) :
    ∃ c, liveCluster rows id = some c ∧ updated = c.transitioned next extra now ∧
      table = Keyed.amend Cluster.id rows id (fun c => c.transitioned next extra now) := by
  have affecting := indexed_eq_ok committed
  simp only [affected_eq_ok, Keyed.update_eq_some, Bool.and_eq_true, Prod.mk.injEq] at affecting
  obtain ⟨c, found, ⟨live, _⟩, rfl, rfl⟩ := affecting
  exact ⟨c, liveCluster_eq_some.mpr ⟨found, live⟩, rfl, rfl⟩

theorem updateClusterCredential_eq_ok :
    updateClusterCredential rows id expectedRevision newRevision newRef now = .ok (table, updated) ↔
      ∃ c, liveCluster rows id = some c ∧ c.revision = expectedRevision ∧
        updated = c.rekeyed newRevision newRef now ∧
        table = Keyed.amend Cluster.id rows id (fun c => c.rekeyed newRevision newRef now) := by
  simp only [updateClusterCredential, affected_guarded, liveCluster, beq_iff_eq]

theorem softDeleteCluster_eq_ok
    (committed : softDeleteCluster rows id now = .ok (table, deleted)) :
    table = Keyed.amend Cluster.id rows id (fun c => c.softDeleted now) := by
  obtain ⟨_, _, _, same⟩ := affected_update.mp committed
  exact same

theorem Cluster.patched_frame (c : Cluster) (updates : List ClusterUpdate) (now : Nat) :
    (c.patched updates now).id = c.id ∧ (c.patched updates now).live = c.live ∧
      (c.patched updates now).credentialRef = c.credentialRef ∧
      (c.patched updates now).credentialRevision = c.credentialRevision := by
  have kept : ∀ (updates : List ClusterUpdate) (c : Cluster),
      let d := updates.foldl ClusterUpdate.apply c
      d.id = c.id ∧ d.deletedAt = c.deletedAt ∧ d.credentialRef = c.credentialRef ∧
        d.credentialRevision = c.credentialRevision := by
    intro updates
    induction updates with
    | nil => exact fun c => ⟨rfl, rfl, rfl, rfl⟩
    | cons update rest ih =>
      intro c
      have here := ih (ClusterUpdate.apply c update)
      cases update <;> exact here
  obtain ⟨id, deletedAt, credential⟩ := kept updates c
  exact ⟨id, congrArg Option.isNone deletedAt, credential⟩

end AisphereHub
