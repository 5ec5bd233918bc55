import AisphereHub.Data.Store

/-! The `k8s_namespaces` and `k8s_namespace_shares` repository. Every query is
one statement, or one transaction around one statement, and is a function of
the table it runs on. -/
namespace AisphereHub

variable {id : String} {now : Nat}

/-- `WHERE id = ? AND deleted_at IS NULL`. -/
def liveNamespace (rows : List Namespace) (id : String) : Option Namespace :=
  Keyed.select Namespace.id Namespace.live rows id

def getNamespace (rows : List Namespace) (id : String) : Except HubError Namespace :=
  match liveNamespace rows id with
  | some ns => .ok ns
  | none => .error ⟨.NAMESPACE_NOT_FOUND, ""⟩

/-- The partial unique indexes on `(cluster_id, kube_name)` and on
`(cluster_id, kubernetes_uid)` where the uid is not empty. -/
def namespaceCollides (ns other : Namespace) : Bool :=
  other.live && other.id != ns.id && other.clusterID == ns.clusterID &&
    (other.kubeName == ns.kubeName ||
      (ns.kubernetesUID != "" && other.kubernetesUID == ns.kubernetesUID))

/-- The insert of a row whose id the caller allocated, under the primary key,
the foreign key to the clusters and the unique indexes. -/
def insertNamespace (s : KubeStore) (ns : Namespace) : Except HubError (List Namespace) :=
  if (Keyed.lookup Namespace.id s.namespaces ns.id).isSome then
    .error (.plain ("namespace repo: create " ++ ns.id ++ ": duplicate key"))
  else if (Keyed.lookup Cluster.id s.clusters ns.clusterID).isNone then
    .error (.plain ("namespace repo: create " ++ ns.id ++ ": foreign key violation"))
  else if s.namespaces.any (namespaceCollides ns) then
    .error (.plain ("namespace repo: create " ++ ns.id ++ ": duplicate key"))
  else .ok (s.namespaces ++ [ns])

inductive NamespaceUpdate where
  | displayName (value : String)
  | description (value : String)
  | labels (value : List (String × String))
  | annotations (value : List (String × String))
  | kubernetesUID (value : String)
  | resourceVersion (value : String)
  | lastSyncAt (value : Nat)
deriving DecidableEq

def NamespaceUpdate.apply (ns : Namespace) : NamespaceUpdate → Namespace
  | .displayName v => { ns with displayName := v }
  | .description v => { ns with description := v }
  | .labels v => { ns with labels := v }
  | .annotations v => { ns with annotations := v }
  | .kubernetesUID v => { ns with kubernetesUID := v }
  | .resourceVersion v => { ns with resourceVersion := v }
  | .lastSyncAt v => { ns with lastSyncAt := some v }

def Namespace.patched (ns : Namespace) (updates : List NamespaceUpdate) (now : Nat) : Namespace :=
  { updates.foldl NamespaceUpdate.apply ns with revision := ns.revision + 1, updatedAt := now }

def updateNamespaceWithCAS (rows : List Namespace) (id : String) (expectedRevision : Int)
    (updates : List NamespaceUpdate) (now : Nat) : Except HubError (List Namespace × Namespace) :=
  if updates.isEmpty then (getNamespace rows id).map fun ns => (rows, ns)
  else
    match affected (Keyed.update Namespace.id rows id
        (fun ns => ns.revision == expectedRevision && ns.live)
        (fun ns => ns.patched updates now)) .REVISION_CONFLICT with
    | .error e => .error e
    | .ok (table, ns) =>
      if rows.any (namespaceCollides ns) then
        .error (.plain ("namespace repo: update " ++ id ++ ": duplicate key"))
      else .ok (table, ns)

def Namespace.switched (ns : Namespace) (visibility : Visibility) (syncStatus : VisibilitySync)
    (now : Nat) : Namespace :=
  { ns with
    visibility := visibility
    visibilitySyncStatus := syncStatus
    revision := ns.revision + 1
    updatedAt := now }

def updateNamespaceVisibility (rows : List Namespace) (id : String) (expectedRevision : Int)
    (visibility : Visibility) (syncStatus : VisibilitySync) (now : Nat) :
    Except HubError (List Namespace × Namespace) :=
  affected (Keyed.update Namespace.id rows id
    (fun ns => ns.revision == expectedRevision && ns.live)
    (fun ns => ns.switched visibility syncStatus now)) .REVISION_CONFLICT

structure NamespaceStatusExtra where
  lastErrorCode : Option String := none
  lastErrorMessage : Option String := none
  lastSyncAt : Option Nat := none
deriving DecidableEq

def Namespace.transitioned (ns : Namespace) (next : NamespaceLifecycle)
    (extra : NamespaceStatusExtra) (now : Nat) : Namespace :=
  { ns with
    lifecycle := next
    lastErrorCode := extra.lastErrorCode.getD ns.lastErrorCode
    lastErrorMessage := extra.lastErrorMessage.getD ns.lastErrorMessage
    lastSyncAt := extra.lastSyncAt.or ns.lastSyncAt
    updatedAt := now }

/-- An absent expected lifecycle skips the guard. -/
def updateNamespaceStatus (rows : List Namespace) (id : String)
    (expected : Option NamespaceLifecycle) (next : NamespaceLifecycle)
    (extra : NamespaceStatusExtra) (now : Nat) : Except HubError (List Namespace × Namespace) :=
  affected (Keyed.update Namespace.id rows id
    (fun ns => ns.live && (expected.isNone || expected == some ns.lifecycle))
    (fun ns => ns.transitioned next extra now)) .NAMESPACE_NOT_FOUND

def Namespace.softDeleted (ns : Namespace) (now : Nat) : Namespace :=
  { ns with deletedAt := some now, lifecycle := .DELETED, updatedAt := now }

variable {rows table : List Namespace} {ns : Namespace} {updated : Namespace}

def softDeleteNamespace (rows : List Namespace) (id : String) (now : Nat) :
    Except HubError (List Namespace × Namespace) :=
  affected (Keyed.update Namespace.id rows id Namespace.live
    (fun ns => ns.softDeleted now)) .NAMESPACE_NOT_FOUND

/-- `TouchNamespaceSync`: a progress mark that never fails on a missing row. -/
def touchNamespaceSync (rows : List Namespace) (id : String) (now : Nat) : List Namespace :=
  match Keyed.update Namespace.id rows id Namespace.live
      (fun ns => { ns with lastSyncAt := some now }) with
  | some (table, _) => table
  | none => rows

theorem liveNamespace_eq_some : liveNamespace rows id = some ns ↔
      Keyed.lookup Namespace.id rows id = some ns ∧ ns.live = true :=
  Keyed.select_eq_some

theorem getNamespace_eq_ok :
    getNamespace rows id = .ok ns ↔ liveNamespace rows id = some ns := by
  unfold getNamespace
  cases liveNamespace rows id <;> simp

theorem id_of_live (found : liveNamespace rows id = some ns) : ns.id = id :=
  Keyed.key_of_select found

theorem updateNamespaceVisibility_eq_ok :
    updateNamespaceVisibility rows id expectedRevision visibility syncStatus now
        = .ok (table, updated) ↔
      ∃ ns, liveNamespace rows id = some ns ∧ ns.revision = expectedRevision ∧
        updated = ns.switched visibility syncStatus now ∧ table = Keyed.amend Namespace.id rows id
          (fun ns => ns.switched visibility syncStatus now) := by
  simp only [updateNamespaceVisibility, affected_guarded, liveNamespace, beq_iff_eq]

theorem updateNamespaceWithCAS_eq_ok (masked : updates ≠ [])
    (committed : updateNamespaceWithCAS rows id expectedRevision updates now = .ok (table,
      updated)) : ∃ ns, liveNamespace rows id = some ns ∧ ns.revision = expectedRevision ∧
      table = Keyed.amend Namespace.id rows id (fun ns => ns.patched updates now) := by
  have nonempty : updates.isEmpty = false := by simpa using masked
  simp only [updateNamespaceWithCAS, nonempty, Bool.false_eq_true, if_false] at committed
  split at committed
  · cases committed
  · rename_i table' updated' affecting
    split_ifs at committed
    cases committed
    obtain ⟨ns, found, revision, _, same⟩ := affected_guarded.mp affecting
    exact ⟨ns, found, beq_iff_eq.mp revision, same⟩

theorem updateNamespaceStatus_eq_ok
    (committed : updateNamespaceStatus rows id expected next extra now = .ok (table, updated)) :
    ∃ ns, liveNamespace rows id = some ns ∧ updated = ns.transitioned next extra now ∧
      table = Keyed.amend Namespace.id rows id (fun ns => ns.transitioned next extra now) := by
  simp only [updateNamespaceStatus, affected_eq_ok, Keyed.update_eq_some, Bool.and_eq_true,
    Prod.mk.injEq] at committed
  obtain ⟨ns, found, ⟨live, _⟩, rfl, rfl⟩ := committed
  exact ⟨ns, liveNamespace_eq_some.mpr ⟨found, live⟩, rfl, rfl⟩

theorem Namespace.patched_frame (ns : Namespace) (updates : List NamespaceUpdate) (now : Nat) :
    (ns.patched updates now).id = ns.id ∧ (ns.patched updates now).live = ns.live := by
  have kept : ∀ (updates : List NamespaceUpdate) (ns : Namespace),
      (updates.foldl NamespaceUpdate.apply ns).id = ns.id ∧
        (updates.foldl NamespaceUpdate.apply ns).deletedAt = ns.deletedAt := by
    intro updates
    induction updates with
    | nil => exact fun ns => ⟨rfl, rfl⟩
    | cons update rest ih =>
      intro ns
      have here := ih (NamespaceUpdate.apply ns update)
      cases update <;> exact here
  exact ⟨(kept updates ns).1, congrArg Option.isNone (kept updates ns).2⟩

end AisphereHub
