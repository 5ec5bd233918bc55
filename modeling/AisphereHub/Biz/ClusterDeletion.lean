import AisphereHub.Biz.NamespaceCreation

/-! `DeleteCluster`, and its calls beside those of `CreateNamespace`. The namespaces of a
cluster are counted before its row is marked as deleted; the permission of a creation is checked
before its row is inserted, and the foreign key holds for a marked row too. -/
namespace AisphereHub

def deletePolicyDetachOnly : String := "DETACH_ONLY"
def deletePolicyCascade : String := "CASCADE"

structure DeleteClusterRequest where
  principal : Principal
  id : String
  deletePolicy : String
deriving DecidableEq

def DeleteClusterRequest.permissive (r : DeleteClusterRequest) : Bool :=
  r.deletePolicy = deletePolicyDetachOnly || r.deletePolicy = deletePolicyCascade

inductive DeleteClusterCall where
  | authorize (r : DeleteClusterRequest)
  | count (r : DeleteClusterRequest)
  | softDelete (r : DeleteClusterRequest) (nsCount : Nat)
  | revoke (r : DeleteClusterRequest) (nsCount : Nat)
  | invalidate (r : DeleteClusterRequest) (nsCount : Nat)
  | cleanup (r : DeleteClusterRequest)
  | returned (result : Except HubError Unit)
deriving DecidableEq

def deleteClusterAuthorized (r : DeleteClusterRequest) (check : CheckAnswer) :
    Except HubError Unit := do
  let _ ← canonicalSubject r.principal
  check.require "forbidden: no delete permission on cluster"

def countNamespacesForCluster (rows : List Namespace) (clusterID : String) : Nat :=
  rows.countP fun ns => ns.clusterID = clusterID && ns.live

def DeleteClusterCall.next (s : KubeStore) (call : DeleteClusterCall) (a : Answer) :
    Option (KubeStore × DeleteClusterCall) :=
  match call with
  | .authorize r =>
    match deleteClusterAuthorized r a.check with
    | .error e => some (s, .returned (.error e))
    | .ok _ => some (s, .count r)
  | .count r =>
    match a.orFault (.ok (countNamespacesForCluster s.namespaces r.id)) with
    | .error e => some (s, .returned (.error e))
    | .ok nsCount =>
      if 0 < nsCount ∧ r.permissive = false then
        some (s, .returned (.error ⟨.FAILED_PRECONDITION, "cluster has " ++ toString nsCount ++
          " namespaces; use DETACH_ONLY or CASCADE"⟩))
      else some (s, .softDelete r nsCount)
  | .softDelete r nsCount =>
    match a.orFault (softDeleteCluster s.clusters r.id a.now) with
    | .error e => some (s, .returned (.error e))
    | .ok (rows, _) => some ({ s with clusters := rows }, .revoke r nsCount)
  | .revoke r nsCount =>
    match revokeResource s.tuples (clusterResource r.id) a.fault with
    | .error _ => some (s, .invalidate r nsCount)
    | .ok tuples => some ({ s with tuples := tuples }, .invalidate r nsCount)
  | .invalidate r nsCount =>
    some ({ s with clients := invalidateCluster s.clients r.id },
      if r.deletePolicy = deletePolicyCascade ∧ 0 < nsCount then .cleanup r else .returned (.ok ()))
  | .cleanup r =>
    some ({ s with outbox := enqueue s.outbox ⟨"cluster", r.id, "namespace_cleanup",
      [("cluster_id", r.id), ("delete_policy", r.deletePolicy)]⟩ a }, .returned (.ok ()))
  | .returned _ => none

inductive TenancyRequest where
  | create (request : CreateNamespaceRequest)
  | delete (request : DeleteClusterRequest)
deriving DecidableEq

inductive TenancyCall where
  | create (call : CreateNamespaceCall)
  | delete (call : DeleteClusterCall)
deriving DecidableEq

def TenancyCall.next (K : Kubernetesx) (s : KubeStore) (call : TenancyCall) (a : Answer) :
    Option (KubeStore × TenancyCall) :=
  match call with
  | .create call => (call.next K s a).map fun out => (out.1, .create out.2)
  | .delete call => (call.next s a).map fun out => (out.1, .delete out.2)

def tenancyProgram (K : Kubernetesx) :
    Threads.Program KubeStore TenancyCall TenancyRequest Answer where
  start
    | .create request => .create (.authorize request)
    | .delete request => .delete (.authorize request)
  next := TenancyCall.next K
  finished
    | .create (.returned _) => true
    | .delete (.returned _) => true
    | _ => false

end AisphereHub
