import AisphereHub.Data.ClientPool
import AisphereHub.Data.ClusterRepo
import AisphereHub.Data.NamespaceRepo
import AisphereHub.Foundation.Threads

/-! `CreateNamespace`: the row, then the owner and cluster tuples with their
compensation, then the remote apply, whose failure is kept on the row. -/
namespace AisphereHub

section
variable (K : Kubernetesx)

def isLabelChar (c : Char) : Bool :=
  ('a' ≤ c && c ≤ 'z') || ('0' ≤ c && c ≤ '9') || c == '-'

/-- No character outside ASCII passes, so characters count as bytes. -/
def isDNS1123Label (s : String) : Bool :=
  !s.toList.isEmpty && s.toList.length ≤ 63 && s.toList.all isLabelChar &&
    s.toList.head? != some '-' && s.toList.getLast? != some '-'

structure CreateNamespaceRequest where
  principal : Principal
  ns : Namespace
deriving DecidableEq

inductive CreateNamespaceCall where
  | authorize (request : CreateNamespaceRequest)
  | insert (ns : Namespace) (subject : AuthzSubjectRef)
  | relate (created : Namespace) (subject : AuthzSubjectRef)
  | revoke (created : Namespace) (failure : HubError)
  | fail (created : Namespace) (failure : HubError)
  | load (created : Namespace)
  | build (created : Namespace) (cluster : Cluster)
  | apply (created : Namespace) (client : Client)
  | giveUp (created : Namespace) (code message : String)
  | finish (created : Namespace)
  | returned (result : Except HubError Namespace)
deriving DecidableEq

/-- The checks before anything is stored, and the row as the call stamps it. An
absent visibility is PRIVATE and an absent sync status SYNCED, the defaults of
the row. -/
def createNamespaceAuthorized (request : CreateNamespaceRequest) (check : CheckAnswer) :
    Except HubError (Namespace × AuthzSubjectRef) :=
  if request.ns.id = "" then
    .error ⟨.INVALID_ARGUMENT, "namespace id must be pre-allocated by caller"⟩
  else if request.ns.clusterID = "" ∨ request.ns.kubeName = "" then
    .error ⟨.INVALID_ARGUMENT, "cluster_id, kube_name are required"⟩
  else if !isDNS1123Label request.ns.kubeName then
    .error ⟨.INVALID_ARGUMENT, "kube_name must be a DNS-1123 label"⟩
  else do
    let subject ← canonicalSubject request.principal
    check.require "forbidden: no create_namespace permission on cluster"
    return ({ request.ns with
      ownerType := subject.type
      ownerID := subject.id
      createdByType := subject.type
      createdBy := subject.id
      lifecycle := .CREATING
      revision := 1
      managed := true }, subject)

def Namespace.inserted (ns : Namespace) (now : Nat) : Namespace :=
  { ns with createdAt := now, updatedAt := now, deletedAt := none }

def namespaceRelationships (created : Namespace) (subject : AuthzSubjectRef) :
    List AuthzRelationship :=
  [⟨namespaceResource created.id, "owner", subject⟩,
    ⟨namespaceResource created.id, "cluster",
      { type := "k8s_cluster", id := created.clusterID }⟩]

def CreateNamespaceCall.next (s : KubeStore) (call : CreateNamespaceCall) (a : Answer) :
    Option (KubeStore × CreateNamespaceCall) :=
  match call with
  | .authorize request =>
    match createNamespaceAuthorized request a.check with
    | .error e => some (s, .returned (.error e))
    | .ok (ns, subject) => some (s, .insert ns subject)
  | .insert ns subject =>
    match a.orFault (insertNamespace s (ns.inserted a.now)) with
    | .error e => some (s, .returned (.error e))
    | .ok rows => some ({ s with namespaces := rows }, .relate (ns.inserted a.now) subject)
  | .relate created subject =>
    match writeRelationships s.tuples (namespaceRelationships created subject) a.fault with
    | .error e => some (s, .revoke created e)
    | .ok tuples => some ({ s with tuples := tuples }, .load created)
  | .revoke created failure =>
    match revokeResource s.tuples (namespaceResource created.id) a.fault with
    | .error _ => some (s, .fail created failure)
    | .ok tuples => some ({ s with tuples := tuples }, .fail created failure)
  | .fail created failure =>
    let rejected : HubError :=
      ⟨.FAILED_PRECONDITION, "project relationships: " ++ failure.detail⟩
    match a.orFault (updateNamespaceStatus s.namespaces created.id (some .CREATING) .FAILED
        { lastErrorCode := some "AUTHZ_PROJECTION_FAILED"
          lastErrorMessage := some failure.detail } a.now) with
    | .error _ => some (s, .returned (.error rejected))
    | .ok (rows, _) => some ({ s with namespaces := rows }, .returned (.error rejected))
  | .load created =>
    match a.orFault (getCluster s.clusters created.clusterID) with
    | .error e => some (s, .giveUp created "CLUSTER_LOAD_FAILED" e.detail)
    | .ok cluster => some (s, .build created cluster)
  | .build created cluster =>
    match getOrBuild K s created.clusterID cluster.locator none a with
    | .error e => some (s, .giveUp created "REMOTE_APPLY_FAILED" e.detail)
    | .ok (client, clients) => some ({ s with clients := clients }, .apply created client)
  | .apply created _ =>
    match a.fault with
    | some cause => some (s, .giveUp created "REMOTE_APPLY_FAILED" cause)
    | none => some (s, .finish created)
  | .giveUp created code message =>
    match a.orFault (updateNamespaceStatus s.namespaces created.id (some .CREATING) .FAILED
        { lastErrorCode := some code, lastErrorMessage := some message } a.now) with
    | .error _ => some (s, .returned (.ok created))
    | .ok (rows, updated) => some ({ s with namespaces := rows }, .returned (.ok updated))
  | .finish created =>
    match a.orFault (updateNamespaceStatus s.namespaces created.id (some .CREATING) .READY
        { lastErrorCode := some "", lastErrorMessage := some "" } a.now) with
    | .error _ => some (s, .returned (.ok created))
    | .ok (rows, updated) => some ({ s with namespaces := rows }, .returned (.ok updated))
  | .returned _ => none

def createNamespaceProgram :
    Threads.Program KubeStore CreateNamespaceCall CreateNamespaceRequest Answer where
  start := .authorize
  next := CreateNamespaceCall.next K
  finished
    | .returned _ => true
    | _ => false

end

end AisphereHub
