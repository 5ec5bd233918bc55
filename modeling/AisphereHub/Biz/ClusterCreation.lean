import AisphereHub.Biz.ClusterUsecase
import AisphereHub.Foundation.Threads

/-! `CreateCluster`: row and credential in one transaction, then the owner and
zone tuples with their compensation, then a probe that never undoes anything. -/
namespace AisphereHub

open GoStrings (trimSpace)

section
variable (K : Kubernetesx)

structure CreateClusterRequest where
  principal : Principal
  c : Cluster
  cred : Credential
deriving DecidableEq

/-- `created` is the row the transaction stored. -/
inductive CreateClusterCall where
  | validate (request : CreateClusterRequest)
  | insert (c : Cluster) (cred : Credential) (subject : AuthzSubjectRef)
  | relate (created : Cluster) (cred : Credential) (subject : AuthzSubjectRef)
  | revoke (created : Cluster) (failure : HubError)
  | forget (created : Cluster) (failure : HubError)
  | fail (created : Cluster) (failure : HubError)
  | build (created : Cluster) (cred : Credential)
  | query (created : Cluster) (client : Client)
  | ready (created : Cluster) (probe : ProbeResult)
  | degrade (created : Cluster) (cause : String)
  | returned (result : Except HubError Cluster)
deriving DecidableEq

def createClusterValidated (request : CreateClusterRequest) (a : Answer) :
    Except HubError (Cluster × AuthzSubjectRef) :=
  if request.c.id = "" then
    .error ⟨.INVALID_ARGUMENT, "cluster id must be pre-allocated by caller"⟩
  else if trimSpace request.c.name = "" ∨ request.c.orgID = "" ∨ request.c.serverURL = "" then
    .error ⟨.INVALID_ARGUMENT, "name, org_id, server_url are required"⟩
  else
    match K.validate request.cred with
    | .error cause => .error ⟨.KUBERNETES_CREDENTIAL_INVALID, "credential: " ++ cause⟩
    | .ok () => do
        a.orFault (.ok ())
        let subject ← canonicalSubject request.principal
        return ({ request.c with
          ownerType := subject.type
          ownerID := subject.id
          createdByType := subject.type
          createdBy := subject.id
          status := .CREATING
          revision := 1 }, subject)

def Cluster.inserted (c : Cluster) (ref : String) (now : Nat) : Cluster :=
  { c with
    credentialRef := ref
    credentialRevision := 1
    createdAt := now
    updatedAt := now
    deletedAt := none }

def insertWithCredential (s : KubeStore) (c : Cluster) (cred : Credential) :
    Except HubError KubeStore := do
  let rows ← insertCluster s.clusters c
  match putWithRef { s with clusters := rows } c.id c.credentialRef 1 cred with
  | .error e => .error ⟨e.code, "store credential: " ++ e.detail⟩
  | .ok (credentials, _) => .ok { s with clusters := rows, credentials := credentials }

def clusterRelationships (created : Cluster) (subject : AuthzSubjectRef) :
    List AuthzRelationship :=
  [⟨clusterResource created.id, "owner", subject⟩,
    ⟨clusterResource created.id, "zone", { type := "zone", id := created.orgID }⟩]

def CreateClusterCall.next (s : KubeStore) (call : CreateClusterCall) (a : Answer) :
    Option (KubeStore × CreateClusterCall) :=
  match call with
  | .validate request =>
    match createClusterValidated K request a with
    | .error e => some (s, .returned (.error e))
    | .ok (c, subject) => some (s, .insert c request.cred subject)
  | .insert c cred subject =>
    if freshRef s a.uuid then
      let issued := { s with issuedRefs := s.issuedRefs ++ [a.uuid] }
      let created := c.inserted a.uuid a.now
      match a.orFault (insertWithCredential issued created cred) with
      | .error e => some (issued, .returned (.error e))
      | .ok stored => some (stored, .relate created cred subject)
    else none
  | .relate created cred subject =>
    match writeRelationships s.tuples (clusterRelationships created subject) a.fault with
    | .error e => some (s, .revoke created e)
    | .ok tuples => some ({ s with tuples := tuples }, .build created cred)
  | .revoke created failure =>
    match revokeResource s.tuples (clusterResource created.id) a.fault with
    | .error _ => some (s, .forget created failure)
    | .ok tuples => some ({ s with tuples := tuples }, .forget created failure)
  | .forget created failure =>
    some ({ s with credentials := deleteCredential s.credentials created.credentialRef a },
      .fail created failure)
  | .fail created failure =>
    let rejected : HubError :=
      ⟨.FAILED_PRECONDITION, "project relationships: " ++ failure.detail⟩
    match a.orFault (updateClusterStatus s.clusters created.id (some .CREATING) .FAILED
        { healthMessage := some ("authz projection failed: " ++ failure.detail) } a.now) with
    | .error _ => some (s, .returned (.error rejected))
    | .ok (rows, _) => some ({ s with clusters := rows }, .returned (.error rejected))
  | .build created cred =>
    match getOrBuild K s created.id created.locator (some cred) a with
    | .error e => some (s, .degrade created e.detail)
    | .ok (client, clients) => some ({ s with clients := clients }, .query created client)
  | .query created _ =>
    match a.probe with
    | .error cause => some (s, .degrade created cause)
    | .ok probe => some (s, .ready created probe)
  | .ready created probe =>
    match a.orFault (updateClusterStatus s.clusters created.id (some .CREATING) .READY
        { clusterUID := some probe.clusterUID
          kubernetesVersion := some probe.gitVersion
          lastProbeAt := some a.now
          healthMessage := some "" } a.now) with
    | .error _ => some (s, .returned (.ok created))
    | .ok (rows, updated) => some ({ s with clusters := rows }, .returned (.ok updated))
  | .degrade created cause =>
    match a.orFault (updateClusterStatus s.clusters created.id (some .CREATING) .DEGRADED
        { healthMessage := some ("probe failed: " ++ cause) } a.now) with
    | .error _ => some (s, .returned (.ok created))
    | .ok (rows, updated) => some ({ s with clusters := rows }, .returned (.ok updated))
  | .returned _ => none

def createClusterProgram :
    Threads.Program KubeStore CreateClusterCall CreateClusterRequest Answer where
  start := .validate
  next := CreateClusterCall.next K
  finished
    | .returned _ => true
    | _ => false

end

end AisphereHub
