import AisphereHub.Data.ClientPool
import AisphereHub.Data.ClusterRepo

/-! `RotateCredential`, `ProbeCluster` and `UpdateCluster`, each cut at its
dependency calls. A probe is two of them: the pool hands out a client, and the
client asks the API server. -/
namespace AisphereHub

open GoStrings (trimSpace)

section
variable (K : Kubernetesx)

def clusterAuthorized (principal : Principal) (check : CheckAnswer) (forbidden : String) :
    Except HubError Unit := do
  let _ ← canonicalSubject principal
  check.require forbidden

structure ProbeResult where
  clusterUID : String
  gitVersion : String
deriving DecidableEq

def Answer.probe (a : Answer) : Except String ProbeResult :=
  match a.fault with
  | some cause => .error cause
  | none => .ok ⟨a.clusterUID, a.gitVersion⟩

def uidDiffers (stored probed : String) : Bool :=
  stored != "" && probed != "" && stored != probed

structure RotateRequest where
  principal : Principal
  id : String
  expectedRevision : Int
  newCred : Credential
deriving DecidableEq

/-- `c` is the row the call loaded, `locator` the credential it stored for it,
`client` what the pool gave it to probe with. -/
inductive RotateCall where
  | authorize (request : RotateRequest)
  | load (request : RotateRequest)
  | put (request : RotateRequest) (c : Cluster)
  | build (request : RotateRequest) (c : Cluster) (locator : CredentialLocator)
  | query (request : RotateRequest) (c : Cluster) (locator : CredentialLocator) (client : Client)
  | stamp (request : RotateRequest) (c : Cluster) (locator : CredentialLocator) (client : Client)
  | discard (locator : CredentialLocator) (failure : HubError)
  | invalidate (c updated : Cluster)
  | announce (c updated : Cluster)
  | returned (result : Except HubError Cluster)
deriving DecidableEq

def rotateAuthorized (request : RotateRequest) (check : CheckAnswer) : Except HubError Unit := do
  clusterAuthorized request.principal check "forbidden: no rotate permission on cluster"
  match K.validate request.newCred with
  | .error cause => .error ⟨.KUBERNETES_CREDENTIAL_INVALID, cause⟩
  | .ok () => .ok ()

/-- `uuid.NewString` never repeats, is not blank and carries no white space. -/
def freshRef (s : KubeStore) (uuid : String) : Bool :=
  uuid != "" && trimSpace uuid == uuid && !s.issuedRefs.contains uuid

def probeFailed (cause : String) : HubError :=
  ⟨.KUBERNETES_CREDENTIAL_INVALID, "probe failed: " ++ cause⟩

def uidMismatch (stored probed : String) : HubError :=
  ⟨.KUBERNETES_CREDENTIAL_INVALID,
    "cluster_uid mismatch (stored=" ++ stored ++ " probed=" ++ probed ++ ")"⟩

def credentialCleanupEvent (c : Cluster) : OutboxEvent :=
  { aggregateType := "cluster"
    aggregateID := c.id
    eventType := "credential_ref_cleanup"
    payload := [("cluster_id", c.id), ("old_credential_ref", c.credentialRef)] }

def RotateCall.next (s : KubeStore) (call : RotateCall) (a : Answer) :
    Option (KubeStore × RotateCall) :=
  match call with
  | .authorize request =>
    match rotateAuthorized K request a.check with
    | .error e => some (s, .returned (.error e))
    | .ok () => some (s, .load request)
  | .load request =>
    match a.orFault (getCluster s.clusters request.id) with
    | .error e => some (s, .returned (.error e))
    | .ok c =>
      if c.revision ≠ request.expectedRevision then
        some (s, .returned (.error ⟨.REVISION_CONFLICT, ""⟩))
      else some (s, .put request c)
  | .put request c =>
    if freshRef s a.uuid then
      let issued := { s with issuedRefs := s.issuedRefs ++ [a.uuid] }
      match a.orFault (putWithRef issued c.id a.uuid (c.credentialRevision + 1)
          request.newCred) with
      | .error e =>
        some (issued, .returned (.error ⟨e.code, "store new credential: " ++ e.detail⟩))
      | .ok (rows, locator) =>
        some ({ issued with credentials := rows }, .build request c locator)
    else none
  | .build request c locator =>
    match getOrBuild K s c.id locator (some request.newCred) a with
    | .error e => some (s, .discard locator (probeFailed e.detail))
    | .ok (client, clients) =>
      some ({ s with clients := clients }, .query request c locator client)
  | .query request c locator client =>
    match a.probe with
    | .error cause => some (s, .discard locator (probeFailed cause))
    | .ok probe =>
      if uidDiffers c.clusterUID probe.clusterUID then
        some (s, .discard locator (uidMismatch c.clusterUID probe.clusterUID))
      else some (s, .stamp request c locator client)
  | .stamp request c locator _ =>
    match a.orFault (updateClusterCredential s.clusters c.id request.expectedRevision
        (c.credentialRevision + 1) locator.credentialRef a.now) with
    | .error e => some (s, .discard locator e)
    | .ok (rows, updated) => some ({ s with clusters := rows }, .invalidate c updated)
  | .discard locator failure =>
    some ({ s with credentials := deleteCredential s.credentials locator.credentialRef a },
      .returned (.error failure))
  | .invalidate c updated =>
    some ({ s with clients := invalidateCluster s.clients c.id }, .announce c updated)
  | .announce c updated =>
    some ({ s with outbox := enqueue s.outbox (credentialCleanupEvent c) a },
      .returned (.ok updated))
  | .returned _ => none

inductive ProbeCall where
  | authorize (principal : Principal) (id : String)
  | load (id : String)
  | build (c : Cluster)
  | query (c : Cluster) (client : Client)
  | record (c : Cluster) (probe : ProbeResult)
  | degrade (c : Cluster) (cause : String)
  | reread (id : String)
  | returned (result : Except HubError Cluster)
deriving DecidableEq

/-- The status and the columns `ProbeCluster` stamps after a probe. A drifted
UID degrades the cluster and is written along. -/
def probeVerdict (c : Cluster) (probe : ProbeResult) (now : Nat) :
    ClusterStatus × ClusterStatusExtra :=
  if uidDiffers c.clusterUID probe.clusterUID then
    (.DEGRADED,
      { kubernetesVersion := some probe.gitVersion
        lastProbeAt := some now
        healthMessage := some ("cluster_uid drift: stored=" ++ c.clusterUID ++ " probed=" ++
          probe.clusterUID)
        clusterUID := some probe.clusterUID })
  else
    (.READY,
      { kubernetesVersion := some probe.gitVersion
        lastProbeAt := some now
        healthMessage := some "" })

def ProbeCall.next (s : KubeStore) (call : ProbeCall) (a : Answer) :
    Option (KubeStore × ProbeCall) :=
  match call with
  | .authorize principal id =>
    match clusterAuthorized principal a.check "forbidden: no probe permission on cluster" with
    | .error e => some (s, .returned (.error e))
    | .ok () => some (s, .load id)
  | .load id =>
    match a.orFault (getCluster s.clusters id) with
    | .error e => some (s, .returned (.error e))
    | .ok c => some (s, .build c)
  | .build c =>
    match getOrBuild K s c.id c.locator none a with
    | .error e => some (s, .degrade c e.detail)
    | .ok (client, clients) => some ({ s with clients := clients }, .query c client)
  | .query c _ =>
    match a.probe with
    | .error cause => some (s, .degrade c cause)
    | .ok probe => some (s, .record c probe)
  | .record c probe =>
    match a.orFault (updateClusterStatus s.clusters c.id none (probeVerdict c probe a.now).1
        (probeVerdict c probe a.now).2 a.now) with
    | .error e => some (s, .returned (.error e))
    | .ok (rows, updated) => some ({ s with clusters := rows }, .returned (.ok updated))
  | .degrade c cause =>
    match a.orFault (updateClusterStatus s.clusters c.id none .DEGRADED
        { healthMessage := some ("probe failed: " ++ cause), lastProbeAt := some a.now }
        a.now) with
    | .error _ => some (s, .reread c.id)
    | .ok (rows, _) => some ({ s with clusters := rows }, .reread c.id)
  | .reread id => some (s, .returned (a.orFault (getCluster s.clusters id)))
  | .returned _ => none

structure UpdateRequest where
  principal : Principal
  id : String
  expectedRevision : Int
  updates : List ClusterUpdate
deriving DecidableEq

inductive UpdateCall where
  | authorize (request : UpdateRequest)
  | validate (request : UpdateRequest)
  | write (request : UpdateRequest)
  | returned (result : Except HubError Cluster)
deriving DecidableEq

def ClusterUpdate.isServerURL : ClusterUpdate → Bool
  | .serverURL _ => true
  | _ => false

def serverURLAccepted (updates : List ClusterUpdate) (a : Answer) : Except HubError Unit :=
  if updates.any ClusterUpdate.isServerURL then
    if updates.contains (.serverURL "") then
      .error ⟨.INVALID_ARGUMENT, "server_url must be a non-empty string"⟩
    else a.orFault (.ok ())
  else .ok ()

def UpdateCall.next (s : KubeStore) (call : UpdateCall) (a : Answer) :
    Option (KubeStore × UpdateCall) :=
  match call with
  | .authorize request =>
    match clusterAuthorized request.principal a.check
        "forbidden: no edit permission on cluster" with
    | .error e => some (s, .returned (.error e))
    | .ok () => some (s, .validate request)
  | .validate request =>
    match serverURLAccepted request.updates a with
    | .error e => some (s, .returned (.error e))
    | .ok () => some (s, .write request)
  | .write request =>
    match a.orFault (updateClusterWithCAS s.clusters request.id request.expectedRevision
        request.updates a.now) with
    | .error e => some (s, .returned (.error e))
    | .ok (rows, updated) => some ({ s with clusters := rows }, .returned (.ok updated))
  | .returned _ => none

end

end AisphereHub
