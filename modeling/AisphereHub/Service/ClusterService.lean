import AisphereHub.Biz.ClusterCreation
import AisphereHub.Biz.ClusterSystem

/-! The cluster RPCs in front of the usecases: what a caller sends is turned into
a `kubernetesx.Credential` or a column map, and the call is then served to its
end before the next one starts. -/
namespace AisphereHub

/-- The `ClusterCredentialInput` oneof; the first case is an input or a source
that is not set. -/
inductive CredentialInput where
  | missing
  | kubeconfig (raw : String)
  | inCluster
  | serviceAccount (token caCert : String)
deriving DecidableEq

/-- The host of a token comes from the server URL; a kubeconfig brings its own. -/
def credentialInputToKubernetesx (input : CredentialInput) (serverURL : String) :
    Except HubError Credential :=
  match input with
  | .missing => .error ⟨.KUBERNETES_CREDENTIAL_INVALID, ""⟩
  | .kubeconfig raw => .ok { kind := .KUBECONFIG, kubeconfig := raw }
  | .inCluster => .ok { kind := .IN_CLUSTER, host := serverURL }
  | .serviceAccount token caCert =>
    .ok { kind := .SERVICE_ACCOUNT, host := serverURL, token := token, caCert := caCert }

/-- `kubernetesv1.Cluster`, as far as an update mask can reach it. -/
structure ClusterPatch where
  name : String := ""
  displayName : String := ""
  description : String := ""
  serverURL : String := ""
  distribution : String := ""
  labels : List (String × String) := []
deriving DecidableEq

def ClusterPatch.update (c : ClusterPatch) : String → Except HubError ClusterUpdate
  | "name" => .ok (.name c.name)
  | "display_name" => .ok (.displayName c.displayName)
  | "description" => .ok (.description c.description)
  | "server_url" => .ok (.serverURL c.serverURL)
  | "distribution" => .ok (.distribution c.distribution)
  | "labels" => .ok (.labels c.labels)
  | _ => .error ⟨.INVALID_ARGUMENT, ""⟩

def clusterFieldMaskToUpdates (paths : List String) (c : ClusterPatch) :
    Except HubError (List ClusterUpdate) :=
  if paths.isEmpty then .error ⟨.INVALID_ARGUMENT, ""⟩ else paths.mapM c.update

structure CreateClusterInput where
  orgID : String := ""
  name : String
  displayName : String := ""
  description : String := ""
  serverURL : String
  distribution : String := ""
  labels : List (String × String) := []
  ownerType : String := ""
  ownerID : String := ""
  credential : CredentialInput
deriving DecidableEq

/-- The usecase request of a `CreateCluster` RPC; an owner that is named in full
takes the caller's place. -/
def CreateClusterInput.request (input : CreateClusterInput) (principal : Principal)
    (clusterID : String) (cred : Credential) : CreateClusterRequest :=
  let orgID := if input.orgID = "" then principal.orgID else input.orgID
  { principal :=
      if input.ownerType ≠ "" ∧ input.ownerID ≠ "" then
        ⟨input.ownerType, input.ownerID, orgID⟩
      else principal
    c :=
      { id := clusterID
        orgID := orgID
        name := input.name
        displayName := input.displayName
        description := input.description
        serverURL := input.serverURL
        distribution := input.distribution
        labels := input.labels }
    cred := cred }

/-- `RotateCredential` reads the cluster, and its permissions along with it, for
the server URL of the new credential. -/
def rotationCredential (s : KubeStore) (principal : Principal) (id : String)
    (input : CredentialInput) (a : Answer) : Except HubError Credential := do
  let c ← a.orFault (getCluster s.clusters id)
  let _ ← canonicalSubject principal
  match a.check with
  | .failed cause => .error ⟨.AUTHZ_BACKEND_FAILED, cause⟩
  | _ => credentialInputToKubernetesx input c.serverURL

/-- An RPC, or an operation of the pool, with what its environment answers. -/
inductive ServiceCall where
  | create (principal : Principal) (input : CreateClusterInput) (clusterID : String)
      (answers : List Answer)
  | update (principal : Principal) (id : String) (expectedRevision : Int) (paths : List String)
      (patch : ClusterPatch) (answers : List Answer)
  | rotate (principal : Principal) (id : String) (expectedRevision : Int)
      (input : CredentialInput) (read : Answer) (answers : List Answer)
  | use (clusterID : String) (answer : Answer)
  | invalidate (clusterID : String)
deriving DecidableEq

def serviceStep (K : Kubernetesx) (s : KubeStore) (call : ServiceCall) : Option KubeStore :=
  match call with
  | .create principal input clusterID answers =>
    match credentialInputToKubernetesx input.credential input.serverURL with
    | .error _ => some s
    | .ok cred =>
      ((createClusterProgram K).serve s (input.request principal clusterID cred)
        answers).map Prod.fst
  | .update principal id expectedRevision paths patch answers =>
    match clusterFieldMaskToUpdates paths patch with
    | .error _ => some s
    | .ok updates =>
      ((clusterProgram K).serve s (.update ⟨principal, id, expectedRevision, updates⟩)
        answers).map Prod.fst
  | .rotate principal id expectedRevision input read answers =>
    match rotationCredential s principal id input read with
    | .error _ => some s
    | .ok cred =>
      ((clusterProgram K).serve s (.rotate ⟨principal, id, expectedRevision, cred⟩)
        answers).map Prod.fst
  | .use clusterID answer => ((clusterProgram K).serve s (.use clusterID) [answer]).map Prod.fst
  | .invalidate clusterID =>
    ((clusterProgram K).serve s (.invalidate clusterID) [{}]).map Prod.fst

end AisphereHub
