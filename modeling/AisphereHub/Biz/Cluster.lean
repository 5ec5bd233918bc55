import AisphereHub.Biz.Authz

/-! The domain types of the Kubernetes control plane. Revisions are the
`BIGINT` counters of the rows; times are the values of the repository clock,
and a time that may be absent is an option. `deletedAt` is the soft-delete
mark of the row. -/
namespace AisphereHub

inductive ClusterStatus where
  | CREATING
  | READY
  | PROBING
  | DEGRADED
  | DELETING
  | DELETED
  | FAILED
deriving DecidableEq

inductive Visibility where
  | PRIVATE
  | PUBLIC
deriving DecidableEq

inductive VisibilitySync where
  | SYNCED
  | PUBLISHING
  | REVOKING
  | SYNC_FAILED
deriving DecidableEq

inductive NamespaceLifecycle where
  | CREATING
  | READY
  | TERMINATING
  | FAILED
  | DELETED
deriving DecidableEq

def Visibility.ofString : String → Option Visibility
  | "PRIVATE" => some .PRIVATE
  | "PUBLIC" => some .PUBLIC
  | _ => none

structure CredentialLocator where
  clusterID : String
  credentialRef : String
  credentialRevision : Int
deriving DecidableEq

structure Cluster where
  id : String
  orgID : String
  name : String
  displayName : String := ""
  description : String := ""
  serverURL : String
  credentialRef : String := ""
  credentialRevision : Int := 0
  distribution : String := ""
  kubernetesVersion : String := ""
  clusterUID : String := ""
  status : ClusterStatus := .CREATING
  healthMessage : String := ""
  labels : List (String × String) := []
  lastProbeAt : Option Nat := none
  ownerType : String := ""
  ownerID : String := ""
  createdByType : String := ""
  createdBy : String := ""
  createdAt : Nat := 0
  updatedAt : Nat := 0
  deletedAt : Option Nat := none
  revision : Int := 0
deriving DecidableEq

structure Namespace where
  id : String
  clusterID : String
  kubeName : String
  displayName : String := ""
  description : String := ""
  visibility : Visibility := .PRIVATE
  visibilitySyncStatus : VisibilitySync := .SYNCED
  lifecycle : NamespaceLifecycle := .CREATING
  managed : Bool := false
  kubernetesUID : String := ""
  resourceVersion : String := ""
  labels : List (String × String) := []
  annotations : List (String × String) := []
  ownerType : String := ""
  ownerID : String := ""
  createdByType : String := ""
  createdBy : String := ""
  lastSyncAt : Option Nat := none
  lastErrorCode : String := ""
  lastErrorMessage : String := ""
  createdAt : Nat := 0
  updatedAt : Nat := 0
  deletedAt : Option Nat := none
  revision : Int := 0
deriving DecidableEq

inductive ShareRelation where
  | viewer
  | user
  | editor
deriving DecidableEq

def ShareRelation.toString : ShareRelation → String
  | .viewer => "viewer"
  | .user => "user"
  | .editor => "editor"

def ShareRelation.ofString : String → Option ShareRelation
  | "viewer" => some .viewer
  | "user" => some .user
  | "editor" => some .editor
  | _ => none

structure NamespaceShare where
  id : String
  namespaceID : String
  relation : ShareRelation
  subjectType : String
  subjectID : String
  subjectRelation : String := ""
  syncStatus : VisibilitySync := .SYNCED
  createdByType : String := ""
  createdBy : String := ""
  createdAt : Nat := 0
  updatedAt : Nat := 0
deriving DecidableEq

def Cluster.live (c : Cluster) : Bool := c.deletedAt.isNone

def Namespace.live (ns : Namespace) : Bool := ns.deletedAt.isNone

def Cluster.locator (c : Cluster) : CredentialLocator :=
  ⟨c.id, c.credentialRef, c.credentialRevision⟩

def clusterResource (clusterID : String) : AuthzObjectRef := ⟨"k8s_cluster", clusterID⟩

def namespaceResource (namespaceID : String) : AuthzObjectRef := ⟨"k8s_namespace", namespaceID⟩

end AisphereHub
