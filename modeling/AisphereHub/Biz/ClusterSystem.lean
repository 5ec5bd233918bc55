import AisphereHub.Biz.ClusterUsecase
import AisphereHub.Foundation.Threads

/-! Everything that runs against an existing cluster: the usecases, the pool
operations at the cluster's current locator, invalidations of its cached client,
and the worker that cleans up replaced credentials. -/
namespace AisphereHub

open GoStrings (trimSpace)

section
variable (K : Kubernetesx)

/-- A pool operation: whoever calls the pool hands it the locator of the row. -/
def useClient (s : KubeStore) (clusterID : String) (a : Answer) :
    Except HubError (Client × List ClientEntry) :=
  match getCluster s.clusters clusterID with
  | .error e => .error e
  | .ok c => getOrBuild K s c.id c.locator none a

def credentialCleanupEventType : String := "credential_ref_cleanup"

/-- The ref an event asks to delete; an event without one is refused. -/
def cleanupRef (event : OutboxEvent) : Option String :=
  let ref := trimSpace ((event.payload.lookup "old_credential_ref").getD "")
  if ref = "" then none else some ref

/-- One event of a `CredentialCleanupWorker` run. An event stays in the outbox:
a negative acknowledgement or a lost one has it delivered again. -/
inductive CleanupCall where
  | claim (index : Nat)
  | clean (event : OutboxEvent)
  | returned (result : Except HubError Unit)
deriving DecidableEq

def CleanupCall.next (s : KubeStore) (call : CleanupCall) (a : Answer) :
    Option (KubeStore × CleanupCall) :=
  match call with
  | .claim index =>
    match a.fault with
    | some cause =>
      some (s, .returned (.error (.plain ("credential cleanup: claim: " ++ cause))))
    | none =>
      match s.outbox[index]? with
      | none => none
      | some event =>
        if event.eventType = credentialCleanupEventType then some (s, .clean event)
        else none
  | .clean event =>
    match cleanupRef event with
    | none =>
      some (s, .returned (.error
        (.plain "credential cleanup payload missing old_credential_ref")))
    | some ref =>
      some ({ s with credentials := deleteCredential s.credentials ref a },
        .returned (match a.fault with
          | some cause =>
            .error (.plain ("delete credential ref " ++ ref ++ ": " ++ cause))
          | none => .ok ()))
  | .returned _ => none

inductive ClusterCall where
  | rotate (call : RotateCall)
  | probe (call : ProbeCall)
  | update (call : UpdateCall)
  | use (clusterID : String)
  | used (result : Except HubError Client)
  | invalidate (clusterID : String)
  | invalidated
  | cleanup (call : CleanupCall)
deriving DecidableEq

inductive ClusterRequest where
  | rotate (request : RotateRequest)
  | probe (principal : Principal) (id : String)
  | update (request : UpdateRequest)
  | use (clusterID : String)
  | invalidate (clusterID : String)
  | deliver (index : Nat)
deriving DecidableEq

def ClusterRequest.start : ClusterRequest → ClusterCall
  | .rotate request => .rotate (.authorize request)
  | .probe principal id => .probe (.authorize principal id)
  | .update request => .update (.authorize request)
  | .use clusterID => .use clusterID
  | .invalidate clusterID => .invalidate clusterID
  | .deliver index => .cleanup (.claim index)

def ClusterCall.next (s : KubeStore) (call : ClusterCall) (a : Answer) :
    Option (KubeStore × ClusterCall) :=
  match call with
  | .rotate call => (call.next K s a).map fun out => (out.1, .rotate out.2)
  | .probe call => (call.next K s a).map fun out => (out.1, .probe out.2)
  | .update call => (call.next s a).map fun out => (out.1, .update out.2)
  | .use clusterID =>
    match useClient K s clusterID a with
    | .error e => some (s, .used (.error e))
    | .ok (client, clients) => some ({ s with clients := clients }, .used (.ok client))
  | .invalidate clusterID =>
    some ({ s with clients := invalidateCluster s.clients clusterID }, .invalidated)
  | .cleanup call => (call.next s a).map fun out => (out.1, .cleanup out.2)
  | .used _ => none
  | .invalidated => none

def ClusterCall.finished : ClusterCall → Bool
  | .rotate (.returned _) => true
  | .probe (.returned _) => true
  | .update (.returned _) => true
  | .used _ => true
  | .invalidated => true
  | .cleanup (.returned _) => true
  | _ => false

def clusterProgram : Threads.Program KubeStore ClusterCall ClusterRequest Answer where
  start := ClusterRequest.start
  next := ClusterCall.next K
  finished := ClusterCall.finished

end

end AisphereHub
