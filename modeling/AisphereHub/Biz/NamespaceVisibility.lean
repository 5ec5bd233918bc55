import AisphereHub.Data.NamespaceRepo
import AisphereHub.Foundation.Threads

/-! The visibility switch of a namespace and the reconciler behind it. A call
is cut at its dependency calls: one constructor for each point where it waits
for the database, SpiceDB or the outbox, holding the locals that are still
live. Code between two dependency calls runs with the first of them. -/
namespace AisphereHub

structure VisibilityRequest where
  principal : Principal
  id : String
  expectedRevision : Int
  desired : String
deriving DecidableEq

/-- The locals of `UpdateNamespaceVisibility` once its first write committed:
`ns` is the row it loaded, `updated` the row its own write left. -/
structure VisibilityFrame where
  request : VisibilityRequest
  desired : Visibility
  ns : Namespace
  updated : Namespace
deriving DecidableEq

inductive VisibilityCall where
  | authorize (request : VisibilityRequest)
  | load (request : VisibilityRequest) (desired : Visibility)
  | mark (request : VisibilityRequest) (desired : Visibility) (ns : Namespace)
  | project (frame : VisibilityFrame)
  | reload (frame : VisibilityFrame)
  | revert (frame : VisibilityFrame) (current : Namespace)
  | reread (frame : VisibilityFrame)
  | acknowledge (frame : VisibilityFrame)
  | announce (frame : VisibilityFrame) (ready : Namespace)
  | returned (result : Except HubError Namespace)
deriving DecidableEq

def wildcardViewer (id : String) : AuthzRelationship :=
  ⟨namespaceResource id, "viewer", { type := "user", id := "*" }⟩

def wildcardFilter (id : String) : AuthzRelationshipFilter :=
  { resourceType := "k8s_namespace"
    resourceID := id
    relation := "viewer"
    subjectType := "user"
    subjectID := "*" }

/-- PUBLIC writes the wildcard viewer, PRIVATE deletes it. -/
def projectVisibility (tuples : Tuples) (id : String) (visibility : Visibility)
    (fault : Option String) : Except HubError Tuples :=
  match visibility with
  | .PUBLIC => writeRelationships tuples [wildcardViewer id] fault
  | .PRIVATE => deleteRelationships tuples (wildcardFilter id) fault

def pendingStatus : Visibility → VisibilitySync
  | .PUBLIC => .PUBLISHING
  | .PRIVATE => .REVOKING

def visibilityAuthorized (request : VisibilityRequest) (check : CheckAnswer) :
    Except HubError Visibility := do
  let desired ← match Visibility.ofString request.desired with
    | some desired => .ok desired
    | none => .error ⟨.INVALID_ARGUMENT, "visibility must be PRIVATE or PUBLIC"⟩
  let _ ← canonicalSubject request.principal
  check.require "forbidden: no manage permission on namespace"
  return desired

def visibilitySyncEvent (request : VisibilityRequest) : OutboxEvent :=
  { aggregateType := "namespace"
    aggregateID := request.id
    eventType := "visibility_sync"
    payload := [("namespace_id", request.id), ("visibility", request.desired)] }

/-- `UpdateNamespaceVisibility` with `compensateVisibility` inlined at `reload`
and `revert`: whatever the compensation does, the call rereads the row. -/
def VisibilityCall.next (s : KubeStore) (call : VisibilityCall) (a : Answer) :
    Option (KubeStore × VisibilityCall) :=
  match call with
  | .authorize request =>
    match visibilityAuthorized request a.check with
    | .error e => some (s, .returned (.error e))
    | .ok desired => some (s, .load request desired)
  | .load request desired =>
    match a.orFault (getNamespace s.namespaces request.id) with
    | .error e => some (s, .returned (.error e))
    | .ok ns =>
      if ns.visibility = desired then some (s, .returned (.ok ns))
      else some (s, .mark request desired ns)
  | .mark request desired ns =>
    match a.orFault (updateNamespaceVisibility s.namespaces request.id
        request.expectedRevision desired (pendingStatus desired) a.now) with
    | .error e => some (s, .returned (.error e))
    | .ok (rows, updated) =>
      some ({ s with namespaces := rows }, .project ⟨request, desired, ns, updated⟩)
  | .project frame =>
    match projectVisibility s.tuples frame.request.id frame.desired a.fault with
    | .error _ => some (s, .reload frame)
    | .ok tuples => some ({ s with tuples := tuples }, .acknowledge frame)
  | .reload frame =>
    match a.orFault (getNamespace s.namespaces frame.request.id) with
    | .error _ => some (s, .reread frame)
    | .ok current => some (s, .revert frame current)
  | .revert frame current =>
    match a.orFault (updateNamespaceVisibility s.namespaces frame.request.id
        current.revision frame.ns.visibility .SYNC_FAILED a.now) with
    | .error _ => some (s, .reread frame)
    | .ok (rows, _) => some ({ s with namespaces := rows }, .reread frame)
  | .reread frame =>
    some (s, .returned (a.orFault (getNamespace s.namespaces frame.request.id)))
  | .acknowledge frame =>
    match a.orFault (updateNamespaceVisibility s.namespaces frame.request.id
        frame.updated.revision frame.desired .SYNCED a.now) with
    | .error _ => some (s, .reread frame)
    | .ok (rows, ready) => some ({ s with namespaces := rows }, .announce frame ready)
  | .announce frame ready =>
    some ({ s with outbox := enqueue s.outbox (visibilitySyncEvent frame.request) a },
      .returned (.ok ready))
  | .returned _ => none

inductive ConvergeCall where
  | list (id : String)
  | project (ns : Namespace)
  | stamp (ns : Namespace)
  | recover (updated : Namespace)
  | returned (result : Except HubError Unit)
deriving DecidableEq

def reconciledStatuses : List VisibilitySync := [.PUBLISHING, .REVOKING, .SYNC_FAILED]

/-- One row of a reconciler pass. `list` reads the row as
`ListNamespacesBySyncStatus` returns it: live, and in one of the listed
statuses. The rest is `convergeOne` on the row as it was listed. -/
def ConvergeCall.next (s : KubeStore) (call : ConvergeCall) (a : Answer) :
    Option (KubeStore × ConvergeCall) :=
  match call with
  | .list id =>
    match a.fault with
    | some cause => some (s, .returned (.error (.plain cause)))
    | none =>
      match liveNamespace s.namespaces id with
      | none => some (s, .returned (.ok ()))
      | some ns =>
        if ns.visibilitySyncStatus ∈ reconciledStatuses then some (s, .project ns)
        else some (s, .returned (.ok ()))
  | .project ns =>
    match projectVisibility s.tuples ns.id ns.visibility a.fault with
    | .error e => some (s, .returned (.error e))
    | .ok tuples => some ({ s with tuples := tuples }, .stamp ns)
  | .stamp ns =>
    match a.orFault (updateNamespaceVisibility s.namespaces ns.id ns.revision ns.visibility
        .SYNCED a.now) with
    | .error e => some (s, .returned (.error e))
    | .ok (rows, updated) =>
      if updated.lifecycle = .FAILED ∧ updated.kubernetesUID ≠ "" then
        some ({ s with namespaces := rows }, .recover updated)
      else some ({ s with namespaces := rows }, .returned (.ok ()))
  | .recover updated =>
    match a.orFault (updateNamespaceStatus s.namespaces updated.id (some .FAILED) .READY
        { lastErrorCode := some "", lastErrorMessage := some "", lastSyncAt := some a.now }
        a.now) with
    | .error e => some (s, .returned (.error e))
    | .ok (rows, _) => some ({ s with namespaces := rows }, .returned (.ok ()))
  | .returned _ => none

inductive NamespaceCall where
  | visibility (call : VisibilityCall)
  | converge (call : ConvergeCall)
deriving DecidableEq

inductive NamespaceRequest where
  | updateVisibility (request : VisibilityRequest)
  | converge (id : String)
deriving DecidableEq

def NamespaceCall.next (s : KubeStore) (call : NamespaceCall) (a : Answer) :
    Option (KubeStore × NamespaceCall) :=
  match call with
  | .visibility call => (call.next s a).map fun out => (out.1, .visibility out.2)
  | .converge call => (call.next s a).map fun out => (out.1, .converge out.2)

def visibilityProgram : Threads.Program KubeStore NamespaceCall NamespaceRequest Answer where
  start
    | .updateVisibility request => .visibility (.authorize request)
    | .converge id => .converge (.list id)
  next := NamespaceCall.next
  finished
    | .visibility (.returned _) => true
    | .converge (.returned _) => true
    | _ => false

end AisphereHub
