import AisphereHub.Biz.NamespaceCreation
import AisphereHub.Data.SandboxRepo

/-! `CreateSandbox`, `SuspendSandbox` and `ResumeSandbox`, `SetSandboxNetworkMode` and
`syncSandboxesCore`. Each call is cut at its dependency calls: one constructor for each
point where it waits for the database, SpiceDB or the cluster. The provider's client is
part of its call. -/
namespace AisphereHub

open GoStrings (trimSpace)

variable (J : SandboxCodec)

/-- A creation request; the modes are as the caller wrote them. -/
structure NewSandbox where
  id : String
  namespaceID : String
  orgID : String := ""
  name : String
  kubernetesName : String := ""
  templateID : String := ""
  warmPoolID : String := ""
  operatingMode : String := ""
  networkMode : String := ""
  labels : List (String × String) := []
  skills : List SandboxSkillRef := []
deriving DecidableEq

structure CreateSandboxRequest where
  principal : Principal
  sandbox : Option NewSandbox
deriving DecidableEq

structure PodTemplate where
  image : String := ""
  command : List String := []
deriving DecidableEq

inductive CreateSandboxCall where
  | namespace (request : CreateSandboxRequest)
  | check (request : NewSandbox) (subject : AuthzSubjectRef) (ns : Namespace)
  | template (request : NewSandbox) (subject : AuthzSubjectRef) (ns : Namespace)
  | insert (request : NewSandbox) (subject : AuthzSubjectRef) (ns : Namespace) (pod : PodTemplate)
  | relate (created : Sandbox) (subject : AuthzSubjectRef) (ns : Namespace) (pod : PodTemplate)
  | revoke (created : Sandbox) (failure : HubError)
  | fail (created : Sandbox) (failure : HubError)
  | load (created : Sandbox) (ns : Namespace) (pod : PodTemplate)
  | apply (created : Sandbox) (ns : Namespace) (pod : PodTemplate)
  | giveUp (created : Sandbox) (message : String)
  | drop (created result : Sandbox)
  | finish (created : Sandbox)
  | returned (result : Except HubError Sandbox)
deriving DecidableEq

def createSandboxValid (request : CreateSandboxRequest) :
    Except HubError (NewSandbox × AuthzSubjectRef) :=
  match request.sandbox with
  | none => .error ⟨.INVALID_ARGUMENT, "nil sandbox"⟩
  | some s =>
    if s.id = "" then .error ⟨.INVALID_ARGUMENT, "sandbox id must be pre-allocated by caller"⟩
    else if s.namespaceID = "" then .error ⟨.INVALID_ARGUMENT, "namespace_id is required"⟩
    else if !isDNS1123Label s.name then
      .error ⟨.INVALID_ARGUMENT, "name must be a DNS-1123 label"⟩
    else (canonicalSubject request.principal).map fun subject => (s, subject)

def SandboxTemplate.pod (t : SandboxTemplate) : PodTemplate where
  image := t.image
  command := if trimSpace t.containerCommand = "" then []
    else parseContainerCommand J (trimSpace t.containerCommand)

/-- The row as it is stamped; a mode outside the check constraints is refused with the
insert. -/
def NewSandbox.row (s : NewSandbox) (subject : AuthzSubjectRef) (ns : Namespace) (now : Nat) :
    Except HubError Sandbox :=
  match SandboxNetworkMode.ofString (if s.networkMode = "" then "OFFLINE" else s.networkMode),
      SandboxOperatingMode.ofString
        (if s.operatingMode = "" then "Running" else s.operatingMode) with
  | some networkMode, some operatingMode => .ok {
      id := s.id
      namespaceID := s.namespaceID
      clusterID := ns.clusterID
      orgID := s.orgID
      name := s.name
      kubernetesName := if s.kubernetesName = "" then s.name else s.kubernetesName
      templateID := s.templateID
      warmPoolID := s.warmPoolID
      lifecycle := .CREATING
      operatingMode := operatingMode
      networkMode := networkMode
      labels := setLabel s.labels sandboxIDLabel s.id
      ownerType := subject.type
      ownerID := subject.id
      createdByType := subject.type
      createdBy := subject.id
      createdAt := now
      updatedAt := now
      skills := s.skills }
  | _, _ => .error (.plain ("sandbox repo: create sandbox " ++ s.id ++ ": check violation"))

def sandboxRelationships (created : Sandbox) (subject : AuthzSubjectRef) :
    List AuthzRelationship :=
  [⟨sandboxResource created.id, "owner", subject⟩,
    ⟨sandboxResource created.id, "namespace", { type := "k8s_namespace", id := created.namespaceID }⟩]

def Sandbox.applySpec (s : Sandbox) (mode : SandboxOperatingMode) (ns : Namespace)
    (pod : PodTemplate) : SandboxApplySpec where
  name := s.kubernetesName
  kubeNamespace := ns.kubeName
  image := pod.image
  containerCommand := pod.command
  operatingMode := mode
  labels := s.labels
  skillAnnotations := sandboxSkillAnnotations J s.skills

def SandboxStore.withTuples (s : SandboxStore) (tuples : Tuples) : SandboxStore :=
  { s with kube := { s.kube with tuples := tuples } }

def CreateSandboxCall.next (s : SandboxStore) (call : CreateSandboxCall) (a : Answer) :
    Option (SandboxStore × CreateSandboxCall) :=
  match call with
  | .namespace request =>
    match createSandboxValid request with
    | .error e => some (s, .returned (.error e))
    | .ok (item, subject) =>
      match a.orFault (getNamespace s.kube.namespaces item.namespaceID) with
      | .error e => some (s, .returned (.error e))
      | .ok ns => some (s, .check item subject ns)
  | .check request subject ns =>
    match a.check.require "forbidden: no use permission on namespace" with
    | .error e => some (s, .returned (.error e))
    | .ok _ =>
      if request.templateID = "" then some (s, .insert request subject ns {})
      else some (s, .template request subject ns)
  | .template request subject ns =>
    match a.orFault (getSandboxTemplate s.templates request.templateID) with
    | .error e => some (s, .returned (.error
        ⟨.INVALID_ARGUMENT, "referenced template not found: " ++ e.detail⟩))
    | .ok tmpl => some (s, .insert
        { request with skills := mergeSandboxSkills tmpl.skills request.skills } subject ns
        (tmpl.pod J))
  | .insert request subject ns pod =>
    match request.row subject ns a.now with
    | .error e => some (s, .returned (.error e))
    | .ok row =>
      match a.orFault (insertSandbox s row) with
      | .error e => some (s, .returned (.error e))
      | .ok rows => some ({ s with sandboxes := rows }, .relate row subject ns pod)
  | .relate created subject ns pod =>
    match writeRelationships s.kube.tuples (sandboxRelationships created subject) a.fault with
    | .error e => some (s, .revoke created e)
    | .ok tuples => some (s.withTuples tuples, .load created ns pod)
  | .revoke created failure =>
    match revokeResource s.kube.tuples (sandboxResource created.id) a.fault with
    | .error _ => some (s, .fail created failure)
    | .ok tuples => some (s.withTuples tuples, .fail created failure)
  | .fail created failure =>
    let rejected : HubError := ⟨.FAILED_PRECONDITION, "project relationships: " ++ failure.detail⟩
    match a.orFault (updateSandboxStatus s.sandboxes created.id .FAILED failure.detail {} a.now) with
    | .error _ => some (s, .returned (.error rejected))
    | .ok (rows, _) => some ({ s with sandboxes := rows }, .returned (.error rejected))
  | .load created ns pod =>
    match a.orFault (getCluster s.kube.clusters created.clusterID) with
    | .error e => some (s, .giveUp created e.detail)
    | .ok _ => some (s, .apply created ns pod)
  | .apply created ns pod =>
    match a.fault with
    | some cause => some (s, .giveUp created cause)
    | none =>
      let spec := created.applySpec J created.operatingMode ns pod
      some ({ s with remote := applySandbox s.remote created.clusterID spec }, .finish created)
  | .giveUp created message =>
    match a.orFault (updateSandboxStatus s.sandboxes created.id .FAILED message {} a.now) with
    | .error _ => some (s, .drop created created)
    | .ok (rows, failed) => some ({ s with sandboxes := rows }, .drop created failed)
  | .drop created result =>
    match revokeResource s.kube.tuples (sandboxResource created.id) a.fault with
    | .error _ => some (s, .returned (.ok result))
    | .ok tuples => some (s.withTuples tuples, .returned (.ok result))
  | .finish created =>
    match a.orFault (updateSandboxStatus s.sandboxes created.id .READY "" {} a.now) with
    | .error _ => some (s, .returned (.ok created))
    | .ok (rows, ready) => some ({ s with sandboxes := rows }, .returned (.ok ready))
  | .returned _ => none

/-- Suspend and resume: the lifecycle they start from and lead to, the mode they apply,
and the verb of their errors. -/
inductive ModeSwitch where
  | suspend
  | resume
deriving DecidableEq

def ModeSwitch.from : ModeSwitch → SandboxLifecycle
  | .suspend => .READY
  | .resume => .SUSPENDED

def ModeSwitch.to : ModeSwitch → SandboxLifecycle
  | .suspend => .SUSPENDED
  | .resume => .READY

def ModeSwitch.mode : ModeSwitch → SandboxOperatingMode
  | .suspend => .Suspended
  | .resume => .Running

def ModeSwitch.verb : ModeSwitch → String
  | .suspend => "suspend"
  | .resume => "resume"

structure SandboxChange where
  principal : Principal
  id : String
  expectedRevision : Int
deriving DecidableEq

def errNoManagePermission : String := "forbidden: no manage permission on sandbox"

inductive OperatingModeCall where
  | read (switch : ModeSwitch) (change : SandboxChange)
  | check (switch : ModeSwitch) (row : Sandbox)
  | template (switch : ModeSwitch) (row : Sandbox)
  | namespace (switch : ModeSwitch) (row : Sandbox) (pod : PodTemplate)
  | cluster (switch : ModeSwitch) (row : Sandbox) (pod : PodTemplate) (ns : Namespace)
  | apply (switch : ModeSwitch) (row : Sandbox) (pod : PodTemplate) (ns : Namespace)
  | write (switch : ModeSwitch) (row : Sandbox)
  | returned (result : Except HubError Sandbox)
deriving DecidableEq

/-- `setSandboxOperatingMode`. -/
def OperatingModeCall.next (s : SandboxStore) (call : OperatingModeCall) (a : Answer) :
    Option (SandboxStore × OperatingModeCall) :=
  match call with
  | .read switch change =>
    match a.orFault (getSandbox s.sandboxes change.id) with
    | .error e => some (s, .returned (.error e))
    | .ok row =>
      if row.lifecycle ≠ switch.from then
        some (s, .returned (.error ⟨.INVALID_ARGUMENT, "only " ++ switch.from.toString ++
          " sandboxes can be " ++ switch.verb ++ "ed (current: " ++ row.lifecycle.toString ++
          ")"⟩))
      else if row.revision ≠ change.expectedRevision then
        some (s, .returned (.error ⟨.REVISION_CONFLICT, "sandbox revision mismatch"⟩))
      else
        match canonicalSubject change.principal with
        | .error e => some (s, .returned (.error e))
        | .ok _ => some (s, .check switch row)
  | .check switch row =>
    match a.check.require errNoManagePermission with
    | .error e => some (s, .returned (.error e))
    | .ok _ =>
      if row.templateID = "" then some (s, .namespace switch row {})
      else some (s, .template switch row)
  | .template switch row =>
    match a.orFault (getSandboxTemplate s.templates row.templateID) with
    | .error e => some (s, .returned (.error
        ⟨.INVALID_ARGUMENT, "referenced template not found: " ++ e.detail⟩))
    | .ok tmpl => some (s, .namespace switch row (tmpl.pod J))
  | .namespace switch row pod =>
    match a.orFault (getNamespace s.kube.namespaces row.namespaceID) with
    | .error e => some (s, .returned (.error e))
    | .ok ns => some (s, .cluster switch row pod ns)
  | .cluster switch row pod ns =>
    match a.orFault (getCluster s.kube.clusters row.clusterID) with
    | .error e => some (s, .returned (.error e))
    | .ok _ => some (s, .apply switch row pod ns)
  | .apply switch row pod ns =>
    match a.fault with
    | some cause => some (s, .returned (.error
        ⟨.FAILED_PRECONDITION, "remote " ++ switch.verb ++ ": " ++ cause⟩))
    | none =>
      let spec := row.applySpec J switch.mode ns pod
      some ({ s with remote := applySandbox s.remote row.clusterID spec }, .write switch row)
  | .write switch row =>
    match a.orFault (updateSandboxStatus s.sandboxes row.id switch.to ""
        { operatingMode := some switch.mode, lastSyncAt := some a.now } a.now) with
    | .error e => some (s, .returned (.error e))
    | .ok (rows, updated) => some ({ s with sandboxes := rows }, .returned (.ok updated))
  | .returned _ => none

inductive NetworkModeCall where
  | read (change : SandboxChange) (mode : String)
  | check (row : Sandbox) (mode : SandboxNetworkMode)
  | namespace (row : Sandbox) (mode : SandboxNetworkMode)
  | cluster (row : Sandbox) (mode : SandboxNetworkMode) (ns : Namespace)
  | apply (row : Sandbox) (mode : SandboxNetworkMode) (ns : Namespace)
  | write (row : Sandbox) (mode : SandboxNetworkMode)
  | returned (result : Except HubError Sandbox)
deriving DecidableEq

/-- `SetSandboxNetworkMode`. The write keeps the lifecycle that was read. -/
def NetworkModeCall.next (s : SandboxStore) (call : NetworkModeCall) (a : Answer) :
    Option (SandboxStore × NetworkModeCall) :=
  match call with
  | .read change mode =>
    match SandboxNetworkMode.ofString mode with
    | none => some (s, .returned (.error
        ⟨.INVALID_ARGUMENT, "network_mode must be OFFLINE or ONLINE"⟩))
    | some mode =>
      match a.orFault (getSandbox s.sandboxes change.id) with
      | .error e => some (s, .returned (.error e))
      | .ok row =>
        if row.lifecycle = .DELETED ∨ row.lifecycle = .TERMINATING then
          some (s, .returned (.error ⟨.INVALID_ARGUMENT, "cannot change network mode on " ++
            row.lifecycle.toString ++ " sandbox"⟩))
        else if row.revision ≠ change.expectedRevision then
          some (s, .returned (.error ⟨.REVISION_CONFLICT, "sandbox revision mismatch"⟩))
        else
          match canonicalSubject change.principal with
          | .error e => some (s, .returned (.error e))
          | .ok _ => some (s, .check row mode)
  | .check row mode =>
    match a.check.require errNoManagePermission with
    | .error e => some (s, .returned (.error e))
    | .ok _ => some (s, .namespace row mode)
  | .namespace row mode =>
    match a.orFault (getNamespace s.kube.namespaces row.namespaceID) with
    | .error e => some (s, .returned (.error e))
    | .ok ns => some (s, .cluster row mode ns)
  | .cluster row mode ns =>
    match a.orFault (getCluster s.kube.clusters row.clusterID) with
    | .error e => some (s, .returned (.error e))
    | .ok _ => some (s, .apply row mode ns)
  | .apply row mode ns =>
    match a.fault with
    | some cause => some (s, .returned (.error
        ⟨.FAILED_PRECONDITION, "set network mode: " ++ cause⟩))
    | none =>
      let policies := applySandboxEgressPolicy s.policies row.clusterID ns.kubeName
        row.kubernetesName row.id mode
      some ({ s with policies := policies }, .write row mode)
  | .write row mode =>
    match a.orFault (updateSandboxStatus s.sandboxes row.id row.lifecycle ""
        { networkMode := some mode, lastSyncAt := some a.now } a.now) with
    | .error e => some (s, .returned (.error e))
    | .ok (rows, updated) => some ({ s with sandboxes := rows }, .returned (.ok updated))
  | .returned _ => none

structure SyncCounts where
  imported : Nat := 0
  updated : Nat := 0
  removed : Nat := 0
deriving DecidableEq

/-- A pass as it runs: the rows it listed under their Kubernetes names, and the names
it listed remotely. -/
structure SandboxSync where
  ns : Namespace
  cluster : Cluster
  localByName : List (String × Sandbox)
  remoteNames : List String
  now : Nat
  counts : SyncCounts := {}
deriving DecidableEq

inductive SyncSandboxesCall where
  | namespace (namespaceID : String)
  | cluster (ns : Namespace)
  | listRemote (ns : Namespace) (cluster : Cluster)
  | listLocal (ns : Namespace) (cluster : Cluster) (remote : List RemoteSandbox)
  | observe (pass : SandboxSync) (remote : List RemoteSandbox)
  | relate (pass : SandboxSync) (created : Sandbox) (remote : List RemoteSandbox)
  | remove (pass : SandboxSync) (rest : List (String × Sandbox))
  | revoke (pass : SandboxSync) (removed : Sandbox) (rest : List (String × Sandbox))
  | returned (result : Except HubError SyncCounts)
deriving DecidableEq

def localByName (rows : List Sandbox) : List (String × Sandbox) :=
  rows.foldl (fun m s => m.filter (fun entry => entry.1 ≠ s.kubernetesName) ++
    [(s.kubernetesName, s)]) []

/-- The row of a remote sandbox that has none. It belongs to the owner of the
namespace. -/
def importedSandbox (pass : SandboxSync) (r : RemoteSandbox) (a : Answer) : Sandbox where
  id := a.uuid
  namespaceID := pass.ns.id
  clusterID := pass.ns.clusterID
  orgID := pass.cluster.orgID
  name := r.name
  kubernetesName := r.name
  observed := r.observed
  labels := r.labels
  lifecycle := .READY
  networkMode := .OFFLINE
  operatingMode := .Running
  ownerType := pass.ns.ownerType
  ownerID := pass.ns.ownerID
  createdByType := pass.ns.ownerType
  createdBy := pass.ns.ownerID
  createdAt := a.now
  updatedAt := a.now
  lastSyncAt := some pass.now

/-- `syncSandboxesCore`. What fails inside the loops is logged and passed over. The
order in which a Go map is walked does not matter: each removal is of its own row. -/
def SyncSandboxesCall.next (s : SandboxStore) (call : SyncSandboxesCall) (a : Answer) :
    Option (SandboxStore × SyncSandboxesCall) :=
  match call with
  | .namespace namespaceID =>
    match a.orFault (getNamespace s.kube.namespaces namespaceID) with
    | .error e => some (s, .returned (.error e))
    | .ok ns => some (s, .cluster ns)
  | .cluster ns =>
    match a.orFault (getCluster s.kube.clusters ns.clusterID) with
    | .error e => some (s, .returned (.error e))
    | .ok found => some (s, .listRemote ns found)
  | .listRemote ns found =>
    match a.fault with
    | some cause => some (s, .returned (.error (.plain cause)))
    | none => some (s, .listLocal ns found
        (listRemoteSandboxes s.remote ns.clusterID ns.kubeName))
  | .listLocal ns found remote =>
    match a.fault with
    | some cause => some (s, .returned (.error (.plain cause)))
    | none => some (s, .observe
        { ns := ns
          cluster := found
          localByName := localByName (listSandboxesByNamespace s.sandboxes ns.id)
          remoteNames := remote.map RemoteSandbox.name
          now := a.now } remote)
  | .observe pass [] => some (s, .remove pass pass.localByName)
  | .observe pass (r :: rest) =>
    match pass.localByName.lookup r.name with
    | some existing =>
      match a.orFault (updateSandboxSync s.sandboxes existing.id r.observed pass.now a.now) with
      | .error _ => some (s, .observe pass rest)
      | .ok (rows, _) => some ({ s with sandboxes := rows },
          .observe { pass with counts.updated := pass.counts.updated + 1 } rest)
    | none =>
      match a.orFault (insertSandbox s (importedSandbox pass r a)) with
      | .error _ => some (s, .observe pass rest)
      | .ok rows => some ({ s with sandboxes := rows },
          .relate { pass with counts.imported := pass.counts.imported + 1 }
            (importedSandbox pass r a) rest)
  | .relate pass created rest =>
    match writeRelationships s.kube.tuples (sandboxRelationships created
        { type := pass.ns.ownerType, id := pass.ns.ownerID }) a.fault with
    | .error _ => some (s, .observe pass rest)
    | .ok tuples => some (s.withTuples tuples, .observe pass rest)
  | .remove pass [] => some (s, .returned (.ok pass.counts))
  | .remove pass ((name, row) :: rest) =>
    if name ∈ pass.remoteNames ∨ row.lifecycle = .CREATING ∨ row.lifecycle = .DELETED then
      some (s, .remove pass rest)
    else
      match a.orFault (deleteSandboxRow s.sandboxes row.id row.revision a.now) with
      | .error _ => some (s, .remove pass rest)
      | .ok (rows, _) => some ({ s with sandboxes := rows },
          .revoke { pass with counts.removed := pass.counts.removed + 1 } row rest)
  | .revoke pass removed rest =>
    match revokeResource s.kube.tuples (sandboxResource removed.id) a.fault with
    | .error _ => some (s, .remove pass rest)
    | .ok tuples => some (s.withTuples tuples, .remove pass rest)
  | .returned _ => none

inductive SandboxRequest where
  | create (request : CreateSandboxRequest)
  | switch (kind : ModeSwitch) (change : SandboxChange)
  | network (change : SandboxChange) (mode : String)
  | sync (namespaceID : String)
deriving DecidableEq

inductive SandboxCall where
  | create (call : CreateSandboxCall)
  | switch (call : OperatingModeCall)
  | network (call : NetworkModeCall)
  | sync (call : SyncSandboxesCall)
deriving DecidableEq

def SandboxCall.next (s : SandboxStore) (call : SandboxCall) (a : Answer) :
    Option (SandboxStore × SandboxCall) :=
  match call with
  | .create call => (call.next J s a).map fun out => (out.1, .create out.2)
  | .switch call => (call.next J s a).map fun out => (out.1, .switch out.2)
  | .network call => (call.next s a).map fun out => (out.1, .network out.2)
  | .sync call => (call.next s a).map fun out => (out.1, .sync out.2)

def SandboxRequest.start : SandboxRequest → SandboxCall
  | .create request => .create (.namespace request)
  | .switch kind change => .switch (.read kind change)
  | .network change mode => .network (.read change mode)
  | .sync namespaceID => .sync (.namespace namespaceID)

def SandboxCall.finished : SandboxCall → Bool
  | .create (.returned _) | .switch (.returned _) | .network (.returned _)
  | .sync (.returned _) => true
  | _ => false

/-- The call has returned without an error; a creation that fails halfway returns the
row as it then is. -/
def SandboxCall.succeeded : SandboxCall → Bool
  | .create (.returned (.ok row)) => row.lifecycle = .READY
  | .switch (.returned (.ok _)) | .network (.returned (.ok _)) | .sync (.returned (.ok _)) => true
  | _ => false

def sandboxProgram : Threads.Program SandboxStore SandboxCall SandboxRequest Answer where
  start := SandboxRequest.start
  next := SandboxCall.next J
  finished := SandboxCall.finished

/-- A call with what its dependencies answer, made while no other is in flight and
returning successfully. -/
def sandboxStep (s : SandboxStore) (call : SandboxRequest × List Answer) : Option SandboxStore :=
  (((sandboxProgram J).serve s call.1 call.2).filter fun out => out.2.succeeded).map Prod.fst

end AisphereHub
