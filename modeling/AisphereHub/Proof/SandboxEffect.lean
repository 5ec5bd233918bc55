import AisphereHub.Biz.SandboxUsecase

/-! What a successful sandbox call did, when it ran alone. Each call has an assertion for
every point where it waits, relating the store to the one it started from; the last one
is the effect of the call. -/
namespace AisphereHub

open Keyed

variable {J : SandboxCodec} {s s' base : SandboxStore} {a : Answer} {answers : List Answer}
  {pass : SandboxSync} {o : RemoteSandbox}

theorem sandboxStep_eq_some : sandboxStep J s (request, answers) = some s' ↔ ∃ call,
      (sandboxProgram J).serve s request answers = some (s', call) ∧ call.succeeded = true := by
  simp only [sandboxStep, Option.map_eq_some_iff, Option.filter_eq_some_iff, Prod.exists]
  constructor
  · intro served
    obtain ⟨_, call, served, rfl⟩ := served
    exact ⟨call, served⟩
  · intro served
    obtain ⟨call, served⟩ := served
    exact ⟨s', call, served, rfl⟩

def SandboxStore.UniqueIDs (s : SandboxStore) : Prop := (s.sandboxes.map Sandbox.id).Nodup

theorem SandboxStore.UniqueIDs.amend (unique : s.UniqueIDs) (id : String)
    (same : ∀ row, (f row).id = row.id) : SandboxStore.UniqueIDs
      { s with sandboxes := amend Sandbox.id s.sandboxes id f } :=
  nodup_amend unique id same

theorem SandboxStore.UniqueIDs.insert (unique : s.UniqueIDs)
    (fresh : lookup Sandbox.id s.sandboxes row.id = none) :
    SandboxStore.UniqueIDs { s with sandboxes := s.sandboxes ++ [row] } :=
  nodup_concat.mpr ⟨unique, fresh⟩

section Network

variable {change : SandboxChange} {text : String} {row : Sandbox} {mode : SandboxNetworkMode}
  {ns : Namespace}

structure NetworkRead (base : SandboxStore) (change : SandboxChange) (text : String)
    (row : Sandbox) (mode : SandboxNetworkMode) : Prop where
  parsed : SandboxNetworkMode.ofString text = some mode
  found : getSandbox base.sandboxes change.id = .ok row
  usable : row.lifecycle ≠ .DELETED ∧ row.lifecycle ≠ .TERMINATING
  current : row.revision = change.expectedRevision

def SandboxStore.repoliced (base : SandboxStore) (row : Sandbox) (mode : SandboxNetworkMode)
    (ns : Namespace) : SandboxStore :=
  { base with
    policies := applySandboxEgressPolicy base.policies row.clusterID ns.kubeName
      row.kubernetesName row.id mode }

def SandboxStore.restamped (base : SandboxStore) (id : String) (lifecycle : SandboxLifecycle)
    (extra : SandboxStatusExtra) (now : Nat) : SandboxStore :=
  { base with sandboxes := amend Sandbox.id base.sandboxes id fun row =>
      row.transitioned lifecycle "" extra now }

structure NetworkSet (base s : SandboxStore) (change : SandboxChange) (text : String)
    (row : Sandbox) (mode : SandboxNetworkMode) (ns : Namespace) (now : Nat) : Prop where
  read : NetworkRead base change text row mode
  located : getNamespace base.kube.namespaces row.namespaceID = .ok ns
  hosted : ∃ cluster, getCluster base.kube.clusters row.clusterID = .ok cluster
  store : s = (base.repoliced row mode ns).restamped row.id row.lifecycle
    { networkMode := some mode, lastSyncAt := some now } now

def NetworkModeCall.At (base : SandboxStore) (change : SandboxChange) (text : String)
    (s : SandboxStore) : NetworkModeCall → Prop
  | .read c m => s = base ∧ c = change ∧ m = text
  | .check row mode | .namespace row mode => s = base ∧ NetworkRead base change text row mode
  | .cluster row mode ns => s = base ∧ NetworkRead base change text row mode ∧
      getNamespace base.kube.namespaces row.namespaceID = .ok ns
  | .apply row mode ns => s = base ∧ NetworkRead base change text row mode ∧
      getNamespace base.kube.namespaces row.namespaceID = .ok ns ∧
      ∃ cluster, getCluster base.kube.clusters row.clusterID = .ok cluster
  | .write row mode => NetworkRead base change text row mode ∧
      ∃ ns, getNamespace base.kube.namespaces row.namespaceID = .ok ns ∧
        (∃ cluster, getCluster base.kube.clusters row.clusterID = .ok cluster) ∧
        s = base.repoliced row mode ns
  | .returned (.ok _) => ∃ row mode ns now, NetworkSet base s change text row mode ns now
  | .returned (.error _) => True

theorem networkMode_at {call : NetworkModeCall} (holds : call.At base change text s)
    (taken : call.next s a = some (s', call')) : call'.At base change text s' := by
  cases call with simp only [NetworkModeCall.next, reduceCtorEq] at taken
  | read c m =>
    obtain ⟨rfl, rfl, rfl⟩ := holds
    split at taken
    · cases taken
      trivial
    rename_i mode parsed
    split at taken
    · cases taken
      trivial
    rename_i row found
    split_ifs at taken with closed stale
    · cases taken
      trivial
    · cases taken
      trivial
    split at taken
    · cases taken
      trivial
    cases taken
    rw [not_or] at closed
    exact ⟨rfl, parsed, (orFault_eq_ok.mp found).2, closed, not_not.mp stale⟩
  | check row mode =>
    split at taken <;> cases taken
    · trivial
    · exact holds
  | «namespace» row mode =>
    obtain ⟨rfl, read⟩ := holds
    split at taken <;> cases taken
    · trivial
    · rename_i found
      exact ⟨rfl, read, (orFault_eq_ok.mp found).2⟩
  | cluster row mode ns =>
    obtain ⟨rfl, read, located⟩ := holds
    split at taken <;> cases taken
    · trivial
    · rename_i cluster found
      exact ⟨rfl, read, located, cluster, (orFault_eq_ok.mp found).2⟩
  | apply row mode ns =>
    obtain ⟨rfl, read, located, hosted⟩ := holds
    split at taken <;> cases taken
    · trivial
    · exact ⟨read, ns, located, hosted, rfl⟩
  | write row mode =>
    obtain ⟨read, ns, located, hosted, rfl⟩ := holds
    split at taken <;> cases taken
    · trivial
    · rename_i rows updated written
      obtain ⟨_, _, _, rfl⟩ := updateSandboxStatus_eq_ok.mp (orFault_eq_ok.mp written).2
      exact ⟨row, mode, ns, a.now, read, located, hosted, rfl⟩

theorem networkStep_effect (taken : sandboxStep J base (.network change text, answers) = some s) :
    ∃ row mode ns now, NetworkSet base s change text row mode ns now := by
  obtain ⟨call, served, succeeded⟩ := sandboxStep_eq_some.mp taken
  obtain ⟨inner, rfl, holds⟩ := Threads.serve_keeps_lifted (f := SandboxCall.network)
    (I := fun s inner => inner.At base change text s) (fun _ _ _ => rfl)
    (u := .read change text) (fun _ _ _ _ _ => networkMode_at) rfl ⟨rfl, rfl, rfl⟩ served
  cases inner with
  | returned result =>
    cases result with
    | ok updated => exact holds
    | error e => cases succeeded
  | _ => cases succeeded

end Network

section Switch

variable {kind : ModeSwitch} {change : SandboxChange}

structure SwitchRead (base : SandboxStore) (kind : ModeSwitch) (change : SandboxChange)
    (row : Sandbox) : Prop where
  found : getSandbox base.sandboxes change.id = .ok row
  lifecycle : row.lifecycle = kind.from
  current : row.revision = change.expectedRevision

def SandboxStore.reapplied (base : SandboxStore) (clusterID : String) (spec : SandboxApplySpec) :
    SandboxStore :=
  { base with remote := applySandbox base.remote clusterID spec }

structure SwitchSet (J : SandboxCodec) (base s : SandboxStore) (kind : ModeSwitch)
    (change : SandboxChange) (row : Sandbox) (pod : PodTemplate) (ns : Namespace) (now : Nat) :
    Prop where
  read : SwitchRead base kind change row
  located : getNamespace base.kube.namespaces row.namespaceID = .ok ns
  store : s = (base.reapplied row.clusterID (row.applySpec J kind.mode ns pod)).restamped row.id
    kind.to { operatingMode := some kind.mode, lastSyncAt := some now } now

def OperatingModeCall.At (J : SandboxCodec) (base : SandboxStore) (kind : ModeSwitch)
    (change : SandboxChange) (s : SandboxStore) : OperatingModeCall → Prop
  | .read k c => s = base ∧ k = kind ∧ c = change
  | .check k row | .template k row | .namespace k row _ => s = base ∧ k = kind ∧
      SwitchRead base kind change row
  | .cluster k row _ ns | .apply k row _ ns => s = base ∧ k = kind ∧
      SwitchRead base kind change row ∧ getNamespace base.kube.namespaces row.namespaceID = .ok ns
  | .write k row => k = kind ∧ SwitchRead base kind change row ∧
      ∃ pod ns, getNamespace base.kube.namespaces row.namespaceID = .ok ns ∧
        s = base.reapplied row.clusterID (row.applySpec J kind.mode ns pod)
  | .returned (.ok _) => ∃ row pod ns now, SwitchSet J base s kind change row pod ns now
  | .returned (.error _) => True

theorem operatingMode_at {call : OperatingModeCall} (holds : call.At J base kind change s)
    (taken : call.next J s a = some (s', call')) : call'.At J base kind change s' := by
  cases call with simp only [OperatingModeCall.next, reduceCtorEq] at taken
  | read k c =>
    obtain ⟨rfl, rfl, rfl⟩ := holds
    split at taken
    · cases taken
      trivial
    rename_i row found
    split_ifs at taken with other stale
    · cases taken
      trivial
    · cases taken
      trivial
    split at taken <;> cases taken
    · trivial
    · exact ⟨rfl, rfl, (orFault_eq_ok.mp found).2, not_not.mp other, not_not.mp stale⟩
  | check k row =>
    split at taken
    · cases taken
      trivial
    · split_ifs at taken <;> cases taken <;> exact holds
  | template k row | cluster k row pod ns =>
    split at taken <;> cases taken
    · trivial
    · exact holds
  | «namespace» k row pod =>
    obtain ⟨rfl, same, read⟩ := holds
    split at taken <;> cases taken
    · trivial
    · rename_i found
      exact ⟨rfl, same, read, (orFault_eq_ok.mp found).2⟩
  | apply k row pod ns =>
    obtain ⟨rfl, rfl, read, located⟩ := holds
    split at taken <;> cases taken
    · trivial
    · exact ⟨rfl, read, pod, ns, located, rfl⟩
  | write k row =>
    obtain ⟨rfl, read, pod, ns, located, rfl⟩ := holds
    split at taken <;> cases taken
    · trivial
    · rename_i rows updated written
      obtain ⟨_, _, _, rfl⟩ := updateSandboxStatus_eq_ok.mp (orFault_eq_ok.mp written).2
      exact ⟨row, pod, ns, a.now, read, located, rfl⟩

theorem switchStep_effect (taken : sandboxStep J base (.switch kind change, answers) = some s) :
    ∃ row pod ns now, SwitchSet J base s kind change row pod ns now := by
  obtain ⟨call, served, succeeded⟩ := sandboxStep_eq_some.mp taken
  obtain ⟨inner, rfl, holds⟩ := Threads.serve_keeps_lifted (f := SandboxCall.switch)
    (I := fun s inner => inner.At J base kind change s) (fun _ _ _ => rfl)
    (u := .read kind change) (fun _ _ _ _ _ => operatingMode_at) rfl ⟨rfl, rfl, rfl⟩ served
  cases inner with
  | returned result =>
    cases result with
    | ok updated => exact holds
    | error e => cases succeeded
  | _ => cases succeeded

end Switch

section Create

variable {request : CreateSandboxRequest}

structure Stamped (item : NewSandbox) (ns : Namespace) (created : Sandbox) : Prop where
  id : created.id = item.id
  namespaceID : created.namespaceID = item.namespaceID
  clusterID : created.clusterID = ns.clusterID
  kubernetesName : created.kubernetesName =
    if item.kubernetesName = "" then item.name else item.kubernetesName
  label : created.labels.lookup sandboxIDLabel = some item.id
  networkMode : SandboxNetworkMode.ofString
    (if item.networkMode = "" then "OFFLINE" else item.networkMode) = some created.networkMode
  lifecycle : created.lifecycle = .CREATING

theorem stamped_row (made : item.row subject ns now = .ok row) :
    Stamped item ns row := by
  unfold NewSandbox.row at made
  split at made
  · rename_i networkMode _ parsed _
    cases made
    exact ⟨rfl, rfl, rfl, rfl, lookup_setLabel _ _ _, parsed, rfl⟩
  · cases made

structure SandboxAsked (base : SandboxStore) (request : CreateSandboxRequest) (item : NewSandbox)
    (ns : Namespace) : Prop where
  given : request.sandbox = some item
  located : getNamespace base.kube.namespaces item.namespaceID = .ok ns

structure SandboxInserted (base s : SandboxStore) (created : Sandbox) : Prop where
  fresh : lookup Sandbox.id base.sandboxes created.id = none
  rows : s.sandboxes = base.sandboxes ++ [created]
  policies : s.policies = base.policies
  namespaces : s.kube.namespaces = base.kube.namespaces

structure SandboxCreated (J : SandboxCodec) (base s : SandboxStore) (item : NewSandbox)
    (ns : Namespace) (created : Sandbox) (pod : PodTemplate) (now : Nat) : Prop where
  stamped : Stamped item ns created
  fresh : lookup Sandbox.id base.sandboxes created.id = none
  rows : s.sandboxes = amend Sandbox.id (base.sandboxes ++ [created]) created.id
    fun row => row.transitioned .READY "" {} now
  remote : s.remote = applySandbox base.remote created.clusterID
    (created.applySpec J created.operatingMode ns pod)
  policies : s.policies = base.policies
  namespaces : s.kube.namespaces = base.kube.namespaces

def CreateSandboxCall.At (J : SandboxCodec) (base : SandboxStore) (request : CreateSandboxRequest)
    (s : SandboxStore) : CreateSandboxCall → Prop
  | .namespace r => s = base ∧ r = request
  | .check item _ ns | .template item _ ns => s = base ∧ SandboxAsked base request item ns
  | .insert item _ ns _ => s = base ∧ ∃ asked, SandboxAsked base request asked ns ∧
      item = { asked with skills := item.skills }
  | .relate created _ ns _ | .load created ns _ | .apply created ns _ =>
    s.remote = base.remote ∧ SandboxInserted base s created ∧
      ∃ item, SandboxAsked base request item ns ∧ Stamped item ns created
  | .finish created => SandboxInserted base s created ∧ ∃ item ns pod,
      SandboxAsked base request item ns ∧ Stamped item ns created ∧
        s.remote = applySandbox base.remote created.clusterID
          (created.applySpec J created.operatingMode ns pod)
  | .giveUp created _ => created.lifecycle = .CREATING
  | .drop _ result => result.lifecycle ≠ .READY
  | .returned (.ok row) => row.lifecycle = .READY → ∃ item ns created pod now,
      SandboxAsked base request item ns ∧ SandboxCreated J base s item ns created pod now
  | .revoke .. | .fail .. | .returned (.error _) => True

theorem createSandboxValid_eq_ok
    (valid : createSandboxValid request = .ok (item, subject)) : request.sandbox = some item := by
  unfold createSandboxValid at valid
  split at valid
  · cases valid
  rename_i s given
  split_ifs at valid
  obtain ⟨_, _, same⟩ := map_eq_ok valid
  rw [given, (Prod.mk.inj same).1]

theorem createSandbox_at {call : CreateSandboxCall} (holds : call.At J base request s)
    (taken : call.next J s a = some (s', call')) : call'.At J base request s' := by
  cases call with simp only [CreateSandboxCall.next, reduceCtorEq] at taken
  | «namespace» r =>
    obtain ⟨rfl, rfl⟩ := holds
    split at taken
    · cases taken
      trivial
    rename_i item subject valid
    split at taken <;> cases taken
    · trivial
    · rename_i located
      exact ⟨rfl, createSandboxValid_eq_ok valid, (orFault_eq_ok.mp located).2⟩
  | check item subject ns =>
    obtain ⟨rfl, asked⟩ := holds
    split at taken
    · cases taken
      trivial
    split_ifs at taken <;> cases taken
    · exact ⟨rfl, item, asked, rfl⟩
    · exact ⟨rfl, asked⟩
  | template item subject ns =>
    obtain ⟨rfl, asked⟩ := holds
    split at taken <;> cases taken
    · trivial
    · exact ⟨rfl, item, asked, rfl⟩
  | insert item subject ns pod =>
    obtain ⟨rfl, asked, named, same⟩ := holds
    split at taken
    · cases taken
      trivial
    rename_i row made
    split at taken <;> cases taken
    · trivial
    · rename_i rows inserted
      obtain ⟨fresh, rfl⟩ := insertSandbox_eq_ok (orFault_eq_ok.mp inserted).2
      have stamped := stamped_row made
      rw [same] at stamped
      exact ⟨rfl, ⟨fresh, rfl, rfl, rfl⟩, asked, named, stamped.id, stamped.namespaceID,
        stamped.clusterID, stamped.kubernetesName, stamped.label, stamped.networkMode,
        stamped.lifecycle⟩
  | relate created subject ns pod =>
    split at taken <;> cases taken
    · trivial
    · obtain ⟨remote, inserted, asked⟩ := holds
      exact ⟨remote, ⟨inserted.fresh, inserted.rows, inserted.policies, inserted.namespaces⟩, asked⟩
  | revoke created failure | fail created failure =>
    split at taken <;> cases taken <;> trivial
  | load created ns pod =>
    split at taken <;> cases taken
    · exact holds.2.2.choose_spec.2.lifecycle
    · exact holds
  | apply created ns pod =>
    obtain ⟨remote, inserted, item, asked, stamped⟩ := holds
    split at taken <;> cases taken
    · exact stamped.lifecycle
    · refine ⟨⟨inserted.fresh, inserted.rows, inserted.policies, inserted.namespaces⟩, item, ns,
        pod, asked, stamped, ?_⟩
      rw [← remote]
  | giveUp created message =>
    have creating : created.lifecycle = .CREATING := holds
    split at taken <;> cases taken
    · simp [CreateSandboxCall.At, creating]
    · rename_i failed written
      obtain ⟨_, _, rfl, _⟩ := updateSandboxStatus_eq_ok.mp (orFault_eq_ok.mp written).2
      simp [CreateSandboxCall.At, Sandbox.transitioned]
  | drop created result =>
    split at taken <;> cases taken <;> exact fun ready => absurd ready holds
  | finish created =>
    obtain ⟨inserted, item, ns, pod, asked, stamped, remote⟩ := holds
    split at taken <;> cases taken
    · intro ready
      rw [stamped.lifecycle] at ready
      cases ready
    · rename_i rows row written
      obtain ⟨_, _, _, rfl⟩ := updateSandboxStatus_eq_ok.mp (orFault_eq_ok.mp written).2
      intro _
      exact ⟨item, ns, created, pod, a.now, asked, stamped, inserted.fresh,
        by rw [inserted.rows], remote, inserted.policies, inserted.namespaces⟩

theorem createStep_effect (taken : sandboxStep J base (.create request, answers) = some s) :
    ∃ item ns created pod now,
      SandboxAsked base request item ns ∧ SandboxCreated J base s item ns created pod now := by
  obtain ⟨call, served, succeeded⟩ := sandboxStep_eq_some.mp taken
  obtain ⟨inner, rfl, holds⟩ := Threads.serve_keeps_lifted (f := SandboxCall.create)
    (I := fun s inner => inner.At J base request s) (fun _ _ _ => rfl)
    (u := .namespace request) (fun _ _ _ _ _ => createSandbox_at) rfl ⟨rfl, rfl⟩ served
  cases inner with
  | returned result =>
    cases result with
    | ok row => exact holds (of_decide_eq_true succeeded)
    | error e => cases succeeded
  | _ => cases succeeded

end Create

section Sync

variable {namespaceID : String} {ns : Namespace}

def SandboxStore.unlisted (s : SandboxStore) (ns : Namespace) : List RemoteSandbox :=
  (listRemoteSandboxes s.remote ns.clusterID ns.kubeName).filter fun o =>
    (listSandboxesByNamespace s.sandboxes ns.id).all fun row => row.kubernetesName ≠ o.name

structure SyncKept (old row : Sandbox) : Prop where
  namespaceID : row.namespaceID = old.namespaceID
  clusterID : row.clusterID = old.clusterID
  kubernetesName : row.kubernetesName = old.kubernetesName
  networkMode : row.networkMode = old.networkMode
  live : row.live = true → old.live = true ∧ row.lifecycle = old.lifecycle

theorem SyncKept.refl (row : Sandbox) : SyncKept row row := ⟨rfl, rfl, rfl, rfl, fun live => ⟨live, rfl⟩⟩

theorem SyncKept.trans {second : Sandbox} (before : SyncKept first second)
    (after : SyncKept second third) : SyncKept first third where
  namespaceID := after.namespaceID.trans before.namespaceID
  clusterID := after.clusterID.trans before.clusterID
  kubernetesName := after.kubernetesName.trans before.kubernetesName
  networkMode := after.networkMode.trans before.networkMode
  live live := by
    obtain ⟨still, same⟩ := after.live live
    obtain ⟨old, same'⟩ := before.live still
    exact ⟨old, same.trans same'⟩

theorem syncKept_softDeleted (row : Sandbox) (now : Nat) : SyncKept row (row.softDeleted now) :=
  ⟨rfl, rfl, rfl, rfl, fun live => nomatch live⟩

/-- What a pass leaves: the rows it found, and rows of objects that had none. -/
structure Synced (base s : SandboxStore) (ns : Namespace) : Prop where
  rows : ∀ row ∈ s.sandboxes, (∃ old ∈ base.sandboxes, SyncKept old row) ∨
    ∃ o ∈ base.unlisted ns, row.namespaceID = ns.id ∧ row.clusterID = ns.clusterID ∧
      row.kubernetesName = o.name
  unique : base.UniqueIDs → s.UniqueIDs
  remote : s.remote = base.remote
  policies : s.policies = base.policies
  namespaces : s.kube.namespaces = base.kube.namespaces

theorem Synced.start (base : SandboxStore) (ns : Namespace) : Synced base base ns where
  rows row member := .inl ⟨row, member, .refl row⟩
  unique := id
  remote := rfl
  policies := rfl
  namespaces := rfl

theorem Synced.amend (synced : Synced base s ns) (id : String)
    (same : ∀ row, (f row).id = row.id) (keep : ∀ row, SyncKept row (f row)) :
    Synced base { s with sandboxes := amend Sandbox.id s.sandboxes id f } ns where
  rows := by
    intro row member
    obtain ⟨before, among, rfl⟩ := List.mem_map.mp member
    have kept : SyncKept before (if before.id = id then f before else before) := by
      split_ifs
      · exact keep before
      · exact .refl before
    rcases synced.rows before among with ⟨old, known, oldKept⟩ | ⟨o, unlisted, space, cluster, name⟩
    · exact .inl ⟨old, known, oldKept.trans kept⟩
    · exact .inr ⟨o, unlisted, kept.namespaceID.trans space, kept.clusterID.trans cluster,
        kept.kubernetesName.trans name⟩
  unique unique := (synced.unique unique).amend id same
  remote := synced.remote
  policies := synced.policies
  namespaces := synced.namespaces

theorem Synced.withTuples (synced : Synced base s ns) (tuples : Tuples) :
    Synced base (s.withTuples tuples) ns :=
  ⟨synced.rows, synced.unique, synced.remote, synced.policies, synced.namespaces⟩

theorem Synced.insert (synced : Synced base s ns)
    (fresh : lookup Sandbox.id s.sandboxes row.id = none) (unlisted : o ∈ base.unlisted ns)
    (space : row.namespaceID = ns.id) (cluster : row.clusterID = ns.clusterID)
    (name : row.kubernetesName = o.name) :
    Synced base { s with sandboxes := s.sandboxes ++ [row] } ns where
  rows := by
    intro other member
    rcases List.mem_append.mp member with old | new
    · exact synced.rows other old
    · rw [List.mem_singleton] at new
      exact .inr ⟨o, unlisted, by rw [new]; exact ⟨space, cluster, name⟩⟩
  unique unique := (synced.unique unique).insert fresh
  remote := synced.remote
  policies := synced.policies
  namespaces := synced.namespaces

structure SyncListed (base : SandboxStore) (namespaceID : String) (pass : SandboxSync)
    (remote : List RemoteSandbox) : Prop where
  located : getNamespace base.kube.namespaces namespaceID = .ok pass.ns
  rows : pass.localByName = localByName (listSandboxesByNamespace base.sandboxes pass.ns.id)
  objects : ∀ o ∈ remote, o ∈ listRemoteSandboxes base.remote pass.ns.clusterID pass.ns.kubeName

def SyncSandboxesCall.At (base : SandboxStore) (namespaceID : String) (s : SandboxStore) :
    SyncSandboxesCall → Prop
  | .namespace id => s = base ∧ id = namespaceID
  | .cluster ns | .listRemote ns _ => s = base ∧
      getNamespace base.kube.namespaces namespaceID = .ok ns
  | .listLocal ns _ remote => s = base ∧ getNamespace base.kube.namespaces namespaceID = .ok ns ∧
      remote = listRemoteSandboxes base.remote ns.clusterID ns.kubeName
  | .observe pass remote | .relate pass _ remote => Synced base s pass.ns ∧
      SyncListed base namespaceID pass remote
  | .remove pass _ | .revoke pass _ _ => Synced base s pass.ns ∧
      getNamespace base.kube.namespaces namespaceID = .ok pass.ns
  | .returned (.ok _) => ∃ ns, getNamespace base.kube.namespaces namespaceID = .ok ns ∧
      Synced base s ns
  | .returned (.error _) => True

theorem SyncListed.tail (listed : SyncListed base namespaceID pass (o :: rest)) :
    SyncListed base namespaceID pass rest :=
  ⟨listed.located, listed.rows, fun o member => listed.objects o (List.mem_cons_of_mem _ member)⟩

theorem SyncListed.counted
    (listed : SyncListed base namespaceID pass remote) (counts : SyncCounts) :
    SyncListed base namespaceID { pass with counts := counts } remote :=
  ⟨listed.located, listed.rows, listed.objects⟩

theorem SyncListed.unlisted (listed : SyncListed base namespaceID pass (o :: rest))
    (missing : pass.localByName.lookup o.name = none) : o ∈ base.unlisted pass.ns := by
  rw [listed.rows] at missing
  refine List.mem_filter.mpr ⟨listed.objects o List.mem_cons_self, ?_⟩
  simpa using lookup_index_eq_none missing

theorem observe_at
    (synced : Synced base s pass.ns) (listed : SyncListed base namespaceID pass remote)
    (taken : (SyncSandboxesCall.observe pass remote).next s a = some (s', call')) :
    call'.At base namespaceID s' := by
  cases remote with
  | nil =>
    cases taken
    exact ⟨synced, listed.located⟩
  | cons o rest =>
    simp only [SyncSandboxesCall.next] at taken
    split at taken
    · split at taken <;> cases taken
      · exact ⟨synced, listed.tail⟩
      · rename_i written
        obtain ⟨_, _, _, rfl⟩ := updateSandboxSync_eq_ok.mp (orFault_eq_ok.mp written).2
        exact ⟨synced.amend _ (fun _ => rfl) fun _ => ⟨rfl, rfl, rfl, rfl, fun live => ⟨live, rfl⟩⟩, listed.tail.counted _⟩
    · rename_i missing
      split at taken <;> cases taken
      · exact ⟨synced, listed.tail⟩
      · rename_i inserted
        obtain ⟨fresh, rfl⟩ := insertSandbox_eq_ok (orFault_eq_ok.mp inserted).2
        exact ⟨synced.insert fresh (listed.unlisted missing) rfl rfl rfl, listed.tail.counted _⟩

theorem remove_at (synced : Synced base s pass.ns)
    (located : getNamespace base.kube.namespaces namespaceID = .ok pass.ns)
    (taken : (SyncSandboxesCall.remove pass entries).next s a = some (s', call')) :
    call'.At base namespaceID s' := by
  cases entries with
  | nil =>
    cases taken
    exact ⟨pass.ns, located, synced⟩
  | cons entry rest =>
    simp only [SyncSandboxesCall.next] at taken
    split_ifs at taken
    · cases taken
      exact ⟨synced, located⟩
    · split at taken <;> cases taken
      · exact ⟨synced, located⟩
      · rename_i gone
        obtain ⟨_, _, _, _, rfl⟩ := affected_guarded.mp (orFault_eq_ok.mp gone).2
        exact ⟨synced.amend _ (fun _ => rfl) fun row => syncKept_softDeleted row _, located⟩

theorem syncSandboxes_at {call : SyncSandboxesCall} (holds : call.At base namespaceID s)
    (taken : call.next s a = some (s', call')) : call'.At base namespaceID s' := by
  cases call with simp only [SyncSandboxesCall.next, reduceCtorEq] at taken
  | «namespace» id =>
    obtain ⟨rfl, rfl⟩ := holds
    split at taken <;> cases taken
    · trivial
    · rename_i located
      exact ⟨rfl, (orFault_eq_ok.mp located).2⟩
  | cluster ns =>
    split at taken <;> cases taken
    · trivial
    · exact holds
  | listRemote ns found =>
    obtain ⟨rfl, located⟩ := holds
    split at taken <;> cases taken
    · trivial
    · exact ⟨rfl, located, rfl⟩
  | listLocal ns found remote =>
    obtain ⟨rfl, located, rfl⟩ := holds
    split at taken <;> cases taken
    · trivial
    · exact ⟨.start _ _, located, rfl, fun _ member => member⟩
  | observe pass remote => exact observe_at holds.1 holds.2 taken
  | relate pass created remote | revoke pass removed entries =>
    split at taken <;> cases taken
    · exact holds
    · exact ⟨holds.1.withTuples _, holds.2⟩
  | remove pass entries => exact remove_at holds.1 holds.2 taken

theorem syncStep_effect (taken : sandboxStep J base (.sync namespaceID, answers) = some s) :
    ∃ ns, getNamespace base.kube.namespaces namespaceID = .ok ns ∧ Synced base s ns := by
  obtain ⟨call, served, succeeded⟩ := sandboxStep_eq_some.mp taken
  obtain ⟨inner, rfl, holds⟩ := Threads.serve_keeps_lifted (f := SandboxCall.sync)
    (I := fun s inner => inner.At base namespaceID s) (fun _ _ _ => rfl)
    (u := .namespace namespaceID) (fun _ _ _ _ _ => syncSandboxes_at) rfl ⟨rfl, rfl⟩ served
  cases inner with
  | returned result =>
    cases result with
    | ok counts => exact holds
    | error e => cases succeeded
  | _ => cases succeeded

end Sync

end AisphereHub
