import AisphereHub.Proof.SandboxEffect

/-! What an OFFLINE sandbox promises, against the network policies in force. -/
namespace AisphereHub

variable {J : SandboxCodec} {s s' : SandboxStore}

def SandboxStore.denies (s : SandboxStore) (clusterID kubeNamespace sandboxID : String) : Bool :=
  s.policies.any fun p =>
    p.clusterID = clusterID && p.kubeNamespace = kubeNamespace && p.sandboxID = sandboxID

def remoteID (remote : List RemoteSandbox) (place : String × String × String) : Option String :=
  (Keyed.lookup RemoteSandbox.key remote place).bind fun o => o.labels.lookup sandboxIDLabel

def SandboxStore.isolatedAt (s : SandboxStore) (clusterID kubeNamespace kubernetesName : String) :
    Bool :=
  (remoteID s.remote (clusterID, kubeNamespace, kubernetesName)).any
    (s.denies clusterID kubeNamespace)

def SandboxStore.kubeName (s : SandboxStore) (namespaceID : String) : Option String :=
  (Keyed.lookup Namespace.id s.kube.namespaces namespaceID).map Namespace.kubeName

def SandboxStore.isolates (s : SandboxStore) (row : Sandbox) : Bool :=
  (s.kubeName row.namespaceID).any fun kube => s.isolatedAt row.clusterID kube row.kubernetesName

def Sandbox.sealed (row : Sandbox) : Bool :=
  row.live && row.lifecycle = .READY && row.networkMode = .OFFLINE

def Isolating (s : SandboxStore) : Prop :=
  ∀ row ∈ s.sandboxes, row.sealed = true → s.isolates row = true

instance (s : SandboxStore) : Decidable (Isolating s) :=
  inferInstanceAs (Decidable (∀ row ∈ s.sandboxes, _))

def SandboxStore.users (s : SandboxStore) (clusterID kubeNamespace kubernetesName : String) :
    List Sandbox :=
  s.sandboxes.filter fun row => row.sealed && row.clusterID = clusterID &&
    s.kubeName row.namespaceID = some kubeNamespace && row.kubernetesName = kubernetesName

def SandboxStore.deniesBesides (s : SandboxStore)
    (clusterID kubeNamespace name sandboxID : String) : Bool :=
  s.policies.any fun p => p.clusterID = clusterID && p.kubeNamespace = kubeNamespace &&
    p.name ≠ name && p.sandboxID = sandboxID

/-- A new sandbox is ONLINE and takes no object over from a row that promises isolation,
or its id is denied already. -/
def createKeeps (s : SandboxStore) (item : NewSandbox) (ns : Namespace) : Bool :=
  s.denies ns.clusterID ns.kubeName item.id ||
    (item.networkMode = "ONLINE" && (s.users ns.clusterID ns.kubeName
      (if item.kubernetesName = "" then item.name else item.kubernetesName)).isEmpty)

/-- Suspending and resuming apply the sandbox id that the object carries, and what is
resumed is isolated. -/
def switchKeeps (s : SandboxStore) (kind : ModeSwitch) (row : Sandbox) (ns : Namespace) : Bool :=
  row.labels.lookup sandboxIDLabel =
      remoteID s.remote (row.clusterID, ns.kubeName, row.kubernetesName) &&
    (kind = .suspend || row.networkMode = .ONLINE || s.isolates row)

/-- The object of a sandbox taken OFFLINE carries its id, and every other row that
promises isolation in the namespace has it from a policy of another name. -/
def networkKeeps (s : SandboxStore) (mode : SandboxNetworkMode) (row : Sandbox) (ns : Namespace) :
    Bool :=
  (mode = .ONLINE ||
      remoteID s.remote (row.clusterID, ns.kubeName, row.kubernetesName) = some row.id) &&
    s.sandboxes.all fun other => !other.sealed || other.id = row.id ||
      other.clusterID ≠ row.clusterID || s.kubeName other.namespaceID ≠ some ns.kubeName ||
      (remoteID s.remote (row.clusterID, ns.kubeName, other.kubernetesName)).any
        (s.deniesBesides row.clusterID ns.kubeName (egressPolicyName row.kubernetesName))

def syncKeeps (s : SandboxStore) (ns : Namespace) : Bool :=
  (s.unlisted ns).all fun o => s.isolatedAt ns.clusterID ns.kubeName o.name

def keepsIsolation (s : SandboxStore) : SandboxRequest → Bool
  | .create request => request.sandbox.all fun item =>
    (getNamespace s.kube.namespaces item.namespaceID).toOption.all (createKeeps s item)
  | .switch kind change => (getSandbox s.sandboxes change.id).toOption.all fun row =>
    (getNamespace s.kube.namespaces row.namespaceID).toOption.all (switchKeeps s kind row)
  | .network change mode => (getSandbox s.sandboxes change.id).toOption.all fun row =>
    (SandboxNetworkMode.ofString mode).all fun mode =>
      (getNamespace s.kube.namespaces row.namespaceID).toOption.all (networkKeeps s mode row)
  | .sync namespaceID =>
    (getNamespace s.kube.namespaces namespaceID).toOption.all (syncKeeps s)

theorem isolates_iff : s.isolates row = true ↔
    ∃ kube id, s.kubeName row.namespaceID = some kube ∧
      remoteID s.remote (row.clusterID, kube, row.kubernetesName) = some id ∧
      s.denies row.clusterID kube id = true := by
  simp only [SandboxStore.isolates, SandboxStore.isolatedAt, Option.any_eq_true]
  constructor
  · intro holds
    obtain ⟨kube, located, id, carried, denied⟩ := holds
    exact ⟨kube, id, located, carried, denied⟩
  · intro holds
    obtain ⟨kube, id, located, carried, denied⟩ := holds
    exact ⟨kube, located, id, carried, denied⟩

theorem sealed_iff {row : Sandbox} : row.sealed = true ↔
    row.live = true ∧ row.lifecycle = .READY ∧ row.networkMode = .OFFLINE := by
  simp [Sandbox.sealed, and_assoc]

theorem kubeName_of_located
    (located : getNamespace s.kube.namespaces namespaceID = .ok ns) :
    s.kubeName namespaceID = some ns.kubeName ∧ ns.id = namespaceID := by
  obtain ⟨found, _⟩ := liveNamespace_eq_some.mp (getNamespace_eq_ok.mp located)
  rw [SandboxStore.kubeName, found]
  exact ⟨rfl, Keyed.key_of_lookup found⟩

variable {id : String}

section Labels

variable {remote : List RemoteSandbox} {clusterID : String} {spec : SandboxApplySpec}

theorem lookup_applySandbox (place : String × String × String) :
    Keyed.lookup RemoteSandbox.key (applySandbox remote clusterID spec) place =
      if place = (clusterID, spec.kubeNamespace, spec.name) then
        some (((Keyed.lookup RemoteSandbox.key remote place).getD
          ⟨clusterID, spec.kubeNamespace, spec.name, none, [], {}⟩).patched spec)
      else Keyed.lookup RemoteSandbox.key remote place := by
  unfold applySandbox
  cases found : Keyed.lookup RemoteSandbox.key remote (clusterID, spec.kubeNamespace, spec.name) with
  | some o =>
    rw [Keyed.lookup_amend (f := fun o : RemoteSandbox => o.patched spec) (fun _ => rfl)]
    split_ifs with same
    · rw [same, found]
      rfl
    · rfl
  | none =>
    rw [Keyed.lookup_append]
    by_cases same : place = (clusterID, spec.kubeNamespace, spec.name)
    · rw [if_pos same, same, found]
      simp [RemoteSandbox.key, RemoteSandbox.patched]
    · rw [if_neg same]
      simp [RemoteSandbox.key, Ne.symm same]

theorem remoteID_applySandbox_other
    (other : place ≠ (clusterID, spec.kubeNamespace, spec.name)) :
    remoteID (applySandbox remote clusterID spec) place = remoteID remote place := by
  rw [remoteID, lookup_applySandbox, if_neg other]
  rfl

theorem labels_patched (o : RemoteSandbox) (spec : SandboxApplySpec) :
    (o.patched spec).labels.lookup sandboxIDLabel =
      (spec.labels.lookup sandboxIDLabel).or (o.foreignLabels.lookup sandboxIDLabel) := by
  rw [RemoteSandbox.labels, List.lookup_append]
  cases given : spec.labels.lookup sandboxIDLabel with
  | some id => simp [RemoteSandbox.patched, given]
  | none =>
    have free : sandboxIDLabel ∉ spec.labels.map Prod.fst := by
      intro among
      obtain ⟨label, member, same⟩ := List.mem_map.mp among
      have other := List.lookup_eq_none_iff.mp given label member
      simp [same] at other
    have kept : (o.foreignLabels.filter fun label => label.1 ∉ spec.labels.map Prod.fst).lookup
        sandboxIDLabel = o.foreignLabels.lookup sandboxIDLabel := by
      induction o.foreignLabels with
      | nil => rfl
      | cons label rest ih =>
        by_cases same : sandboxIDLabel = label.1
        · rw [List.filter_cons_of_pos (by simpa [← same] using free)]
          rw [List.lookup_cons, List.lookup_cons, ih]
        · rw [List.filter_cons]
          split_ifs
          · rw [List.lookup_cons, List.lookup_cons, ih]
          · rw [ih, List.lookup_cons, beq_false_of_ne same]
    simp only [RemoteSandbox.patched, Option.elim_some, given, kept]

theorem remoteID_applied (labelled : spec.labels.lookup sandboxIDLabel = some id) :
    remoteID (applySandbox remote clusterID spec) (clusterID, spec.kubeNamespace, spec.name) =
      some id := by
  rw [remoteID, lookup_applySandbox, if_pos rfl, Option.bind_some, labels_patched, labelled]
  rfl

theorem remoteID_reapplied (same : spec.labels.lookup sandboxIDLabel =
    remoteID remote (clusterID, spec.kubeNamespace, spec.name)) (place : String × String × String) :
    remoteID (applySandbox remote clusterID spec) place = remoteID remote place := by
  by_cases here : place = (clusterID, spec.kubeNamespace, spec.name)
  · rw [here]
    cases carried : remoteID remote (clusterID, spec.kubeNamespace, spec.name) with
    | some id => exact remoteID_applied (same.trans carried)
    | none =>
      rw [remoteID, lookup_applySandbox, if_pos rfl, Option.bind_some, labels_patched, same,
        carried, Option.none_or]
      unfold remoteID at carried
      cases found : Keyed.lookup RemoteSandbox.key remote
          (clusterID, spec.kubeNamespace, spec.name) with
      | none => rfl
      | some o =>
        rw [found, Option.bind_some, RemoteSandbox.labels, List.lookup_append,
          Option.or_eq_none_iff] at carried
        exact carried.2
  · exact remoteID_applySandbox_other here

end Labels

section Policies

variable {row : Sandbox} {mode : SandboxNetworkMode} {ns : Namespace} {kubeNamespace : String}

theorem denies_iff : s.denies clusterID kubeNamespace id = true ↔ ∃ p ∈ s.policies,
      p.clusterID = clusterID ∧ p.kubeNamespace = kubeNamespace ∧ p.sandboxID = id := by
  simp [SandboxStore.denies, List.any_eq_true, and_assoc]

theorem denies_repoliced (member : p ∈ s.policies)
    (cluster : p.clusterID = clusterID) (space : p.kubeNamespace = kubeNamespace)
    (selects : p.sandboxID = id)
    (other : p.key ≠ (row.clusterID, ns.kubeName, egressPolicyName row.kubernetesName)) :
    (s.repoliced row mode ns).denies clusterID kubeNamespace id = true := by
  have kept : p ∈ Keyed.remove EgressPolicy.key s.policies
      (row.clusterID, ns.kubeName, egressPolicyName row.kubernetesName) :=
    List.mem_filter.mpr ⟨member, by simpa using other⟩
  refine denies_iff.mpr ⟨p, ?_, cluster, space, selects⟩
  cases mode with
  | OFFLINE => exact List.mem_append_left _ kept
  | ONLINE => exact kept

theorem denies_repoliced_offline :
    (s.repoliced row .OFFLINE ns).denies row.clusterID ns.kubeName row.id = true :=
  denies_iff.mpr ⟨⟨row.clusterID, ns.kubeName, egressPolicyName row.kubernetesName, row.id⟩,
    List.mem_append_right _ (List.mem_singleton.mpr rfl), rfl, rfl, rfl⟩

end Policies

section Steps

variable {base : SandboxStore} {now : Nat}

theorem mem_restamped (base : SandboxStore) (unique : base.UniqueIDs)
    (known : getSandbox base.sandboxes id = .ok found)
    (member : other ∈ (base.restamped found.id lifecycle extra now).sandboxes) :
    (other ∈ base.sandboxes ∧ other.id ≠ found.id) ∨
      other = found.transitioned lifecycle "" extra now := by
  obtain ⟨before, among, rfl⟩ := List.mem_map.mp member
  obtain ⟨lookup, _⟩ := getSandbox_eq_ok.mp known
  by_cases same : before.id = found.id
  · have lookup' : Keyed.lookup Sandbox.id base.sandboxes found.id = some found := by
      rw [Keyed.key_of_lookup lookup]
      exact lookup
    have before' := (Keyed.lookup_eq_some_iff unique).mpr ⟨among, same⟩
    obtain rfl := Option.some.inj (before'.symm.trans lookup')
    rw [if_pos rfl]
    exact .inr rfl
  · rw [if_neg same]
    exact .inl ⟨among, same⟩

theorem network_isolating (unique : base.UniqueIDs)
    (holds : Isolating base)
    (made : NetworkSet base s change text row mode ns now)
    (keeps : networkKeeps base mode row ns = true) : Isolating s := by
  obtain ⟨located, _⟩ := kubeName_of_located made.located
  simp only [networkKeeps, Bool.and_eq_true, Bool.or_eq_true, decide_eq_true_eq,
    List.all_eq_true, Bool.not_eq_true', or_assoc] at keeps
  obtain ⟨own, others⟩ := keeps
  rw [made.store]
  intro other member isSealed
  rcases mem_restamped (base.repoliced row mode ns) unique made.read.found member with
    ⟨among, different⟩ | same
  · obtain ⟨kube, id, space, carried, denied⟩ := isolates_iff.mp (holds other among isSealed)
    refine isolates_iff.mpr ⟨kube, id, space, carried, ?_⟩
    by_cases here : other.clusterID = row.clusterID ∧ kube = ns.kubeName
    · obtain ⟨cluster, rfl⟩ := here
      have besides := others other among
      simp only [isSealed, Bool.true_eq_false, different, cluster, ne_eq, not_true_eq_false, space,
        false_or] at besides
      rw [cluster] at carried ⊢
      rw [carried, Option.any_some] at besides
      obtain ⟨p, inside, holds⟩ := List.any_eq_true.mp besides
      simp only [Bool.and_eq_true, decide_eq_true_eq, and_assoc] at holds
      obtain ⟨cluster, space, name, selects⟩ := holds
      refine denies_repoliced inside cluster space selects fun same => ?_
      exact name (Prod.mk.inj (Prod.mk.inj same).2).2
    · obtain ⟨p, member, cluster, inside, selects⟩ := denies_iff.mp denied
      refine denies_repoliced member cluster inside selects fun same => here ?_
      have places := Prod.mk.inj same
      exact ⟨cluster.symm.trans places.1, inside.symm.trans (Prod.mk.inj places.2).1⟩
  · rw [same] at isSealed ⊢
    have offline : mode = .OFFLINE := (sealed_iff.mp isSealed).2.2
    rw [offline] at own ⊢
    have carried : remoteID base.remote (row.clusterID, ns.kubeName, row.kubernetesName) =
        some row.id := by simpa using own
    exact isolates_iff.mpr ⟨ns.kubeName, row.id, located, carried, denies_repoliced_offline⟩

theorem switch_isolating (unique : base.UniqueIDs)
    (holds : Isolating base)
    (made : SwitchSet J base s kind change row pod ns now)
    (keeps : switchKeeps base kind row ns = true) : Isolating s := by
  simp only [switchKeeps, Bool.and_eq_true, Bool.or_eq_true, decide_eq_true_eq, or_assoc] at keeps
  obtain ⟨label, resumed⟩ := keeps
  have reapplied : ∀ place, remoteID (applySandbox base.remote row.clusterID
      (row.applySpec J kind.mode ns pod)) place = remoteID base.remote place :=
    remoteID_reapplied label
  have stays {other : Sandbox} (isolated : base.isolates other = true) :
      (base.reapplied row.clusterID (row.applySpec J kind.mode ns pod)).isolates other = true := by
    obtain ⟨kube, id, space, carried, denied⟩ := isolates_iff.mp isolated
    exact isolates_iff.mpr ⟨kube, id, space, (reapplied _).trans carried, denied⟩
  rw [made.store]
  intro other member isSealed
  rcases mem_restamped (base.reapplied row.clusterID (row.applySpec J kind.mode ns pod))
    unique made.read.found member with ⟨among, _⟩ | same
  · exact stays (holds other among isSealed)
  · rw [same] at isSealed ⊢
    obtain ⟨_, ready, offline⟩ := sealed_iff.mp isSealed
    have offline' : row.networkMode = .OFFLINE := offline
    have resume : kind = .resume := by
      cases kind with
      | suspend => cases ready
      | resume => rfl
    rw [resume, offline'] at resumed
    have isolated : base.isolates row = true := by simpa using resumed
    exact stays isolated

theorem create_isolating (holds : Isolating base)
    (located : getNamespace base.kube.namespaces item.namespaceID = .ok ns)
    (made : SandboxCreated J base s item ns created pod now)
    (keeps : createKeeps base item ns = true) : Isolating s := by
  obtain ⟨space, _⟩ := kubeName_of_located located
  have carried : remoteID s.remote (created.clusterID, ns.kubeName, created.kubernetesName) =
      some item.id := by
    rw [made.remote]
    exact remoteID_applied made.stamped.label
  have kubeName : ∀ id, s.kubeName id = base.kubeName id := by
    intro id
    rw [SandboxStore.kubeName, made.namespaces]
    rfl
  have denies : ∀ c k id, s.denies c k id = base.denies c k id := by
    intro c k id
    rw [SandboxStore.denies, made.policies]
    rfl
  simp only [createKeeps, Bool.or_eq_true, Bool.and_eq_true, decide_eq_true_eq] at keeps
  intro other member isSealed
  rw [made.rows] at member
  obtain ⟨before, among, rfl⟩ := List.mem_map.mp member
  rcases List.mem_append.mp among with old | new
  · have different := Keyed.lookup_eq_none_iff.mp made.fresh before old
    rw [if_neg different] at isSealed ⊢
    obtain ⟨kube, id, located', carried', denied⟩ := isolates_iff.mp (holds before old isSealed)
    by_cases here : (before.clusterID, kube, before.kubernetesName) =
        (created.clusterID, ns.kubeName, created.kubernetesName)
    · obtain ⟨cluster, rest⟩ := Prod.mk.inj here
      obtain ⟨rfl, name⟩ := Prod.mk.inj rest
      have user : before ∈ base.users ns.clusterID ns.kubeName
          (if item.kubernetesName = "" then item.name else item.kubernetesName) := by
        rw [← made.stamped.kubernetesName, ← made.stamped.clusterID]
        exact List.mem_filter.mpr ⟨old, by simp [isSealed, cluster, located', name]⟩
      rcases keeps with denied' | ⟨_, none⟩
      · refine isolates_iff.mpr ⟨ns.kubeName, item.id, (kubeName _).trans located', ?_, ?_⟩
        · rw [here]
          exact carried
        · rw [denies, cluster, made.stamped.clusterID]
          exact denied'
      · rw [List.isEmpty_iff.mp none] at user
        cases user
    · refine isolates_iff.mpr ⟨kube, id, (kubeName _).trans located', ?_, (denies ..).trans denied⟩
      rw [made.remote, remoteID_applySandbox_other here]
      exact carried'
  · rw [List.mem_singleton.mp new, if_pos rfl] at isSealed ⊢
    have offline : created.networkMode = .OFFLINE := (sealed_iff.mp isSealed).2.2
    rcases keeps with denied | ⟨online, _⟩
    · refine isolates_iff.mpr ⟨ns.kubeName, item.id, ?_, carried, ?_⟩
      · exact (kubeName _).trans (made.stamped.namespaceID ▸ space)
      · rw [denies]
        exact made.stamped.clusterID ▸ denied
    · have parsed := made.stamped.networkMode
      rw [online, offline] at parsed
      cases parsed

theorem sync_isolating (holds : Isolating base)
    (located : getNamespace base.kube.namespaces namespaceID = .ok ns) (made : Synced base s ns)
    (keeps : syncKeeps base ns = true) : Isolating s := by
  obtain ⟨space, same⟩ := kubeName_of_located located
  intro row member isSealed
  obtain ⟨live, ready, offline⟩ := sealed_iff.mp isSealed
  have place : ∃ kube id, base.kubeName row.namespaceID = some kube ∧
      remoteID base.remote (row.clusterID, kube, row.kubernetesName) = some id ∧
      base.denies row.clusterID kube id = true := by
    rcases made.rows row member with ⟨old, known, kept⟩ | ⟨o, unlisted, space', cluster, name⟩
    · obtain ⟨oldLive, lifecycle⟩ := kept.live live
      have before := holds old known (sealed_iff.mpr
        ⟨oldLive, lifecycle.symm.trans ready, kept.networkMode.symm.trans offline⟩)
      rw [kept.namespaceID, kept.clusterID, kept.kubernetesName]
      exact isolates_iff.mp before
    · have covered := List.all_eq_true.mp keeps o unlisted
      simp only [SandboxStore.isolatedAt, Option.any_eq_true] at covered
      obtain ⟨id, carried, denied⟩ := covered
      rw [space', same, cluster, name]
      exact ⟨ns.kubeName, id, space, carried, denied⟩
  obtain ⟨kube, id, space', carried, denied⟩ := place
  refine isolates_iff.mpr ⟨kube, id, ?_, by rwa [made.remote], ?_⟩
  · rw [SandboxStore.kubeName, made.namespaces]
    exact space'
  · rw [SandboxStore.denies, made.policies]
    exact denied

theorem sandboxStep_unique (unique : base.UniqueIDs)
    (taken : sandboxStep J base call = some s) : s.UniqueIDs := by
  obtain ⟨request, answers⟩ := call
  cases request with
  | create request =>
    obtain ⟨item, ns, created, pod, now, _, made⟩ := createStep_effect taken
    have grown := (unique.insert made.fresh).amend (f := fun row =>
      row.transitioned .READY "" {} now) created.id fun _ => rfl
    rw [SandboxStore.UniqueIDs, made.rows]
    exact grown
  | switch kind change =>
    obtain ⟨row, pod, ns, now, made⟩ := switchStep_effect taken
    rw [made.store]
    exact SandboxStore.UniqueIDs.amend (s := base.reapplied _ _) unique row.id fun _ => rfl
  | network change text =>
    obtain ⟨row, mode, ns, now, made⟩ := networkStep_effect taken
    rw [made.store]
    exact SandboxStore.UniqueIDs.amend (s := base.repoliced _ _ _) unique row.id fun _ => rfl
  | sync namespaceID =>
    obtain ⟨ns, _, made⟩ := syncStep_effect taken
    exact made.unique unique

theorem sandboxStep_isolating (unique : base.UniqueIDs)
    (keeps : keepsIsolation base call.1 = true) (holds : Isolating base)
    (taken : sandboxStep J base call = some s) : Isolating s := by
  obtain ⟨request, answers⟩ := call
  cases request with
  | create request =>
    obtain ⟨item, ns, created, pod, now, asked, made⟩ := createStep_effect taken
    simp only [keepsIsolation, asked.given, Option.all_some, asked.located,
      Except.toOption] at keeps
    exact create_isolating holds asked.located made keeps
  | switch kind change =>
    obtain ⟨row, pod, ns, now, made⟩ := switchStep_effect taken
    simp only [keepsIsolation, made.read.found, Option.all_some, made.located,
      Except.toOption] at keeps
    exact switch_isolating unique holds made keeps
  | network change text =>
    obtain ⟨row, mode, ns, now, made⟩ := networkStep_effect taken
    simp only [keepsIsolation, made.read.found, made.read.parsed, Option.all_some, made.located,
      Except.toOption] at keeps
    exact network_isolating unique holds made keeps
  | sync namespaceID =>
    obtain ⟨ns, located, made⟩ := syncStep_effect taken
    simp only [keepsIsolation, located, Option.all_some, Except.toOption] at keeps
    exact sync_isolating holds located made keeps

end Steps

/-- In a run of calls that keep to the condition, every live READY row that is OFFLINE is
isolated whenever no call is in flight. -/
theorem offline_sandboxes_isolated (J : SandboxCodec) (start s : SandboxStore)
    (calls : List (SandboxRequest × List Answer)) (unique : start.UniqueIDs)
    (holds : Isolating start)
    (keeps : Transition.Guarded (sandboxStep J) (fun s call => keepsIsolation s call.1 = true)
      start calls)
    (ran : Transition.run (sandboxStep J) start calls = some s) : Isolating s := by
  have both : s.UniqueIDs ∧ Isolating s := by
    refine Transition.run_preserves (I := fun s => s.UniqueIDs ∧ Isolating s) ?_ ⟨unique, holds⟩
      keeps ran
    intro s call t keeps both taken
    exact ⟨sandboxStep_unique both.1 taken, sandboxStep_isolating both.1 keeps both.2 taken⟩
  exact both.2

def wordsCodec : SandboxCodec := ⟨fun _ => none, fun _ => ""⟩

def teamStore : SandboxStore where
  kube := {
    clusters := [{ id := "c1", orgID := "acme", name := "prod", serverURL := "https://kube" }]
    namespaces := [{
      id := "n1", clusterID := "c1", kubeName := "team", ownerType := "user", ownerID := "ada" }] }

def ada : Principal := { subjectType := "user", subjectID := "ada" }

def newWeb (networkMode : String) : SandboxRequest :=
  .create ⟨ada, some { id := "s1", namespaceID := "n1", name := "web", networkMode := networkMode }⟩

def cautiousCalls : List (SandboxRequest × List Answer) :=
  [(newWeb "ONLINE", List.replicate 7 {}),
    (.network ⟨ada, "s1", 2⟩ "OFFLINE", List.replicate 6 {}),
    (.switch .suspend ⟨ada, "s1", 3⟩, List.replicate 6 {}),
    (.switch .resume ⟨ada, "s1", 4⟩, List.replicate 6 {}),
    (.sync "n1", List.replicate 8 {})]

theorem cautious_run_isolated :
    ∃ s, Transition.run (sandboxStep wordsCodec) teamStore cautiousCalls = some s ∧
      (s.sandboxes.map Sandbox.sealed) = [true] ∧ Isolating s := by
  refine Transition.exists_run (P := fun s => s.sandboxes.map Sandbox.sealed = [true])
    (by decide +kernel) fun s ran sealedRows => ⟨sealedRows, ?_⟩
  exact offline_sandboxes_isolated wordsCodec teamStore s cautiousCalls List.nodup_nil
    (by simp [Isolating, teamStore]) (by decide +kernel) ran

/-- A sandbox created with the default mode promises isolation that no policy gives,
and so does an object that is imported. -/
theorem fresh_sandboxes_exposed :
    Isolating teamStore ∧
      (∃ s, Transition.run (sandboxStep wordsCodec) teamStore [(newWeb "", List.replicate 7 {})] =
        some s ∧ s.policies = [] ∧ ¬Isolating s) ∧
      ∃ s, Transition.run (sandboxStep wordsCodec)
        { teamStore with remote := [⟨"c1", "team", "batch", none, [], {}⟩] }
        [(.sync "n1", List.replicate 8 { uuid := "s2" })] = some s ∧ ¬Isolating s := by
  decide +kernel

end AisphereHub
