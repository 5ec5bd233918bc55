import AisphereHub.Proof.SandboxIsolation

/-! The names of the deny policies. The prefix takes 21 of the 63 characters a name may
have, so a policy name keeps the first 42 characters of the sandbox it belongs to. -/
namespace AisphereHub

open Keyed Transition

variable {J : SandboxCodec} {s t : SandboxStore} {A B : Sandbox} {ns : Namespace}

theorem egressPolicyName_eq (kubeName : String) : egressPolicyName kubeName =
    String.ofList ("aisphere-egress-deny-".toList ++ kubeName.toList.take 42) := by
  have cut : ∀ name : String, truncateDNS1123 name = String.ofList (name.toList.take 63) := by
    intro name
    unfold truncateDNS1123
    split_ifs with short
    · rw [List.take_of_length_le short, String.ofList_toList]
    · rfl
  have taken : ("aisphere-egress-deny-" ++ kubeName).toList.take 63 =
      "aisphere-egress-deny-".toList ++ kubeName.toList.take 42 := by
    rw [String.toList_append, List.take_append, List.take_of_length_le (by decide)]
    rfl
  rw [egressPolicyName, cut, taken]

theorem egressPolicyName_inj_iff {second : String} : egressPolicyName first = egressPolicyName second ↔
      first.toList.take 42 = second.toList.take 42 := by
  rw [egressPolicyName_eq, egressPolicyName_eq, String.ofList_inj, List.append_cancel_left_eq]

def NetworkCall (ids : List String) (call : SandboxRequest × List Answer) : Prop :=
  ∃ change text, call.1 = .network change text ∧ change.id ∈ ids

/-- No call on `B` changes whether `A` is denied, whatever is called before on either. -/
def NetworkApart (J : SandboxCodec) (s : SandboxStore) (A B : Sandbox) (kube : String) : Prop :=
  ∀ calls, (∀ call ∈ calls, NetworkCall [A.id, B.id] call) →
    Guarded (sandboxStep J) (fun s call => NetworkCall [B.id] call →
      ∀ t, sandboxStep J s call = some t →
        t.denies A.clusterID kube A.id = s.denies A.clusterID kube A.id) s calls

structure Sandbox.Keeps (row A : Sandbox) : Prop where
  id : row.id = A.id
  space : row.namespaceID = A.namespaceID
  cluster : row.clusterID = A.clusterID
  name : row.kubernetesName = A.kubernetesName
  lifecycle : row.lifecycle = A.lifecycle

def Callable (s : SandboxStore) (A : Sandbox) : Prop :=
  (A.lifecycle ≠ .DELETED ∧ A.lifecycle ≠ .TERMINATING) ∧
    ∃ cluster, getCluster s.kube.clusters A.clusterID = .ok cluster

structure Selects (A : Sandbox) (kube : String) (p : EgressPolicy) : Prop where
  cluster : p.clusterID = A.clusterID
  space : p.kubeNamespace = kube
  id : p.sandboxID = A.id

/-- A policy that no call on the two removes selects `A`. -/
def DeniedBesides (s : SandboxStore) (A B : Sandbox) (kube : String) : Prop :=
  ∃ p ∈ s.policies, Selects A kube p ∧ p.name ≠ egressPolicyName B.kubernetesName ∧
    (Callable s A → p.name ≠ egressPolicyName A.kubernetesName)

def NotDeniedBy (s : SandboxStore) (A B : Sandbox) (kube : String) : Prop :=
  ∀ p ∈ s.policies, Selects A kube p → p.name ≠ egressPolicyName B.kubernetesName

theorem getSandbox_restamped {id} :
    getSandbox (s.restamped id lifecycle extra now).sandboxes other =
      (getSandbox s.sandboxes other).map fun row =>
        if other = id then row.transitioned lifecycle "" extra now else row := by
  have keepsKey (row : Sandbox) : (row.transitioned lifecycle "" extra now).id = row.id := rfl
  have keepsLive (row : Sandbox) : (row.transitioned lifecycle "" extra now).live = row.live := rfl
  unfold getSandbox liveSandbox SandboxStore.restamped
  rw [select_amend _ keepsKey keepsLive]
  by_cases same : other = id
  · rw [if_pos same, same]
    cases select Sandbox.id Sandbox.live s.sandboxes id <;> simp [Except.map]
  · cases select Sandbox.id Sandbox.live s.sandboxes other <;> simp [Except.map, same]

theorem mem_repoliced : p ∈ (s.repoliced row mode ns).policies ↔ (p ∈ s.policies ∧
        p.key ≠ (row.clusterID, ns.kubeName, egressPolicyName row.kubernetesName)) ∨
      mode = .OFFLINE ∧
        p = ⟨row.clusterID, ns.kubeName, egressPolicyName row.kubernetesName, row.id⟩ := by
  cases mode with
  | ONLINE | OFFLINE => simp [SandboxStore.repoliced, applySandboxEgressPolicy, remove]

theorem denies_iff_selects :
    s.denies A.clusterID kube A.id = true ↔ ∃ p ∈ s.policies, Selects A kube p := by
  rw [denies_iff]
  constructor
  · intro denied
    obtain ⟨p, member, cluster, space, id⟩ := denied
    exact ⟨p, member, cluster, space, id⟩
  · intro denied
    obtain ⟨p, member, selects⟩ := denied
    exact ⟨p, member, selects.cluster, selects.space, selects.id⟩

theorem DeniedBesides.denies (besides : DeniedBesides s A B kube) :
    s.denies A.clusterID kube A.id = true := by
  obtain ⟨p, member, selects, _⟩ := besides
  exact denies_iff_selects.mpr ⟨p, member, selects⟩

structure Located (A : Sandbox) (ns : Namespace) (s : SandboxStore) : Prop where
  seat : ∀ row, getSandbox s.sandboxes A.id = .ok row → row.Keeps A
  space : getNamespace s.kube.namespaces A.namespaceID = .ok ns

theorem located_of_live (live : getSandbox s.sandboxes A.id = .ok A)
    (space : getNamespace s.kube.namespaces A.namespaceID = .ok ns) : Located A ns s where
  seat := by
    intro row found
    cases live.symm.trans found
    exact ⟨rfl, rfl, rfl, rfl, rfl⟩
  space := space

section Step

variable {call : SandboxRequest × List Answer} {ids : List String}

theorem kube_step (called : NetworkCall ids call) (taken : sandboxStep J s call = some t) :
    t.kube = s.kube := by
  obtain ⟨request, answers⟩ := call
  obtain ⟨change, text, rfl, _⟩ := called
  obtain ⟨row, mode, ns', now, made⟩ := networkStep_effect taken
  rw [made.store]
  rfl

theorem callable_step (called : NetworkCall ids call) (taken : sandboxStep J s call = some t) :
    Callable t A ↔ Callable s A := by
  rw [Callable, Callable, kube_step called taken]

theorem located_step (located : Located A ns s) (called : NetworkCall ids call)
    (taken : sandboxStep J s call = some t) : Located A ns t := by
  have kube := kube_step called taken
  obtain ⟨request, answers⟩ := call
  obtain ⟨change, text, rfl, _⟩ := called
  obtain ⟨row, mode, ns', now, made⟩ := networkStep_effect taken
  refine ⟨?_, kube ▸ located.space⟩
  intro after found
  rw [made.store, getSandbox_restamped] at found
  obtain ⟨before, known, rfl⟩ := map_eq_ok found
  have seat := located.seat before known
  split_ifs with same
  · -- the call wrote the lifecycle it had read
    have read := made.read.found
    rw [← key_of_lookup (getSandbox_eq_ok.mp read).1, ← same] at read
    cases known.symm.trans read
    exact ⟨seat.id, seat.space, seat.cluster, seat.name, seat.lifecycle⟩
  · exact seat

theorem policies_step (located : Located A ns s) (called : NetworkCall [A.id] call)
    (taken : sandboxStep J s call = some t) :
    Callable s A ∧ ∃ mode, t.policies = (s.repoliced A mode ns).policies := by
  obtain ⟨request, answers⟩ := call
  obtain ⟨change, text, rfl, among⟩ := called
  obtain ⟨row, mode, ns', now, made⟩ := networkStep_effect taken
  have found := made.read.found
  rw [List.mem_singleton.mp among] at found
  have seat := located.seat row found
  have same := made.located
  rw [seat.space, located.space] at same
  cases same
  refine ⟨⟨seat.lifecycle ▸ made.read.usable, seat.cluster ▸ made.hosted⟩, mode, ?_⟩
  rw [made.store]
  simp only [SandboxStore.restamped, SandboxStore.repoliced, seat.id, seat.cluster, seat.name]

theorem networkCall_cases
    (called : NetworkCall [A.id, B.id] call) : NetworkCall [A.id] call ∨ NetworkCall [B.id] call := by
  obtain ⟨change, text, request, among⟩ := called
  simp only [List.mem_cons, List.not_mem_nil, or_false] at among
  rcases among with isA | isB
  · exact .inl ⟨change, text, request, List.mem_singleton.mpr isA⟩
  · exact .inr ⟨change, text, request, List.mem_singleton.mpr isB⟩

theorem denies_step (atB : Located B ns s)
    (ids : A.id ≠ B.id) (clear : NotDeniedBy s A B ns.kubeName) (called : NetworkCall [B.id] call)
    (taken : sandboxStep J s call = some t) :
    t.denies A.clusterID ns.kubeName A.id = s.denies A.clusterID ns.kubeName A.id := by
  obtain ⟨_, mode, policies⟩ := policies_step atB called taken
  rw [Bool.eq_iff_iff, denies_iff_selects, denies_iff_selects, policies]
  constructor
  · intro denied
    obtain ⟨p, member, selects⟩ := denied
    rcases mem_repoliced.mp member with ⟨old, _⟩ | ⟨_, rfl⟩
    · exact ⟨p, old, selects⟩
    · exact absurd selects.id.symm ids
  · intro denied
    obtain ⟨p, member, selects⟩ := denied
    refine ⟨p, mem_repoliced.mpr (.inl ⟨member, ?_⟩), selects⟩
    intro same
    exact clear p member selects (Prod.mk.inj (Prod.mk.inj same).2).2

theorem besides_step (atA : Located A ns s) (atB : Located B ns s)
    (besides : DeniedBesides s A B ns.kubeName) (called : NetworkCall [A.id, B.id] call)
    (taken : sandboxStep J s call = some t) : DeniedBesides t A B ns.kubeName := by
  obtain ⟨p, member, selects, notB, notA⟩ := besides
  have stays {X : Sandbox} {mode : SandboxNetworkMode}
      (other : p.name ≠ egressPolicyName X.kubernetesName) :
      p ∈ (s.repoliced X mode ns).policies := by
    refine mem_repoliced.mpr (.inl ⟨member, ?_⟩)
    intro same
    exact other (Prod.mk.inj (Prod.mk.inj same).2).2
  refine ⟨p, ?_, selects, notB, fun callable => notA ((callable_step called taken).mp callable)⟩
  rcases networkCall_cases called with onA | onB
  · obtain ⟨callable, mode, policies⟩ := policies_step atA onA taken
    exact policies ▸ stays (notA callable)
  · obtain ⟨_, mode, policies⟩ := policies_step atB onB taken
    exact policies ▸ stays notB

end Step

theorem ada_canonical : canonicalSubject ada = .ok { type := "user", id := "ada" } := by
  decide +kernel

theorem network_succeeds (text : String) (mode : SandboxNetworkMode)
    (parsed : SandboxNetworkMode.ofString text = some mode)
    (found : getSandbox s.sandboxes row.id = .ok row) (callable : Callable s row)
    (located : getNamespace s.kube.namespaces row.namespaceID = .ok ns) :
    sandboxStep J s (.network ⟨ada, row.id, row.revision⟩ text, List.replicate 6 {}) =
      some ((s.repoliced row mode ns).restamped row.id row.lifecycle
        { networkMode := some mode, lastSyncAt := some 0 } 0) := by
  obtain ⟨usable, cluster, hosted⟩ := callable
  let stamped := fun row' : Sandbox => row'.transitioned row.lifecycle ""
    { networkMode := some mode, lastSyncAt := some 0 } 0
  have written : updateSandboxStatus s.sandboxes row.id row.lifecycle ""
      { networkMode := some mode, lastSyncAt := some 0 } 0 =
        .ok (amend Sandbox.id s.sandboxes row.id stamped, stamped row) :=
    updateSandboxStatus_eq_ok.mpr ⟨row, found, rfl, rfl⟩
  refine sandboxStep_eq_some.mpr ⟨.network (.returned (.ok (stamped row))), ?_, rfl⟩
  refine Option.filter_eq_some_iff.mpr ⟨?_, rfl⟩
  simp only [List.replicate, run, sandboxProgram, SandboxRequest.start, SandboxCall.next,
    NetworkModeCall.next, Answer.orFault, CheckAnswer.require, parsed, found, usable, or_self,
    if_false, ne_eq, not_true_eq_false, ada_canonical, located, hosted, written, Option.map_some,
    Option.bind_some]
  rfl

section Separate

variable (apart : NetworkApart J s A B ns.kubeName) (ids : A.id ≠ B.id)
  (liveB : getSandbox s.sandboxes B.id = .ok B) (callableB : Callable s B)
  (together : B.namespaceID = A.namespaceID ∧ B.clusterID = A.clusterID)
  (located : getNamespace s.kube.namespaces A.namespaceID = .ok ns)
include apart ids liveB callableB together located

theorem NetworkApart.at_once (member : q ∈ s.policies) (selects : Selects A ns.kubeName q) :
    ∃ p ∈ s.policies, Selects A ns.kubeName p ∧ p.name ≠ egressPolicyName B.kubernetesName := by
  have only := network_succeeds (J := J) "ONLINE" .ONLINE rfl liveB callableB (together.1 ▸ located)
  have onB : NetworkCall [B.id]
      (.network ⟨ada, B.id, B.revision⟩ "ONLINE", List.replicate 6 {}) :=
    ⟨_, _, rfl, List.mem_cons_self⟩
  have guarded := apart [(.network ⟨ada, B.id, B.revision⟩ "ONLINE", List.replicate 6 {})] (by
    intro call listed
    cases List.mem_singleton.mp listed
    exact ⟨_, _, rfl, List.mem_cons_of_mem _ List.mem_cons_self⟩)
  have kept := guarded.1 onB _ only
  obtain ⟨p, after, selects⟩ := denies_iff_selects.mp
    (kept.trans (denies_iff_selects.mpr ⟨q, member, selects⟩))
  have after : p ∈ (s.repoliced B .ONLINE ns).policies := after
  rcases mem_repoliced.mp after with ⟨old, key⟩ | ⟨_, rfl⟩
  · refine ⟨p, old, selects, fun same => key ?_⟩
    rw [EgressPolicy.key, selects.cluster, selects.space, same, together.2]
  · exact absurd selects.id ids.symm

variable (liveA : getSandbox s.sandboxes A.id = .ok A) (callableA : Callable s A)
include liveA callableA

theorem NetworkApart.after_first (text : String) (mode : SandboxNetworkMode)
    (parsed : SandboxNetworkMode.ofString text = some mode)
    (member : q ∈ (s.repoliced A mode ns).policies) (selects : Selects A ns.kubeName q) :
    ∃ p ∈ (s.repoliced A mode ns).policies, Selects A ns.kubeName p ∧
      p.name ≠ egressPolicyName B.kubernetesName := by
  have first := network_succeeds (J := J) text mode parsed liveA callableA located
  have later : NetworkApart J ((s.repoliced A mode ns).restamped A.id A.lifecycle
      { networkMode := some mode, lastSyncAt := some 0 } 0) A B ns.kubeName := by
    intro calls each
    refine (apart ((.network ⟨ada, A.id, A.revision⟩ text, List.replicate 6 {}) :: calls) ?_).2 _ first
    intro call listed
    rcases List.mem_cons.mp listed with rfl | listed
    · exact ⟨_, _, rfl, List.mem_cons_self⟩
    · exact each call listed
  have known : getSandbox (s.repoliced A mode ns).sandboxes B.id = .ok B := liveB
  refine later.at_once ids ?_ callableB together located member selects
  rw [getSandbox_restamped, known, Except.map, if_neg (Ne.symm ids)]

theorem NetworkApart.besides_of_shared
    (shared : egressPolicyName A.kubernetesName = egressPolicyName B.kubernetesName) :
    DeniedBesides s A B ns.kubeName := by
  -- the call that takes `B` ONLINE removes the policy `A` has just been given
  obtain ⟨p, member, selects, notB⟩ := apart.after_first ids liveB callableB together located liveA
    callableA "OFFLINE" .OFFLINE rfl (mem_repoliced.mpr (.inr ⟨rfl, rfl⟩)) ⟨rfl, rfl, rfl⟩
  rcases mem_repoliced.mp member with ⟨old, _⟩ | ⟨_, rfl⟩
  · exact ⟨p, old, selects, notB, fun _ => shared ▸ notB⟩
  · exact absurd shared notB

/-- A policy of `B` that selects `A` is the only one left once `A` is ONLINE, unless there is
one that no call removes. -/
theorem NetworkApart.besides_of_selected (among : q ∈ s.policies)
    (selected : Selects A ns.kubeName q) (name : q.name = egressPolicyName B.kubernetesName)
    (names : egressPolicyName A.kubernetesName ≠ egressPolicyName B.kubernetesName) :
    DeniedBesides s A B ns.kubeName := by
  have stays : q.key ≠ (A.clusterID, ns.kubeName, egressPolicyName A.kubernetesName) := by
    intro key
    exact names ((Prod.mk.inj (Prod.mk.inj key).2).2.symm.trans name)
  obtain ⟨p, member, selects, notB⟩ := apart.after_first ids liveB callableB together located liveA
    callableA "ONLINE" .ONLINE rfl (mem_repoliced.mpr (.inl ⟨among, stays⟩)) selected
  rcases mem_repoliced.mp member with ⟨old, notA⟩ | ⟨offline, _⟩
  · refine ⟨p, old, selects, notB, ?_⟩
    intro _ nameA
    apply notA
    rw [EgressPolicy.key, selects.cluster, selects.space, nameA]
  · cases offline

end Separate

section Kept

variable (atA : Located A ns s) (atB : Located B ns s)
include atB

theorem networkApart_of_uncallable (fixed : ¬Callable s B) : NetworkApart J s A B ns.kubeName := by
  intro calls each
  refine guarded_of_invariant (I := fun s => Located B ns s ∧ ¬Callable s B) ?_ ?_
    ⟨atB, fixed⟩ (guarded_of_forall (sandboxStep J) s each)
  · intro s call own _ called t taken
    exact absurd (policies_step own.1 called taken).1 own.2
  · intro s call t called own taken
    exact ⟨located_step own.1 called taken, own.2 ∘ (callable_step called taken).mp⟩

include atA

theorem networkApart_of_clear (ids : A.id ≠ B.id) (clear : NotDeniedBy s A B ns.kubeName)
    (names : Callable s A → egressPolicyName A.kubernetesName ≠ egressPolicyName B.kubernetesName) :
    NetworkApart J s A B ns.kubeName := by
  intro calls each
  refine guarded_of_invariant (I := fun s => (Located A ns s ∧ Located B ns s) ∧
    NotDeniedBy s A B ns.kubeName ∧ (Callable s A →
      egressPolicyName A.kubernetesName ≠ egressPolicyName B.kubernetesName)) ?_ ?_
    ⟨⟨atA, atB⟩, clear, names⟩ (guarded_of_forall (sandboxStep J) s each)
  · intro s call own _ called t taken
    exact denies_step own.1.2 ids own.2.1 called taken
  · intro s call t called own taken
    obtain ⟨⟨atA, atB⟩, clear, names⟩ := own
    refine ⟨⟨located_step atA called taken, located_step atB called taken⟩, ?_,
      names ∘ (callable_step called taken).mp⟩
    intro p member selects
    rcases networkCall_cases called with onA | onB
    · obtain ⟨callable, mode, policies⟩ := policies_step atA onA taken
      rw [policies] at member
      rcases mem_repoliced.mp member with ⟨old, _⟩ | ⟨_, rfl⟩
      · exact clear p old selects
      · exact names callable
    · obtain ⟨_, mode, policies⟩ := policies_step atB onB taken
      rw [policies] at member
      rcases mem_repoliced.mp member with ⟨old, _⟩ | ⟨_, rfl⟩
      · exact clear p old selects
      · exact absurd selects.id.symm ids

theorem networkApart_of_besides (besides : DeniedBesides s A B ns.kubeName) :
    NetworkApart J s A B ns.kubeName := by
  intro calls each
  refine guarded_of_invariant (I := fun s => (Located A ns s ∧ Located B ns s) ∧
    DeniedBesides s A B ns.kubeName) ?_ ?_ ⟨⟨atA, atB⟩, besides⟩
    (guarded_of_forall (sandboxStep J) s each)
  · intro s call own called _ t taken
    rw [own.2.denies, (besides_step own.1.1 own.1.2 own.2 called taken).denies]
  · intro s call t called own taken
    obtain ⟨⟨atA, atB⟩, besides⟩ := own
    exact ⟨⟨located_step atA called taken, located_step atB called taken⟩,
      besides_step atA atB besides called taken⟩

end Kept

/-- Calls on `B` leave `A` alone exactly when none can succeed, when the policy of `B` does
not select `A` at the start and cannot come to, the two names differing within their first
42 characters, or when a policy that no call removes selects `A`. -/
theorem network_modes_apart_iff (J : SandboxCodec) (s : SandboxStore) (A B : Sandbox)
    (ns : Namespace)
    (liveA : getSandbox s.sandboxes A.id = .ok A) (liveB : getSandbox s.sandboxes B.id = .ok B)
    (together : B.namespaceID = A.namespaceID ∧ B.clusterID = A.clusterID)
    (located : getNamespace s.kube.namespaces A.namespaceID = .ok ns)
    (different : A.kubernetesName ≠ B.kubernetesName) :
    NetworkApart J s A B ns.kubeName ↔ ¬Callable s B ∨
      (NotDeniedBy s A B ns.kubeName ∧ (Callable s A →
        A.kubernetesName.toList.take 42 ≠ B.kubernetesName.toList.take 42)) ∨
      DeniedBesides s A B ns.kubeName := by
  have ids : A.id ≠ B.id := by
    intro same
    rw [← same, liveA] at liveB
    exact different (congrArg Sandbox.kubernetesName (Except.ok.inj liveB))
  have atA := located_of_live liveA located
  have atB := located_of_live liveB (together.1 ▸ located)
  rw [ne_eq, ← egressPolicyName_inj_iff]
  constructor
  · intro apart
    by_cases callableB : Callable s B
    swap
    · exact .inl callableB
    refine .inr ?_
    by_cases clear : NotDeniedBy s A B ns.kubeName
    · by_cases shared : Callable s A ∧
        egressPolicyName A.kubernetesName = egressPolicyName B.kubernetesName
      · exact .inr (apart.besides_of_shared ids liveB callableB together located liveA shared.1
          shared.2)
      · exact .inl ⟨clear, fun callableA equal => shared ⟨callableA, equal⟩⟩
    · simp only [NotDeniedBy, not_forall, not_not] at clear
      obtain ⟨q, among, selected, name⟩ := clear
      refine .inr ?_
      by_cases moves : Callable s A ∧
        egressPolicyName A.kubernetesName ≠ egressPolicyName B.kubernetesName
      · exact apart.besides_of_selected ids liveB callableB together located liveA moves.1 among
          selected name moves.2
      · obtain ⟨p, member, selects, notB⟩ := apart.at_once ids liveB callableB together located
          among selected
        refine ⟨p, member, selects, notB, ?_⟩
        intro callableA nameA
        exact moves ⟨callableA, fun names => notB (nameA.trans names)⟩
  · intro condition
    rcases condition with fixed | ⟨clear, names⟩ | besides
    · exact networkApart_of_uncallable atB fixed
    · exact networkApart_of_clear atA atB ids clear names
    · exact networkApart_of_besides atA atB besides

def nightly (id name : String) : Sandbox :=
  { id := id, namespaceID := "n1", clusterID := "c1", name := name, kubernetesName := name,
    lifecycle := .READY }

def pairStore (first second : Sandbox) : SandboxStore :=
  { teamStore with sandboxes := [first, second] }

theorem web_and_batch_apart :
    "web".toList.take 42 ≠ "batch".toList.take 42 ∧
      NetworkApart wordsCodec (pairStore (nightly "s1" "web") (nightly "s2" "batch")) (nightly "s1" "web")
        (nightly "s2" "batch") "team" := by
  have names : "web".toList.take 42 ≠ "batch".toList.take 42 := by decide
  obtain ⟨ns, located, kube⟩ : ∃ ns, getNamespace teamStore.kube.namespaces "n1" = .ok ns ∧
      ns.kubeName = "team" := ⟨_, rfl, rfl⟩
  rw [← kube]
  refine ⟨names, (network_modes_apart_iff wordsCodec
    (pairStore (nightly "s1" "web") (nightly "s2" "batch")) (nightly "s1" "web")
    (nightly "s2" "batch") ns rfl rfl ⟨rfl, rfl⟩ located (by decide)).mpr
      (.inr (.inl ⟨?_, fun _ => names⟩))⟩
  intro p member
  cases member

def runsA : Sandbox := nightly "s1" "research-notebooks-quarterly-forecast-runs-a"

def runsB : Sandbox := nightly "s2" "research-notebooks-quarterly-forecast-runs-b"

def takeOffline : SandboxRequest × List Answer :=
  (.network ⟨ada, "s1", 1⟩ "OFFLINE", List.replicate 6 {})

def takeOnline : SandboxRequest × List Answer :=
  (.network ⟨ada, "s2", 1⟩ "ONLINE", List.replicate 6 {})

/-- Two labels that agree in their first 42 characters: taking the second sandbox ONLINE
removes the policy of the first. -/
theorem long_names_share_policy :
    isDNS1123Label runsA.kubernetesName = true ∧ isDNS1123Label runsB.kubernetesName = true ∧
      runsA.kubernetesName ≠ runsB.kubernetesName ∧
      ∃ s t, sandboxStep wordsCodec (pairStore runsA runsB) takeOffline = some s ∧
        sandboxStep wordsCodec s takeOnline = some t ∧
        s.denies "c1" "team" "s1" = true ∧ t.denies "c1" "team" "s1" = false := by
  simp only [exists_and_left]
  decide +kernel

end AisphereHub
