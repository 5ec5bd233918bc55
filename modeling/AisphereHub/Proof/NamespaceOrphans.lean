import AisphereHub.Biz.ClusterDeletion
import AisphereHub.Proof.CreationFailure

/-! Namespaces created while their cluster is deleted. -/
namespace AisphereHub

open Transition Threads

abbrev TenancyPool := Pool KubeStore (TenancyRequest × TenancyCall)

def hasNamespace (s : KubeStore) (clusterID : String) : Bool :=
  s.namespaces.any fun ns => ns.clusterID = clusterID && ns.live

def clusterGone (s : KubeStore) (id : String) : Bool :=
  (Keyed.lookup Cluster.id s.clusters id).any fun c => !c.live

def TenancyRequest.detaches (id : String) : TenancyRequest → Bool
  | .create _ => false
  | .delete r => r.id = id && r.permissive

def detached (p : TenancyPool) (id : String) : Bool :=
  (p.threads.map Prod.fst).any (TenancyRequest.detaches id)

/-- A call that has counted the namespaces of the cluster, and would not leave any behind. -/
def TenancyCall.strict (id : String) : TenancyCall → Bool
  | .delete (.softDelete r _) => r.id = id && !r.permissive
  | _ => false

def TenancyCall.inserting : TenancyCall → Option String
  | .create (.insert ns _) => some ns.clusterID
  | _ => none

/-- A namespace is inserted only while its cluster is not deleted, unless under a permissive
policy, and while no other deletion of the cluster has counted without it. -/
def InsertsUncounted (p : TenancyPool) : Action TenancyRequest Answer → Prop
  | .call _ => True
  | .advance n _ => ∀ t ∈ p.threads[n]?, ∀ id ∈ t.2.inserting,
      (clusterGone p.shared id = true → detached p id = true) ∧
        ∀ u ∈ p.threads, u.2.strict id = false

def DeleteClusterCall.request : DeleteClusterCall → Option DeleteClusterRequest
  | .authorize r => some r
  | .count r => some r
  | .softDelete r _ => some r
  | .revoke r _ => some r
  | .invalidate r _ => some r
  | .cleanup r => some r
  | .returned _ => none

/-- What holds of every pool: its orphans are detached, and a deletion under any other policy
that is about to mark the row leaves no namespace behind. -/
structure OrphansAccounted (p : TenancyPool) : Prop where
  orphans : ∀ id, hasNamespace p.shared id = true → clusterGone p.shared id = true →
    detached p id = true
  made : ∀ t ∈ p.threads, ∀ call, t.2 = .delete call → ∀ r ∈ call.request, t.1 = .delete r
  counted : ∀ t ∈ p.threads, ∀ id, t.2.strict id = true → hasNamespace p.shared id = false

section

variable {K : Kubernetesx} {s s' : KubeStore} {a : Answer}

theorem hasNamespace_eq_true {id} :
    hasNamespace s id = true ↔ ∃ ns ∈ s.namespaces, ns.clusterID = id ∧ ns.live = true := by
  simp [hasNamespace]

theorem creation_effect (taken : call.next K s a = some (s', call')) :
    s'.clusters = s.clusters ∧ ∀ id, hasNamespace s' id = true →
      hasNamespace s id = true ∨ (TenancyCall.create call).inserting = some id := by
  cases call with simp only [CreateNamespaceCall.next, reduceCtorEq] at taken
  | insert ns subject =>
    split at taken <;> cases taken
    · exact ⟨rfl, fun _ => .inl⟩
    · rename_i rows inserted
      obtain ⟨_, rfl⟩ := insertNamespace_eq_ok (orFault_eq_ok.mp inserted).2
      refine ⟨rfl, fun id has => ?_⟩
      obtain ⟨x, member, cluster, live⟩ := hasNamespace_eq_true.mp has
      rcases List.mem_append.mp member with old | new
      · exact .inl (hasNamespace_eq_true.mpr ⟨x, old, cluster, live⟩)
      · cases List.mem_singleton.mp new
        exact .inr (congrArg some cluster)
  | fail created failure | giveUp created code message | finish created =>
    split at taken <;> cases taken
    · exact ⟨rfl, fun _ => .inl⟩
    · rename_i rows updated marked
      obtain ⟨_, _, _, rfl, _⟩ :=
        Keyed.update_eq_some.mp (affected_eq_ok.mp (orFault_eq_ok.mp marked).2)
      refine ⟨rfl, fun _ has => .inl (hasNamespace_eq_true.mpr ?_)⟩
      obtain ⟨ns, member, cluster, live⟩ := hasNamespace_eq_true.mp has
      rcases Keyed.mem_amend member with ⟨old, _⟩ | ⟨r, old, _, rfl⟩
      · exact ⟨ns, old, cluster, live⟩
      · exact ⟨r, old, cluster, live⟩
  | authorize request | relate created subject | revoke created failure | load created
  | build created cluster | apply created client =>
    split at taken <;> cases taken <;> exact ⟨rfl, fun _ => .inl⟩

/-- What a step of a deletion does: only one of them marks a row, and it follows a count. -/
structure DeletionEffect (s : KubeStore) (call : DeleteClusterCall) (s' : KubeStore)
    (call' : DeleteClusterCall) : Prop where
  namespaces : s'.namespaces = s.namespaces
  gone : ∀ id, clusterGone s' id = true →
    clusterGone s id = true ∨ ∃ r n, call = .softDelete r n ∧ r.id = id
  request : ∀ r ∈ call'.request, r ∈ call.request
  counted : ∀ id, (TenancyCall.delete call').strict id = true → hasNamespace s id = false

theorem count_eq_zero {id} (zero : countNamespacesForCluster s.namespaces id = 0) :
    hasNamespace s id = false := by
  rw [countNamespacesForCluster, List.countP_eq_zero] at zero
  rw [hasNamespace, List.any_eq_false]
  exact zero

theorem deletion_effect
    (taken : call.next s a = some (s', call')) : DeletionEffect s call s' call' := by
  cases call with simp only [DeleteClusterCall.next, reduceCtorEq] at taken
  | count r =>
    split at taken
    · cases taken
      exact ⟨rfl, fun _ => .inl, by simp [DeleteClusterCall.request], by simp [TenancyCall.strict]⟩
    · rename_i nsCount counted
      cases (orFault_eq_ok.mp counted).2
      split_ifs at taken with blocked <;> cases taken
      · exact ⟨rfl, fun _ => .inl, by simp [DeleteClusterCall.request],
          by simp [TenancyCall.strict]⟩
      · refine ⟨rfl, fun _ => .inl, fun _ => id, fun id strict => ?_⟩
        simp only [TenancyCall.strict, Bool.and_eq_true, decide_eq_true_eq,
          Bool.not_eq_true'] at strict
        obtain ⟨rfl, permissive⟩ := strict
        rw [not_and, permissive, eq_self, not_true] at blocked
        exact count_eq_zero (Nat.eq_zero_of_not_pos blocked)
  | softDelete r nsCount =>
    split at taken <;> cases taken
    · exact ⟨rfl, fun _ => .inl, by simp [DeleteClusterCall.request], by simp [TenancyCall.strict]⟩
    · rename_i rows deleted marked
      refine ⟨rfl, fun id gone => ?_, fun _ => id, by simp [TenancyCall.strict]⟩
      by_cases same : id = r.id
      · exact .inr ⟨r, nsCount, rfl, same.symm⟩
      · rw [clusterGone, softDeleteCluster_eq_ok (orFault_eq_ok.mp marked).2,
          Keyed.lookup_amend (f := fun c : Cluster => c.softDeleted a.now) (fun _ => rfl),
          if_neg same] at gone
        exact .inl gone
  | authorize r | revoke r nsCount =>
    split at taken <;> cases taken <;>
      exact ⟨rfl, fun _ => .inl, by simp [DeleteClusterCall.request], by simp [TenancyCall.strict]⟩
  | invalidate r nsCount =>
    cases taken
    refine ⟨rfl, fun _ => .inl, ?_, ?_⟩ <;> split_ifs <;>
      simp [DeleteClusterCall.request, TenancyCall.strict]
  | cleanup r =>
    cases taken
    exact ⟨rfl, fun _ => .inl, by simp [DeleteClusterCall.request], by simp [TenancyCall.strict]⟩

end

/-- What a step of one call has to show: it orphans no namespace that is not detached, and gives
none to a cluster that another call has counted. -/
theorem OrphansAccounted.advance (before : OrphansAccounted p)
    (found : p.threads[n]? = some t) (same : t'.1 = t.1)
    (orphans : ∀ id, hasNamespace s' id = true → clusterGone s' id = true → detached p id = true)
    (made : ∀ call, t'.2 = .delete call → ∀ r ∈ call.request, t.1 = .delete r)
    (spared : ∀ u ∈ p.threads, ∀ id, u.2.strict id = true → hasNamespace s' id = true →
      hasNamespace p.shared id = true)
    (counted : ∀ id, t'.2.strict id = true → hasNamespace s' id = false) :
    OrphansAccounted ⟨s', p.threads.set n t'⟩ := by
  refine ⟨fun id has gone => ?_, fun u inside => ?_, fun u inside id strict => ?_⟩
  · rw [detached, map_fst_set found same]
    exact orphans id has gone
  · rcases List.mem_or_eq_of_mem_set inside with old | rfl
    · exact before.made u old
    · rwa [same]
  · rcases List.mem_or_eq_of_mem_set inside with old | rfl
    · rw [← Bool.not_eq_true]
      intro has
      have already := spared u old id strict has
      rw [before.counted u old id strict] at already
      cases already
    · exact counted id strict

theorem OrphansAccounted.call (before : OrphansAccounted p) (request : TenancyRequest) :
    OrphansAccounted { p with threads := p.threads ++ [(tenancyProgram K).tagged.start request] } := by
  refine ⟨fun id has gone => ?_, fun t member => ?_, fun t member => ?_⟩
  · have held := before.orphans id has gone
    rw [detached] at held ⊢
    rw [List.map_append, List.any_append, held, Bool.true_or]
  · rcases List.mem_append.mp member with old | new
    · exact before.made t old
    · cases List.mem_singleton.mp new
      cases request with
      | create request => exact fun call made => by cases made
      | delete request =>
        rintro _ ⟨⟩ r made
        exact congrArg TenancyRequest.delete (Option.some.inj made)
  · rcases List.mem_append.mp member with old | new
    · exact before.counted t old
    · cases List.mem_singleton.mp new
      cases request <;> exact fun _ strict => by cases strict

theorem OrphansAccounted.step (p : TenancyPool)
    (action : Action TenancyRequest Answer) (q : TenancyPool)
    (permitted : InsertsUncounted p action) (before : OrphansAccounted p)
    (taken : (tenancyProgram K).tagged.step p action = some q) : OrphansAccounted q := by
  cases action with
  | call request =>
    cases taken
    exact before.call request
  | advance n answer =>
    obtain ⟨t, s', t', found, next, rfl⟩ := step_advance.mp taken
    obtain ⟨next, same⟩ := tagged_next.mp next
    have member : t ∈ p.threads := List.mem_of_getElem? found
    cases held : t.2 with
    | create call =>
      rw [held] at next
      obtain ⟨call', inner, after⟩ := lifted_step next
      obtain ⟨clusters, grown⟩ := creation_effect inner
      refine before.advance found same (fun id has gone => ?_) ?_ (fun u old id strict has => ?_) ?_
      · rw [clusterGone, clusters] at gone
        rcases grown id has with already | new
        · exact before.orphans id already gone
        · exact (permitted t found id (held ▸ new)).1 gone
      · rw [after]
        exact fun _ made => by cases made
      · rcases grown id has with already | new
        · exact already
        · rw [(permitted t found id (held ▸ new)).2 u old] at strict
          cases strict
      · rw [after]
        exact fun _ strict => by cases strict
    | delete call =>
      rw [held] at next
      obtain ⟨call', inner, after⟩ := lifted_step next
      have effect := deletion_effect inner
      have namespaces : ∀ id, hasNamespace s' id = hasNamespace p.shared id := by
        intro id
        rw [hasNamespace, effect.namespaces, hasNamespace]
      refine before.advance found same (fun id has gone => ?_) ?_ ?_ (fun id strict => ?_)
      · rw [namespaces] at has
        rcases effect.gone id gone with already | ⟨r, nsCount, rfl, rfl⟩
        · exact before.orphans id has already
        · have tag := before.made t member _ held r rfl
          cases permissive : r.permissive with
          | true =>
            rw [detached, List.any_map, List.any_eq_true]
            exact ⟨t, member, by simp [tag, TenancyRequest.detaches, permissive]⟩
          | false =>
            have none := before.counted t member r.id (by simp [held, TenancyCall.strict, permissive])
            rw [none] at has
            cases has
      · rw [after]
        rintro _ ⟨⟩ r made
        exact before.made t member call held r (effect.request r made)
      · exact fun _ _ id _ has => namespaces id ▸ has
      · rw [namespaces]
        exact effect.counted id (after ▸ strict)

/-- From a store without orphans, every run in which namespaces are inserted only while their
cluster is there and no deletion has counted without them: a live namespace of a deleted
cluster is one that some deletion was told to leave behind. -/
theorem orphans_detached (K : Kubernetesx) (s : KubeStore)
    (start : ∀ id, hasNamespace s id = true → clusterGone s id = false)
    (actions : List (Action TenancyRequest Answer)) (q : TenancyPool)
    (guarded : Guarded (tenancyProgram K).tagged.step InsertsUncounted ⟨s, []⟩ actions)
    (ran : run (tenancyProgram K).tagged.step ⟨s, []⟩ actions = some q)
    (ns : Namespace) (member : ns ∈ q.shared.namespaces) (live : ns.live = true)
    (gone : clusterGone q.shared ns.clusterID = true) : detached q ns.clusterID = true := by
  have initially : OrphansAccounted ⟨s, []⟩ := by
    refine ⟨fun id has gone => ?_, by simp, by simp⟩
    rw [start id has] at gone
    cases gone
  have after := run_preserves OrphansAccounted.step initially guarded ran
  exact after.orphans _ (hasNamespace_eq_true.mpr ⟨ns, member, rfl, live⟩) gone

instance (p : TenancyPool) (action : Action TenancyRequest Answer) :
    Decidable (InsertsUncounted p action) :=
  match action with
  | .call _ => isTrue trivial
  | .advance n _ => inferInstanceAs (Decidable (∀ t ∈ p.threads[n]?, ∀ id ∈ t.2.inserting, _ ∧ _))

def deleteHost (deletePolicy : String) : TenancyRequest :=
  .delete ⟨⟨"user", "alice", ""⟩, "cl-0", deletePolicy⟩

def createAndDelete (deletePolicy : String) (order : List Nat) :
    List (Action TenancyRequest Answer) :=
  .call (.create (createTeam "ns-1")) :: .call (deleteHost deletePolicy) ::
    order.map fun n => .advance n {}

theorem detached_namespace_stays : ∃ q : TenancyPool,
    run (tenancyProgram trustingKubernetesx).tagged.step ⟨hostStore, []⟩
      (createAndDelete "DETACH_ONLY" [0, 0, 0, 0, 0, 0, 1, 1, 1, 1, 1]) = some q ∧
    ∃ ns ∈ q.shared.namespaces, ns.live = true ∧ clusterGone q.shared ns.clusterID = true ∧
      detached q ns.clusterID = true := by
  refine exists_run (P := fun q => ∃ ns ∈ q.shared.namespaces, ns.live = true ∧
      clusterGone q.shared ns.clusterID = true) (by decide +kernel) fun q ran facts => ?_
  obtain ⟨ns, member, live, gone⟩ := facts
  exact ⟨ns, member, live, gone, orphans_detached trustingKubernetesx hostStore
    (by simp [hasNamespace, hostStore]) _ q (by decide +kernel) ran ns member live gone⟩

/-- The permission is checked, the cluster without namespaces is deleted, and the row inserted. -/
theorem insertion_orphaned : ∃ q : TenancyPool,
    run (tenancyProgram trustingKubernetesx).tagged.step ⟨hostStore, []⟩
      (createAndDelete "" [0, 1, 1, 1, 1, 1, 0, 0, 0, 0]) = some q ∧
    (tenancyProgram trustingKubernetesx).tagged.quiescent q = true ∧
    (∃ ns ∈ q.shared.namespaces, ns.live = true ∧ clusterGone q.shared ns.clusterID = true) ∧
    detached q "cl-0" = false := by
  decide +kernel

end AisphereHub
