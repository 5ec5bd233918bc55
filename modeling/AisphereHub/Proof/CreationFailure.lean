import AisphereHub.Biz.ClusterCreation
import AisphereHub.Biz.NamespaceCreation

/-! What a creation that returns an error leaves behind. The history variable is
the list of the call's steps whose dependency failed. -/
namespace AisphereHub

open Keyed
open GoStrings (trimSpace)

variable {s : KubeStore} {τ : Type} {request : CreateClusterRequest} {c : Cluster}

def Answer.faulty (a : Answer) : Bool :=
  a.fault.isSome || a.factoryFault.isSome ||
    match a.check with
    | .failed _ => true
    | _ => false

variable {a : Answer}

def failedStep {τ : Type} (_ : KubeStore) (t : τ) (a : Answer) : Option τ :=
  if a.faulty then some t else none

variable {t : τ} {failures : List τ}

theorem faultless_after (member : u ∈ failures)
    (single : (failures ++ (failedStep s t a).toList).length ≤ 1) :
    a.fault = none ∧ failures ++ (failedStep s t a).toList = failures := by
  by_cases faulty : a.faulty = true
  · have nonempty : 0 < failures.length := List.length_pos_of_mem member
    simp only [failedStep, faulty, if_true, Option.toList_some, List.length_append,
      List.length_singleton] at single
    omega
  · refine ⟨?_, by simp [failedStep, faulty]⟩
    by_contra failed
    exact faulty (by simp [Answer.faulty, Option.isSome_iff_ne_none.mpr failed])

/-- Two valid relationships are refused only by a fault, so the step is recorded. -/
theorem refusal_recorded
    (validR : validateRelationship r = .ok ()) (validQ : validateRelationship q = .ok ())
    (refused : writeRelationships tuples [r, q] a.fault = .error e) :
    t ∈ failures ++ (failedStep s t a).toList := by
  cases fault : a.fault with
  | none =>
    simp [writeRelationships, List.forM_cons, validR, validQ, bind, Except.bind, pure,
      Except.pure, fault] at refused
  | some cause => simp [failedStep, Answer.faulty, fault]

theorem eq_singleton_of_mem (member : u ∈ failures) (single : failures.length ≤ 1)
    : failures = [u] := by
  match failures, member, single with
  | [only], member, _ => rw [List.mem_singleton.mp member]

theorem failures_early {early : τ → Bool} (before : ∀ u ∈ failures, early u = true)
    (now : early t = true) : ∀ u ∈ failures ++ (failedStep s t a).toList, early u = true := by
  intro u member
  rcases List.mem_append.mp member with old | new
  · exact before u old
  · unfold failedStep at new
    split_ifs at new
    · rwa [List.mem_singleton.mp new]
    · cases new

variable {s₀ : KubeStore}

section Cluster
variable {K : Kubernetesx}

theorem createClusterValidated_eq_ok
    (validated : createClusterValidated K request a = .ok (c, subject)) :
    (subject.type ≠ "" ∧ subject.id ≠ "") ∧ c.id ≠ "" ∧ c.orgID ≠ "" ∧ c.status = .CREATING ∧
      c.id = request.c.id ∧ c.orgID = request.c.orgID ∧ c.name = request.c.name ∧
      c.serverURL = request.c.serverURL := by
  unfold createClusterValidated at validated
  split_ifs at validated with noID incomplete
  rw [not_or, not_or] at incomplete
  split at validated
  · cases validated
  · obtain ⟨_, _, validated⟩ := bind_eq_ok.mp validated
    obtain ⟨subject', canonical, validated⟩ := bind_eq_ok.mp validated
    cases validated
    exact ⟨canonicalSubject_eq_ok canonical, noID, incomplete.2.1, rfl, rfl, rfl, rfl, rfl⟩

def Unrivalled (rows : List Cluster) (c : Cluster) : Prop :=
  rows.any (clusterNameCollides c) = false ∧ rows.any (clusterUIDCollides c) = false

variable {rows : List Cluster}

theorem insertWithCredential_eq_ok (inserted : insertWithCredential s c cred = .ok s') :
    lookup Cluster.id s.clusters c.id = none ∧ Unrivalled s.clusters c ∧
      lookup CredentialRow.ref s.credentials c.credentialRef = none ∧ s' = { s with
        clusters := s.clusters ++ [c]
        credentials := s.credentials ++ [⟨c.credentialRef, c.id, 1, cred⟩] } := by
  obtain ⟨rows, stored, inserted⟩ := bind_eq_ok.mp inserted
  unfold insertCluster at stored
  split_ifs at stored with taken sameName sameUID
  cases stored
  split at inserted
  · cases inserted
  · rename_i credentials locator put
    cases inserted
    obtain ⟨_, absent, _, out⟩ := putWithRef_eq_ok put
    cases out
    exact ⟨by simpa using taken, ⟨by simpa using sameName, by simpa using sameUID⟩, absent, rfl⟩

theorem insertCluster_rejected (live : liveCluster rows c.id = some c)
    (other : retry.id ≠ c.id) (sameOrg : retry.orgID = c.orgID) (sameName : retry.name = c.name) :
    ∃ e, insertCluster rows retry = .error e := by
  have member := mem_of_select live
  have alive := (liveCluster_eq_some.mp live).2
  have collides : rows.any (clusterNameCollides retry) = true := by
    rw [List.any_eq_true]
    exact ⟨c, member, by simp [clusterNameCollides, alive, Ne.symm other, sameOrg, sameName]⟩
  unfold insertCluster
  split_ifs
  · exact ⟨_, rfl⟩
  · exact ⟨_, rfl⟩

structure ClusterStored (s₀ s : KubeStore) (request : CreateClusterRequest) (created : Cluster) :
    Prop where
  clusters : s.clusters = s₀.clusters ++ [created]
  free : lookup Cluster.id s₀.clusters created.id = none
  unrivalled : Unrivalled s₀.clusters created
  live : created.live = true
  status : created.status = .CREATING
  named : created.id = request.c.id ∧ created.orgID = request.c.orgID ∧
    created.name = request.c.name

theorem ClusterStored.found (stored : ClusterStored s₀ s request created) :
    lookup Cluster.id s.clusters created.id = some created := by
  rw [stored.clusters, lookup_append, stored.free]
  simp

/-- A row of the requested name that nobody holds a tuple on and that has lost
its credential. -/
structure ClusterLeftover (s : KubeStore) (request : CreateClusterRequest) : Prop where
  row : ∃ c, liveCluster s.clusters request.c.id = some c ∧ c.status = .FAILED ∧
    c.orgID = request.c.orgID ∧ c.name = request.c.name ∧
    lookup CredentialRow.ref s.credentials c.credentialRef = none
  tuples : ∀ r ∈ s.tuples, r.resource ≠ clusterResource request.c.id

def CreateClusterCall.early : CreateClusterCall → Bool
  | .validate _ => true
  | .insert _ _ _ => true
  | _ => false

def CreateClusterCall.relating : CreateClusterCall → Bool
  | .relate _ _ _ => true
  | _ => false

def ClusterCreationAt (s₀ : KubeStore) (request : CreateClusterRequest)
    (x : KubeStore × List CreateClusterCall) : CreateClusterCall → Prop
  | .validate r => r = request ∧ x.1 = s₀ ∧ ∀ t ∈ x.2, t.early = true
  | .insert c _ subject =>
    x.1 = s₀ ∧ (∀ t ∈ x.2, t.early = true) ∧ (subject.type ≠ "" ∧ subject.id ≠ "") ∧
      c.id ≠ "" ∧ c.orgID ≠ "" ∧ c.status = .CREATING ∧ c.id = request.c.id ∧
      c.orgID = request.c.orgID ∧ c.name = request.c.name
  | .relate created _ subject =>
    ClusterStored s₀ x.1 request created ∧ (subject.type ≠ "" ∧ subject.id ≠ "") ∧
      created.id ≠ "" ∧ created.orgID ≠ ""
  | .revoke created _ =>
    ClusterStored s₀ x.1 request created ∧ ∃ t ∈ x.2, t.relating = true
  | .forget created _ =>
    ClusterStored s₀ x.1 request created ∧ (∃ t ∈ x.2, t.relating = true) ∧
      (x.2.length ≤ 1 → ∀ r ∈ x.1.tuples, r.resource ≠ clusterResource created.id)
  | .fail created _ =>
    ClusterStored s₀ x.1 request created ∧ (∃ t ∈ x.2, t.relating = true) ∧
      (x.2.length ≤ 1 →
        (∀ r ∈ x.1.tuples, r.resource ≠ clusterResource created.id) ∧
        lookup CredentialRow.ref x.1.credentials created.credentialRef = none)
  | .returned (.error _) =>
    (x.1 = { s₀ with issuedRefs := x.1.issuedRefs } ∧ ∀ t ∈ x.2, t.early = true) ∨
      ((∃ t ∈ x.2, t.relating = true) ∧ (x.2.length ≤ 1 → ClusterLeftover x.1 request))
  | _ => True

theorem ClusterStored.marked
    (stored : ClusterStored s₀ s request created) (next : ClusterStatus)
    (extra : ClusterStatusExtra) (keepsUID : extra.clusterUID = none) (now : Nat) :
    ∃ rows, updateClusterStatus s.clusters created.id (some .CREATING) next extra now
        = .ok (rows, created.transitioned next extra now) ∧
      liveCluster rows created.id = some (created.transitioned next extra now) := by
  have update : update Cluster.id s.clusters created.id
      (fun c => c.live && ((some ClusterStatus.CREATING).isNone ||
        some ClusterStatus.CREATING == some c.status))
      (fun c => c.transitioned next extra now) =
      some (amend Cluster.id s.clusters created.id (fun c => c.transitioned next extra now),
        created.transitioned next extra now) :=
    update_eq_some.mpr ⟨created, stored.found, by simp [stored.live, stored.status], rfl⟩
  refine ⟨amend Cluster.id s.clusters created.id (fun c => c.transitioned next extra now),
    ?_, ?_⟩
  · unfold updateClusterStatus
    rw [update]
    simp only [affected]
    rw [stored.clusters]
    have names : clusterNameCollides (created.transitioned next extra now) =
        clusterNameCollides created := rfl
    have uids : clusterUIDCollides (created.transitioned next extra now) =
        clusterUIDCollides created := by
      funext other
      simp [clusterUIDCollides, Cluster.transitioned, keepsUID]
    have self : clusterNameCollides created created = false ∧
        clusterUIDCollides created created = false := by
      simp [clusterNameCollides, clusterUIDCollides]
    simp [indexed, names, uids, List.any_append, stored.unrivalled.1, stored.unrivalled.2, self]
  · exact select_amend_self (fun _ => rfl) (fun _ => rfl)
      (select_eq_some.mpr ⟨stored.found, stored.live⟩)

theorem clusterCreation_step (K : Kubernetesx) (s₀ : KubeStore) (request : CreateClusterRequest)
    (x : KubeStore × List CreateClusterCall) (t : CreateClusterCall) (a : Answer)
    (x' : KubeStore × List CreateClusterCall) (t' : CreateClusterCall)
    (here : ClusterCreationAt s₀ request x t)
    (taken : ((createClusterProgram K).recorded failedStep).next x t a = some (x', t')) :
    ClusterCreationAt s₀ request x' t' := by
  obtain ⟨next, failures⟩ := Threads.recorded_next.mp taken
  obtain ⟨s', _⟩ := x'
  subst failures
  have shorter : (x.2 ++ (failedStep x.1 t a).toList).length ≤ 1 → x.2.length ≤ 1 := by
    simp only [List.length_append]
    omega
  cases t with simp only [createClusterProgram, CreateClusterCall.next, reduceCtorEq] at next
  | validate r =>
    obtain ⟨rfl, rfl, early⟩ := here
    have stillEarly := failures_early (s := x.1) (t := .validate r) (a := a) early rfl
    split at next
    · cases next
      exact .inl ⟨rfl, stillEarly⟩
    · rename_i c subject validated
      cases next
      obtain ⟨canonical, noID, noOrg, status, id, org, name, _⟩ :=
        createClusterValidated_eq_ok validated
      exact ⟨rfl, stillEarly, canonical, noID, noOrg, status, id, org, name⟩
  | insert c cred subject =>
    obtain ⟨rfl, early, canonical, noID, noOrg, status, id, org, name⟩ := here
    split_ifs at next
    split at next
    · cases next
      exact .inl ⟨rfl, failures_early early rfl⟩
    · rename_i stored inserted
      cases next
      obtain ⟨free, unrivalled, _, rfl⟩ :=
        insertWithCredential_eq_ok (orFault_eq_ok.mp inserted).2
      exact ⟨⟨rfl, free, unrivalled, rfl, status, id, org, name⟩, canonical, noID, noOrg⟩
  | relate created cred subject =>
    obtain ⟨stored, canonical, noID, noOrg⟩ := here
    split at next
    · rename_i e refused
      cases next
      refine ⟨stored, .relate created cred subject, refusal_recorded ?_ ?_ refused, rfl⟩
      · exact validateRelationship_ok (by decide) noID (by decide) canonical.1 canonical.2
      · exact validateRelationship_ok (by decide) noID (by decide)
          (show "zone" ≠ "" by decide) noOrg
    · cases next
      trivial
  | revoke created failure =>
    obtain ⟨stored, u, member, relating⟩ := here
    split at next
    · rename_i e refused
      cases next
      refine ⟨stored, ⟨u, List.mem_append_left _ member, relating⟩, ?_⟩
      intro single
      obtain ⟨left, accepted⟩ := revokeResource_accepts x.1.tuples
        created.id (show "k8s_cluster" ≠ "" by decide)
      rw [(faultless_after member single).1, clusterResource, accepted] at refused
      cases refused
    · rename_i tuples revoked
      cases next
      exact ⟨{ stored with}, ⟨u, List.mem_append_left _ member, relating⟩,
        fun _ => revokeResource_clears revoked⟩
  | forget created failure =>
    obtain ⟨stored, ⟨u, member, relating⟩, cleared⟩ := here
    cases next
    refine ⟨{ stored with}, ⟨u, List.mem_append_left _ member, relating⟩, ?_⟩
    intro single
    refine ⟨cleared (shorter single), ?_⟩
    simp [deleteCredential, (faultless_after member single).1, lookup_remove]
  | fail created failure =>
    obtain ⟨stored, ⟨u, member, relating⟩, cleared⟩ := here
    obtain ⟨rows, marked, live⟩ := stored.marked .FAILED
      { healthMessage := some ("authz projection failed: " ++ failure.detail) } rfl a.now
    simp only [marked] at next
    split at next
    all_goals
      rename_i written
      cases next
      refine .inr ⟨⟨u, List.mem_append_left _ member, relating⟩, fun single => ?_⟩
      rw [Answer.orFault, (faultless_after member single).1] at written
      cases written
    obtain ⟨noTuple, noCredential⟩ := cleared (shorter single)
    obtain ⟨id, org, name⟩ := stored.named
    rw [id] at live noTuple
    exact ⟨⟨_, live, rfl, org, name, noCredential⟩, noTuple⟩
  | build created cred | query created client | ready created probe | degrade created cause =>
    split at next <;> cases next <;> trivial

end Cluster

section Namespace

variable {ns : Namespace}

theorem insertNamespace_eq_ok (inserted : insertNamespace s ns = .ok table) :
    lookup Namespace.id s.namespaces ns.id = none ∧ table = s.namespaces ++ [ns] := by
  unfold insertNamespace at inserted
  split_ifs at inserted with taken
  cases inserted
  exact ⟨by simpa using taken, rfl⟩

theorem insertNamespace_rejected
    (live : liveNamespace s.namespaces ns.id = some ns) (other : retry.id ≠ ns.id)
    (sameCluster : retry.clusterID = ns.clusterID) (sameName : retry.kubeName = ns.kubeName) :
    ∃ e, insertNamespace s retry = .error e := by
  have member := mem_of_select live
  have alive := (liveNamespace_eq_some.mp live).2
  have collides : s.namespaces.any (namespaceCollides retry) = true := by
    rw [List.any_eq_true]
    exact ⟨ns, member,
      by simp [namespaceCollides, alive, Ne.symm other, sameCluster, sameName]⟩
  unfold insertNamespace
  split_ifs
  · exact ⟨_, rfl⟩
  · exact ⟨_, rfl⟩
  · exact ⟨_, rfl⟩

structure NamespaceStored (s₀ s : KubeStore) (request : CreateNamespaceRequest)
    (created : Namespace) : Prop where
  namespaces : s.namespaces = s₀.namespaces ++ [created]
  free : lookup Namespace.id s₀.namespaces created.id = none
  live : created.live = true
  lifecycle : created.lifecycle = .CREATING
  named : created.id = request.ns.id ∧ created.clusterID = request.ns.clusterID ∧
    created.kubeName = request.ns.kubeName

theorem NamespaceStored.marked {request} (stored : NamespaceStored s₀ s request created)
    (next : NamespaceLifecycle) (extra : NamespaceStatusExtra) (now : Nat) :
    ∃ rows, updateNamespaceStatus s.namespaces created.id (some .CREATING) next extra now
        = .ok (rows, created.transitioned next extra now) ∧
      liveNamespace rows created.id = some (created.transitioned next extra now) := by
  have found : lookup Namespace.id s.namespaces created.id = some created := by
    rw [stored.namespaces, lookup_append, stored.free]
    simp
  refine ⟨amend Namespace.id s.namespaces created.id
    (fun ns => ns.transitioned next extra now), ?_, ?_⟩
  · rw [updateNamespaceStatus, affected_eq_ok, update_eq_some]
    exact ⟨created, found, by simp [stored.live, stored.lifecycle], rfl⟩
  · exact select_amend_self (fun _ => rfl) (fun _ => rfl)
      (select_eq_some.mpr ⟨found, stored.live⟩)

structure NamespaceLeftover (s : KubeStore) (request : CreateNamespaceRequest) : Prop where
  row : ∃ ns, liveNamespace s.namespaces request.ns.id = some ns ∧ ns.lifecycle = .FAILED ∧
    ns.clusterID = request.ns.clusterID ∧ ns.kubeName = request.ns.kubeName
  tuples : ∀ r ∈ s.tuples, r.resource ≠ namespaceResource request.ns.id

def CreateNamespaceCall.early : CreateNamespaceCall → Bool
  | .authorize _ => true
  | .insert _ _ => true
  | _ => false

def CreateNamespaceCall.relating : CreateNamespaceCall → Bool
  | .relate _ _ => true
  | _ => false

def NamespaceCreationAt (s₀ : KubeStore) (request : CreateNamespaceRequest)
    (x : KubeStore × List CreateNamespaceCall) : CreateNamespaceCall → Prop
  | .authorize r => r = request ∧ x.1 = s₀ ∧ ∀ t ∈ x.2, t.early = true
  | .insert ns subject =>
    x.1 = s₀ ∧ (∀ t ∈ x.2, t.early = true) ∧ (subject.type ≠ "" ∧ subject.id ≠ "") ∧
      ns.id ≠ "" ∧ ns.clusterID ≠ "" ∧ ns.lifecycle = .CREATING ∧ ns.id = request.ns.id ∧
      ns.clusterID = request.ns.clusterID ∧ ns.kubeName = request.ns.kubeName
  | .relate created subject =>
    NamespaceStored s₀ x.1 request created ∧ (subject.type ≠ "" ∧ subject.id ≠ "") ∧
      created.id ≠ "" ∧ created.clusterID ≠ ""
  | .revoke created _ =>
    NamespaceStored s₀ x.1 request created ∧ ∃ t ∈ x.2, t.relating = true
  | .fail created _ =>
    NamespaceStored s₀ x.1 request created ∧ (∃ t ∈ x.2, t.relating = true) ∧
      (x.2.length ≤ 1 → ∀ r ∈ x.1.tuples, r.resource ≠ namespaceResource created.id)
  | .returned (.error _) =>
    (x.1 = s₀ ∧ ∀ t ∈ x.2, t.early = true) ∨
      ((∃ t ∈ x.2, t.relating = true) ∧ (x.2.length ≤ 1 → NamespaceLeftover x.1 request))
  | _ => True

theorem namespaceCreation_step (K : Kubernetesx) (s₀ : KubeStore) (request : CreateNamespaceRequest)
    (x : KubeStore × List CreateNamespaceCall) (t : CreateNamespaceCall) (a : Answer)
    (x' : KubeStore × List CreateNamespaceCall) (t' : CreateNamespaceCall)
    (here : NamespaceCreationAt s₀ request x t)
    (taken : ((createNamespaceProgram K).recorded failedStep).next x t a = some (x', t')) :
    NamespaceCreationAt s₀ request x' t' := by
  obtain ⟨next, failures⟩ := Threads.recorded_next.mp taken
  obtain ⟨s', _⟩ := x'
  subst failures
  have shorter : (x.2 ++ (failedStep x.1 t a).toList).length ≤ 1 → x.2.length ≤ 1 := by
    simp only [List.length_append]
    omega
  cases t with simp only [createNamespaceProgram, CreateNamespaceCall.next, reduceCtorEq] at next
  | authorize r =>
    obtain ⟨rfl, rfl, early⟩ := here
    have stillEarly := failures_early (s := x.1) (t := .authorize r) (a := a) early rfl
    split at next
    · cases next
      exact .inl ⟨rfl, stillEarly⟩
    · rename_i ns subject authorized
      cases next
      unfold createNamespaceAuthorized at authorized
      split_ifs at authorized with noID incomplete
      rw [not_or] at incomplete
      obtain ⟨_, canonical, authorized⟩ := bind_eq_ok.mp authorized
      obtain ⟨_, _, authorized⟩ := bind_eq_ok.mp authorized
      cases authorized
      exact ⟨rfl, stillEarly, canonicalSubject_eq_ok canonical, noID, incomplete.1, rfl, rfl, rfl,
        rfl⟩
  | insert ns subject =>
    obtain ⟨rfl, early, canonical, noID, noCluster, lifecycle, id, cluster, name⟩ := here
    split at next
    · cases next
      exact .inl ⟨rfl, failures_early early rfl⟩
    · rename_i rows inserted
      cases next
      obtain ⟨free, rfl⟩ := insertNamespace_eq_ok (orFault_eq_ok.mp inserted).2
      exact ⟨⟨rfl, free, rfl, lifecycle, id, cluster, name⟩, canonical, noID, noCluster⟩
  | relate created subject =>
    obtain ⟨stored, canonical, noID, noCluster⟩ := here
    split at next
    · rename_i e refused
      cases next
      refine ⟨stored, .relate created subject, refusal_recorded ?_ ?_ refused, rfl⟩
      · exact validateRelationship_ok (by decide) noID (by decide) canonical.1 canonical.2
      · exact validateRelationship_ok (by decide) noID (by decide)
          (show "k8s_cluster" ≠ "" by decide) noCluster
    · cases next
      trivial
  | revoke created failure =>
    obtain ⟨stored, u, member, relating⟩ := here
    split at next
    · rename_i e refused
      cases next
      refine ⟨stored, ⟨u, List.mem_append_left _ member, relating⟩, ?_⟩
      intro single
      obtain ⟨left, accepted⟩ := revokeResource_accepts x.1.tuples
        created.id (show "k8s_namespace" ≠ "" by decide)
      rw [(faultless_after member single).1, namespaceResource, accepted] at refused
      cases refused
    · rename_i tuples revoked
      cases next
      exact ⟨{ stored with}, ⟨u, List.mem_append_left _ member, relating⟩,
        fun _ => revokeResource_clears revoked⟩
  | fail created failure =>
    obtain ⟨stored, ⟨u, member, relating⟩, cleared⟩ := here
    obtain ⟨rows, marked, live⟩ := stored.marked .FAILED
      { lastErrorCode := some "AUTHZ_PROJECTION_FAILED"
        lastErrorMessage := some failure.detail } a.now
    simp only [marked] at next
    split at next
    all_goals
      rename_i written
      cases next
      refine .inr ⟨⟨u, List.mem_append_left _ member, relating⟩, fun single => ?_⟩
      rw [Answer.orFault, (faultless_after member single).1] at written
      cases written
    have noTuple := cleared (shorter single)
    obtain ⟨id, cluster, name⟩ := stored.named
    rw [id] at live noTuple
    exact ⟨⟨_, live, rfl, cluster, name⟩, noTuple⟩
  | load created | build created cluster | apply created client | giveUp created code message
  | finish created =>
    split at next <;> cases next <;> trivial

end Namespace

/-- A creation that returns an error, with at most one failing step. If the step
comes before the row is stored, every table is as it was. If the relationships
could not be written, the row stays, FAILED and without a tuple, and keeps its
name from every later creation. -/
theorem failed_creation_leaves (K : Kubernetesx) :
    (∀ s request answers s' failures e,
      ((createClusterProgram K).recorded failedStep).serve (s, []) request answers =
        some ((s', failures), .returned (.error e)) → failures.length ≤ 1 →
      ((∀ t ∈ failures, t.early = true) ∧ s'.clusters = s.clusters ∧
        s'.credentials = s.credentials ∧ s'.tuples = s.tuples) ∨
      ((∃ created cred subject, failures = [.relate created cred subject]) ∧
        ClusterLeftover s' request ∧
        ∀ retry : Cluster, retry.id ≠ request.c.id → retry.orgID = request.c.orgID →
          retry.name = request.c.name → ∃ e, insertCluster s'.clusters retry = .error e)) ∧
    ∀ s request answers s' failures e,
      ((createNamespaceProgram K).recorded failedStep).serve (s, []) request answers =
        some ((s', failures), .returned (.error e)) → failures.length ≤ 1 →
      ((∀ t ∈ failures, t.early = true) ∧ s'.namespaces = s.namespaces ∧
        s'.tuples = s.tuples) ∨
      ((∃ created subject, failures = [.relate created subject]) ∧
        NamespaceLeftover s' request ∧
        ∀ retry : Namespace, retry.id ≠ request.ns.id → retry.clusterID = request.ns.clusterID →
          retry.kubeName = request.ns.kubeName → ∃ e, insertNamespace s' retry = .error e) := by
  constructor
  · intro s request answers s' failures e served single
    have ended : ClusterCreationAt s request (s', failures) (.returned (.error e)) :=
      Threads.serve_keeps (clusterCreation_step K s request) ⟨rfl, rfl, by simp⟩ served
    rcases ended with ⟨same, early⟩ | ⟨⟨t, member, relating⟩, leftover⟩
    · left
      simp only at same
      rw [same]
      exact ⟨early, rfl, rfl, rfl⟩
    · right
      obtain ⟨c, live, _, org, name, _⟩ := (leftover single).row
      refine ⟨?_, leftover single, ?_⟩
      · cases t with
        | relate created cred subject =>
          exact ⟨created, cred, subject, eq_singleton_of_mem member single⟩
        | _ => cases relating
      · intro retry other sameOrg sameName
        have here := clusterID_of_live live
        exact insertCluster_rejected (here ▸ live) (here ▸ other) (sameOrg.trans org.symm)
          (sameName.trans name.symm)
  · intro s request answers s' failures e served single
    have ended : NamespaceCreationAt s request (s', failures) (.returned (.error e)) :=
      Threads.serve_keeps (namespaceCreation_step K s request) ⟨rfl, rfl, by simp⟩ served
    rcases ended with ⟨same, early⟩ | ⟨⟨t, member, relating⟩, leftover⟩
    · left
      exact ⟨early, congrArg KubeStore.namespaces same, congrArg KubeStore.tuples same⟩
    · right
      obtain ⟨ns, live, _, cluster, name⟩ := (leftover single).row
      refine ⟨?_, leftover single, ?_⟩
      · cases t with
        | relate created subject =>
          exact ⟨created, subject, eq_singleton_of_mem member single⟩
        | _ => cases relating
      · intro retry other sameCluster sameName
        have here := id_of_live live
        exact insertNamespace_rejected (here ▸ live) (here ▸ other)
          (sameCluster.trans cluster.symm) (sameName.trans name.symm)

def createProd (id : String) : CreateClusterRequest :=
  { principal := ⟨"user", "alice", ""⟩
    c := { id := id, orgID := "org-1", name := "prod", serverURL := "https://a" }
    cred := { kind := .SERVICE_ACCOUNT, host := "https://a", token := "t1" } }

def createTeam (id : String) : CreateNamespaceRequest :=
  { principal := ⟨"user", "alice", ""⟩
    ns := { id := id, clusterID := "cl-0", kubeName := "team" } }

def hostStore : KubeStore :=
  { clusters := [{ id := "cl-0", orgID := "org-1", name := "host", serverURL := "https://h" }] }

def unrelated : List Answer :=
  [{}, { uuid := "ref-1" }, { fault := some "unavailable" }, {}, {}, {}]

def unrelatedNamespace : List Answer := [{}, {}, { fault := some "unavailable" }, {}, {}]

theorem failed_creations_leave_rows :
    (∃ s' failures e, ((createClusterProgram trustingKubernetesx).recorded failedStep).serve
        ({}, []) (createProd "cl-1") unrelated = some ((s', failures), .returned (.error e)) ∧
      (((∀ t ∈ failures, t.early = true) ∧ s'.clusters = [] ∧ s'.credentials = [] ∧
          s'.tuples = []) ∨
        ((∃ created cred subject, failures = [.relate created cred subject]) ∧
          ClusterLeftover s' (createProd "cl-1") ∧
          ∀ retry : Cluster, retry.id ≠ "cl-1" → retry.orgID = "org-1" → retry.name = "prod" →
            ∃ e, insertCluster s'.clusters retry = .error e))) ∧
    ∃ s' failures e, ((createNamespaceProgram trustingKubernetesx).recorded failedStep).serve
        (hostStore, []) (createTeam "ns-1") unrelatedNamespace =
          some ((s', failures), .returned (.error e)) ∧
      (((∀ t ∈ failures, t.early = true) ∧ s'.namespaces = [] ∧ s'.tuples = []) ∨
        ((∃ created subject, failures = [.relate created subject]) ∧
          NamespaceLeftover s' (createTeam "ns-1") ∧
          ∀ retry : Namespace, retry.id ≠ "ns-1" → retry.clusterID = "cl-0" →
            retry.kubeName = "team" → ∃ e, insertNamespace s' retry = .error e)) :=
  ⟨⟨_, _, _, rfl, (failed_creation_leaves trustingKubernetesx).1 {} (createProd "cl-1") unrelated
      _ _ _ rfl (by decide)⟩,
    _, _, _, rfl, (failed_creation_leaves trustingKubernetesx).2 hostStore (createTeam "ns-1")
      unrelatedNamespace _ _ _ rfl (by decide)⟩

/-- After one failed relationship write, the retry with working dependencies is
refused for the name, and no tuple is left that would let anyone delete the row. -/
theorem failed_creation_holds_name :
    (∃ s' s'' failures e e', ((createClusterProgram trustingKubernetesx).recorded failedStep).serve
        ({}, []) (createProd "cl-1") unrelated = some ((s', failures), .returned (.error e)) ∧
      failures.length = 1 ∧ s'.tuples = [] ∧ (liveCluster s'.clusters "cl-1").isSome ∧
      (createClusterProgram trustingKubernetesx).serve s' (createProd "cl-2")
        [{}, { uuid := "ref-2" }] = some (s'', .returned (.error e')) ∧
      e' = .plain "cluster repo: create cl-2: duplicate key") ∧
    ∃ s' s'' failures e e',
      ((createNamespaceProgram trustingKubernetesx).recorded failedStep).serve
        (hostStore, []) (createTeam "ns-1") unrelatedNamespace =
          some ((s', failures), .returned (.error e)) ∧
      failures.length = 1 ∧ s'.tuples = [] ∧ (liveNamespace s'.namespaces "ns-1").isSome ∧
      (createNamespaceProgram trustingKubernetesx).serve s' (createTeam "ns-2") [{}, {}] =
        some (s'', .returned (.error e')) ∧
      e' = .plain "namespace repo: create ns-2: duplicate key" :=
  ⟨⟨_, _, _, _, _, rfl, by decide, by decide, by decide, rfl, by decide⟩,
    _, _, _, _, _, rfl, by decide, by decide, by decide, rfl, by decide⟩

end AisphereHub
