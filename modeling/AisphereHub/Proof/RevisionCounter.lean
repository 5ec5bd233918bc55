import AisphereHub.Data.ClusterRepo
import AisphereHub.Data.NamespaceRepo
import AisphereHub.Foundation.Versioned

/-! The revision of cluster and namespace rows as a version counter, over every
order of the repositories' writes. Status transitions carry their own guard and
leave the revision alone, so the columns they stamp are not part of what a
revision identifies. -/
namespace AisphereHub

open Transition

inductive ClusterWrite where
  | patch (id : String) (expectedRevision : Int) (updates : List ClusterUpdate) (now : Nat)
  | rekey (id : String) (expectedRevision newRevision : Int) (newRef : String) (now : Nat)
  | transition (id : String) (expected : Option ClusterStatus) (next : ClusterStatus)
      (extra : ClusterStatusExtra) (now : Nat)
  | softDelete (id : String) (now : Nat)
deriving DecidableEq

def ClusterWrite.commit (rows : List Cluster) (write : ClusterWrite) :
    Except HubError (List Cluster) :=
  Except.map Prod.fst <|
    match write with
    | .patch id expectedRevision updates now =>
      updateClusterWithCAS rows id expectedRevision updates now
    | .rekey id expectedRevision newRevision newRef now =>
      updateClusterCredential rows id expectedRevision newRevision newRef now
    | .transition id expected next extra now => updateClusterStatus rows id expected next extra now
    | .softDelete id now => softDeleteCluster rows id now

def ClusterWrite.applied (write : ClusterWrite) (c : Cluster) : Cluster :=
  match write with
  | .patch _ _ updates now => c.patched updates now
  | .rekey _ _ newRevision newRef now => c.rekeyed newRevision newRef now
  | .transition _ _ next extra now => c.transitioned next extra now
  | .softDelete _ now => c.softDeleted now

/-- The write is guarded by this revision of this row. A patch of no column
reads the row and guards nothing. -/
def ClusterWrite.GuardedBy (id : String) (revision : Int) : ClusterWrite → Prop
  | .patch id' expectedRevision updates _ =>
    id' = id ∧ expectedRevision = revision ∧ updates ≠ []
  | .rekey id' expectedRevision _ _ _ => id' = id ∧ expectedRevision = revision
  | .transition _ _ _ _ _ => False
  | .softDelete _ _ => False

def clusterWriteStep (rows : List Cluster) (write : ClusterWrite) : Option (List Cluster) :=
  match write.commit rows with
  | .ok table => some table
  | .error _ => some rows

/-- The row without its timestamps and without the columns a status transition
stamps. -/
def Cluster.content (c : Cluster) : Cluster :=
  { c with
    status := .CREATING
    healthMessage := ""
    clusterUID := ""
    kubernetesVersion := ""
    lastProbeAt := none
    createdAt := 0
    updatedAt := 0 }

abbrev ClusterAdvances : List Cluster → List Cluster → Prop :=
  Versioned.Advances Cluster.id Cluster.live Cluster.revision Cluster.content

theorem clusterCommit_advances {write : ClusterWrite}
    (committed : write.commit rows = .ok table) : ClusterAdvances rows table := by
  obtain ⟨updated, stored⟩ := map_fst_eq_ok.mp committed
  cases write with
  | patch id expectedRevision updates now =>
    by_cases masked : updates = []
    · rw [updateClusterWithCAS_empty masked stored]
      exact Versioned.Advances.refl rows
    · obtain ⟨_, _, _, _, rfl⟩ := updateClusterWithCAS_eq_ok masked stored
      apply Versioned.advances_amend
      · intro c
        exact (c.patched_frame updates now).1
      · intro c
        exact (c.patched_frame updates now).2.1
      · intro c
        exact .inl (Int.lt_succ c.revision)
  | rekey id expectedRevision newRevision newRef now =>
    obtain ⟨_, _, _, _, rfl⟩ := updateClusterCredential_eq_ok.mp stored
    apply Versioned.advances_amend
    · intro c
      rfl
    · intro c
      rfl
    · intro c
      exact .inl (Int.lt_succ c.revision)
  | transition id expected next extra now =>
    obtain ⟨_, _, _, rfl⟩ := updateClusterStatus_eq_ok stored
    apply Versioned.advances_amend
    · intro c
      rfl
    · intro c
      rfl
    · intro c
      exact .inr ⟨rfl, rfl⟩
  | softDelete id now =>
    rw [softDeleteCluster_eq_ok stored]
    apply Versioned.advances_amend_dead
    · intro c
      rfl
    · intro c
      rfl

theorem clusterWrites_advance
    (ran : run clusterWriteStep rows writes = some later) : ClusterAdvances rows later := by
  refine Versioned.advances_run ?_ ran
  intro table write table' taken
  unfold clusterWriteStep at taken
  split at taken
  · rename_i stored committed
    cases taken
    exact clusterCommit_advances committed
  · cases taken
    exact Versioned.Advances.refl table

theorem clusterCommit_guarded {write : ClusterWrite} {id}
    (guarded : write.GuardedBy id revision)
    (committed : write.commit rows = .ok table) :
    ∃ c, liveCluster rows id = some c ∧ c.revision = revision ∧
      liveCluster table id = some (write.applied c) := by
  obtain ⟨updated, stored⟩ := map_fst_eq_ok.mp committed
  cases write with
  | patch id' expectedRevision updates now =>
    obtain ⟨rfl, rfl, masked⟩ := guarded
    obtain ⟨c, found, same, _, rfl⟩ := updateClusterWithCAS_eq_ok masked stored
    exact ⟨c, found, same, Keyed.select_amend_self
      (fun c => (c.patched_frame updates now).1) (fun c => (c.patched_frame updates now).2.1) found⟩
  | rekey id' expectedRevision newRevision newRef now =>
    obtain ⟨rfl, rfl⟩ := guarded
    obtain ⟨c, found, same, _, rfl⟩ := updateClusterCredential_eq_ok.mp stored
    exact ⟨c, found, same, Keyed.select_amend_self
      (fun _ => rfl) (fun _ => rfl) found⟩
  | transition | softDelete => exact guarded.elim

inductive NamespaceWrite where
  | patch (id : String) (expectedRevision : Int) (updates : List NamespaceUpdate) (now : Nat)
  | switch (id : String) (expectedRevision : Int) (visibility : Visibility)
      (syncStatus : VisibilitySync) (now : Nat)
  | transition (id : String) (expected : Option NamespaceLifecycle) (next : NamespaceLifecycle)
      (extra : NamespaceStatusExtra) (now : Nat)
  | softDelete (id : String) (now : Nat)
  | touchSync (id : String) (now : Nat)
deriving DecidableEq

def NamespaceWrite.commit (rows : List Namespace) : NamespaceWrite → Except HubError (List Namespace)
  | .patch id expectedRevision updates now =>
    (updateNamespaceWithCAS rows id expectedRevision updates now).map Prod.fst
  | .switch id expectedRevision visibility syncStatus now =>
    (updateNamespaceVisibility rows id expectedRevision visibility syncStatus now).map Prod.fst
  | .transition id expected next extra now =>
    (updateNamespaceStatus rows id expected next extra now).map Prod.fst
  | .softDelete id now => (softDeleteNamespace rows id now).map Prod.fst
  | .touchSync id now => .ok (touchNamespaceSync rows id now)

def NamespaceWrite.applied (write : NamespaceWrite) (ns : Namespace) : Namespace :=
  match write with
  | .patch _ _ updates now => ns.patched updates now
  | .switch _ _ visibility syncStatus now => ns.switched visibility syncStatus now
  | .transition _ _ next extra now => ns.transitioned next extra now
  | .softDelete _ now => ns.softDeleted now
  | .touchSync _ now => { ns with lastSyncAt := some now }

def NamespaceWrite.GuardedBy (id : String) (revision : Int) : NamespaceWrite → Prop
  | .patch id' expectedRevision updates _ =>
    id' = id ∧ expectedRevision = revision ∧ updates ≠ []
  | .switch id' expectedRevision _ _ _ => id' = id ∧ expectedRevision = revision
  | .transition _ _ _ _ _ => False
  | .softDelete _ _ => False
  | .touchSync _ _ => False

def namespaceWriteStep (rows : List Namespace) (write : NamespaceWrite) :
    Option (List Namespace) :=
  match write.commit rows with
  | .ok table => some table
  | .error _ => some rows

def Namespace.content (ns : Namespace) : Namespace :=
  { ns with
    lifecycle := .CREATING
    lastErrorCode := ""
    lastErrorMessage := ""
    lastSyncAt := none
    createdAt := 0
    updatedAt := 0 }

abbrev NamespaceAdvances : List Namespace → List Namespace → Prop :=
  Versioned.Advances Namespace.id Namespace.live Namespace.revision Namespace.content

theorem touchNamespaceSync_advances (rows : List Namespace) (id : String) (now : Nat) :
    NamespaceAdvances rows (touchNamespaceSync rows id now) := by
  unfold touchNamespaceSync
  split
  · rename_i table ns touched
    obtain ⟨_, _, _, same⟩ := Keyed.update_eq_some.mp touched
    cases same
    apply Versioned.advances_amend
    · intro ns
      rfl
    · intro ns
      rfl
    · intro ns
      exact .inr ⟨rfl, rfl⟩
  · exact Versioned.Advances.refl rows

theorem namespaceCommit_advances {write : NamespaceWrite}
    (committed : write.commit rows = .ok table) : NamespaceAdvances rows table := by
  cases write with
  | patch id expectedRevision updates now =>
    obtain ⟨updated, stored⟩ := map_fst_eq_ok.mp committed
    by_cases masked : updates = []
    · subst masked
      obtain ⟨ns, _, same⟩ :
          ∃ ns, getNamespace rows id = .ok ns ∧ (rows, ns) = (table, updated) := by
        simp only [updateNamespaceWithCAS, List.isEmpty_nil, if_true] at stored
        cases read : getNamespace rows id with
        | error e => simp [read, Except.map] at stored
        | ok ns => exact ⟨ns, rfl, by simpa [read, Except.map] using stored⟩
      cases same
      exact Versioned.Advances.refl rows
    · obtain ⟨_, _, _, rfl⟩ := updateNamespaceWithCAS_eq_ok masked stored
      apply Versioned.advances_amend
      · intro ns
        exact (ns.patched_frame updates now).1
      · intro ns
        exact (ns.patched_frame updates now).2
      · intro ns
        exact .inl (Int.lt_succ ns.revision)
  | switch id expectedRevision visibility syncStatus now =>
    obtain ⟨updated, stored⟩ := map_fst_eq_ok.mp committed
    obtain ⟨_, _, _, _, rfl⟩ := updateNamespaceVisibility_eq_ok.mp stored
    apply Versioned.advances_amend
    · intro ns
      rfl
    · intro ns
      rfl
    · intro ns
      exact .inl (Int.lt_succ ns.revision)
  | transition id expected next extra now =>
    obtain ⟨updated, stored⟩ := map_fst_eq_ok.mp committed
    obtain ⟨_, _, _, rfl⟩ := updateNamespaceStatus_eq_ok stored
    apply Versioned.advances_amend
    · intro ns
      rfl
    · intro ns
      rfl
    · intro ns
      exact .inr ⟨rfl, rfl⟩
  | softDelete id now =>
    obtain ⟨deleted, stored⟩ := map_fst_eq_ok.mp committed
    obtain ⟨_, _, _, rfl⟩ := affected_update.mp stored
    apply Versioned.advances_amend_dead
    · intro ns
      rfl
    · intro ns
      rfl
  | touchSync id now =>
    cases committed
    exact touchNamespaceSync_advances rows id now

theorem namespaceWrites_advance
    (ran : run namespaceWriteStep rows writes = some later) : NamespaceAdvances rows later := by
  refine Versioned.advances_run ?_ ran
  intro table write table' taken
  unfold namespaceWriteStep at taken
  split at taken
  · rename_i stored committed
    cases taken
    exact namespaceCommit_advances committed
  · cases taken
    exact Versioned.Advances.refl table

theorem namespaceCommit_guarded {write : NamespaceWrite}
    {id} (guarded : write.GuardedBy id revision)
    (committed : write.commit rows = .ok table) :
    ∃ ns, liveNamespace rows id = some ns ∧ ns.revision = revision ∧
      liveNamespace table id = some (write.applied ns) := by
  cases write with
  | patch id' expectedRevision updates now =>
    obtain ⟨rfl, rfl, masked⟩ := guarded
    obtain ⟨updated, stored⟩ := map_fst_eq_ok.mp committed
    obtain ⟨ns, found, same, rfl⟩ := updateNamespaceWithCAS_eq_ok masked stored
    exact ⟨ns, found, same, Keyed.select_amend_self
      (fun ns => (ns.patched_frame updates now).1) (fun ns => (ns.patched_frame updates now).2) found⟩
  | switch id' expectedRevision visibility syncStatus now =>
    obtain ⟨rfl, rfl⟩ := guarded
    obtain ⟨updated, stored⟩ := map_fst_eq_ok.mp committed
    obtain ⟨ns, found, same, _, rfl⟩ := updateNamespaceVisibility_eq_ok.mp stored
    exact ⟨ns, found, same, Keyed.select_amend_self
      (fun _ => rfl) (fun _ => rfl) found⟩
  | transition | softDelete | touchSync => exact guarded.elim

/-- Whatever writes are committed after a row was read: a live row still at the
revision read has the content read, and a write guarded by that revision, if it
commits, is applied to a row with that content. -/
theorem revision_identifies_content :
    (∀ (rows later : List Cluster) (writes : List ClusterWrite) (id : String) (c : Cluster),
      run clusterWriteStep rows writes = some later →
      liveCluster rows id = some c →
      (∀ c', liveCluster later id = some c' → c'.revision = c.revision →
        c'.content = c.content) ∧
      ∀ write table, ClusterWrite.GuardedBy id c.revision write →
        write.commit later = .ok table →
        ∃ c', liveCluster later id = some c' ∧ c'.content = c.content ∧
          liveCluster table id = some (write.applied c')) ∧
    ∀ (rows later : List Namespace) (writes : List NamespaceWrite) (id : String) (ns : Namespace),
      run namespaceWriteStep rows writes = some later →
      liveNamespace rows id = some ns →
      (∀ ns', liveNamespace later id = some ns' → ns'.revision = ns.revision →
        ns'.content = ns.content) ∧
      ∀ write table, NamespaceWrite.GuardedBy id ns.revision write →
        write.commit later = .ok table →
        ∃ ns', liveNamespace later id = some ns' ∧ ns'.content = ns.content ∧
          liveNamespace table id = some (write.applied ns') := by
  constructor
  · intro rows later writes id c ran found
    have advances := clusterWrites_advance ran
    constructor
    · intro c' found' same
      exact advances.content_eq found found' same
    · intro write table guarded committed
      obtain ⟨c', found', same, stored⟩ := clusterCommit_guarded guarded committed
      exact ⟨c', found', advances.content_eq found found' same, stored⟩
  · intro rows later writes id ns ran found
    have advances := namespaceWrites_advance ran
    constructor
    · intro ns' found' same
      exact advances.content_eq found found' same
    · intro write table guarded committed
      obtain ⟨ns', found', same, stored⟩ := namespaceCommit_guarded guarded committed
      exact ⟨ns', found', advances.content_eq found found' same, stored⟩

def readyCluster : Cluster :=
  { id := "cl-1", orgID := "org-1", name := "prod", serverURL := "https://a",
    clusterUID := "uid-1", status := .READY, revision := 3 }

def degradeCluster : ClusterWrite :=
  .transition "cl-1" none .DEGRADED { clusterUID := some "uid-2" } 7

def renameCluster : ClusterWrite := .patch "cl-1" 3 [.displayName "Production"] 8

def readyNamespace : Namespace :=
  { id := "ns-1", clusterID := "cl-1", kubeName := "team", lifecycle := .READY, revision := 5 }

def failNamespace : NamespaceWrite :=
  .transition "ns-1" (some .READY) .FAILED { lastErrorCode := some "REMOTE_APPLY_FAILED" } 7

def publishNamespace : NamespaceWrite := .switch "ns-1" 5 .PUBLIC .PUBLISHING 8

/-- After a probe and a lifecycle transition, the writes guarded by the revision
read before them are applied to the content read. -/
theorem guarded_writes_meet_read_content :
    (∃ c', c'.content = readyCluster.content ∧
      liveCluster [renameCluster.applied c'] "cl-1" = some (renameCluster.applied c')) ∧
    ∃ ns', ns'.content = readyNamespace.content ∧
      liveNamespace [publishNamespace.applied ns'] "ns-1" = some (publishNamespace.applied ns') := by
  have cluster := (revision_identifies_content.1 [readyCluster]
    [degradeCluster.applied readyCluster] [degradeCluster] "cl-1" readyCluster rfl rfl).2
    renameCluster [renameCluster.applied (degradeCluster.applied readyCluster)]
    ⟨rfl, rfl, by decide⟩ rfl
  have ns := (revision_identifies_content.2 [readyNamespace]
    [failNamespace.applied readyNamespace] [failNamespace] "ns-1" readyNamespace rfl rfl).2
    publishNamespace [publishNamespace.applied (failNamespace.applied readyNamespace)]
    ⟨rfl, rfl⟩ rfl
  obtain ⟨c', found, same, stored⟩ := cluster
  obtain ⟨ns', foundNs, sameNs, storedNs⟩ := ns
  obtain rfl : degradeCluster.applied readyCluster = c' := Option.some.inj found
  obtain rfl : failNamespace.applied readyNamespace = ns' := Option.some.inj foundNs
  exact ⟨⟨_, same, stored⟩, _, sameNs, storedNs⟩

/-- A probe and a lifecycle transition change live rows without moving their
revision, and a write guarded by the revision read before still commits. -/
theorem transition_changes_row_at_same_revision :
    (∃ c' table, run clusterWriteStep [readyCluster] [degradeCluster] = some [c'] ∧
      liveCluster [c'] "cl-1" = some c' ∧ c'.revision = readyCluster.revision ∧
      c'.status ≠ readyCluster.status ∧ c'.clusterUID ≠ readyCluster.clusterUID ∧
      renameCluster.GuardedBy "cl-1" readyCluster.revision ∧
      renameCluster.commit [c'] = .ok table) ∧
    ∃ ns' table,
      run namespaceWriteStep [readyNamespace] [failNamespace] = some [ns'] ∧
      liveNamespace [ns'] "ns-1" = some ns' ∧ ns'.revision = readyNamespace.revision ∧
      ns'.lifecycle ≠ readyNamespace.lifecycle ∧
      ns'.lastErrorCode ≠ readyNamespace.lastErrorCode ∧
      publishNamespace.GuardedBy "ns-1" readyNamespace.revision ∧
      publishNamespace.commit [ns'] = .ok table :=
  ⟨⟨_, _, rfl, rfl, rfl, by decide, by decide, ⟨rfl, rfl, by decide⟩, rfl⟩,
    _, _, rfl, rfl, rfl, by decide, by decide, ⟨rfl, rfl⟩, rfl⟩

/-- No update is lost: once a write guarded by a revision has committed, every other writer
that read this revision is refused, whatever was written in between. -/
theorem second_writer_refused :
    (∀ rows table later (first second : ClusterWrite) writes id revision,
      first.GuardedBy id revision → first.commit rows = .ok table →
      run clusterWriteStep table writes = some later →
      second.GuardedBy id revision → (second.commit later).isOk = false) ∧
    ∀ rows table later (first second : NamespaceWrite) writes id revision,
      first.GuardedBy id revision → first.commit rows = .ok table →
      run namespaceWriteStep table writes = some later →
      second.GuardedBy id revision → (second.commit later).isOk = false := by
  constructor
  · intro rows table later first second writes id revision guarded committed ran stale
    cases again : second.commit later with
    | error e => rfl
    | ok last =>
      obtain ⟨c, _, read, stored⟩ := clusterCommit_guarded guarded committed
      obtain ⟨c', found, reread, _⟩ := clusterCommit_guarded stale again
      have grown := (clusterWrites_advance ran).version_le stored found
      have moved : (first.applied c).revision = c.revision + 1 := by
        cases first <;> first | rfl | exact guarded.elim
      omega
  · intro rows table later first second writes id revision guarded committed ran stale
    cases again : second.commit later with
    | error e => rfl
    | ok last =>
      obtain ⟨ns, _, read, stored⟩ := namespaceCommit_guarded guarded committed
      obtain ⟨ns', found, reread, _⟩ := namespaceCommit_guarded stale again
      have grown := (namespaceWrites_advance ran).version_le stored found
      have moved : (first.applied ns).revision = ns.revision + 1 := by
        cases first <;> first | rfl | exact guarded.elim
      omega

theorem second_rename_refused :
    (renameCluster.commit [degradeCluster.applied (renameCluster.applied readyCluster)]).isOk =
      false ∧
    (publishNamespace.commit
      [failNamespace.applied (publishNamespace.applied readyNamespace)]).isOk = false :=
  ⟨second_writer_refused.1 [readyCluster] _ _ renameCluster _ [degradeCluster] "cl-1" 3
      ⟨rfl, rfl, by decide⟩ rfl rfl ⟨rfl, rfl, by decide⟩,
    second_writer_refused.2 [readyNamespace] _ _ publishNamespace _ [failNamespace] "ns-1" 5
      ⟨rfl, rfl⟩ rfl rfl ⟨rfl, rfl⟩⟩

end AisphereHub
