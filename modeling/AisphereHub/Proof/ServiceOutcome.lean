import AisphereHub.Proof.CreationFailure
import AisphereHub.Proof.PoolCoherence
import AisphereHub.Service.ClusterService

/-! What calls that run one at a time keep of the pool and of the credentials in
force. Alone, a rotation that fails after its build leaves its client under a
revision no row has, and the rotation that reaches that revision drops it. A
creation provisions the store that rotations start from. -/
namespace AisphereHub

open Keyed

variable {id : String} {rows : List Cluster} {c : Cluster} {updated : Cluster} {now : Nat}
  {client : Client} {clients : List ClientEntry}

/-- Cached clients belong to known clusters and come from the factory, and the
one cached under the revision in force was built from the credential in force.
The stale cluster is the one whose new credential is stamped while its old
client is still cached. -/
structure Served (K : Kubernetesx) (stale : Option String) (s : KubeStore) : Prop where
  known : ∀ id revision client, cachedClient s.clients id revision = some client →
    (lookup Cluster.id s.clusters id).isSome = true
  built : ∀ id revision client, cachedClient s.clients id revision = some client →
    ∃ clusterID fault, defaultClientFactory K clusterID client.credential fault = .ok client
  issued : ∀ id v, keyView s id = some v → v.credentialRef ∈ s.issuedRefs
  inForce : ∀ id v client, keyView s id = some v → stale ≠ some id →
    cachedClient s.clients id v.credentialRevision = some client →
    ∃ row, lookup CredentialRow.ref s.credentials v.credentialRef = some row ∧
      client.credential = row.credential

/-- Refs that were handed out are never reused: a row under such a ref is the
row that was there. -/
structure Retains (m s : KubeStore) : Prop where
  issued : ∀ ref ∈ m.issuedRefs, ref ∈ s.issuedRefs
  stored : ∀ ref ∈ m.issuedRefs, ∀ row,
    lookup CredentialRow.ref s.credentials ref = some row →
    lookup CredentialRow.ref m.credentials ref = some row

/-- Every row still has the credential ref it had, or it names this server and
its stored credential is this one. -/
def Renewed (url : String) (cred : Credential) (m s : KubeStore) : Prop :=
  ∀ id c, liveCluster s.clusters id = some c →
    (∃ old, liveCluster m.clusters id = some old ∧ old.credentialRef = c.credentialRef) ∨
    (c.serverURL = url ∧ ∀ row,
      lookup CredentialRow.ref s.credentials c.credentialRef = some row →
      row.credential = cred)

section
variable {K : Kubernetesx} {stale : Option String} {m n s s' : KubeStore} {a : Answer}
  {url : String} {cred : Credential}

theorem Retains.refl (s : KubeStore) : Retains s s :=
  ⟨fun _ member => member, fun _ _ _ found => found⟩

theorem Retains.trans (first : Retains m n) (second : Retains n s) : Retains m s where
  issued ref member := second.issued ref (first.issued ref member)
  stored ref member row found :=
    first.stored ref member row (second.stored ref (first.issued ref member) row found)

theorem Retains.issue (uuid : String) :
    Retains s { s with issuedRefs := s.issuedRefs ++ [uuid] } where
  issued _ member := List.mem_append_left _ member
  stored _ _ _ found := found

theorem Retains.put (row : CredentialRow) (fresh : freshRef s row.ref = true)
    (issued : s'.issuedRefs = s.issuedRefs ++ [row.ref])
    (credentials : s'.credentials = s.credentials ++ [row]) : Retains s s' where
  issued ref member := by
    rw [issued]
    exact List.mem_append_left _ member
  stored ref member other found := by
    have different : row.ref ≠ ref := by
      rintro rfl
      exact (freshRef_eq_true fresh).2 member
    rw [credentials, lookup_append] at found
    simpa [different] using found

theorem Retains.delete (ref : String) :
    Retains s { s with credentials := remove CredentialRow.ref s.credentials ref } where
  issued _ member := member
  stored other _ row found := by
    rw [lookup_remove] at found
    split_ifs at found
    exact found

theorem Retains.deleteCredential (ref : String) (a : Answer) :
    Retains s { s with credentials := deleteCredential s.credentials ref a } := by
  unfold AisphereHub.deleteCredential
  cases a.fault with
  | some cause => exact Retains.refl s
  | none => exact Retains.delete ref

theorem Retains.of_effect (effect : CredentialEffect K s a r s' r') : Retains s s' := by
  cases effect with
  | refuse basis uuid fresh => exact .issue uuid
  | put basis ref cred fresh absent alone => exact .put _ fresh rfl rfl
  | delete ref => exact .delete ref
  | quiet | touch | load | build | abandon | stamp | invalidate | enqueue | claim | use =>
    exact ⟨fun _ member => member, fun _ _ _ found => found⟩

theorem Served.table (served : Served K stale s) (clusters : s'.clusters = s.clusters)
    (clients : s'.clients = s.clients) (issued : ∀ ref ∈ s.issuedRefs, ref ∈ s'.issuedRefs)
    (kept : ∀ id v row, keyView s id = some v →
      lookup CredentialRow.ref s.credentials v.credentialRef = some row →
      lookup CredentialRow.ref s'.credentials v.credentialRef = some row) : Served K stale s' := by
  have views : ∀ id, keyView s' id = keyView s id := by
    intro id
    unfold keyView
    rw [clusters]
  refine ⟨?_, ?_, ?_, ?_⟩
  · intro id revision client cached
    rw [clients] at cached
    rw [clusters]
    exact served.known id revision client cached
  · intro id revision client cached
    rw [clients] at cached
    exact served.built id revision client cached
  · intro id v found
    rw [views] at found
    exact issued v.credentialRef (served.issued id v found)
  · intro id v client found fresh cached
    rw [views] at found
    rw [clients] at cached
    obtain ⟨row, stored, same⟩ := served.inForce id v client found fresh cached
    exact ⟨row, kept id v row found stored, same⟩

theorem Served.touch (served : Served K stale s)
    (known : ∀ id, (lookup Cluster.id s.clusters id).isSome = true →
      (lookup Cluster.id rows id).isSome = true)
    (views : ∀ j v', keyView { s with clusters := rows } j = some v' → ∃ v, keyView s j = some v ∧
      v.Keeps v') : Served K stale { s with clusters := rows } where
  known id revision client cached := known id (served.known id revision client cached)
  built := served.built
  issued id v' found := by
    obtain ⟨v, old, sameRef, _⟩ := views id v' found
    rw [sameRef]
    exact served.issued id v old
  inForce id v' client found fresh cached := by
    obtain ⟨v, old, sameRef, sameRevision, _⟩ := views id v' found
    rw [sameRevision] at cached
    rw [sameRef]
    exact served.inForce id v client old fresh cached

theorem Served.store (served : Served K stale s)
    (known : (lookup Cluster.id s.clusters entry.clusterID).isSome = true)
    (built : ∃ clusterID fault,
      defaultClientFactory K clusterID entry.client.credential fault = .ok entry.client)
    (inForce : ∀ v, keyView s entry.clusterID = some v → v.credentialRevision = entry.revision →
      ∃ row, lookup CredentialRow.ref s.credentials v.credentialRef = some row ∧
        entry.client.credential = row.credential) :
    Served K stale { s with clients := storeClient s.clients entry } where
  known id revision client cached := by
    rcases cachedClient_stored cached with ⟨rfl, _, _⟩ | old
    · exact known
    · exact served.known id revision client old
  built id revision client cached := by
    rcases cachedClient_stored cached with ⟨_, _, rfl⟩ | old
    · exact built
    · exact served.built id revision client old
  issued := served.issued
  inForce id v client found fresh cached := by
    rcases cachedClient_stored cached with ⟨rfl, sameRevision, rfl⟩ | old
    · exact inForce v found sameRevision.symm
    · exact served.inForce id v client found fresh old

theorem Served.invalidate (served : Served K stale s) (settled : stale = none ∨ stale = some id) :
    Served K none { s with clients := invalidateCluster s.clients id } := by
  have older : ∀ {j revision client},
      cachedClient (invalidateCluster s.clients id) j revision = some client →
      j ≠ id ∧ cachedClient s.clients j revision = some client := by
    intro j revision client cached
    rw [cachedClient_invalidate] at cached
    split_ifs at cached with same
    exact ⟨same, cached⟩
  refine ⟨?_, ?_, served.issued, ?_⟩
  · intro j revision client cached
    exact served.known j revision client (older cached).2
  · intro j revision client cached
    exact served.built j revision client (older cached).2
  · intro j v client found _ cached
    obtain ⟨other, old⟩ := older cached
    refine served.inForce j v client found ?_ old
    rcases settled with rfl | rfl
    · simp
    · simpa using Ne.symm other

theorem Served.stamp (served : Served K none s)
    (issued : ref ∈ s.issuedRefs)
    (stamped : updateClusterCredential s.clusters id expected revision ref now = .ok (rows,
      updated)) : Served K (some id) { s with clusters := rows } := by
  obtain ⟨v, found, _, views⟩ := keyView_rekeyed stamped
  obtain ⟨_, _, _, _, rfl⟩ := updateClusterCredential_eq_ok.mp stamped
  refine ⟨?_, served.built, ?_, ?_⟩
  · intro j cachedRevision client cached
    have kept := isSome_lookup_amend Cluster.id (Cluster.rekeyed · revision ref now)
      (fun _ => rfl) s.clusters j id
    exact kept.trans (served.known j cachedRevision client cached)
  · intro j w foundW
    rw [views] at foundW
    split_ifs at foundW
    · cases foundW
      exact issued
    · exact served.issued j w foundW
  · intro j w client foundW fresh cached
    rw [views, if_neg (by rintro rfl; exact fresh rfl)] at foundW
    exact served.inForce j w client foundW (by simp) cached

theorem Served.use (served : Served K stale s) (live : liveCluster s.clusters c.id = some c)
    (used : getOrBuild K s c.id c.locator none a = .ok (client, clients)) :
    Served K stale { s with clients := clients } := by
  rcases getOrBuild_eq_ok used with ⟨_, rfl⟩ | ⟨cred, resolved, built, rfl⟩
  · exact served
  · have same := defaultClientFactory_credential built
    refine served.store ?_ ⟨c.id, a.factoryFault, same.symm ▸ built⟩ ?_
    · simp [(liveCluster_eq_some.mp live).1]
    · intro v found _
      rw [keyView_of_live live, Option.some.injEq] at found
      subst found
      exact ⟨_, resolveCredential_stored resolved, same⟩

theorem Served.candidate (served : Served K stale s)
    (found : keyView s id = some v) (other : locator.credentialRevision ≠ v.credentialRevision)
    (used : getOrBuild K s id locator (some cred) a = .ok (client, clients)) :
    Served K stale { s with clients := clients } := by
  rcases getOrBuild_eq_ok used with ⟨_, rfl⟩ | ⟨given, _, built, rfl⟩
  · exact served
  · have same := defaultClientFactory_credential built
    refine served.store ?_ ⟨id, a.factoryFault, same.symm ▸ built⟩ ?_
    · obtain ⟨c, live, _⟩ := keyView_eq_some.mp found
      simp [(liveCluster_eq_some.mp live).1]
    · intro w foundW sameRevision
      rw [found, Option.some.injEq] at foundW
      subst foundW
      exact absurd sameRevision.symm other

theorem Renewed.of_clusters (same : s.clusters = m.clusters) : Renewed url cred m s := by
  intro id c live
  rw [same] at live
  exact .inl ⟨c, live, rfl⟩

theorem Renewed.frame (renewed : Renewed url cred m s)
    (rows : ∀ id c, liveCluster s'.clusters id = some c →
      ∃ old, liveCluster s.clusters id = some old ∧ old.credentialRef = c.credentialRef ∧
        old.serverURL = c.serverURL)
    (stored : ∀ ref row, lookup CredentialRow.ref s'.credentials ref = some row →
      lookup CredentialRow.ref s.credentials ref = some row) : Renewed url cred m s' := by
  intro id c live
  obtain ⟨old, liveOld, sameRef, sameURL⟩ := rows id c live
  rcases renewed id old liveOld with ⟨older, found, same⟩ | ⟨named, only⟩
  · exact .inl ⟨older, found, same.trans sameRef⟩
  · refine .inr ⟨sameURL ▸ named, ?_⟩
    intro row found
    rw [← sameRef] at found
    exact only row (stored old.credentialRef row found)

structure RotationCandidate (K : Kubernetesx) (url : String) (cred : Credential)
    (m s : KubeStore) (c : Cluster) (locator : CredentialLocator) : Prop where
  served : Served K none s
  clusters : s.clusters = m.clusters
  live : liveCluster s.clusters c.id = some c
  named : c.serverURL = url
  revision : locator.credentialRevision = c.credentialRevision + 1
  stored : ∃ row, lookup CredentialRow.ref s.credentials locator.credentialRef = some row ∧
    row.credential = cred
  issued : locator.credentialRef ∈ s.issuedRefs
  unused : ∀ id v, keyView s id = some v → v.credentialRef ≠ locator.credentialRef

def RotationAt (K : Kubernetesx) (id url : String) (cred : Credential) (m s : KubeStore) :
    RotateCall → Prop
  | .authorize request =>
    request.id = id ∧ request.newCred = cred ∧ Served K none s ∧ s.clusters = m.clusters
  | .load request =>
    request.id = id ∧ request.newCred = cred ∧ Served K none s ∧ s.clusters = m.clusters
  | .put request c =>
    request.newCred = cred ∧ Served K none s ∧ s.clusters = m.clusters ∧
      liveCluster s.clusters c.id = some c ∧ c.serverURL = url
  | .build request c locator =>
    request.newCred = cred ∧ RotationCandidate K url cred m s c locator
  | .query _ c locator _ => RotationCandidate K url cred m s c locator
  | .stamp _ c locator _ => RotationCandidate K url cred m s c locator
  | .discard locator _ =>
    Served K none s ∧ s.clusters = m.clusters ∧
      ∀ id v, keyView s id = some v → v.credentialRef ≠ locator.credentialRef
  | .invalidate c _ => Served K (some c.id) s ∧ Renewed url cred m s
  | .announce _ _ => Served K none s ∧ Renewed url cred m s
  | .returned _ => Served K none s ∧ Renewed url cred m s

theorem RotationCandidate.stamp
    (candidate : RotationCandidate K url cred m s c locator)
    (stamped : updateClusterCredential s.clusters c.id expected (c.credentialRevision + 1)
      locator.credentialRef now = .ok (rows, updated)) :
    Served K (some c.id) { s with clusters := rows } ∧
      Renewed url cred m { s with clusters := rows } := by
  refine ⟨candidate.served.stamp candidate.issued stamped, ?_⟩
  intro j c' live
  obtain ⟨_, _, _, _, rfl⟩ := updateClusterCredential_eq_ok.mp stamped
  obtain ⟨old, found, ⟨_, rfl⟩ | ⟨rfl, rfl⟩⟩ :=
    live_amend (Cluster.rekeyed · _ _ _) (fun _ => rfl) (fun _ => rfl) live
  · rw [candidate.clusters] at found
    exact .inl ⟨c', found, rfl⟩
  · right
    obtain ⟨row, stored, given⟩ := candidate.stored
    rw [candidate.live, Option.some.injEq] at found
    subst found
    refine ⟨candidate.named, ?_⟩
    intro other foundOther
    have same : some other = some row := foundOther.symm.trans stored
    cases same
    exact given

theorem RotationAt.put (holds : RotationAt K id url cred m s (.put request c))
    (taken : RotateCall.next K s (.put request c) a = some (s', call')) :
    RotationAt K id url cred m s' call' := by
  obtain ⟨given, served, clusters, live, named⟩ := holds
  simp only [RotateCall.next] at taken
  split_ifs at taken with fresh
  have unissued := (freshRef_eq_true fresh).2
  split at taken
  · cases taken
    refine ⟨served.table rfl rfl ?_ fun _ _ _ _ stored => stored, .of_clusters clusters⟩
    intro ref member
    exact List.mem_append_left _ member
  · rename_i rows locator put
    cases taken
    obtain ⟨_, absent, _, stored⟩ := putWithRef_eq_ok (orFault_eq_ok.mp put).2
    cases stored
    refine ⟨given, ?_⟩
    constructor
    · refine served.table rfl rfl ?_ ?_
      · intro ref member
        exact List.mem_append_left _ member
      · intro j v row _ found
        exact lookup_put found
    · exact clusters
    · exact live
    · exact named
    · rfl
    · have absent' : lookup CredentialRow.ref s.credentials a.uuid = none := absent
      refine ⟨⟨a.uuid, c.id, c.credentialRevision + 1, request.newCred⟩, ?_, given⟩
      simp [lookup_append, absent']
    · simp
    · intro j v found same
      have current : v.credentialRef ∈ s.issuedRefs := served.issued j v found
      rw [same] at current
      exact unissued current

theorem RotationAt.step
    (reads : ∀ c, liveCluster m.clusters id = some c → c.serverURL = url)
    (holds : RotationAt K id url cred m s call) (taken : call.next K s a = some (s', call'))
    : RotationAt K id url cred m s' call' := by
  cases call with simp only [RotateCall.next, reduceCtorEq] at taken
  | authorize request =>
    obtain ⟨here, given, served, clusters⟩ := holds
    split at taken <;> cases taken
    · exact ⟨served, .of_clusters clusters⟩
    · exact ⟨here, given, served, clusters⟩
  | load request =>
    obtain ⟨rfl, given, served, clusters⟩ := holds
    split at taken
    · cases taken
      exact ⟨served, .of_clusters clusters⟩
    · rename_i c read
      have live := getCluster_eq_ok.mp (orFault_eq_ok.mp read).2
      have same := clusterID_of_live live
      split_ifs at taken <;> cases taken
      · exact ⟨served, .of_clusters clusters⟩
      · exact ⟨given, served, clusters, same.symm ▸ live, reads c (clusters ▸ live)⟩
  | put request c => exact RotationAt.put holds taken
  | build request c locator =>
    obtain ⟨given, candidate⟩ := holds
    split at taken <;> cases taken
    · exact ⟨candidate.served, candidate.clusters, candidate.unused⟩
    · rename_i client clients built
      have other : locator.credentialRevision ≠ c.keyView.credentialRevision := by
        rw [candidate.revision]
        exact Int.ne_of_gt (Int.lt_succ c.credentialRevision)
      exact { candidate with
        served := candidate.served.candidate (keyView_of_live candidate.live) other built }
  | query request c locator client =>
    split at taken
    · cases taken
      exact ⟨holds.served, holds.clusters, holds.unused⟩
    · split_ifs at taken <;> cases taken
      · exact ⟨holds.served, holds.clusters, holds.unused⟩
      · exact holds
  | stamp request c locator client =>
    split at taken <;> cases taken
    · exact ⟨holds.served, holds.clusters, holds.unused⟩
    · rename_i rows updated stamped
      exact holds.stamp (orFault_eq_ok.mp stamped).2
  | discard locator failure =>
    obtain ⟨served, clusters, unused⟩ := holds
    cases taken
    refine ⟨?_, .of_clusters clusters⟩
    unfold deleteCredential
    cases a.fault with
    | some cause => exact served
    | none =>
      refine served.table rfl rfl (fun _ member => member) ?_
      intro j v row found stored
      exact lookup_delete (unused j v found) stored
  | invalidate c updated =>
    obtain ⟨served, renewed⟩ := holds
    cases taken
    exact ⟨served.invalidate (.inr rfl), renewed⟩
  | announce c updated =>
    obtain ⟨served, renewed⟩ := holds
    cases taken
    exact ⟨served.table rfl rfl (fun _ member => member) fun _ _ _ _ stored => stored, renewed⟩

theorem Renewed.transition (renewed : Renewed url cred m s)
    (committed : updateClusterStatus s.clusters id expected next extra now = .ok (rows, updated)) :
    Renewed url cred m { s with clusters := rows } := by
  obtain ⟨_, _, _, rfl⟩ := updateClusterStatus_eq_ok committed
  refine renewed.frame ?_ fun _ _ found => found
  intro j c live
  obtain ⟨old, found, ⟨_, rfl⟩ | ⟨_, rfl⟩⟩ :=
    live_amend (Cluster.transitioned · next extra now) (fun _ => rfl) (fun _ => rfl) live
  · exact ⟨c, found, rfl, rfl⟩
  · exact ⟨old, found, rfl, rfl⟩

theorem Served.transition (served : Served K stale s)
    (committed : updateClusterStatus s.clusters id expected next extra now = .ok (rows, updated)) :
    Served K stale { s with clusters := rows } := by
  refine served.touch ?_ (keyView_transitioned committed)
  obtain ⟨_, _, _, rfl⟩ := updateClusterStatus_eq_ok committed
  intro j known
  exact (isSome_lookup_amend Cluster.id (Cluster.transitioned · next extra now)
    (fun _ => rfl) s.clusters j id).trans known

/-- A creation that runs alone and has stored its row and credential. Nothing is
cached for the new cluster, and no other row has its ref. -/
structure CreationStored (K : Kubernetesx) (url : String) (cred : Credential)
    (m s : KubeStore) (created : Cluster) : Prop where
  served : Served K none s
  renewed : Renewed url cred m s
  live : liveCluster s.clusters created.id = some created
  stored : ∃ row, lookup CredentialRow.ref s.credentials created.credentialRef = some row ∧
    row.credential = cred
  uncached : ∀ revision, cachedClient s.clients created.id revision = none
  sole : ∀ id v, keyView s id = some v → v.credentialRef = created.credentialRef →
    id = created.id

def CreationAt (K : Kubernetesx) (url : String) (cred : Credential) (m s : KubeStore) :
    CreateClusterCall → Prop
  | .validate request =>
    request.c.serverURL = url ∧ request.cred = cred ∧ Served K none s ∧ s.clusters = m.clusters
  | .insert c given _ =>
    c.serverURL = url ∧ given = cred ∧ Served K none s ∧ s.clusters = m.clusters
  | .relate created given _ => given = cred ∧ CreationStored K url cred m s created
  | .build created given => given = cred ∧ CreationStored K url cred m s created
  | .revoke created _ => CreationStored K url cred m s created
  | .forget created _ => CreationStored K url cred m s created
  | _ => Served K none s ∧ Renewed url cred m s

theorem keyView_inserted
    (free : lookup Cluster.id s.clusters c.id = none) (live : c.live = true)
    (found : (liveCluster (s.clusters ++ [c]) j).map Cluster.keyView = some v) :
    (j = c.id ∧ v = c.keyView) ∨ (j ≠ c.id ∧ keyView s j = some v) := by
  unfold liveCluster at found
  rw [select_append free live] at found
  split_ifs at found with same
  · exact .inl ⟨same, (Option.some.inj found).symm⟩
  · exact .inr ⟨same, found⟩

theorem creationStored_insert (served : Served K none s) (clusters : s.clusters = m.clusters)
    (named : c.serverURL = url) (live : c.live = true) (fresh : freshRef s c.credentialRef = true)
    (inserted : insertWithCredential { s with issuedRefs := s.issuedRefs ++ [c.credentialRef] } c
      cred = .ok s') : CreationStored K url cred m s' c := by
  obtain ⟨free, _, absent, rfl⟩ := insertWithCredential_eq_ok inserted
  have rows : ∀ j, liveCluster (s.clusters ++ [c]) j =
      if j = c.id then some c else liveCluster s.clusters j :=
    select_append free live
  have uncached : ∀ revision, cachedClient s.clients c.id revision = none := by
    intro revision
    cases cached : cachedClient s.clients c.id revision with
    | none => rfl
    | some client =>
      have known := served.known c.id revision client cached
      rw [free] at known
      cases known
  have unissued := (freshRef_eq_true fresh).2
  constructor
  · constructor
    · intro j revision client cached
      have known := served.known j revision client cached
      rw [lookup_append, Option.isSome_or, known]
      rfl
    · exact served.built
    · intro j v found
      rcases keyView_inserted free live found with ⟨_, rfl⟩ | ⟨_, old⟩
      · exact List.mem_append_right _ (List.mem_singleton_self _)
      · exact List.mem_append_left _ (served.issued j v old)
    · intro j v client found _ cached
      rcases keyView_inserted free live found with ⟨rfl, _⟩ | ⟨_, old⟩
      · exact absurd (cached.symm.trans (uncached _)) (by simp)
      · obtain ⟨row, stored, same⟩ := served.inForce j v client old (by simp) cached
        exact ⟨row, lookup_put stored, same⟩
  · intro j c' found
    simp only [rows] at found
    split_ifs at found
    · cases found
      refine .inr ⟨named, ?_⟩
      intro row stored
      simp only [lookup_append, absent] at stored
      cases (by simpa using stored : (⟨c.credentialRef, c.id, 1, cred⟩ : CredentialRow) = row)
      rfl
    · exact .inl ⟨c', clusters ▸ found, rfl⟩
  · simp [rows]
  · exact ⟨⟨c.credentialRef, c.id, 1, cred⟩, by simp [lookup_append, absent], rfl⟩
  · exact uncached
  · intro j v found sameRef
    rcases keyView_inserted free live found with ⟨same, _⟩ | ⟨_, old⟩
    · exact same
    · exact absurd (sameRef ▸ served.issued j v old) unissued

theorem CreationStored.build (stored : CreationStored K url cred m s created)
    (built : getOrBuild K s created.id created.locator (some cred) a = .ok (client, clients)) :
    Served K none { s with clients := clients } := by
  rcases getOrBuild_eq_ok built with ⟨cached, _⟩ | ⟨given, resolved, made, rfl⟩
  · exact absurd (cached.symm.trans (stored.uncached _)) (by simp)
  · cases resolved
    have same := defaultClientFactory_credential made
    refine stored.served.store ?_ ⟨created.id, a.factoryFault, same.symm ▸ made⟩ ?_
    · simp [(liveCluster_eq_some.mp stored.live).1]
    · intro v found _
      rw [keyView_of_live stored.live, Option.some.injEq] at found
      subst found
      obtain ⟨row, lookedUp, given⟩ := stored.stored
      exact ⟨row, lookedUp, same.trans given.symm⟩

theorem CreationStored.forget
    (stored : CreationStored K url cred m s created) (a : Answer) : Served K none
        { s with credentials := deleteCredential s.credentials created.credentialRef a } ∧
      Renewed url cred m
        { s with credentials := deleteCredential s.credentials created.credentialRef a } := by
  unfold deleteCredential
  cases a.fault with
  | some cause => exact ⟨stored.served, stored.renewed⟩
  | none =>
    constructor
    · refine ⟨stored.served.known, stored.served.built, stored.served.issued, ?_⟩
      intro j v client found _ cached
      obtain ⟨row, lookedUp, same⟩ := stored.served.inForce j v client found (by simp) cached
      refine ⟨row, lookup_delete ?_ lookedUp, same⟩
      intro sameRef
      obtain rfl := stored.sole j v found sameRef
      exact absurd (cached.symm.trans (stored.uncached _)) (by simp)
    · refine stored.renewed.frame (fun j c live => ⟨c, live, rfl, rfl⟩) ?_
      intro ref row found
      rw [lookup_remove] at found
      split_ifs at found
      exact found

theorem CreationAt.step (holds : CreationAt K url cred m s call)
    (taken : call.next K s a = some (s', call')) : CreationAt K url cred m s' call' := by
  cases call with simp only [CreateClusterCall.next, reduceCtorEq] at taken
  | validate request =>
    obtain ⟨named, given, served, clusters⟩ := holds
    split at taken <;> cases taken
    · exact ⟨served, .of_clusters clusters⟩
    · rename_i c subject validated
      obtain ⟨_, _, _, _, _, _, _, sameURL⟩ := createClusterValidated_eq_ok validated
      exact ⟨sameURL.trans named, given, served, clusters⟩
  | insert c given subject =>
    obtain ⟨named, rfl, served, clusters⟩ := holds
    split_ifs at taken with fresh
    split at taken <;> cases taken
    · refine ⟨served.table rfl rfl ?_ fun _ _ _ _ stored => stored, .of_clusters clusters⟩
      intro ref member
      exact List.mem_append_left _ member
    · rename_i inserted
      exact ⟨rfl, creationStored_insert served clusters named rfl fresh
        (orFault_eq_ok.mp inserted).2⟩
  | relate created given subject =>
    obtain ⟨rfl, stored⟩ := holds
    split at taken <;> cases taken
    · exact stored
    · refine ⟨rfl, { stored with served := ?_ }⟩
      exact stored.served.table rfl rfl (fun _ member => member) fun _ _ _ _ found => found
  | revoke created failure =>
    split at taken <;> cases taken
    · exact holds
    · refine { holds with served := ?_ }
      exact holds.served.table rfl rfl (fun _ member => member) fun _ _ _ _ found => found
  | forget created failure =>
    cases taken
    exact holds.forget a
  | build created given =>
    obtain ⟨rfl, stored⟩ := holds
    split at taken <;> cases taken
    · exact ⟨stored.served, stored.renewed⟩
    · rename_i client clients built
      exact ⟨stored.build built, stored.renewed⟩
  | query created client =>
    split at taken <;> cases taken <;> exact holds
  | fail created failure | ready created probe | degrade created cause =>
    split at taken <;> cases taken
    · exact holds
    · rename_i rows updated marked
      have committed := (orFault_eq_ok.mp marked).2
      exact ⟨holds.1.transition committed, holds.2.transition committed⟩

end

end AisphereHub
