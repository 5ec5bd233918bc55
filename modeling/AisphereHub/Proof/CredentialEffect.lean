import AisphereHub.Biz.ClusterSystem

/-! What one step of the cluster system does to the credentials in force, to the
credential table, to the cleanup queue and to the cached clients. Every later
result about rotations goes through `next_credentialEffect`. -/
namespace AisphereHub

variable {id : String} {now : Nat}

structure KeyView where
  credentialRef : String
  credentialRevision : Int
  revision : Int
deriving DecidableEq

def Cluster.keyView (c : Cluster) : KeyView :=
  ⟨c.credentialRef, c.credentialRevision, c.revision⟩

variable {rows : List Cluster} {updated : Cluster}

def keyView (s : KubeStore) (id : String) : Option KeyView :=
  (liveCluster s.clusters id).map Cluster.keyView

structure Basis where
  id : String
  view : KeyView
deriving DecidableEq

/-- What a call holds of the credential table: nothing, the row it will rotate,
a stored credential that may become current, or a ref on its way out. -/
inductive Role where
  | idle
  | loaded (basis : Basis)
  | candidate (basis : Basis) (locator : CredentialLocator) (cred : Credential)
      (client : Option Client)
  | doomed (ref : String)
deriving DecidableEq

def RotateRequest.basis (request : RotateRequest) (c : Cluster) : Basis :=
  ⟨c.id, c.credentialRef, c.credentialRevision, request.expectedRevision⟩

def RotateCall.role : RotateCall → Role
  | .put request c => .loaded (request.basis c)
  | .build request c locator => .candidate (request.basis c) locator request.newCred none
  | .query request c locator client =>
    .candidate (request.basis c) locator request.newCred (some client)
  | .stamp request c locator client =>
    .candidate (request.basis c) locator request.newCred (some client)
  | .discard locator _ => .doomed locator.credentialRef
  | .invalidate c _ => .doomed c.credentialRef
  | .announce c _ => .doomed c.credentialRef
  | _ => .idle

def CleanupCall.role : CleanupCall → Role
  | .clean event =>
    match cleanupRef event with
    | some ref => .doomed ref
    | none => .idle
  | _ => .idle

def ClusterCall.role : ClusterCall → Role
  | .rotate call => call.role
  | .cleanup call => call.role
  | _ => .idle

def KeyView.Keeps (old new : KeyView) : Prop :=
  new.credentialRef = old.credentialRef ∧ new.credentialRevision = old.credentialRevision ∧
    old.revision ≤ new.revision

inductive CredentialEffect (K : Kubernetesx) (s : KubeStore) (a : Answer) :
    Role → KubeStore → Role → Prop where
  | quiet {r r' : Role} (kept : r' = r ∨ r' = .idle) : CredentialEffect K s a r s r'
  | touch {rows : List Cluster}
      (views : ∀ j v', keyView { s with clusters := rows } j = some v' →
        ∃ v, keyView s j = some v ∧ v.Keeps v') :
      CredentialEffect K s a .idle { s with clusters := rows } .idle
  | load (basis : Basis) (found : keyView s basis.id = some basis.view) :
      CredentialEffect K s a .idle s (.loaded basis)
  | refuse (basis : Basis) (uuid : String) (fresh : freshRef s uuid = true) :
      CredentialEffect K s a (.loaded basis) { s with issuedRefs := s.issuedRefs ++ [uuid] } .idle
  | put (basis : Basis) (ref : String) (cred : Credential) (fresh : freshRef s ref = true)
      (absent : Keyed.lookup CredentialRow.ref s.credentials ref = none)
      (alone : ∀ row ∈ s.credentials, row.clusterID = basis.id →
        row.credentialRevision ≠ basis.view.credentialRevision + 1) :
      CredentialEffect K s a (.loaded basis)
        { s with
          issuedRefs := s.issuedRefs ++ [ref]
          credentials := s.credentials ++
            [⟨ref, basis.id, basis.view.credentialRevision + 1, cred⟩] }
        (.candidate basis ⟨basis.id, ref, basis.view.credentialRevision + 1⟩ cred none)
  | build (basis : Basis) (locator : CredentialLocator) (cred : Credential) (client : Client)
      (clients : List ClientEntry)
      (served : getOrBuild K s basis.id locator (some cred) a = .ok (client, clients)) :
      CredentialEffect K s a (.candidate basis locator cred none)
        { s with clients := clients } (.candidate basis locator cred (some client))
  | abandon (basis : Basis) (locator : CredentialLocator) (cred : Credential)
      (client : Option Client) :
      CredentialEffect K s a (.candidate basis locator cred client) s
        (.doomed locator.credentialRef)
  | stamp (basis : Basis) (locator : CredentialLocator) (cred : Credential) (client : Client)
      (rows : List Cluster) (v : KeyView) (found : keyView s basis.id = some v)
      (same : v.revision = basis.view.revision)
      (views : ∀ j, keyView { s with clusters := rows } j =
        if j = basis.id then
          some ⟨locator.credentialRef, basis.view.credentialRevision + 1, v.revision + 1⟩
        else keyView s j) :
      CredentialEffect K s a (.candidate basis locator cred (some client))
        { s with clusters := rows } (.doomed basis.view.credentialRef)
  | delete (ref : String) :
      CredentialEffect K s a (.doomed ref)
        { s with credentials := Keyed.remove CredentialRow.ref s.credentials ref } .idle
  | invalidate {r : Role} (clusterID : String) :
      CredentialEffect K s a r { s with clients := invalidateCluster s.clients clusterID } r
  | enqueue (event : OutboxEvent) (ref : String)
      (asked : event.payload.lookup "old_credential_ref" = some ref) :
      CredentialEffect K s a (.doomed ref) { s with outbox := s.outbox ++ [event] } .idle
  | claim (event : OutboxEvent) (ref : String) (member : event ∈ s.outbox)
      (typed : event.eventType = credentialCleanupEventType)
      (asked : cleanupRef event = some ref) :
      CredentialEffect K s a .idle s (.doomed ref)
  | use (locator : CredentialLocator) (client : Client) (clients : List ClientEntry)
      (served : getOrBuild K s locator.clusterID locator none a = .ok (client, clients)) :
      CredentialEffect K s a .idle { s with clients := clients } .idle

theorem keyView_of_live (found : liveCluster s.clusters id = some c)
    : keyView s id = some c.keyView := by
  simp [keyView, found]

theorem keyView_eq_some :
    keyView s id = some v ↔ ∃ c, liveCluster s.clusters id = some c ∧ c.keyView = v := by
  simp [keyView]

theorem keyView_amend (f : Cluster → Cluster) (keep : ∀ c, (f c).id = c.id)
    (keepLive : ∀ c, (f c).live = c.live) (keeps : ∀ c : Cluster, c.keyView.Keeps (f c).keyView)
    (j : String) (v' : KeyView)
    (found : keyView { s with clusters := Keyed.amend Cluster.id s.clusters id f } j = some v') :
    ∃ v, keyView s j = some v ∧ v.Keeps v' := by
  obtain ⟨c', live, rfl⟩ := keyView_eq_some.mp found
  unfold liveCluster at live
  rw [Keyed.select_amend f keep keepLive] at live
  split_ifs at live with same
  · obtain ⟨c, old, rfl⟩ := Option.map_eq_some_iff.mp live
    exact ⟨c.keyView, same ▸ keyView_of_live old, keeps c⟩
  · exact ⟨c'.keyView, keyView_of_live live, rfl, rfl, Int.le_refl _⟩

theorem keyView_transitioned
    (committed : updateClusterStatus s.clusters id expected next extra now = .ok (rows, updated))
    (j : String) (v' : KeyView) (found : keyView { s with clusters := rows } j = some v') :
    ∃ v, keyView s j = some v ∧ v.Keeps v' := by
  obtain ⟨_, _, _, rfl⟩ := updateClusterStatus_eq_ok committed
  refine keyView_amend (Cluster.transitioned · next extra now) ?_ ?_ ?_ j v' found
  · intro c
    rfl
  · intro c
    rfl
  · intro c
    exact ⟨rfl, rfl, Int.le_refl _⟩

theorem keyView_updated
    (committed : updateClusterWithCAS s.clusters id expectedRevision updates now = .ok (rows,
      updated))
    (j : String) (v' : KeyView) (found : keyView { s with clusters := rows } j = some v') :
    ∃ v, keyView s j = some v ∧ v.Keeps v' := by
  by_cases masked : updates = []
  · obtain rfl := updateClusterWithCAS_empty masked committed
    exact ⟨v', found, rfl, rfl, Int.le_refl _⟩
  · obtain ⟨_, _, _, _, rfl⟩ := updateClusterWithCAS_eq_ok masked committed
    refine keyView_amend (Cluster.patched · updates now) ?_ ?_ ?_ j v' found
    · intro c
      exact (c.patched_frame updates now).1
    · intro c
      exact (c.patched_frame updates now).2.1
    · intro c
      obtain ⟨_, _, ref, revision⟩ := c.patched_frame updates now
      exact ⟨ref, revision, Int.le_of_lt (Int.lt_succ c.revision)⟩

theorem keyView_rekeyed
    (committed : updateClusterCredential s.clusters id expected newRevision ref now = .ok (rows,
      updated)) : ∃ v, keyView s id = some v ∧ v.revision = expected ∧
      ∀ j, keyView { s with clusters := rows } j =
        if j = id then some ⟨ref, newRevision, v.revision + 1⟩ else keyView s j := by
  obtain ⟨c, found, revision, _, rfl⟩ := updateClusterCredential_eq_ok.mp committed
  refine ⟨c.keyView, keyView_of_live found, revision, ?_⟩
  intro j
  unfold keyView liveCluster at *
  rw [Keyed.select_amend (Cluster.rekeyed · newRevision ref now) (fun _ => rfl) (fun _ => rfl)]
  split_ifs
  · simp only [found, Option.map_some]
    rfl
  · rfl

variable {K : Kubernetesx} {s s' : KubeStore} {a : Answer}

theorem deleteCredential_effect (ref : String) : CredentialEffect K s a (.doomed ref)
      { s with credentials := deleteCredential s.credentials ref a } .idle := by
  unfold deleteCredential
  cases a.fault with
  | some cause => exact .quiet (.inr rfl)
  | none => exact .delete ref

theorem rotate_clusters {call : RotateCall} (taken : call.next K s a = some (s', call')) :
    s'.clusters = s.clusters ∨ ∃ request c locator client updated,
      call = .stamp request c locator client ∧ call' = .invalidate c updated ∧
      updateClusterCredential s.clusters c.id request.expectedRevision
        (c.credentialRevision + 1) locator.credentialRef a.now = .ok (s'.clusters, updated) := by
  cases call with simp only [RotateCall.next, reduceCtorEq] at taken
  | authorize request | build request c locator =>
    split at taken <;> cases taken <;> exact .inl rfl
  | load request | query request c locator client =>
    split at taken
    · cases taken
      exact .inl rfl
    · split_ifs at taken <;> cases taken <;> exact .inl rfl
  | put request c =>
    split_ifs at taken
    split at taken <;> cases taken <;> exact .inl rfl
  | stamp request c locator client =>
    split at taken
    · cases taken
      exact .inl rfl
    · rename_i rows updated stamped
      cases taken
      exact .inr ⟨request, c, locator, client, updated, rfl, rfl, (orFault_eq_ok.mp stamped).2⟩
  | discard locator failure | invalidate c updated | announce c updated =>
    cases taken
    exact .inl rfl

theorem rotate_credentialEffect {call : RotateCall}
    (taken : call.next K s a = some (s', call')) :
    CredentialEffect K s a call.role s' call'.role := by
  cases call with simp only [RotateCall.next, reduceCtorEq] at taken
  | authorize request =>
    split at taken <;> cases taken <;> exact .quiet (.inr rfl)
  | load request =>
    split at taken
    · cases taken
      exact .quiet (.inr rfl)
    · rename_i c read
      split_ifs at taken with revision <;> cases taken
      · exact .quiet (.inr rfl)
      · have live := getCluster_eq_ok.mp (orFault_eq_ok.mp read).2
        have same : request.id = c.id := (clusterID_of_live live).symm
        apply CredentialEffect.load (request.basis c)
        rw [not_not] at revision
        rw [same] at live
        simp only [RotateRequest.basis, ← revision]
        exact keyView_of_live live
  | put request c =>
    split_ifs at taken with fresh
    split at taken
    · cases taken
      exact .refuse (request.basis c) a.uuid fresh
    · rename_i rows locator put
      cases taken
      obtain ⟨_, absent, alone, stored⟩ := putWithRef_eq_ok (orFault_eq_ok.mp put).2
      cases stored
      exact .put (request.basis c) a.uuid request.newCred fresh absent alone
  | build request c locator =>
    split at taken
    · cases taken
      exact .abandon (request.basis c) locator request.newCred none
    · rename_i client clients served
      cases taken
      exact .build (request.basis c) locator request.newCred client clients served
  | query request c locator client =>
    split at taken
    · cases taken
      exact .abandon (request.basis c) locator request.newCred (some client)
    · split_ifs at taken <;> cases taken
      · exact .abandon (request.basis c) locator request.newCred (some client)
      · exact .quiet (.inl rfl)
  | stamp request c locator client =>
    split at taken
    · cases taken
      exact .abandon (request.basis c) locator request.newCred (some client)
    · rename_i rows updated stamped
      cases taken
      obtain ⟨v, found, same, views⟩ := keyView_rekeyed (orFault_eq_ok.mp stamped).2
      exact .stamp (request.basis c) locator request.newCred client rows v found same views
  | discard locator failure =>
    cases taken
    exact deleteCredential_effect locator.credentialRef
  | invalidate c updated =>
    cases taken
    exact .invalidate c.id
  | announce c updated =>
    cases taken
    unfold enqueue
    cases a.fault with
    | some cause => exact .quiet (.inr rfl)
    | none => exact .enqueue (credentialCleanupEvent c) c.credentialRef rfl

theorem probe_credentialEffect {call : ProbeCall}
    (taken : call.next K s a = some (s', call')) : CredentialEffect K s a .idle s' .idle := by
  cases call with simp only [ProbeCall.next, reduceCtorEq] at taken
  | authorize principal id | load id | query c client =>
    split at taken <;> cases taken <;> exact .quiet (.inr rfl)
  | build c =>
    split at taken
    · cases taken
      exact .quiet (.inr rfl)
    · rename_i client clients served
      cases taken
      exact .use c.locator client clients served
  | record c probe =>
    split at taken
    · cases taken
      exact .quiet (.inr rfl)
    · rename_i rows updated recorded
      cases taken
      exact .touch (keyView_transitioned (orFault_eq_ok.mp recorded).2)
  | degrade c cause =>
    split at taken
    · cases taken
      exact .quiet (.inr rfl)
    · rename_i rows updated degraded
      cases taken
      exact .touch (keyView_transitioned (orFault_eq_ok.mp degraded).2)
  | reread id =>
    cases taken
    exact .quiet (.inr rfl)

theorem update_credentialEffect {call : UpdateCall}
    (taken : call.next s a = some (s', call')) : CredentialEffect K s a .idle s' .idle := by
  cases call with simp only [UpdateCall.next, reduceCtorEq] at taken
  | authorize request | validate request =>
    split at taken <;> cases taken <;> exact .quiet (.inr rfl)
  | write request =>
    split at taken
    · cases taken
      exact .quiet (.inr rfl)
    · rename_i rows updated written
      cases taken
      exact .touch (keyView_updated (orFault_eq_ok.mp written).2)

theorem cleanup_credentialEffect {call : CleanupCall}
    (taken : call.next s a = some (s', call')) :
    CredentialEffect K s a call.role s' call'.role := by
  cases call with
  | claim index =>
    simp only [CleanupCall.next] at taken
    split at taken
    · cases taken
      exact .quiet (.inr rfl)
    · split at taken
      · cases taken
      · rename_i event found
        split_ifs at taken with typed
        cases taken
        cases asked : cleanupRef event with
        | none =>
          simp only [CleanupCall.role, asked]
          exact .quiet (.inr rfl)
        | some ref =>
          simp only [CleanupCall.role, asked]
          exact .claim event ref (List.mem_of_getElem? found) typed asked
  | clean event =>
    cases asked : cleanupRef event with
    | none =>
      simp only [CleanupCall.next, asked] at taken
      cases taken
      exact .quiet (.inr rfl)
    | some ref =>
      simp only [CleanupCall.next, asked] at taken
      cases taken
      simp only [CleanupCall.role, asked]
      exact deleteCredential_effect ref
  | returned result => cases taken

theorem next_credentialEffect {call : ClusterCall}
    (taken : call.next K s a = some (s', call')) :
    CredentialEffect K s a call.role s' call'.role := by
  cases call with
  | rotate call =>
    obtain ⟨_, inner, rfl⟩ := Threads.lifted_step taken
    exact rotate_credentialEffect inner
  | probe call =>
    obtain ⟨_, inner, rfl⟩ := Threads.lifted_step taken
    exact probe_credentialEffect inner
  | update call =>
    obtain ⟨_, inner, rfl⟩ := Threads.lifted_step taken
    exact update_credentialEffect inner
  | use clusterID =>
    simp only [ClusterCall.next] at taken
    split at taken
    · cases taken
      exact .quiet (.inr rfl)
    · rename_i client clients served
      cases taken
      unfold useClient at served
      split at served
      · cases served
      · rename_i c read
        exact .use c.locator client clients served
  | invalidate clusterID =>
    cases taken
    exact .invalidate clusterID
  | cleanup call =>
    obtain ⟨_, inner, rfl⟩ := Threads.lifted_step taken
    exact cleanup_credentialEffect inner
  | used | invalidated => cases taken

end AisphereHub
