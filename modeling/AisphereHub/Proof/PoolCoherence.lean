import AisphereHub.Proof.CredentialLiveness

/-! The cached clients against the credentials in force, while rotations build and
probe clients of their own. -/
namespace AisphereHub

open Keyed Transition Threads

variable {locator : CredentialLocator} {client : Client} {clients : List ClientEntry}
  {cred : Credential}

/-- One stored credential for each cluster and revision, and a client cached
under the revision in force was built from the credential in force. -/
structure PoolCoherent (s : KubeStore) : Prop where
  unique : ∀ row ∈ s.credentials, ∀ other ∈ s.credentials, row.clusterID = other.clusterID →
    row.credentialRevision = other.credentialRevision → row = other
  cached : ∀ id v client row, keyView s id = some v →
    cachedClient s.clients id v.credentialRevision = some client →
    lookup CredentialRow.ref s.credentials v.credentialRef = some row →
    client.credential = row.credential

/-- A rotation that has its client got one of the credential it rotates to, and
so does whoever asks the pool for the claimed revision. -/
def Probed (s : KubeStore) : Role → Prop
  | .candidate basis locator cred (some client) =>
    client.credential = cred ∧
      ∀ other, cachedClient s.clients basis.id locator.credentialRevision = some other →
        other.credential = cred
  | _ => True

section
variable {K : Kubernetesx} {s s' : KubeStore} {a : Answer} {r r' u : Role}

theorem served_from_store
    (served : getOrBuild K s locator.clusterID locator none a = .ok (client, clients)) :
    (cachedClient s.clients locator.clusterID locator.credentialRevision = some client ∧
      clients = s.clients) ∨ ((∃ row ∈ s.credentials, row.ref = locator.credentialRef ∧
        row.clusterID = locator.clusterID ∧ row.credentialRevision = locator.credentialRevision ∧
        client.credential = row.credential) ∧ clients =
        storeClient s.clients ⟨locator.clusterID, client, locator.credentialRevision⟩) := by
  rcases getOrBuild_eq_ok served with hit | ⟨c, resolved, built, rfl⟩
  · exact .inl hit
  · right
    have stored := resolveCredential_stored resolved
    exact ⟨⟨_, mem_of_lookup stored, rfl, rfl, rfl,
      defaultClientFactory_credential built⟩, rfl⟩

/-- What the pool serves for a given credential is built from it, unless a
client is cached under the revision. -/
theorem served_given {id}
    (served : getOrBuild K s id locator (some cred) a = .ok (client, clients)) :
    (cachedClient s.clients id locator.credentialRevision = some client ∧ clients = s.clients) ∨
    (client.credential = cred ∧
      clients = storeClient s.clients ⟨id, client, locator.credentialRevision⟩) := by
  rcases getOrBuild_eq_ok served with hit | ⟨c, resolved, built, rfl⟩
  · exact .inl hit
  · cases resolved
    exact .inr ⟨defaultClientFactory_credential built, rfl⟩

theorem cachedClient_stored {id}
    (cached : cachedClient (storeClient clients entry) id revision = some client) :
    (id = entry.clusterID ∧ entry.revision = revision ∧ entry.client = client) ∨
      cachedClient clients id revision = some client := by
  unfold cachedClient storeClient at cached
  rw [Keyed.lookup_append, Keyed.lookup_remove] at cached
  by_cases here : id = entry.clusterID
  · simp [here] at cached
    exact .inl ⟨here, cached⟩
  · simp [here, Ne.symm here] at cached
    exact .inr (by simpa [cachedClient] using cached)

theorem PoolCoherent.of_table (coherent : PoolCoherent s) (holds : Provisioned s)
    (views : ∀ j, keyView s' j = keyView s j) (clients : s'.clients = s.clients)
    (unique : ∀ row ∈ s'.credentials, ∀ other ∈ s'.credentials, row.clusterID = other.clusterID →
      row.credentialRevision = other.credentialRevision → row = other)
    (table : ∀ ref row, Current s ref → lookup CredentialRow.ref s.credentials ref = some row →
      lookup CredentialRow.ref s'.credentials ref = some row) : PoolCoherent s' where
  unique := unique
  cached id v client row found cached stored := by
    rw [views] at found
    rw [clients] at cached
    obtain ⟨cred, named⟩ := holds.named id v found
    have kept := table _ _ ⟨id, v, found, rfl⟩ named
    rw [stored] at kept
    cases kept
    exact coherent.cached id v client _ found cached named

theorem PoolCoherent.step (effect : CredentialEffect K s a r s' r') (holds : Provisioned s)
    (sound : Sound s r) (coherent : PoolCoherent s) (probed : Probed s r) : PoolCoherent s' := by
  cases effect with
  | quiet | load | abandon | claim => exact coherent
  | touch views =>
    refine ⟨coherent.unique, ?_⟩
    intro id v' client row found' cached stored
    obtain ⟨v, found, sameRef, sameRevision, _⟩ := views id v' found'
    rw [sameRef] at stored
    rw [sameRevision] at cached
    exact coherent.cached id v client row found cached stored
  | refuse | enqueue => exact ⟨coherent.unique, coherent.cached⟩
  | put basis ref cred fresh absent alone =>
    refine coherent.of_table holds (fun _ => rfl) rfl ?_ fun current row _ => lookup_put
    intro row member other memberOther cluster revision
    rcases List.mem_append.mp member with old | new <;>
      rcases List.mem_append.mp memberOther with oldOther | newOther
    · exact coherent.unique row old other oldOther cluster revision
    · cases List.mem_singleton.mp newOther
      exact absurd revision (alone row old cluster)
    · cases List.mem_singleton.mp new
      exact absurd revision.symm (alone other oldOther cluster.symm)
    · rw [List.mem_singleton.mp new, List.mem_singleton.mp newOther]
  | build basis locator cred client clients served =>
    refine ⟨coherent.unique, ?_⟩
    intro id v other row found cached stored
    rcases served_given served with ⟨_, rfl⟩ | ⟨_, rfl⟩
    · exact coherent.cached id v other row found cached stored
    · rcases cachedClient_stored cached with ⟨rfl, same, _⟩ | old
      · obtain ⟨current, named⟩ := holds.named basis.id v found
        have claimed := sound.stored _ rfl
        have placed := (sound.placed _ basis rfl rfl).1
        have equal := coherent.unique _ (mem_of_lookup named) _ (mem_of_lookup claimed)
          placed.symm same.symm
        exact absurd ⟨basis.id, v, found, congrArg CredentialRow.ref equal⟩ (sound.notCurrent _ rfl)
      · exact coherent.cached id v other row found old stored
  | stamp basis locator cred client rows v found same views =>
    have next := (sound.placed _ basis rfl rfl).2
    refine ⟨coherent.unique, ?_⟩
    intro id w other row found' cached stored
    rw [views] at found'
    split_ifs at found' with here
    · cases found'
      subst here
      have claimed := sound.stored _ rfl
      rw [stored] at claimed
      cases claimed
      rw [← next] at cached
      exact probed.2 other cached
    · exact coherent.cached id w other row found' cached stored
  | delete ref =>
    refine coherent.of_table holds (fun _ => rfl) rfl ?_ ?_
    · intro row member other memberOther
      exact coherent.unique row (List.mem_filter.mp member).1 other
        (List.mem_filter.mp memberOther).1
    · intro current row inForce stored
      refine lookup_delete ?_ stored
      rintro rfl
      exact (sound.doomed _ rfl).2 inForce
  | invalidate clusterID =>
    refine ⟨coherent.unique, ?_⟩
    intro id v client row found cached stored
    rw [cachedClient_invalidate] at cached
    split_ifs at cached
    exact coherent.cached id v client row found cached stored
  | use locator client clients served =>
    refine ⟨coherent.unique, ?_⟩
    intro id v other row found cached stored
    rcases served_from_store served with
      ⟨_, rfl⟩ | ⟨⟨source, member, _, cluster, revision, built⟩, rfl⟩
    · exact coherent.cached id v other row found cached stored
    · rcases cachedClient_stored cached with ⟨rfl, same, rfl⟩ | old
      · obtain ⟨_, named⟩ := holds.named _ v found
        rw [stored] at named
        cases named
        rw [built, coherent.unique source member _ (mem_of_lookup stored) cluster
          (revision.trans same)]
      · exact coherent.cached id v other row found old stored

/-- A rotation's own step, provided the pool caches nothing of another
credential under the claimed revision when the rotation asks for its client. -/
theorem Probed.own (effect : CredentialEffect K s a r s' r') (probed : Probed s r)
    (afresh : ∀ basis locator cred, r = .candidate basis locator cred none →
      ∀ other, cachedClient s.clients basis.id locator.credentialRevision = some other →
        other.credential = cred) : Probed s' r' := by
  cases effect with
  | quiet kept =>
    rcases kept with rfl | rfl
    · exact probed
    · trivial
  | build basis locator cred client clients served =>
    have clean := afresh basis locator cred rfl
    rcases served_given served with ⟨hit, rfl⟩ | ⟨given, rfl⟩
    · exact ⟨clean client hit, clean⟩
    · refine ⟨given, ?_⟩
      intro other cached
      rcases cachedClient_stored cached with ⟨_, _, rfl⟩ | old
      · exact given
      · exact clean other old
  | invalidate clusterID =>
    cases r with
    | candidate basis locator cred client =>
      cases client with
      | none => trivial
      | some client =>
        refine ⟨probed.1, ?_⟩
        intro other cached
        simp only [cachedClient_invalidate] at cached
        split_ifs at cached
        exact probed.2 other cached
    | idle | loaded | doomed => trivial
  | touch | load | refuse | put | abandon | stamp | delete | enqueue | claim | use => trivial

theorem Probed.other (effect : CredentialEffect K s a r s' r') (coherent : PoolCoherent s)
    (acting : Sound s r) (sound : Sound s u) (apart : Apart r u) (probed : Probed s u) :
    Probed s' u := by
  cases u with
  | idle | loaded | doomed => trivial
  | candidate basis locator cred client =>
    cases client with
    | none => trivial
    | some client =>
      refine ⟨probed.1, ?_⟩
      have claimed := mem_of_lookup (sound.stored _ rfl)
      have placed := (sound.placed _ basis rfl rfl).1
      intro other cached
      cases effect with
      | build basis' locator' cred' client' clients served =>
        rcases served_given served with ⟨_, rfl⟩ | ⟨_, rfl⟩
        · exact probed.2 other cached
        · rcases cachedClient_stored cached with ⟨here, same, _⟩ | old
          · have theirs := mem_of_lookup (acting.stored _ rfl)
            have placed' := (acting.placed _ basis' rfl rfl).1
            have equal := coherent.unique _ claimed _ theirs
              (placed.trans (here.trans placed'.symm)) same.symm
            exact absurd (congrArg CredentialRow.ref equal) ((apart _ rfl).1 _ rfl)
          · exact probed.2 other old
      | use locator' client' clients served =>
        rcases served_from_store served with
          ⟨_, rfl⟩ | ⟨⟨source, member, _, cluster, revision, built⟩, rfl⟩
        · exact probed.2 other cached
        · rcases cachedClient_stored cached with ⟨here, same, rfl⟩ | old
          · rw [built, coherent.unique source member _ claimed
              (cluster.trans (here.symm.trans placed.symm)) (revision.trans same)]
          · exact probed.2 other old
      | invalidate clusterID =>
        simp only [cachedClient_invalidate] at cached
        split_ifs at cached
        exact probed.2 other cached
      | quiet | touch | load | refuse | put | abandon | stamp | delete | enqueue | claim =>
        exact probed.2 other cached

theorem served_in_force (coherent : PoolCoherent s) (holds : Provisioned s)
    (found : keyView s locator.clusterID = some v) (ref : v.credentialRef = locator.credentialRef)
    (revision : v.credentialRevision = locator.credentialRevision)
    (served : getOrBuild K s locator.clusterID locator none a = .ok (client, clients)) :
    ∃ row, lookup CredentialRow.ref s.credentials locator.credentialRef = some row ∧
      client.credential = row.credential := by
  obtain ⟨cred, named⟩ := holds.named _ v found
  rw [← ref]
  refine ⟨_, named, ?_⟩
  rcases served_from_store served with ⟨hit, _⟩ | ⟨⟨source, member, _, cluster, same, built⟩, _⟩
  · exact coherent.cached _ v client _ found (revision ▸ hit) named
  · rw [built, coherent.unique source member _ (mem_of_lookup named) cluster
      (same.trans revision.symm)]

end

/-- A client served at this step was built from the given credential, or from
the one stored under the locator in force; and a rotation that commits has
probed with the credential it stamps. -/
def ClusterCall.ServesOwn (K : Kubernetesx) (s : KubeStore) (a : Answer) : ClusterCall → Prop
  | .use clusterID =>
    ∀ c out, liveCluster s.clusters clusterID = some c → useClient K s clusterID a = .ok out →
      ∃ row, lookup CredentialRow.ref s.credentials c.credentialRef = some row ∧
        out.1.credential = row.credential
  | .probe (.build c) =>
    ∀ now out, liveCluster s.clusters c.id = some now → now.locator = c.locator →
      getOrBuild K s c.id c.locator none a = .ok out →
      ∃ row, lookup CredentialRow.ref s.credentials c.credentialRef = some row ∧
        out.1.credential = row.credential
  | .rotate (.build request c locator) =>
    ∀ out, getOrBuild K s c.id locator (some request.newCred) a = .ok out →
      out.1.credential = request.newCred
  | .rotate (.stamp request c locator client) =>
    ∀ out, updateClusterCredential s.clusters c.id request.expectedRevision
        (c.credentialRevision + 1) locator.credentialRef a.now = .ok out →
      client.credential = request.newCred ∧
      ∃ row, lookup CredentialRow.ref s.credentials locator.credentialRef = some row ∧
        row.credential = request.newCred
  | _ => True

def ServesOwn (K : Kubernetesx) (p : Pool KubeStore ClusterCall) :
    Action ClusterRequest Answer → Prop
  | .call _ => True
  | .advance n a => ∀ t, p.threads[n]? = some t → t.ServesOwn K p.shared a

/-- No rotation asks for its client while the pool caches one of another
credential under the revision it claims. -/
def BuildsAfresh (p : Pool KubeStore ClusterCall) :
    Action ClusterRequest Answer → Bool
  | .call _ => true
  | .advance n _ =>
    match p.threads[n]? with
    | some (.rotate (.build request c locator)) =>
      (cachedClient p.shared.clients c.id locator.credentialRevision).all
        (·.credential == request.newCred)
    | _ => true

theorem buildsAfresh_role (afresh : BuildsAfresh p (.advance n a) = true)
    (found : p.threads[n]? = some t) (basis : Basis) (locator : CredentialLocator)
    (cred : Credential) (role : t.role = .candidate basis locator cred none) (other : Client)
    (cached : cachedClient p.shared.clients basis.id locator.credentialRevision = some other) :
    other.credential = cred := by
  cases t with
  | rotate call =>
    cases call with
    | build request c locator =>
      cases role
      simp only [BuildsAfresh, found] at afresh
      have hit : cachedClient p.shared.clients c.id locator.credentialRevision
          = some other := cached
      simpa [hit] using afresh
    | authorize | load | put | query | stamp | discard | invalidate | announce | returned =>
      cases role
  | cleanup call =>
    cases call with
    | clean event =>
      simp only [ClusterCall.role, CleanupCall.role] at role
      split at role <;> cases role
    | claim | returned => cases role
  | probe | update | use | used | invalidate | invalidated => cases role

abbrev RotationHolds : Pool KubeStore ClusterCall → Prop :=
  Holds Provisioned (fun s t => Sound s t.role) (fun _ t u => Apart t.role u.role)

abbrev PoolHolds : Pool KubeStore ClusterCall → Prop :=
  Holds PoolCoherent (fun s t => Probed s t.role) (fun _ _ _ => True)

theorem poolOutline (K : Kubernetesx) :
    Outline (clusterProgram K) (fun p a => RotationHolds p ∧ BuildsAfresh p a = true)
      PoolCoherent (fun s t => Probed s t.role) (fun _ _ _ => True) where
  fresh s request _ := by
    have idle := start_role request
    show Probed s request.start.role
    rw [idle]
    trivial
  freshPair _ _ _ _ _ := ⟨trivial, trivial⟩
  own p n t answer s' t' holds permitted found taken := by
    obtain ⟨rotation, afresh⟩ := permitted
    have effect := next_credentialEffect taken
    have sound := rotation.each n t found
    have probed := holds.each n t found
    exact ⟨holds.shared.step effect rotation.shared sound probed,
      probed.own effect (buildsAfresh_role afresh found)⟩
  other p n t answer s' t' holds permitted found taken m u different foundU := by
    have effect := next_credentialEffect taken
    have acting := permitted.1.each n t found
    have sound := permitted.1.each m u foundU
    have apart := permitted.1.pair n m t u (Ne.symm different) found foundU
    have probed := holds.each m u foundU
    exact ⟨Probed.other effect holds.shared acting sound apart probed, trivial, trivial⟩
  rest _ _ _ _ _ _ _ _ _ _ _ _ _ _ _ _ _ _ _ := trivial

/-- Where the invariants hold, only a rotation's build can be served a client of
another credential, and it is exactly when one is cached for it. -/
theorem servesOwn_iff (rotation : RotationHolds p) (pool : PoolHolds p)
    (action : Action ClusterRequest Answer) :
    ServesOwn K p action ↔ BuildsAfresh p action = true := by
  cases action with
  | call request => exact ⟨fun _ => rfl, fun _ => trivial⟩
  | advance n a =>
    constructor
    · intro serves
      simp only [BuildsAfresh]
      split
      · rename_i request c locator found
        cases cached : cachedClient p.shared.clients c.id locator.credentialRevision with
        | none => rfl
        | some client =>
          have own := serves _ found (client, p.shared.clients) (by simp [getOrBuild, cached])
          simpa using own
      · rfl
    · intro afresh t found
      have sound := rotation.each n t found
      have probed := pool.each n t found
      cases t with
      | use clusterID =>
        intro c out live served
        have read : getCluster p.shared.clusters clusterID = .ok c :=
          getCluster_eq_ok.mpr live
        obtain rfl := clusterID_of_live live
        simp only [useClient, read] at served
        have inForce : keyView p.shared c.locator.clusterID = some c.keyView :=
          keyView_of_live live
        exact served_in_force pool.shared rotation.shared inForce rfl rfl served
      | probe call =>
        cases call with
        | build c =>
          intro now out live same served
          have ref := congrArg CredentialLocator.credentialRef same
          have revision := congrArg CredentialLocator.credentialRevision same
          exact served_in_force pool.shared rotation.shared (keyView_of_live live) ref
            revision served
        | _ => trivial
      | rotate call =>
        cases call with
        | build request c locator =>
          intro out served
          have clean := buildsAfresh_role afresh found _ _ _ rfl
          rcases served_given served with ⟨hit, _⟩ | ⟨given, _⟩
          · exact clean _ hit
          · exact given
        | stamp request c locator client =>
          intro out _
          exact ⟨probed.1, _, sound.stored _ rfl, rfl⟩
        | _ => trivial
      | _ => trivial

/-- In every run, every client the pool serves for the credential in force was
built from it, every rotation is served a client of its own credential, and a
rotation that commits has probed with the credential it stamps, exactly when no
rotation asks for its client while another credential's client is cached under
the revision it claims. -/
theorem pool_serves_own_credentials_iff (K : Kubernetesx) (s : KubeStore)
    (provisioned : Provisioned s) (coherent : PoolCoherent s)
    (actions : List (Action ClusterRequest Answer)) :
    Guarded (clusterProgram K).step (ServesOwn K) ⟨s, []⟩ actions ↔
      Guarded (clusterProgram K).step (fun p a => BuildsAfresh p a = true) ⟨s, []⟩
        actions := by
  have start : RotationHolds ⟨s, []⟩ ∧ PoolHolds ⟨s, []⟩ :=
    ⟨Holds.empty provisioned, Holds.empty coherent⟩
  refine guarded_iff (I := fun p => RotationHolds p ∧ PoolHolds p) ?_ ?_ start
  · intro p action holds
    exact servesOwn_iff holds.1 holds.2 action
  · intro p action q serves holds taken
    have afresh := (servesOwn_iff holds.1 holds.2 action).mp serves
    exact ⟨(credentialOutline K).step p action q trivial holds.1 taken,
      (poolOutline K).step p action q ⟨holds.1, afresh⟩ holds.2 taken⟩

theorem provisionedStore_coherent : PoolCoherent provisionedStore where
  unique row member other memberOther _ _ := by
    rw [List.mem_singleton.mp member, List.mem_singleton.mp memberOther]
  cached id v client row _ cached _ := by
    cases cached

def rotationsBuiltAfresh : List (Action ClusterRequest Answer) :=
  [rotateTo 1 "t2", .advance 0 {}, .advance 0 {}, .advance 0 { uuid := "ref-2" },
    .advance 0 { factoryFault := some "no route" }, .advance 0 {},
    .call (.use "cl-1"), .advance 1 {},
    rotateTo 1 "t3", .advance 2 {}, .advance 2 {}, .advance 2 { uuid := "ref-3" },
    .advance 2 {}, .advance 2 {}, .advance 2 {}]

theorem rotations_built_afresh_serve_own :
    Guarded (clusterProgram trustingKubernetesx).step (ServesOwn trustingKubernetesx)
      ⟨provisionedStore, []⟩ rotationsBuiltAfresh :=
  (pool_serves_own_credentials_iff trustingKubernetesx provisionedStore
    provisionedStore_provisioned provisionedStore_coherent rotationsBuiltAfresh).mpr (by decide)

def rotationAfterFailedProbe : List (Action ClusterRequest Answer) :=
  [rotateTo 1 "t2", .advance 0 {}, .advance 0 {}, .advance 0 { uuid := "ref-2" },
    .advance 0 {}, .advance 0 { fault := some "unauthorized" }, .advance 0 {},
    rotateTo 1 "t3", .advance 1 {}, .advance 1 {}, .advance 1 { uuid := "ref-3" },
    .advance 1 {}, .advance 1 {}]

/-- The second rotation commits having probed with the first one's credential. -/
theorem rotation_probes_with_leftover_client :
    ∃ p q request c locator client,
      run (clusterProgram trustingKubernetesx).step ⟨provisionedStore, []⟩
        rotationAfterFailedProbe = some p ∧
      p.threads[1]? = some (.rotate (.stamp request c locator client)) ∧
      request.newCred = tokenCredential "t3" ∧ client.credential = tokenCredential "t2" ∧
      (clusterProgram trustingKubernetesx).step p (.advance 1 {}) = some q ∧
      (liveCluster q.shared.clusters "cl-1").map Cluster.credentialRef = some "ref-3" :=
  ⟨_, _, _, _, _, _, rfl, rfl, by decide, by decide, rfl, by decide⟩

end AisphereHub
