import AisphereHub.Proof.ServiceOutcome

/-! The server that a pooled client is configured with, against the `server_url` of its
row. -/
namespace AisphereHub

open Transition Threads

variable {id : String} {calls : List ServiceCall} {input : CredentialInput} {answers : List Answer}

def Credential.tokenNames (cred : Credential) (url : String) : Prop :=
  cred.kind = .SERVICE_ACCOUNT → cred.host = url

def KeepsRefs (m s : KubeStore) : Prop :=
  ∀ id c, liveCluster s.clusters id = some c →
    ∃ old, liveCluster m.clusters id = some old ∧ old.credentialRef = c.credentialRef

/-- What a call leaves: a pool in order, no ref reused, and a new credential only
on a row whose server it names. -/
structure ServiceOutcome (K : Kubernetesx) (m s : KubeStore) : Prop where
  served : Served K none s
  retains : Retains m s
  named : ∀ id c, liveCluster s.clusters id = some c →
    (∃ old, liveCluster m.clusters id = some old ∧ old.credentialRef = c.credentialRef) ∨
    ∀ row, Keyed.lookup CredentialRow.ref s.credentials c.credentialRef = some row →
      row.credential.tokenNames c.serverURL

section
variable {K : Kubernetesx} {m s s' : KubeStore} {a : Answer} {url : String} {cred : Credential}

theorem credentialInput_tokenNames (given : credentialInputToKubernetesx input url = .ok cred)
    : cred.tokenNames url := by
  cases input with
  | missing => cases given
  | kubeconfig raw =>
    cases given
    intro token
    cases token
  | inCluster | serviceAccount token caCert =>
    cases given
    intro _
    rfl

theorem ServiceOutcome.of_renewed (served : Served K none s) (retains : Retains m s)
    (renewed : Renewed url cred m s) (given : credentialInputToKubernetesx input url = .ok cred)
    : ServiceOutcome K m s := by
  refine ⟨served, retains, ?_⟩
  intro id c live
  rcases renewed id c live with old | ⟨rfl, only⟩
  · exact .inl old
  · right
    intro row found
    rw [only row found]
    exact credentialInput_tokenNames given

theorem ServiceOutcome.of_refs (served : Served K none s) (retains : Retains m s)
    (refs : KeepsRefs m s) : ServiceOutcome K m s :=
  ⟨served, retains, fun id c live => .inl (refs id c live)⟩

theorem KeepsRefs.of_clusters (same : s.clusters = m.clusters) : KeepsRefs m s := by
  intro id c live
  rw [same] at live
  exact ⟨c, live, rfl⟩

theorem KeepsRefs.patch (refs : KeepsRefs m s)
    (committed : updateClusterWithCAS s.clusters id expectedRevision updates now = .ok (rows,
      updated)) : KeepsRefs m { s with clusters := rows } := by
  intro j c live
  have view : keyView { s with clusters := rows } j = some c.keyView := keyView_of_live live
  obtain ⟨v, found, sameRef, _⟩ := keyView_updated committed j c.keyView view
  obtain ⟨old, liveOld, rfl⟩ := keyView_eq_some.mp found
  obtain ⟨older, liveOlder, same⟩ := refs j old liveOld
  exact ⟨older, liveOlder, same.trans sameRef.symm⟩

theorem Served.patch (served : Served K stale s)
    (committed : updateClusterWithCAS s.clusters id expectedRevision updates now = .ok (rows,
      updated)) : Served K stale { s with clusters := rows } := by
  refine served.touch ?_ (keyView_updated committed)
  intro j known
  by_cases masked : updates = []
  · rw [updateClusterWithCAS_empty masked committed]
    exact known
  · obtain ⟨_, _, _, _, rfl⟩ := updateClusterWithCAS_eq_ok masked committed
    exact (Keyed.isSome_lookup_amend Cluster.id (Cluster.patched · updates now)
      (fun c => (c.patched_frame updates now).1) s.clusters j id).trans known

def ClusterCall.plain : ClusterCall → Bool
  | .rotate _ => false
  | .probe _ => false
  | .cleanup _ => false
  | _ => true

theorem plain_step {call : ClusterCall} (plain : call.plain = true)
    (served : Served K none s) (refs : KeepsRefs m s) (taken : call.next K s a = some (s', call')) :
    call'.plain = true ∧ Served K none s' ∧ KeepsRefs m s' := by
  cases call with
  | update call =>
    obtain ⟨_, inner, rfl⟩ := lifted_step taken
    refine ⟨rfl, ?_⟩
    cases call with simp only [UpdateCall.next, reduceCtorEq] at inner
    | authorize request | validate request =>
      split at inner <;> cases inner <;> exact ⟨served, refs⟩
    | write request =>
      split at inner <;> cases inner
      · exact ⟨served, refs⟩
      · rename_i rows updated written
        have committed := (orFault_eq_ok.mp written).2
        exact ⟨served.patch committed, refs.patch committed⟩
  | use clusterID =>
    simp only [ClusterCall.next] at taken
    split at taken
    · cases taken
      exact ⟨rfl, served, refs⟩
    · rename_i client clients used
      cases taken
      unfold useClient at used
      split at used
      · cases used
      · rename_i c read
        have live := getCluster_eq_ok.mp read
        have here := clusterID_of_live live
        exact ⟨rfl, served.use (here.symm ▸ live) used, refs⟩
  | invalidate clusterID =>
    cases taken
    exact ⟨rfl, served.invalidate (.inl rfl), refs⟩
  | rotate | probe | cleanup => cases plain
  | used | invalidated => cases taken

theorem create_retains {call : CreateClusterCall}
    (taken : call.next K s a = some (s', call')) : Retains s s' := by
  have same : ∀ {s' : KubeStore}, s'.credentials = s.credentials →
      s'.issuedRefs = s.issuedRefs → Retains s s' := by
    intro s' credentials issued
    refine ⟨?_, ?_⟩
    · intro ref member
      exact issued ▸ member
    · intro ref _ row found
      exact credentials ▸ found
  cases call with simp only [CreateClusterCall.next, reduceCtorEq] at taken
  | validate request | relate | revoke | fail | build | query | ready | degrade =>
    split at taken <;> cases taken <;> exact same rfl rfl
  | insert c given subject =>
    split_ifs at taken with fresh
    split at taken <;> cases taken
    · exact Retains.issue a.uuid
    · rename_i inserted
      obtain ⟨_, _, _, rfl⟩ := insertWithCredential_eq_ok (orFault_eq_ok.mp inserted).2
      exact Retains.put ⟨a.uuid, c.id, 1, given⟩ fresh rfl rfl
  | forget created failure =>
    cases taken
    exact Retains.deleteCredential created.credentialRef a

theorem plain_outcome (plain : request.start.plain = true) (served : Served K none m)
    (ran : (clusterProgram K).serve m request answers = some (s, call)) : ServiceOutcome K m s := by
  have holds : call.plain = true ∧ Served K none s ∧ KeepsRefs m s ∧ Retains m s := by
    refine serve_keeps
      (I := fun s t => t.plain = true ∧ Served K none s ∧ KeepsRefs m s ∧ Retains m s)
      ?_ ⟨plain, served, .of_clusters rfl, Retains.refl m⟩ ran
    rintro s t answer s' t' ⟨plain, served, refs, retains⟩ taken
    obtain ⟨plain', served', refs'⟩ := plain_step plain served refs taken
    exact ⟨plain', served', refs', retains.trans (.of_effect (next_credentialEffect taken))⟩
  exact .of_refs holds.2.1 holds.2.2.2 holds.2.2.1

theorem rotation_outcome
    (reads : ∀ c, liveCluster m.clusters request.id = some c → c.serverURL = url)
    (served : Served K none m)
    (ran : (clusterProgram K).serve m (.rotate request) answers = some (s, call)) :
    Served K none s ∧ Retains m s ∧ Renewed url request.newCred m s := by
  have start : RotationAt K request.id url request.newCred m m (.authorize request) :=
    ⟨rfl, rfl, served, rfl⟩
  have holds : (∃ rotation, call = .rotate rotation ∧
      RotationAt K request.id url request.newCred m s rotation) ∧ Retains m s := by
    refine serve_keeps (I := fun s t => (∃ rotation, t = .rotate rotation ∧
      RotationAt K request.id url request.newCred m s rotation) ∧ Retains m s)
      ?_ ⟨⟨.authorize request, rfl, start⟩, Retains.refl m⟩ ran
    rintro s t answer s' t' ⟨⟨rotation, rfl, here⟩, retains⟩ taken
    have moved : ClusterCall.next K s (.rotate rotation) answer = some (s', t') := taken
    have kept : Retains s s' := .of_effect (next_credentialEffect moved)
    obtain ⟨rotation', inner, rfl⟩ := lifted_step moved
    exact ⟨⟨rotation', rfl, here.step reads inner⟩, retains.trans kept⟩
  have finished : call.finished = true := serve_finished ran
  obtain ⟨⟨rotation, rfl, here⟩, retains⟩ := holds
  cases rotation with
  | returned result => exact ⟨here.1, retains, here.2⟩
  | _ => cases finished

theorem create_outcome (served : Served K none m)
    (ran : (createClusterProgram K).serve m request answers = some (s, call)) :
    Served K none s ∧ Retains m s ∧ Renewed request.c.serverURL request.cred m s := by
  have start : CreationAt K request.c.serverURL request.cred m m (.validate request) :=
    ⟨rfl, rfl, served, rfl⟩
  have holds : CreationAt K request.c.serverURL request.cred m s call ∧ Retains m s := by
    refine serve_keeps
      (I := fun s t => CreationAt K request.c.serverURL request.cred m s t ∧ Retains m s)
      ?_ ⟨start, Retains.refl m⟩ ran
    intro s t answer s' t' holds taken
    exact ⟨holds.1.step taken, holds.2.trans (create_retains taken)⟩
  have finished : (createClusterProgram K).finished call = true := serve_finished ran
  cases call with
  | returned result => exact ⟨holds.1.1, holds.2, holds.1.2⟩
  | _ => cases finished

theorem serviceStep_outcome (served : Served K none m)
    (taken : serviceStep K m call = some s) : ServiceOutcome K m s := by
  have unchanged : ServiceOutcome K m m :=
    .of_refs served (Retains.refl m) (.of_clusters rfl)
  cases call with
  | create principal input clusterID answers =>
    simp only [serviceStep] at taken
    split at taken
    · cases taken
      exact unchanged
    · rename_i given translated
      obtain ⟨⟨_, _⟩, ran, rfl⟩ := Option.map_eq_some_iff.mp taken
      obtain ⟨served', retains, renewed⟩ := create_outcome served ran
      exact .of_renewed served' retains renewed translated
  | update principal id expectedRevision paths patch answers =>
    simp only [serviceStep] at taken
    split at taken
    · cases taken
      exact unchanged
    · obtain ⟨⟨_, _⟩, ran, rfl⟩ := Option.map_eq_some_iff.mp taken
      exact plain_outcome rfl served ran
  | rotate principal id expectedRevision input read answers =>
    simp only [serviceStep] at taken
    split at taken
    · cases taken
      exact unchanged
    · rename_i given translated
      obtain ⟨c, found, translated⟩ := bind_eq_ok.mp translated
      obtain ⟨_, _, translated⟩ := bind_eq_ok.mp translated
      have live := getCluster_eq_ok.mp (orFault_eq_ok.mp found).2
      split at translated
      · cases translated
      obtain ⟨⟨_, _⟩, ran, rfl⟩ := Option.map_eq_some_iff.mp taken
      have reads : ∀ c', liveCluster m.clusters id = some c' → c'.serverURL = c.serverURL := by
        intro c' found
        rw [live, Option.some.injEq] at found
        rw [found]
      obtain ⟨served', retains, renewed⟩ := rotation_outcome reads served ran
      exact .of_renewed served' retains renewed translated
  | use clusterID answer | invalidate clusterID =>
    simp only [serviceStep] at taken
    obtain ⟨⟨_, _⟩, ran, rfl⟩ := Option.map_eq_some_iff.mp taken
    exact plain_outcome rfl served ran

theorem run_served (served : Served K none m)
    (ran : run (serviceStep K) m calls = some s) : Served K none s := by
  refine run_invariant (I := Served K none) ?_ served ran
  intro m call s served taken
  exact (serviceStep_outcome served taken).served

theorem run_retains (served : Served K none m)
    (ran : run (serviceStep K) m calls = some s) : Retains m s := by
  have kept : Served K none s ∧ Retains m s := by
    refine run_invariant (I := fun s => Served K none s ∧ Retains m s) ?_
      ⟨served, Retains.refl m⟩ ran
    intro n call s holds taken
    have outcome := serviceStep_outcome holds.1 taken
    exact ⟨outcome.served, holds.2.trans outcome.retains⟩
  exact kept.2

theorem served_empty (K : Kubernetesx) : Served K none {} where
  known _ _ _ cached := by cases cached
  built _ _ _ cached := by cases cached
  issued _ _ found := by cases found
  inForce _ _ _ found := by cases found

def GivenWith (K : Kubernetesx) (calls : List ServiceCall) (id ref : String) (c : Cluster) :
    Prop :=
  ∃ front given back m m', calls = front ++ given :: back ∧
    run (serviceStep K) {} front = some m ∧ serviceStep K m given = some m' ∧
    liveCluster m'.clusters id = some c ∧ c.credentialRef = ref ∧
    ∀ old, liveCluster m.clusters id = some old → old.credentialRef ≠ ref

theorem givenWith_exists (ran : run (serviceStep K) {} calls = some s)
    (live : liveCluster s.clusters id = some c) :
    ∃ given, GivenWith K calls id c.credentialRef given := by
  induction calls using List.reverseRecOn generalizing s c with
  | nil =>
    cases ran
    cases live
  | append_singleton calls call ih =>
    obtain ⟨m, before, ran⟩ := run_append.mp ran
    obtain ⟨_, taken, ended⟩ := run_cons.mp ran
    cases ended
    by_cases kept : ∃ old, liveCluster m.clusters id = some old ∧
        old.credentialRef = c.credentialRef
    · obtain ⟨old, liveOld, same⟩ := kept
      obtain ⟨given, front, gave, back, n, n', rfl, facts⟩ := ih before liveOld
      rw [same] at facts
      exact ⟨given, front, gave, back ++ [call], n, n', by simp, facts⟩
    · refine ⟨c, calls, call, [], m, _, rfl, before, taken, live, rfl, ?_⟩
      intro old liveOld same
      exact kept ⟨old, liveOld, same⟩

theorem stored_tokenNames
    (ran : run (serviceStep K) {} calls = some s) (gave : GivenWith K calls id ref given)
    (found : Keyed.lookup CredentialRow.ref s.credentials ref = some row) :
    row.credential.tokenNames given.serverURL := by
  obtain ⟨front, call, back, m, m', rfl, before, taken, live, rfl, new⟩ := gave
  obtain ⟨_, before', after⟩ := run_append.mp ran
  cases before.symm.trans before'
  obtain ⟨_, taken', after⟩ := run_cons.mp after
  cases taken.symm.trans taken'
  have served := run_served (served_empty K) before
  have outcome := serviceStep_outcome served taken
  have issued := outcome.served.issued id given.keyView (keyView_of_live live)
  have stored := (run_retains outcome.served after).stored given.credentialRef issued row found
  rcases outcome.named id given live with ⟨old, liveOld, same⟩ | named
  · exact absurd same (new old liveOld)
  · exact named row stored

/-- The server a client is configured with, for a token given for this server. -/
def Client.reaches (K : Kubernetesx) (url : String) (client : Client) : Prop :=
  match client.credential.kind with
  | .SERVICE_ACCOUNT => client.host = url
  | .KUBECONFIG =>
    ∃ cfg, restConfigFromKubeconfig K client.credential = .ok cfg ∧ client.host = cfg.host
  | .IN_CLUSTER => client.host = K.inClusterHost

theorem defaultClientFactory_reaches
    (merge : ∀ cred host, cred.kind = .SERVICE_ACCOUNT → K.mergeCredential cred = .ok host →
      host = cred.host) (named : client.credential.tokenNames url)
    (built : defaultClientFactory K clusterID client.credential fault = .ok client) :
    client.reaches K url := by
  obtain ⟨merged, wrappedMerge, built⟩ := bind_eq_ok.mp built
  have mergedOk := wrapped_eq_ok.mp wrappedMerge
  unfold Client.reaches
  cases kind : client.credential.kind with
  | SERVICE_ACCOUNT =>
    simp only [kind] at built
    obtain ⟨_, _, built⟩ := bind_eq_ok.mp built
    have host : merged = client.host := congrArg Client.host (Except.ok.inj built)
    exact (host.symm.trans (merge _ _ kind mergedOk)).trans (named kind)
  | KUBECONFIG =>
    simp only [kind] at built
    obtain ⟨cfg, compiled, built⟩ := bind_eq_ok.mp built
    obtain ⟨_, _, built⟩ := bind_eq_ok.mp built
    obtain ⟨_, _, built⟩ := bind_eq_ok.mp built
    have host : cfg.host = client.host := congrArg Client.host (Except.ok.inj built)
    exact ⟨cfg, wrapped_eq_ok.mp compiled, host.symm⟩
  | IN_CLUSTER =>
    simp only [kind] at built
    cases fault with
    | some cause => cases built
    | none =>
      have host : K.inClusterHost = client.host := congrArg Client.host (Except.ok.inj built)
      exact host.symm

/-- What the pool returns at a row's locator: a client the factory built from
the credential in force. -/
theorem Served.returns (served : Served K none s)
    (live : liveCluster s.clusters id = some c)
    (used : useClient K s id a = .ok (client, clients)) :
    (∃ row, Keyed.lookup CredentialRow.ref s.credentials c.credentialRef = some row ∧
      client.credential = row.credential) ∧
    ∃ clusterID fault, defaultClientFactory K clusterID client.credential fault = .ok client := by
  have view := keyView_of_live live
  have here := clusterID_of_live live
  rw [useClient, getCluster_eq_ok.mpr live] at used
  rcases getOrBuild_eq_ok used with ⟨cached, _⟩ | ⟨cred, resolved, built, _⟩
  · rw [here] at cached
    exact ⟨served.inForce id c.keyView client view (by simp) cached,
      served.built id _ client cached⟩
  · have same := defaultClientFactory_credential built
    exact ⟨⟨_, resolveCredential_stored resolved, same⟩, c.id, a.factoryFault,
      same.symm ▸ built⟩

end

def registerAt (serverURL : String) (credential : CredentialInput) : ServiceCall :=
  .create ⟨"user", "ann", "org"⟩ { name := "prod", serverURL := serverURL, credential := credential }
    "c1" [{}, { uuid := "ref-1" }, {}, {}, { clusterUID := "uid-1" }, {}]

def moveTo (serverURL : String) (expectedRevision : Int) : ServiceCall :=
  .update ⟨"user", "ann", "org"⟩ "c1" expectedRevision ["server_url"] { serverURL := serverURL }
    [{}, {}, {}]

def rotateToken (token ref : String) (expectedRevision : Int) : ServiceCall :=
  .rotate ⟨"user", "ann", "org"⟩ "c1" expectedRevision (.serviceAccount token "") {}
    [{}, {}, { uuid := ref }, {}, { clusterUID := "uid-1" }, {}, {}, {}]

end AisphereHub
