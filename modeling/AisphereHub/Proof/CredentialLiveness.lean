import AisphereHub.Proof.CredentialEffect

/-! Rotations of a credential among calls and deliveries in flight: the one in force is
always stored. -/
namespace AisphereHub

open Keyed Transition Threads
open GoStrings (trimSpace)

def Current (s : KubeStore) (ref : String) : Prop :=
  ∃ id v, keyView s id = some v ∧ v.credentialRef = ref

def Queued (s : KubeStore) (ref : String) : Prop :=
  ∃ event ∈ s.outbox, event.eventType = credentialCleanupEventType ∧ cleanupRef event = some ref

structure Provisioned (s : KubeStore) : Prop where
  named : ∀ id v, keyView s id = some v → ∃ cred,
    lookup CredentialRow.ref s.credentials v.credentialRef =
      some ⟨v.credentialRef, id, v.credentialRevision, cred⟩
  issued : ∀ ref, Current s ref → ref ∈ s.issuedRefs
  tidy : ∀ ref ∈ s.issuedRefs, trimSpace ref = ref
  queued : ∀ ref, Queued s ref → ref ∈ s.issuedRefs ∧ ¬Current s ref

def Role.basis : Role → Option Basis
  | .loaded basis => some basis
  | .candidate basis _ _ _ => some basis
  | _ => none

def Role.claims : Role → Option CredentialRow
  | .candidate _ locator cred _ =>
    some ⟨locator.credentialRef, locator.clusterID, locator.credentialRevision, cred⟩
  | _ => none

def Role.dooms : Role → Option String
  | .doomed ref => some ref
  | _ => none

def Based (s : KubeStore) (basis : Basis) : Prop :=
  ∀ v, keyView s basis.id = some v → basis.view.revision ≤ v.revision ∧
    (v.revision = basis.view.revision →
      v.credentialRef = basis.view.credentialRef ∧
        v.credentialRevision = basis.view.credentialRevision)

/-- What holds of a call: a doomed ref is not in force, a claimed one is neither
in force nor queued, and its row is stored for the next revision. -/
structure Sound (s : KubeStore) (r : Role) : Prop where
  based : ∀ basis, r.basis = some basis → Based s basis
  doomed : ∀ ref, r.dooms = some ref → ref ∈ s.issuedRefs ∧ ¬Current s ref
  issued : ∀ row, r.claims = some row → row.ref ∈ s.issuedRefs
  notCurrent : ∀ row, r.claims = some row → ¬Current s row.ref
  notQueued : ∀ row, r.claims = some row → ¬Queued s row.ref
  stored : ∀ row, r.claims = some row →
    lookup CredentialRow.ref s.credentials row.ref = some row
  placed : ∀ row basis, r.claims = some row → r.basis = some basis →
    row.clusterID = basis.id ∧ row.credentialRevision = basis.view.credentialRevision + 1

/-- No two calls claim one ref, and no call dooms a ref another one claims. -/
def Apart (r u : Role) : Prop :=
  ∀ row, r.claims = some row →
    (∀ other, u.claims = some other → other.ref ≠ row.ref) ∧ u.dooms ≠ some row.ref

theorem Sound.idle (s : KubeStore) : Sound s .idle := by
  constructor <;> intros <;> contradiction

theorem Apart.of_unclaimed (unclaimed : r.claims = none) (u : Role) : Apart r u := by
  intro row claimed
  rw [unclaimed] at claimed
  cases claimed

theorem Apart.of_spared (unclaimed : u.claims = none)
    (spared : ∀ row, r.claims = some row → u.dooms ≠ some row.ref) : Apart r u := by
  intro row claimed
  refine ⟨?_, spared row claimed⟩
  intro other theirs
  rw [unclaimed] at theirs
  cases theirs

theorem Apart.idle (r : Role) : Apart .idle r ∧ Apart r .idle := by
  refine ⟨.of_unclaimed rfl r, .of_spared rfl ?_⟩
  intro row _ doomed
  cases doomed

def Keeping (s s' : KubeStore) : Prop :=
  ∀ j v', keyView s' j = some v' → ∃ v, keyView s j = some v ∧ v.Keeps v'

theorem Keeping.of_clusters (same : s'.clusters = s.clusters) : Keeping s s' := by
  intro j v' found
  refine ⟨v', ?_, rfl, rfl, Int.le_refl _⟩
  simpa [keyView, same] using found

variable {ref : String}

theorem Keeping.current (keeping : Keeping s s') (current : Current s' ref) :
    Current s ref := by
  obtain ⟨id, v', found', rfl⟩ := current
  obtain ⟨v, found, same, _⟩ := keeping id v' found'
  exact ⟨id, v, found, same.symm⟩

theorem Keeping.based (keeping : Keeping s s')
    (based : Based s basis) : Based s' basis := by
  intro v' found'
  obtain ⟨v, found, sameRef, sameCred, up⟩ := keeping basis.id v' found'
  obtain ⟨low, fixed⟩ := based v found
  refine ⟨Int.le_trans low up, ?_⟩
  intro same
  have held : v.revision = basis.view.revision := by omega
  exact ⟨sameRef.trans (fixed held).1, sameCred.trans (fixed held).2⟩

/-- A step that keeps the credentials in force, adds no event for a claimed ref
and deletes no claimed row leaves a call as sound as it was. -/
theorem Sound.frame (sound : Sound s r) (keeping : Keeping s s')
    (issued : ∀ ref ∈ s.issuedRefs, ref ∈ s'.issuedRefs)
    (queue : ∀ row, r.claims = some row → Queued s' row.ref → Queued s row.ref)
    (table : ∀ row, r.claims = some row →
      lookup CredentialRow.ref s.credentials row.ref = some row →
      lookup CredentialRow.ref s'.credentials row.ref = some row) : Sound s' r where
  based basis held := keeping.based (sound.based basis held)
  doomed ref held := by
    obtain ⟨known, unused⟩ := sound.doomed ref held
    exact ⟨issued ref known, fun current => unused (keeping.current current)⟩
  issued row held := issued row.ref (sound.issued row held)
  notCurrent row held current := sound.notCurrent row held (keeping.current current)
  notQueued row held queued := sound.notQueued row held (queue row held queued)
  stored row held := table row held (sound.stored row held)
  placed := sound.placed

theorem Provisioned.frame (holds : Provisioned s) (keeping : Keeping s s')
    (issued : ∀ ref ∈ s.issuedRefs, ref ∈ s'.issuedRefs)
    (tidy : ∀ ref ∈ s'.issuedRefs, trimSpace ref = ref)
    (queue : ∀ ref, Queued s' ref → ref ∈ s.issuedRefs ∧ ¬Current s ref)
    (table : ∀ ref row, Current s ref → lookup CredentialRow.ref s.credentials ref = some row →
      lookup CredentialRow.ref s'.credentials ref = some row) : Provisioned s' where
  named id v' found' := by
    obtain ⟨v, found, sameRef, sameCred, _⟩ := keeping id v' found'
    obtain ⟨cred, stored⟩ := holds.named id v found
    rw [sameRef, sameCred]
    exact ⟨cred, table _ _ ⟨id, v, found, rfl⟩ stored⟩
  issued ref current := issued ref (holds.issued ref (keeping.current current))
  tidy := tidy
  queued ref queued := by
    obtain ⟨known, unused⟩ := queue ref queued
    exact ⟨issued ref known, fun current => unused (keeping.current current)⟩

theorem Provisioned.clients (holds : Provisioned s) (clients : List ClientEntry) :
    Provisioned { s with clients := clients } :=
  ⟨holds.named, holds.issued, holds.tidy, holds.queued⟩

theorem Sound.clients (sound : Sound s r)
    (clients : List ClientEntry) : Sound { s with clients := clients } r :=
  ⟨sound.based, sound.doomed, sound.issued, sound.notCurrent, sound.notQueued, sound.stored,
    sound.placed⟩

theorem freshRef_eq_true (fresh : freshRef s uuid = true) :
    trimSpace uuid = uuid ∧ uuid ∉ s.issuedRefs := by
  simp only [freshRef, Bool.and_eq_true, bne_iff_ne, ne_eq, beq_iff_eq, Bool.not_eq_true',
    List.contains_eq_mem, decide_eq_false_iff_not] at fresh
  exact ⟨fresh.1.2, fresh.2⟩

theorem tidy_append (holds : Provisioned s) (fresh : freshRef s uuid = true) :
    ∀ ref ∈ s.issuedRefs ++ [uuid], trimSpace ref = ref := by
  intro ref member
  rcases List.mem_append.mp member with old | new
  · exact holds.tidy ref old
  · rw [List.mem_singleton.mp new]
    exact (freshRef_eq_true fresh).1

theorem queued_append
    (known : trimSpace ref = ref) (asked : event.payload.lookup "old_credential_ref" = some ref)
    (queued : Queued { s with outbox := s.outbox ++ [event] } wanted) :
    Queued s wanted ∨ wanted = ref := by
  obtain ⟨e, member, typed, wants⟩ := queued
  rcases List.mem_append.mp member with old | new
  · exact .inl ⟨e, old, typed, wants⟩
  · right
    rw [List.mem_singleton.mp new] at wants
    simp only [cleanupRef, asked, Option.getD_some, known] at wants
    split_ifs at wants
    exact (Option.some.inj wants).symm

section
variable {K : Kubernetesx} {s s' : KubeStore} {a : Answer} {r r' u : Role}

structure Stamps (s s' : KubeStore) (basis : Basis) (row : CredentialRow) (v : KeyView) :
    Prop where
  found : keyView s basis.id = some v
  same : v.revision = basis.view.revision
  views : ∀ j, keyView s' j =
    if j = basis.id then some ⟨row.ref, row.credentialRevision, v.revision + 1⟩
    else keyView s j
  credentials : s'.credentials = s.credentials
  outbox : s'.outbox = s.outbox
  issuedRefs : s'.issuedRefs = s.issuedRefs

variable {basis : Basis} {row : CredentialRow} {v : KeyView}

theorem Stamps.current (stamps : Stamps s s' basis row v) (current : Current s' ref)
    : ref = row.ref ∨ Current s ref := by
  obtain ⟨id, w, found, rfl⟩ := current
  rw [stamps.views] at found
  split_ifs at found
  · cases found
    exact .inl rfl
  · exact .inr ⟨id, w, found, rfl⟩

theorem Stamps.queued (stamps : Stamps s s' basis row v) : Queued s' ref ↔ Queued s ref := by
  unfold Queued
  rw [stamps.outbox]

theorem Stamps.based (stamps : Stamps s s' basis row v)
    (based : Based s other) : Based s' other := by
  intro w found
  rw [stamps.views] at found
  split_ifs at found with same
  · cases found
    have old := based v (same ▸ stamps.found)
    refine ⟨by simp only; omega, ?_⟩
    intro equal
    simp only at equal
    omega
  · exact based w found

theorem Stamps.replaced (stamps : Stamps s s' basis row v) (holds : Provisioned s)
    (unused : ¬Current s row.ref) : ¬Current s' v.credentialRef := by
  rintro ⟨id, w, found, same⟩
  rw [stamps.views] at found
  split_ifs at found with here
  · cases found
    exact unused ⟨basis.id, v, stamps.found, same.symm⟩
  · obtain ⟨_, mine⟩ := holds.named basis.id v stamps.found
    obtain ⟨_, theirs⟩ := holds.named id w found
    rw [same, mine] at theirs
    exact here (congrArg CredentialRow.clusterID (Option.some.inj theirs)).symm

theorem Stamps.provisioned (stamps : Stamps s s' basis row v) (holds : Provisioned s)
    (placed : row.clusterID = basis.id) (known : row.ref ∈ s.issuedRefs)
    (unqueued : ¬Queued s row.ref)
    (stored : lookup CredentialRow.ref s.credentials row.ref = some row) : Provisioned s' where
  named id w found := by
    rw [stamps.credentials]
    rw [stamps.views] at found
    split_ifs at found with same
    · cases found
      subst same
      exact ⟨row.credential, placed ▸ stored⟩
    · exact holds.named id w found
  issued ref current := by
    rw [stamps.issuedRefs]
    rcases stamps.current current with rfl | old
    · exact known
    · exact holds.issued ref old
  tidy := by
    rw [stamps.issuedRefs]
    exact holds.tidy
  queued ref queued := by
    have before := stamps.queued.mp queued
    obtain ⟨listed, unused⟩ := holds.queued ref before
    refine ⟨stamps.issuedRefs ▸ listed, ?_⟩
    intro current
    rcases stamps.current current with rfl | old
    · exact unqueued before
    · exact unused old

theorem Stamps.sound (stamps : Stamps s s' basis row v) (sound : Sound s u)
    (unclaimed : ∀ other, u.claims = some other → other.ref ≠ row.ref)
    (spared : u.dooms ≠ some row.ref) : Sound s' u where
  based other held := stamps.based (sound.based other held)
  doomed ref held := by
    obtain ⟨listed, unused⟩ := sound.doomed ref held
    refine ⟨stamps.issuedRefs ▸ listed, ?_⟩
    intro current
    rcases stamps.current current with rfl | old
    · exact spared held
    · exact unused old
  issued other held := stamps.issuedRefs ▸ sound.issued other held
  notCurrent other held current := by
    rcases stamps.current current with same | old
    · exact unclaimed other held same
    · exact sound.notCurrent other held old
  notQueued other held queued := sound.notQueued other held (stamps.queued.mp queued)
  stored other held := stamps.credentials ▸ sound.stored other held
  placed := sound.placed

end

theorem stamps_of_effect
    (sound : Sound s (.candidate basis locator cred client))
    (found : keyView s basis.id = some v) (same : v.revision = basis.view.revision)
    (views : ∀ j, keyView { s with clusters := rows } j = if j = basis.id then
        some ⟨locator.credentialRef, basis.view.credentialRevision + 1, v.revision + 1⟩
      else keyView s j) : Stamps s { s with clusters := rows } basis
      ⟨locator.credentialRef, locator.clusterID, locator.credentialRevision, cred⟩ v where
  found := found
  same := same
  views := by
    have next := (sound.placed _ basis rfl rfl).2
    simp only at next
    simpa only [next] using views
  credentials := rfl
  outbox := rfl
  issuedRefs := rfl

section
variable {K : Kubernetesx} {s s' : KubeStore} {a : Answer} {r r' u : Role}

theorem lookup_put (stored : lookup CredentialRow.ref s.credentials ref = some row) :
    lookup CredentialRow.ref (s.credentials ++ [fresh]) ref = some row := by
  rw [lookup_append, stored]
  rfl

theorem lookup_delete (other : ref ≠ gone)
    (stored : lookup CredentialRow.ref s.credentials ref = some row) :
    lookup CredentialRow.ref (remove CredentialRow.ref s.credentials gone) ref = some row := by
  rw [lookup_remove, if_neg other]
  exact stored

theorem Provisioned.step (effect : CredentialEffect K s a r s' r') (holds : Provisioned s)
    (sound : Sound s r) : Provisioned s' := by
  cases effect with
  | quiet | load | abandon | claim => exact holds
  | touch views =>
    refine holds.frame views ?_ ?_ ?_ ?_
    · exact fun _ listed => listed
    · exact holds.tidy
    · exact holds.queued
    · exact fun _ _ _ stored => stored
  | refuse basis uuid fresh =>
    refine holds.frame (.of_clusters rfl) ?_ ?_ ?_ ?_
    · exact fun _ listed => List.mem_append_left _ listed
    · exact tidy_append holds fresh
    · exact holds.queued
    · exact fun _ _ _ stored => stored
  | put basis ref cred fresh =>
    refine holds.frame (.of_clusters rfl) ?_ ?_ ?_ ?_
    · exact fun _ listed => List.mem_append_left _ listed
    · exact tidy_append holds fresh
    · exact holds.queued
    · exact fun _ _ _ stored => lookup_put stored
  | build | invalidate | use => exact holds.clients _
  | stamp basis locator cred client rows v found same views =>
    have stamps := stamps_of_effect sound found same views
    exact stamps.provisioned holds (sound.placed _ basis rfl rfl).1 (sound.issued _ rfl)
      (sound.notQueued _ rfl) (sound.stored _ rfl)
  | delete ref =>
    refine holds.frame (.of_clusters rfl) ?_ ?_ ?_ ?_
    · exact fun _ listed => listed
    · exact holds.tidy
    · exact holds.queued
    · intro current row inForce stored
      refine lookup_delete ?_ stored
      rintro rfl
      exact (sound.doomed _ rfl).2 inForce
  | enqueue event ref asked =>
    have doomed := sound.doomed ref rfl
    refine holds.frame (.of_clusters rfl) ?_ ?_ ?_ ?_
    · exact fun _ listed => listed
    · exact holds.tidy
    · intro wanted queued
      rcases queued_append (holds.tidy ref doomed.1) asked queued with old | rfl
      · exact holds.queued wanted old
      · exact doomed
    · exact fun _ _ _ stored => stored

theorem Sound.own (effect : CredentialEffect K s a r s' r') (holds : Provisioned s)
    (sound : Sound s r) : Sound s' r' := by
  cases effect with
  | quiet kept =>
    rcases kept with rfl | rfl
    · exact sound
    · exact .idle s
  | touch | refuse | delete | enqueue | use => exact .idle _
  | load basis found =>
    constructor
    · intro held same v current
      cases same
      obtain rfl : basis.view = v := Option.some.inj (found.symm.trans current)
      exact ⟨Int.le_refl _, fun _ => ⟨rfl, rfl⟩⟩
    all_goals intros; contradiction
  | put basis ref cred fresh absent =>
    obtain ⟨_, unissued⟩ := freshRef_eq_true fresh
    constructor
    · intro held same
      cases same
      exact Keeping.based (.of_clusters rfl) (sound.based basis rfl)
    · intro _ doomed
      cases doomed
    · rintro row ⟨⟩
      simp
    · rintro row ⟨⟩ current
      exact unissued (holds.issued ref (Keeping.current (.of_clusters rfl) current))
    · rintro row ⟨⟩ queued
      exact unissued (holds.queued ref queued).1
    · rintro row ⟨⟩
      simp [lookup_append, absent]
    · rintro row held ⟨⟩ ⟨⟩
      exact ⟨rfl, rfl⟩
  | build basis locator cred client clients =>
    have kept := sound.clients clients
    exact ⟨kept.based, kept.doomed, kept.issued, kept.notCurrent, kept.notQueued, kept.stored,
      kept.placed⟩
  | abandon basis locator cred client =>
    constructor
    · intro held same
      cases same
    · rintro ref ⟨⟩
      exact ⟨sound.issued _ rfl, sound.notCurrent _ rfl⟩
    all_goals intros; contradiction
  | stamp basis locator cred client rows v found same views =>
    have stamps := stamps_of_effect sound found same views
    have replaced : v.credentialRef = basis.view.credentialRef :=
      ((sound.based basis rfl v found).2 same).1
    constructor
    · intro held same
      cases same
    · rintro ref ⟨⟩
      rw [← replaced]
      exact ⟨holds.issued _ ⟨basis.id, v, found, rfl⟩,
        stamps.replaced holds (sound.notCurrent _ rfl)⟩
    all_goals intros; contradiction
  | invalidate => exact sound.clients _
  | claim event ref member typed asked =>
    constructor
    · intro held same
      cases same
    · rintro _ ⟨⟩
      exact holds.queued ref ⟨event, member, typed, asked⟩
    all_goals intros; contradiction

theorem Sound.other (effect : CredentialEffect K s a r s' r') (holds : Provisioned s)
    (acting : Sound s r) (sound : Sound s u) (apart : Apart r u) (apart' : Apart u r) :
    Sound s' u := by
  cases effect with
  | quiet | load | abandon | claim => exact sound
  | touch views =>
    exact sound.frame views (fun _ listed => listed) (fun _ _ queued => queued)
      (fun _ _ stored => stored)
  | refuse =>
    exact sound.frame (.of_clusters rfl) (fun _ listed => List.mem_append_left _ listed)
      (fun _ _ queued => queued) (fun _ _ stored => stored)
  | put =>
    exact sound.frame (.of_clusters rfl) (fun _ listed => List.mem_append_left _ listed)
      (fun _ _ queued => queued) (fun _ _ stored => lookup_put stored)
  | build | invalidate | use => exact sound.clients _
  | stamp basis locator cred client rows v found same views =>
    have stamps := stamps_of_effect acting found same views
    exact stamps.sound sound (apart _ rfl).1 (apart _ rfl).2
  | delete ref =>
    refine sound.frame (.of_clusters rfl) (fun _ listed => listed) (fun _ _ queued => queued) ?_
    intro row claimed stored
    refine lookup_delete ?_ stored
    rintro rfl
    exact (apart' row claimed).2 rfl
  | enqueue event ref asked =>
    refine sound.frame (.of_clusters rfl) (fun _ listed => listed) ?_ (fun _ _ stored => stored)
    intro row claimed queued
    have known := holds.tidy ref (acting.doomed ref rfl).1
    rcases queued_append known asked queued with old | same
    · exact old
    · exact absurd (congrArg some same.symm) (apart' row claimed).2

theorem Apart.step (effect : CredentialEffect K s a r s' r') (acting : Sound s r)
    (sound : Sound s u) (apart : Apart r u) (apart' : Apart u r) : Apart r' u ∧ Apart u r' := by
  cases effect with
  | quiet kept =>
    rcases kept with rfl | rfl
    · exact ⟨apart, apart'⟩
    · exact Apart.idle u
  | touch | refuse | delete | enqueue | use => exact Apart.idle u
  | load basis found =>
    refine ⟨.of_unclaimed rfl u, .of_spared rfl ?_⟩
    intro row _ doomed
    cases doomed
  | put basis ref cred fresh =>
    obtain ⟨_, unissued⟩ := freshRef_eq_true fresh
    constructor
    · rintro row ⟨⟩
      refine ⟨?_, ?_⟩
      · rintro other claimed rfl
        exact unissued (sound.issued other claimed)
      · intro doomed
        exact unissued (sound.doomed ref doomed).1
    · intro row claimed
      refine ⟨?_, (nomatch ·)⟩
      rintro other ⟨⟩ same
      have listed := sound.issued row claimed
      rw [← same] at listed
      exact unissued listed
  | build basis locator cred client clients =>
    exact ⟨fun row claimed => apart row claimed, fun row claimed => apart' row claimed⟩
  | abandon basis locator cred client =>
    refine ⟨.of_unclaimed rfl u, .of_spared rfl ?_⟩
    intro row claimed doomed
    exact (apart _ rfl).1 row claimed (Option.some.inj doomed).symm
  | stamp basis locator cred client rows v found same views =>
    have replaced : v.credentialRef = basis.view.credentialRef :=
      ((acting.based basis rfl v found).2 same).1
    refine ⟨.of_unclaimed rfl u, .of_spared rfl ?_⟩
    intro row claimed doomed
    apply sound.notCurrent row claimed
    exact ⟨basis.id, v, found, replaced.trans (Option.some.inj doomed)⟩
  | invalidate => exact ⟨apart, apart'⟩
  | claim event ref member typed asked =>
    refine ⟨.of_unclaimed rfl u, .of_spared rfl ?_⟩
    intro row claimed doomed
    apply sound.notQueued row claimed
    exact ⟨event, member, typed, asked.trans doomed⟩

end

theorem start_role (request : ClusterRequest) : request.start.role = .idle := by
  cases request <;> rfl

theorem credentialOutline (K : Kubernetesx) :
    Outline (clusterProgram K) (fun _ _ => True) Provisioned
      (fun s t => Sound s t.role) (fun _ t u => Apart t.role u.role) where
  fresh s request _ := by
    have idle := start_role request
    show Sound s request.start.role
    rw [idle]
    exact .idle s
  freshPair s request u _ _ := by
    have idle := start_role request
    show Apart u.role request.start.role ∧ Apart request.start.role u.role
    rw [idle]
    exact (Apart.idle u.role).symm
  own p n t answer s' t' holds _ found taken := by
    have effect := next_credentialEffect taken
    have sound := holds.each n t found
    exact ⟨holds.shared.step effect sound, sound.own effect holds.shared⟩
  other p n t answer s' t' holds _ found taken m u different foundU := by
    have effect := next_credentialEffect taken
    have acting := holds.each n t found
    have sound := holds.each m u foundU
    have apart := holds.pair n m t u (Ne.symm different) found foundU
    have apart' := holds.pair m n u t different foundU found
    exact ⟨Sound.other effect holds.shared acting sound apart apart',
      Apart.step effect acting sound apart apart'⟩
  rest p n t answer s' t' holds _ _ _ m k u v _ _ different foundU foundV :=
    holds.pair m k u v different foundU foundV

def RotateCall.committed : RotateCall → Bool
  | .invalidate _ _ => true
  | .announce _ _ => true
  | .returned (.ok _) => true
  | _ => false

def ClusterCall.settled : ClusterCall → Bool
  | .rotate call => call.committed
  | _ => true

theorem next_settled {call : ClusterCall}
    (taken : call.next K s a = some (s', call')) :
    s'.clusters = s.clusters ∧ (call.settled = true → call'.settled = true) ∨
      call'.settled = true := by
  cases call with
  | rotate call =>
    obtain ⟨_, inner, rfl⟩ := lifted_step taken
    rcases rotate_clusters inner with same | ⟨_, _, _, _, _, _, rfl, _⟩
    · refine .inl ⟨same, fun committed => ?_⟩
      cases call with
      | invalidate c updated | announce c updated =>
        cases inner
        rfl
      | returned result => cases inner
      | _ => cases committed
    · exact .inr rfl
  | probe call | update call | cleanup call =>
    obtain ⟨_, _, rfl⟩ := lifted_step taken
    exact .inr rfl
  | use clusterID =>
    simp only [ClusterCall.next] at taken
    split at taken <;> cases taken <;> exact .inr rfl
  | invalidate clusterID =>
    cases taken
    exact .inr rfl
  | used | invalidated => cases taken

/-- From a provisioned store, whatever calls and deliveries are interleaved and
whichever of their steps fail: every live row names a stored credential of its
cluster and revision, and a rotation that returned an error changed no row. -/
theorem rotation_keeps_cluster_usable (K : Kubernetesx) (s : KubeStore) (start : Provisioned s)
    (actions : List (Action ClusterRequest Answer))
    (q : Pool KubeStore ClusterCall)
    (ran : run (clusterProgram K).step ⟨s, []⟩ actions = some q) :
    (∀ id c, liveCluster q.shared.clusters id = some c →
      ∃ row ∈ q.shared.credentials, row.ref = c.credentialRef ∧ row.clusterID = id ∧
        row.credentialRevision = c.credentialRevision) ∧
    ∀ n e, q.threads[n]? = some (.rotate (.returned (.error e))) →
      ∀ front a back p p', actions = front ++ .advance n a :: back →
        run (clusterProgram K).step ⟨s, []⟩ front = some p →
        (clusterProgram K).step p (.advance n a) = some p' →
        p'.shared.clusters = p.shared.clusters := by
  constructor
  · intro id c live
    have holds := (credentialOutline K).run (Holds.empty start)
      (guarded_true _ actions) ran
    obtain ⟨cred, stored⟩ := holds.shared.named id c.keyView (keyView_of_live live)
    exact ⟨_, mem_of_lookup stored, rfl, rfl, rfl⟩
  · intro n e failed front a back p p' split reached taken
    subst split
    obtain ⟨m, ranFront, ranRest⟩ := run_append.mp ran
    obtain rfl : p = m := Option.some.inj (reached.symm.trans ranFront)
    obtain ⟨m', taken', ranBack⟩ := run_cons.mp ranRest
    obtain rfl : p' = m' := Option.some.inj (taken.symm.trans taken')
    obtain ⟨t, s', t', found, next, rfl⟩ := step_advance.mp taken
    rcases next_settled next with ⟨same, _⟩ | settled
    · exact same
    have later : ∃ t, q.threads[n]? = some t ∧ t.settled = true := by
      refine run_thread (I := fun t : ClusterCall => t.settled = true) ?_
        ⟨t', get_set_self found, settled⟩ ranBack
      intro s u answer s' u' holds step
      rcases next_settled step with ⟨_, keeps⟩ | done
      · exact keeps holds
      · exact done
    obtain ⟨u, foundU, done⟩ := later
    rw [failed] at foundU
    cases foundU
    cases done

def tokenCredential (token : String) : Credential :=
  { kind := .SERVICE_ACCOUNT, host := "https://a", token := token }

def provisionedStore : KubeStore :=
  { clusters :=
      [{ id := "cl-1", orgID := "org-1", name := "prod", serverURL := "https://a",
         credentialRef := "ref-1", credentialRevision := 1, clusterUID := "uid-1",
         status := .READY, revision := 1 }]
    credentials := [⟨"ref-1", "cl-1", 1, tokenCredential "t1"⟩]
    issuedRefs := ["ref-1"] }

def rotateTo (expectedRevision : Int) (token : String) :
    Action ClusterRequest Answer :=
  .call (.rotate ⟨⟨"user", "alice", ""⟩, "cl-1", expectedRevision, tokenCredential token⟩)

theorem keyView_provisionedStore {id}
    (found : keyView provisionedStore id = some v) : id = "cl-1" ∧ v = ⟨"ref-1", 1, 1⟩ := by
  obtain ⟨c, live, rfl⟩ := keyView_eq_some.mp found
  obtain rfl := clusterID_of_live live
  have member := mem_of_select live
  rw [List.mem_singleton.mp member]
  exact ⟨rfl, rfl⟩

theorem provisionedStore_provisioned : Provisioned provisionedStore where
  named id v found := by
    obtain ⟨rfl, rfl⟩ := keyView_provisionedStore found
    exact ⟨tokenCredential "t1", rfl⟩
  issued ref current := by
    obtain ⟨id, v, found, rfl⟩ := current
    obtain ⟨rfl, rfl⟩ := keyView_provisionedStore found
    exact List.mem_singleton.mpr rfl
  tidy ref member := by
    rw [List.mem_singleton.mp member]
    decide
  queued ref queued := by
    obtain ⟨event, member, _⟩ := queued
    cases member

/-- Two rotations at one revision, the second refused by the unique index, and
the cleanup of the replaced credential delivered twice. -/
def overlappingRotations : List (Action ClusterRequest Answer) :=
  [rotateTo 1 "t2", rotateTo 1 "t3",
    .advance 0 {}, .advance 1 {}, .advance 0 {}, .advance 1 {},
    .advance 0 { uuid := "ref-2" }, .advance 1 { uuid := "ref-3" },
    .advance 0 {}, .advance 0 { clusterUID := "uid-1" }, .advance 0 {}, .advance 0 {},
    .advance 0 {},
    .call (.deliver 0), .advance 2 {}, .advance 2 {},
    .call (.deliver 0), .advance 3 {}, .advance 3 {}]

theorem overlapping_rotations_keep_cluster_usable :
    ∃ q, run (clusterProgram trustingKubernetesx).step ⟨provisionedStore, []⟩
        overlappingRotations = some q ∧
      q.shared.credentials = [⟨"ref-2", "cl-1", 2, tokenCredential "t2"⟩] ∧
      ∀ id c, liveCluster q.shared.clusters id = some c →
        ∃ row ∈ q.shared.credentials, row.ref = c.credentialRef ∧ row.clusterID = id ∧
          row.credentialRevision = c.credentialRevision :=
  ⟨_, rfl, by decide, (rotation_keeps_cluster_usable trustingKubernetesx provisionedStore
    provisionedStore_provisioned overlappingRotations _ rfl).1⟩

end AisphereHub
