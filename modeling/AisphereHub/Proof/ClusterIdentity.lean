import AisphereHub.Proof.CredentialLiveness

/-! The recorded identity of a cluster over runs of probes and rotations. The
history variable is the list of UIDs the API servers reported, each with the
cluster whose client asked. -/
namespace AisphereHub

open Transition Threads

variable {id : String} {c' : Cluster} {c : Cluster} {n : Nat}

def uidReport (_ : KubeStore) (call : ClusterCall) (a : Answer) : Option (String × String) :=
  match call with
  | .probe (.query c _) => a.probe.toOption.map fun probe => (c.id, probe.clusterUID)
  | .rotate (.query _ c _ _) => a.probe.toOption.map fun probe => (c.id, probe.clusterUID)
  | _ => none

def identityProgram (K : Kubernetesx) :
    Program (KubeStore × List (String × String)) ClusterCall ClusterRequest Answer :=
  (clusterProgram K).recorded uidReport

def reportsOf (history : List (String × String)) (id : String) : List String :=
  (history.filter fun report => report.1 = id).map Prod.snd

def firstUID (reports : List String) : String :=
  (reports.find? (· ≠ "")).getD ""

def ClusterCall.row : ClusterCall → Option Cluster
  | .rotate (.put _ c) => some c
  | .rotate (.build _ c _) => some c
  | .rotate (.query _ c _ _) => some c
  | .rotate (.stamp _ c _ _) => some c
  | .probe (.build c) => some c
  | .probe (.query c _) => some c
  | .probe (.record c _) => some c
  | .probe (.degrade c _) => some c
  | _ => none

variable {p : Pool (KubeStore × List (String × String)) ClusterCall}

/-- No probe reports a UID other than the recorded one, and none is reported as
long as none is recorded. -/
def ReportsExpected (p : Pool (KubeStore × List (String × String)) ClusterCall) :
    Action ClusterRequest Answer → Bool
  | .call _ => true
  | .advance n a =>
    match p.threads[n]? with
    | some (.probe (.query c _)) =>
      a.fault.isSome || a.clusterUID == "" || a.clusterUID == c.clusterUID
    | some (.rotate (.query _ c _ _)) =>
      a.fault.isSome || a.clusterUID == "" || c.clusterUID != ""
    | _ => true

inductive RowEffect (t : ClusterCall) (id : String) (c c' : Cluster) : Prop where
  | kept (uid : c'.clusterUID = c.clusterUID) (status : c'.status = c.status)
  | degraded (uid : c'.clusterUID = c.clusterUID) (status : c'.status = .DEGRADED)
  | recorded (loaded : Cluster) (probe : ProbeResult) (now : Nat)
      (call : t = .probe (.record loaded probe)) (here : loaded.id = id)
      (uid : c'.clusterUID = (probeVerdict loaded probe now).2.clusterUID.getD c.clusterUID)
      (status : c'.status = (probeVerdict loaded probe now).1)

theorem patched_identity (c : Cluster) (updates : List ClusterUpdate) (now : Nat) :
    (c.patched updates now).clusterUID = c.clusterUID ∧
      (c.patched updates now).status = c.status := by
  induction updates generalizing c with
  | nil => exact ⟨rfl, rfl⟩
  | cons update rest ih =>
    have here := ih (ClusterUpdate.apply c update)
    cases update <;> exact here

variable {t : ClusterCall}

section
variable {K : Kubernetesx} {s s' : KubeStore} {a : Answer}

theorem rowEffect_same (same : s'.clusters = s.clusters)
    (live : liveCluster s'.clusters id = some c') :
    ∃ c, liveCluster s.clusters id = some c ∧ RowEffect t id c c' :=
  ⟨c', same ▸ live, .kept rfl rfl⟩

theorem probe_rowEffect (taken : call.next K s a = some (s', call'))
    (live : liveCluster s'.clusters id = some c') :
    ∃ c, liveCluster s.clusters id = some c ∧ RowEffect (.probe call) id c c' := by
  cases call with simp only [ProbeCall.next, reduceCtorEq] at taken
  | authorize principal id' | load id' | build c | query c client =>
    split at taken <;> cases taken <;> exact rowEffect_same rfl live
  | record loaded probe =>
    split at taken
    · cases taken
      exact rowEffect_same rfl live
    · rename_i rows updated recorded
      cases taken
      obtain ⟨_, _, _, rfl⟩ := updateClusterStatus_eq_ok (orFault_eq_ok.mp recorded).2
      obtain ⟨c, found, ⟨_, rfl⟩ | ⟨here, rfl⟩⟩ :=
        live_amend (Cluster.transitioned · _ _ _) (fun _ => rfl) (fun _ => rfl) live
      · exact ⟨c', found, .kept rfl rfl⟩
      · exact ⟨c, found, .recorded loaded probe a.now rfl here.symm rfl rfl⟩
  | degrade loaded cause =>
    split at taken
    · cases taken
      exact rowEffect_same rfl live
    · rename_i rows updated degraded
      cases taken
      obtain ⟨_, _, _, rfl⟩ := updateClusterStatus_eq_ok (orFault_eq_ok.mp degraded).2
      obtain ⟨c, found, ⟨_, rfl⟩ | ⟨here, rfl⟩⟩ :=
        live_amend (Cluster.transitioned · _ _ _) (fun _ => rfl) (fun _ => rfl) live
      · exact ⟨c', found, .kept rfl rfl⟩
      · exact ⟨c, found, .degraded rfl rfl⟩
  | reread id' =>
    cases taken
    exact rowEffect_same rfl live

theorem cleanup_clusters {call : CleanupCall}
    (taken : call.next s a = some (s', call')) : s'.clusters = s.clusters := by
  cases call with simp only [CleanupCall.next, reduceCtorEq] at taken
  | claim index =>
    split at taken
    · cases taken
      rfl
    · split at taken
      · cases taken
      · split_ifs at taken
        cases taken
        rfl
  | clean event =>
    split at taken <;> cases taken <;> rfl

theorem update_rowEffect (taken : call.next s a = some (s', call'))
    (live : liveCluster s'.clusters id = some c') :
    ∃ c, liveCluster s.clusters id = some c ∧ RowEffect (.update call) id c c' := by
  cases call with simp only [UpdateCall.next, reduceCtorEq] at taken
  | authorize request | validate request =>
    split at taken <;> cases taken <;> exact rowEffect_same rfl live
  | write request =>
    split at taken
    · cases taken
      exact rowEffect_same rfl live
    · rename_i rows updated written
      cases taken
      have committed := (orFault_eq_ok.mp written).2
      by_cases masked : request.updates = []
      · exact rowEffect_same (updateClusterWithCAS_empty masked committed) live
      · obtain ⟨_, _, _, _, rfl⟩ := updateClusterWithCAS_eq_ok masked committed
        obtain ⟨c, found, ⟨_, rfl⟩ | ⟨_, rfl⟩⟩ :=
          live_amend (Cluster.patched · request.updates a.now)
            (fun c => (c.patched_frame _ _).1) (fun c => (c.patched_frame _ _).2.1) live
        · exact ⟨c', found, .kept rfl rfl⟩
        · have same := patched_identity c request.updates a.now
          exact ⟨c, found, .kept same.1 same.2⟩

variable {call : ClusterCall}

theorem next_rowEffect (taken : call.next K s a = some (s', call'))
    (live : liveCluster s'.clusters id = some c') :
    ∃ c, liveCluster s.clusters id = some c ∧ RowEffect call id c c' := by
  cases call with
  | rotate call =>
    obtain ⟨_, inner, rfl⟩ := lifted_step taken
    rcases rotate_clusters inner with same | ⟨_, _, _, _, _, _, _, stamped⟩
    · exact rowEffect_same same live
    obtain ⟨_, _, _, _, rows⟩ := updateClusterCredential_eq_ok.mp stamped
    rw [rows] at live
    obtain ⟨c, found, ⟨_, rfl⟩ | ⟨_, rfl⟩⟩ :=
      live_amend (Cluster.rekeyed · _ _ _) (fun _ => rfl) (fun _ => rfl) live
    · exact ⟨c', found, .kept rfl rfl⟩
    · exact ⟨c, found, .kept rfl rfl⟩
  | probe call =>
    obtain ⟨_, inner, rfl⟩ := lifted_step taken
    exact probe_rowEffect inner live
  | update call =>
    obtain ⟨_, inner, rfl⟩ := lifted_step taken
    exact update_rowEffect inner live
  | use clusterID =>
    simp only [ClusterCall.next] at taken
    split at taken <;> cases taken <;> exact rowEffect_same rfl live
  | invalidate clusterID =>
    cases taken
    exact rowEffect_same rfl live
  | cleanup call =>
    obtain ⟨_, inner, rfl⟩ := lifted_step taken
    exact rowEffect_same (cleanup_clusters inner) live
  | used | invalidated => cases taken

theorem next_row (taken : call.next K s a = some (s', call')) (held : call'.row = some c) :
    call.row = some c ∨ liveCluster s.clusters c.id = some c := by
  cases call with
  | rotate call =>
    obtain ⟨call', inner, rfl⟩ := lifted_step taken
    cases call with simp only [RotateCall.next, reduceCtorEq] at inner
    | authorize request | stamp request loaded locator client =>
      split at inner <;> cases inner <;> cases held
    | load request =>
      split at inner
      · cases inner
        cases held
      · rename_i loaded read
        split_ifs at inner <;> cases inner <;> cases held
        have live := getCluster_eq_ok.mp (orFault_eq_ok.mp read).2
        exact .inr (clusterID_of_live live ▸ live)
    | put request loaded =>
      split_ifs at inner
      split at inner <;> cases inner <;> cases held
      exact .inl rfl
    | build request loaded locator =>
      split at inner <;> cases inner <;> cases held
      exact .inl rfl
    | query request loaded locator client =>
      split at inner
      · cases inner
        cases held
      · split_ifs at inner <;> cases inner <;> cases held
        exact .inl rfl
    | discard locator failure | invalidate loaded updated | announce loaded updated =>
      cases inner
      cases held
  | probe call =>
    obtain ⟨call', inner, rfl⟩ := lifted_step taken
    cases call with simp only [ProbeCall.next, reduceCtorEq] at inner
    | authorize principal id | record loaded probe | degrade loaded cause =>
      split at inner <;> cases inner <;> cases held
    | load id =>
      split at inner <;> cases inner <;> cases held
      rename_i read
      have live := getCluster_eq_ok.mp (orFault_eq_ok.mp read).2
      exact .inr (clusterID_of_live live ▸ live)
    | build loaded | query loaded client =>
      split at inner <;> cases inner <;> cases held <;> exact .inl rfl
    | reread id =>
      cases inner
      cases held
  | update call | cleanup call =>
    obtain ⟨_, _, rfl⟩ := lifted_step taken
    cases held
  | use clusterID =>
    simp only [ClusterCall.next] at taken
    split at taken <;> cases taken <;> cases held
  | invalidate clusterID =>
    cases taken
    cases held
  | used | invalidated => cases taken

theorem next_record (taken : call.next K s a = some (s', .probe (.record c probe))) :
    ∃ client, call = .probe (.query c client) ∧ a.fault = none ∧
      probe.clusterUID = a.clusterUID := by
  cases call with
  | probe call =>
    obtain ⟨call', inner, same⟩ := lifted_step taken
    cases same
    cases call with
    | query loaded client =>
      simp only [ProbeCall.next, Answer.probe] at inner
      split at inner
      · cases inner
      · rename_i reported answered
        cases inner
        split at answered
        · cases answered
        · rename_i faultless
          cases answered
          exact ⟨client, rfl, faultless, rfl⟩
    | authorize principal id | load id | build loaded | record loaded probe
    | degrade loaded cause =>
      simp only [ProbeCall.next] at inner
      split at inner <;> cases inner
    | reread | returned => cases inner
  | rotate call | update call | cleanup call =>
    obtain ⟨_, _, same⟩ := lifted_step taken
    cases same
  | use clusterID =>
    simp only [ClusterCall.next] at taken
    split at taken <;> cases taken
  | invalidate | used | invalidated => cases taken

end

theorem mem_reportsOf : uid ∈ reportsOf history id ↔ (id, uid) ∈ history := by
  simp [reportsOf]

theorem firstUID_of_silent (silent : ∀ uid ∈ reports, uid = "") :
    firstUID reports = "" := by
  have nothing : reports.find? (· ≠ "") = none := by
    rw [List.find?_eq_none]
    intro uid member
    simp [silent uid member]
  rw [firstUID, nothing]
  rfl

/-- Every live row has the identity it started with, and nothing was reported of
a cluster that started with none. -/
structure IdentityKept (start : KubeStore) (x : KubeStore × List (String × String)) : Prop where
  uid : ∀ id c, liveCluster x.1.clusters id = some c →
    ∃ c₀, liveCluster start.clusters id = some c₀ ∧ c.clusterUID = c₀.clusterUID
  silent : ∀ id c₀, liveCluster start.clusters id = some c₀ → c₀.clusterUID = "" →
    ∀ uid ∈ reportsOf x.2 id, uid = ""

/-- A call compares with the identity the row started with, and a verdict in the
making rests on a report that agrees with it. -/
structure Informed (start : KubeStore) (x : KubeStore × List (String × String))
    (t : ClusterCall) : Prop where
  row : ∀ c, t.row = some c →
    ∃ c₀, liveCluster start.clusters c.id = some c₀ ∧ c.clusterUID = c₀.clusterUID
  told : ∀ c probe, t = .probe (.record c probe) → (c.id, probe.clusterUID) ∈ x.2 ∧
    (probe.clusterUID = "" ∨ probe.clusterUID = c.clusterUID)

theorem probeVerdict_of_agreeing
    (agreeing : probe.clusterUID = "" ∨ probe.clusterUID = c.clusterUID) (now : Nat) :
    (probeVerdict c probe now).1 = .READY ∧ (probeVerdict c probe now).2.clusterUID = none := by
  have same : uidDiffers c.clusterUID probe.clusterUID = false := by
    rcases agreeing with blank | equal
    · simp [uidDiffers, blank]
    · simp [uidDiffers, equal]
  simp [probeVerdict, same]

section
variable {K : Kubernetesx} {start s s' : KubeStore} {a : Answer}
  {h : List (String × String)}

theorem report_agrees (expected : ReportsExpected p (.advance n a) = true)
    (found : p.threads[n]? = some t) (reported : uidReport p.shared.1 t a = some (id, uid)) :
    ∃ c, t.row = some c ∧ c.id = id ∧ (c.clusterUID = "" → uid = "") := by
  cases t with
  | probe call | rotate call =>
    cases call with
    | query =>
      simp only [ReportsExpected, found] at expected
      cases faulty : a.fault with
      | some cause => simp [uidReport, Answer.probe, faulty, Except.toOption] at reported
      | none =>
        simp only [uidReport, Answer.probe, faulty, Except.toOption, Option.map_some,
          Option.some.injEq, Prod.mk.injEq] at reported
        obtain ⟨rfl, rfl⟩ := reported
        refine ⟨_, rfl, rfl, ?_⟩
        intro unknown
        simpa [faulty, unknown] using expected
    | _ => cases reported
  | _ => cases reported

variable {t' : ClusterCall} {x' : KubeStore × List (String × String)}

theorem IdentityKept.step (holds : IdentityKept start p.shared)
    (informed : Informed start p.shared t) (expected : ReportsExpected p (.advance n a) = true)
    (found : p.threads[n]? = some t) (taken : (identityProgram K).next p.shared t a = some (x', t'))
    : IdentityKept start x' := by
  obtain ⟨next, history⟩ := recorded_next.mp taken
  constructor
  · intro id c' live
    obtain ⟨c, before, effect⟩ := next_rowEffect next live
    obtain ⟨c₀, origin, same⟩ := holds.uid id c before
    refine ⟨c₀, origin, ?_⟩
    cases effect with
    | kept uid status => exact uid.trans same
    | degraded uid status => exact uid.trans same
    | recorded loaded probe now call here uid status =>
      have agreeing := (informed.told loaded probe call).2
      rw [(probeVerdict_of_agreeing agreeing now).2] at uid
      exact uid.trans same
  · intro id c₀ origin unknown uid reported
    rw [mem_reportsOf, history] at reported
    rcases List.mem_append.mp reported with old | new
    · exact holds.silent id c₀ origin unknown uid (mem_reportsOf.mpr old)
    · obtain ⟨c, held, rfl, silent⟩ := report_agrees expected found (Option.mem_toList.mp new)
      obtain ⟨c₁, origin', same⟩ := informed.row c held
      obtain rfl : c₀ = c₁ := Option.some.inj (origin.symm.trans origin')
      exact silent (same.trans unknown)

theorem Informed.own (holds : IdentityKept start p.shared) (informed : Informed start p.shared t)
    (expected : ReportsExpected p (.advance n a) = true) (found : p.threads[n]? = some t)
    (taken : (identityProgram K).next p.shared t a = some (x', t')) : Informed start x' t' := by
  obtain ⟨next, history⟩ := recorded_next.mp taken
  constructor
  · intro c held
    rcases next_row next held with before | live
    · exact informed.row c before
    · exact holds.uid c.id c live
  · rintro c probe rfl
    obtain ⟨client, rfl, faultless, told⟩ := next_record next
    have reported : uidReport p.shared.1 (.probe (.query c client)) a
        = some (c.id, a.clusterUID) := by
      simp [uidReport, Answer.probe, faultless, Except.toOption]
    rw [told, history, reported]
    simpa [ReportsExpected, found, faultless] using expected

theorem Informed.other
    (informed : Informed start x u) (taken : (identityProgram K).next x t a = some (x', t'))
    : Informed start x' u := by
  obtain ⟨_, history⟩ := recorded_next.mp taken
  refine ⟨informed.row, ?_⟩
  intro c probe recording
  obtain ⟨member, agreeing⟩ := informed.told c probe recording
  rw [history]
  exact ⟨List.mem_append_left _ member, agreeing⟩

end

theorem identityOutline (K : Kubernetesx) (start : KubeStore) :
    Outline (identityProgram K) (fun p a => ReportsExpected p a = true)
      (IdentityKept start) (Informed start) (fun _ _ _ => True) where
  fresh x request _ := by
    constructor
    · intro c held
      cases request <;> cases held
    · intro c probe recording
      cases request <;> cases recording
  freshPair _ _ _ _ _ := ⟨trivial, trivial⟩
  own p n t answer x' t' holds expected found taken := by
    have informed := holds.each n t found
    exact ⟨holds.shared.step informed expected found taken,
      informed.own holds.shared expected found taken⟩
  other p n t answer x' t' holds _ _ taken m u _ foundU :=
    ⟨(holds.each m u foundU).other taken, trivial, trivial⟩
  rest _ _ _ _ _ _ _ _ _ _ _ _ _ _ _ _ _ _ _ := trivial

abbrev IdentityHolds (start : KubeStore) :
    Pool (KubeStore × List (String × String)) ClusterCall → Prop :=
  Holds (IdentityKept start) (Informed start) (fun _ _ _ => True)

/-- Since `before`, a row became READY only on a report without a UID or with
the recorded one. -/
def ReadyOnReport (before : KubeStore) (x : KubeStore × List (String × String)) : Prop :=
  ∀ id c, liveCluster x.1.clusters id = some c → ∃ b, liveCluster before.clusters id = some b ∧
    (c.status = .READY → b.status = .READY ∨
      ∃ uid ∈ reportsOf x.2 id, uid = "" ∨ uid = c.clusterUID)

theorem readyOnReport_step (holds : IdentityHolds start p)
    (ready : ReadyOnReport before p.shared)
    (taken : (identityProgram K).step p action = some q) : ReadyOnReport before q.shared := by
  cases action with
  | call request =>
    cases taken
    exact ready
  | advance n a =>
    obtain ⟨t, x', t', found, step, rfl⟩ := step_advance.mp taken
    obtain ⟨next, history⟩ := recorded_next.mp step
    intro id c' live
    obtain ⟨c, old, effect⟩ := next_rowEffect next live
    obtain ⟨b, origin, reason⟩ := ready id c old
    refine ⟨b, origin, ?_⟩
    intro isReady
    have later : ∀ uid ∈ reportsOf p.shared.2 id, uid ∈ reportsOf x'.2 id := by
      intro uid member
      rw [mem_reportsOf] at member ⊢
      rw [history]
      exact List.mem_append_left _ member
    cases effect with
    | kept uid status =>
      rcases reason (status ▸ isReady) with already | ⟨told, member, agreeing⟩
      · exact .inl already
      · exact .inr ⟨told, later told member, uid ▸ agreeing⟩
    | degraded uid status =>
      rw [status] at isReady
      cases isReady
    | recorded loaded probe now call here uid status =>
      have informed := holds.each n t found
      obtain ⟨member, agreeing⟩ := informed.told loaded probe call
      obtain ⟨c₀, origin₀, sameLoaded⟩ := informed.row loaded (call ▸ rfl)
      obtain ⟨c₁, origin₁, sameRow⟩ := holds.shared.uid id c old
      rw [here] at origin₀ member
      obtain rfl : c₀ = c₁ := Option.some.inj (origin₀.symm.trans origin₁)
      rw [(probeVerdict_of_agreeing agreeing now).2] at uid
      have same : loaded.clusterUID = c'.clusterUID :=
        sameLoaded.trans (sameRow.symm.trans uid.symm)
      exact .inr ⟨probe.clusterUID, later _ (mem_reportsOf.mpr member),
        agreeing.imp_right (·.trans same)⟩

/-- Every run, cut anywhere: a recorded identity stays; a row of it does not
become READY as long as only other identities are reported; and a row without
one has the first identity reported. The reports meet the expectation above. -/
theorem identity_survives_expected_reports (K : Kubernetesx) (s : KubeStore)
    (front back : List (Action ClusterRequest Answer))
    (p q : Pool (KubeStore × List (String × String)) ClusterCall)
    (ranFront : run (identityProgram K).step ⟨(s, []), []⟩ front = some p)
    (ranBack : run (identityProgram K).step p back = some q)
    (expected : Guarded (identityProgram K).step
      (fun p a => ReportsExpected p a = true) ⟨(s, []), []⟩ (front ++ back)) :
    run (clusterProgram K).step ⟨s, []⟩ (front ++ back) = some q.forget ∧
    ∀ id c b d, liveCluster s.clusters id = some c →
      liveCluster p.shared.1.clusters id = some b →
      liveCluster q.shared.1.clusters id = some d →
      (c.clusterUID ≠ "" → d.clusterUID = c.clusterUID ∧
        ((∀ uid ∈ reportsOf q.shared.2 id, uid ≠ "" ∧ uid ≠ c.clusterUID) →
          d.status = .READY → b.status = .READY)) ∧
      (c.clusterUID = "" → d.clusterUID = firstUID (reportsOf q.shared.2 id)) := by
  obtain ⟨expectedFront, expectedBack⟩ := guarded_append expected ranFront
  have start : IdentityHolds s ⟨(s, []), []⟩ := by
    refine Holds.empty ⟨fun id c live => ⟨c, live, rfl⟩, ?_⟩
    intro id c _ _ uid member
    cases member
  have holdsFront := (identityOutline K s).run start expectedFront ranFront
  have readyFront : ReadyOnReport p.shared.1 p.shared :=
    fun id c live => ⟨c, live, fun isReady => .inl isReady⟩
  have holds : IdentityHolds s q ∧ ReadyOnReport p.shared.1 q.shared := by
    refine run_preserves
      (I := fun r => IdentityHolds s r ∧ ReadyOnReport p.shared.1 r.shared) ?_
      ⟨holdsFront, readyFront⟩ expectedBack ranBack
    intro r action r' permitted before taken
    exact ⟨(identityOutline K s).step r action r' permitted before.1 taken,
      readyOnReport_step before.1 before.2 taken⟩
  constructor
  · exact recorded_run (run_append.mpr ⟨p, ranFront, ranBack⟩)
  · intro id c b d live liveFront liveBack
    obtain ⟨c₀, origin, same⟩ := holds.1.shared.uid id d liveBack
    obtain rfl : c = c₀ := Option.some.inj (live.symm.trans origin)
    constructor
    · intro _
      refine ⟨same, ?_⟩
      intro foreign isReady
      obtain ⟨b', origin', reason⟩ := holds.2 id d liveBack
      obtain rfl : b = b' := Option.some.inj (liveFront.symm.trans origin')
      rcases reason isReady with already | ⟨uid, member, blank | equal⟩
      · exact already
      · exact absurd blank (foreign uid member).1
      · exact absurd (equal.trans same) (foreign uid member).2
    · intro unknown
      rw [firstUID_of_silent (holds.1.shared.silent id c origin unknown)]
      exact same.trans unknown

def probeOnce (n : Nat) (answer : Answer) : List (Action ClusterRequest Answer) :=
  [.call (.probe ⟨"user", "alice", ""⟩ "cl-1"), .advance n {}, .advance n {}, .advance n {},
    .advance n answer, .advance n {}]

def rotateToForeign (n : Nat) : List (Action ClusterRequest Answer) :=
  [rotateTo 1 "t2", .advance n {}, .advance n {}, .advance n { uuid := "ref-2" }, .advance n {},
    .advance n { clusterUID := "uid-9" }, .advance n {}]

/-- A failed probe degrades the row; a rotation that reaches another cluster
neither replaces its identity nor makes it READY. -/
theorem identity_survives_foreign_rotation :
    ∃ p q d, run (identityProgram trustingKubernetesx).step
        ⟨(provisionedStore, []), []⟩ (probeOnce 0 { fault := some "timeout" }) = some p ∧
      run (identityProgram trustingKubernetesx).step p (rotateToForeign 1) = some q ∧
      liveCluster q.shared.1.clusters "cl-1" = some d ∧ reportsOf q.shared.2 "cl-1" = ["uid-9"] ∧
      d.clusterUID = "uid-1" ∧ (d.status = .READY → False) := by
  refine ⟨_, _, _, rfl, rfl, rfl, by decide, ?_⟩
  obtain ⟨same, unready⟩ := ((identity_survives_expected_reports trustingKubernetesx
    provisionedStore (probeOnce 0 { fault := some "timeout" }) (rotateToForeign 1) _ _ rfl rfl
    (by decide)).2 "cl-1" _ _ _ rfl rfl rfl).1 (by decide)
  exact ⟨same, fun isReady => absurd (unready (by decide) isReady) (by decide)⟩

/-- The first probe of a drifted cluster writes the foreign identity along with
its DEGRADED verdict, so the second one finds the cluster READY; and a cluster
without an identity is READY on its first report and still has none. -/
theorem probe_replaces_identity_and_records_none :
    (∃ p q b d, run (identityProgram trustingKubernetesx).step
        ⟨(provisionedStore, []), []⟩ (probeOnce 0 { clusterUID := "uid-2" }) = some p ∧
      run (identityProgram trustingKubernetesx).step p
        (probeOnce 1 { clusterUID := "uid-2" }) = some q ∧
      liveCluster p.shared.1.clusters "cl-1" = some b ∧ b.status = .DEGRADED ∧
      liveCluster q.shared.1.clusters "cl-1" = some d ∧ d.status = .READY ∧
      d.clusterUID = "uid-2" ∧ reportsOf q.shared.2 "cl-1" = ["uid-2", "uid-2"]) ∧
    ∃ q d, run (identityProgram trustingKubernetesx).step
        ⟨({ provisionedStore with
            clusters := provisionedStore.clusters.map ({ · with clusterUID := "" }) }, []), []⟩
        (probeOnce 0 { clusterUID := "uid-2" }) = some q ∧
      liveCluster q.shared.1.clusters "cl-1" = some d ∧ d.status = .READY ∧
      d.clusterUID = "" ∧ firstUID (reportsOf q.shared.2 "cl-1") = "uid-2" :=
  ⟨⟨_, _, _, _, rfl, rfl, rfl, by decide, rfl, by decide, by decide, by decide⟩,
    _, _, rfl, rfl, by decide, by decide, by decide⟩

end AisphereHub
