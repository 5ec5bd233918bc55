import AisphereHub.Proof.SandboxIsolation

/-! The passes that remove rows without an object, while sandboxes are being applied. -/
namespace AisphereHub

open Keyed Transition
open Threads

abbrev Place : Type := String × String × String

variable {J : SandboxCodec} {s s' : SandboxStore} {a : Answer}

def SandboxCall.applies : SandboxCall → Option Place
  | .create (.apply created ns _) => some (created.clusterID, ns.kubeName, created.kubernetesName)
  | .switch (.apply _ row _ ns) => some (row.clusterID, ns.kubeName, row.kubernetesName)
  | _ => none

def SandboxSync.place (pass : SandboxSync) (name : String) : Place :=
  (pass.ns.clusterID, pass.ns.kubeName, name)

def SandboxSync.condemns (pass : SandboxSync) (entry : String × Sandbox) : Bool :=
  decide (¬(entry.1 ∈ pass.remoteNames ∨ entry.2.lifecycle = .CREATING ∨ entry.2.lifecycle = .DELETED))

/-- The pass counts on there being no object at this place. -/
def SyncSandboxesCall.awaits (place : Place) : SyncSandboxesCall → Bool
  | .listLocal ns _ remote =>
    place.1 == ns.clusterID && place.2.1 == ns.kubeName && !(remote.map RemoteSandbox.name).contains place.2.2
  | .observe pass _ | .relate pass _ _ =>
    pass.localByName.any fun entry => pass.condemns entry && pass.place entry.1 == place
  | .remove pass rest => rest.any fun entry => pass.condemns entry && pass.place entry.1 == place
  | .revoke pass removed rest => pass.place removed.kubernetesName == place ||
      rest.any fun entry => pass.condemns entry && pass.place entry.1 == place
  | _ => false

def SyncSandboxesCall.entries : SyncSandboxesCall → List (String × Sandbox)
  | .observe pass _ | .relate pass _ _ => pass.localByName
  | .remove _ rest | .revoke _ _ rest => rest
  | _ => []

def SyncSandboxesCall.removing : SyncSandboxesCall → Option Place
  | .remove pass ((_, row) :: _) => some (pass.place row.kubernetesName)
  | .revoke pass removed _ => some (pass.place removed.kubernetesName)
  | _ => none

def SandboxCall.awaits (place : Place) : SandboxCall → Bool
  | .sync call => call.awaits place
  | _ => false

def untimely (p : Pool SandboxStore SandboxCall) : Action SandboxRequest Answer → Bool
  | .call _ => false
  | .advance n a =>
    a.fault.isNone && ((p.threads[n]?).bind SandboxCall.applies).any fun place =>
      p.threads.any (SandboxCall.awaits place)

def Timely (p : Pool SandboxStore SandboxCall) (action : Action SandboxRequest Answer) : Prop :=
  untimely p action = false

instance (p : Pool SandboxStore SandboxCall) (action : Action SandboxRequest Answer) :
    Decidable (Timely p action) :=
  inferInstanceAs (Decidable (_ = _))

structure KeepsSandboxes (s s' : SandboxStore) : Prop where
  rows : ∀ id row, getSandbox s.sandboxes id = .ok row → ∃ row', getSandbox s'.sandboxes id = .ok row'
  tuples : ∀ tuple ∈ s.kube.tuples, tuple ∈ s'.kube.tuples

/-- A step of a pass takes away only the row in hand, or its tuples, and only while the object of
that row does not exist. -/
def SparesRunning (J : SandboxCodec) (p : Pool SandboxStore SandboxCall)
    (action : Action SandboxRequest Answer) : Prop :=
  ∀ n a call q, action = .advance n a → p.threads[n]? = some (.sync call) →
    (sandboxProgram J).step p action = some q →
    KeepsSandboxes p.shared q.shared ∨ ∃ place, call.removing = some place ∧
      lookup RemoteSandbox.key p.shared.remote place = none

theorem KeepsSandboxes.refl (s : SandboxStore) : KeepsSandboxes s s :=
  ⟨fun _ row read => ⟨row, read⟩, fun _ member => member⟩

section Remote

theorem network_remote {call : NetworkModeCall} (taken : call.next s a = some (s', call')) :
    s'.remote = s.remote := by
  cases call with
  | _ =>
    simp only [NetworkModeCall.next] at taken
    repeat' split at taken
    all_goals
      cases taken <;> rfl

theorem sync_remote {call : SyncSandboxesCall} (taken : call.next s a = some (s', call')) :
    s'.remote = s.remote := by
  unfold SyncSandboxesCall.next at taken
  repeat' split at taken
  all_goals
    cases taken <;> rfl

theorem sandbox_remote {call : SandboxCall} (taken : call.next J s a = some (s', call')) :
    s'.remote = s.remote ∨ ∃ place, call.applies = some place ∧ a.fault = none ∧
      ∀ other, other ≠ place → lookup RemoteSandbox.key s'.remote other =
        lookup RemoteSandbox.key s.remote other := by
  cases call with obtain ⟨next, step, rfl⟩ := lifted_step taken
  | create call | switch call =>
    cases call with simp only [CreateSandboxCall.next, OperatingModeCall.next] at step
    | apply =>
      split at step
      · cases step
        exact .inl rfl
      · rename_i working
        cases step
        refine .inr ⟨_, rfl, working, fun other away => ?_⟩
        rw [lookup_applySandbox]
        exact if_neg away
    | _ =>
      left
      repeat' split at step
      all_goals
        cases step <;> rfl
  | network call => exact .inl (network_remote step)
  | sync call => exact .inl (sync_remote step)

end Remote

section Pass
variable {call call' : SyncSandboxesCall}

/-- What a pass knows in between: nothing is where it counts on there being nothing, and the rows
are under their own names. -/
structure PassKnows (s : SandboxStore) (call : SyncSandboxesCall) : Prop where
  empty : ∀ place, call.awaits place = true → lookup RemoteSandbox.key s.remote place = none
  named : ∀ entry ∈ call.entries, entry.1 = entry.2.kubernetesName

theorem PassKnows.idle (awaits : ∀ place, call.awaits place = false) (entries : call.entries = []) :
    PassKnows s call where
  empty place waits := absurd (waits.symm.trans (awaits place)) Bool.true_eq_false.mp
  named entry member := by
    rw [entries] at member
    cases member

theorem PassKnows.fewer (knows : PassKnows s call) (same : s'.remote = s.remote)
    (awaits : ∀ place, call'.awaits place = true → call.awaits place = true)
    (entries : ∀ entry ∈ call'.entries, entry ∈ call.entries) : PassKnows s' call' where
  empty place waits := by
    rw [same]
    exact knows.empty place (awaits place waits)
  named entry member := knows.named entry (entries entry member)

theorem pass_knows (knows : PassKnows s call) (taken : call.next s a = some (s', call')) :
    PassKnows s' call' := by
  cases call with simp only [SyncSandboxesCall.next, reduceCtorEq] at taken
  | «namespace» namespaceID | cluster ns =>
    split at taken <;> cases taken <;> exact .idle (fun _ => rfl) rfl
  | listRemote ns cluster =>
    split at taken <;> cases taken
    · exact .idle (fun _ => rfl) rfl
    · refine ⟨?_, fun entry member => absurd member (List.not_mem_nil)⟩
      rintro ⟨clusterID, kubeNamespace, name⟩ waits
      simp only [SyncSandboxesCall.awaits, Bool.and_eq_true, beq_iff_eq, Bool.not_eq_true',
        List.contains_eq_mem, decide_eq_false_iff_not] at waits
      obtain ⟨⟨rfl, rfl⟩, absent⟩ := waits
      rw [lookup_eq_none_iff]
      intro o member same
      obtain ⟨cluster, rest⟩ := Prod.mk.inj same
      obtain ⟨space, named⟩ := Prod.mk.inj rest
      refine absent (List.mem_map.mpr ⟨o, List.mem_filter.mpr ⟨member, ?_⟩, named⟩)
      simp [cluster, space]
  | listLocal ns cluster remote =>
    split at taken <;> cases taken
    · exact .idle (fun _ => rfl) rfl
    · refine ⟨?_, fun entry member => (mem_index member).2⟩
      intro place waits
      obtain ⟨entry, _, both⟩ := List.any_eq_true.mp waits
      obtain ⟨condemned, here⟩ := (Bool.and_eq_true _ _).mp both
      obtain rfl := beq_iff_eq.mp here
      refine knows.empty _ ?_
      simpa [SyncSandboxesCall.awaits, SandboxSync.place] using fun listed => of_decide_eq_true condemned (.inl listed)
  | observe pass remote =>
    cases remote with
    | nil =>
      cases taken
      exact knows.fewer rfl (fun _ waits => waits) (fun _ member => member)
    | cons r rest =>
      dsimp only at taken
      split at taken <;> split at taken <;> cases taken <;>
        exact knows.fewer rfl (fun _ waits => waits) (fun _ member => member)
  | relate pass created rest =>
    split at taken <;> cases taken <;>
      exact knows.fewer rfl (fun _ waits => waits) (fun _ member => member)
  | remove pass entries =>
    cases entries with
    | nil =>
      cases taken
      exact .idle (fun _ => rfl) rfl
    | cons entry rest =>
      have later : ∀ place, (SyncSandboxesCall.remove pass rest).awaits place = true →
          (SyncSandboxesCall.remove pass (entry :: rest)).awaits place = true := by
        intro place waits
        simp only [SyncSandboxesCall.awaits, List.any_cons] at waits ⊢
        rw [waits, Bool.or_true]
      dsimp only at taken
      split at taken
      · cases taken
        exact knows.fewer rfl later (fun _ member => List.mem_cons_of_mem _ member)
      · rename_i condemned
        split at taken <;> cases taken
        · exact knows.fewer rfl later (fun _ member => List.mem_cons_of_mem _ member)
        · have own : entry.1 = entry.2.kubernetesName := knows.named entry List.mem_cons_self
          refine knows.fewer rfl ?_ (fun _ member => List.mem_cons_of_mem _ member)
          intro place waits
          rcases (Bool.or_eq_true _ _).mp waits with here | there
          · have here : (pass.place entry.2.kubernetesName == place) = true := here
            simp only [SyncSandboxesCall.awaits, List.any_cons, Bool.or_eq_true]
            left
            rw [own, here, Bool.and_true]
            exact decide_eq_true condemned
          · exact later place there
  | revoke pass removed rest =>
    have later : ∀ place, (SyncSandboxesCall.remove pass rest).awaits place = true →
        (SyncSandboxesCall.revoke pass removed rest).awaits place = true :=
      fun place waits => (Bool.or_eq_true _ _).mpr (.inr waits)
    split at taken <;> cases taken <;> exact knows.fewer rfl later (fun _ member => member)

theorem getSandbox_amended {id}
    (read : getSandbox rows id = .ok row) (target : String)
    (keep : ∀ r, (f r).id = r.id) (live : ∀ r, (f r).live = r.live) :
    ∃ row', getSandbox (amend Sandbox.id rows target f) id = .ok row' := by
  obtain ⟨found, alive⟩ := getSandbox_eq_ok.mp read
  by_cases same : id = target
  · refine ⟨f row, getSandbox_eq_ok.mpr ⟨?_, (live row).trans alive⟩⟩
    rw [lookup_amend keep, if_pos same, ← same, found]
    rfl
  · refine ⟨row, getSandbox_eq_ok.mpr ⟨?_, alive⟩⟩
    rw [lookup_amend keep, if_neg same, found]

theorem pass_keeps (taken : call.next s a = some (s', call')) (calm : call.removing = none) :
    KeepsSandboxes s s' := by
  cases call with simp only [SyncSandboxesCall.next, reduceCtorEq] at taken
  | observe pass remote =>
    cases remote with
    | nil =>
      cases taken
      exact .refl s
    | cons r rest =>
      dsimp only at taken
      split at taken
      · split at taken
        · cases taken
          exact .refl s
        · rename_i rows updated written
          cases taken
          obtain ⟨_, _, _, rfl⟩ := updateSandboxSync_eq_ok.mp (orFault_eq_ok.mp written).2
          refine ⟨fun id row read => ?_, fun _ member => member⟩
          exact getSandbox_amended read _ (fun _ => rfl) (fun _ => rfl)
      · split at taken
        · cases taken
          exact .refl s
        · rename_i rows inserted
          cases taken
          obtain ⟨_, rfl⟩ := insertSandbox_eq_ok (orFault_eq_ok.mp inserted).2
          refine ⟨fun id row read => ⟨row, ?_⟩, fun _ member => member⟩
          obtain ⟨found, alive⟩ := getSandbox_eq_ok.mp read
          exact getSandbox_eq_ok.mpr ⟨lookup_extended (List.prefix_append _ _) found, alive⟩
  | relate pass created rest =>
    split at taken
    · cases taken
      exact .refl s
    · rename_i tuples written
      cases taken
      obtain ⟨_, _, rfl⟩ := writeRelationships_eq_ok.mp written
      exact ⟨fun _ row read => ⟨row, read⟩, fun _ member => mem_foldl_touch.mpr (.inl member)⟩
  | remove pass entries =>
    cases entries with
    | nil =>
      cases taken
      exact .refl s
    | cons entry rest => cases calm
  | revoke pass removed rest => cases calm
  | _ =>
    split at taken <;> cases taken <;> exact .refl s

theorem pass_spares (knows : PassKnows s call) (taken : call.next s a = some (s', call')) :
    KeepsSandboxes s s' ∨ ∃ place, call.removing = some place ∧
      lookup RemoteSandbox.key s.remote place = none := by
  cases call with
  | remove pass entries =>
    cases entries with
    | nil => exact .inl (pass_keeps taken rfl)
    | cons entry rest =>
      simp only [SyncSandboxesCall.next] at taken
      split at taken
      · cases taken
        exact .inl (.refl s)
      · rename_i condemned
        refine .inr ⟨_, rfl, knows.empty _ ?_⟩
        simp only [SyncSandboxesCall.awaits, List.any_cons, Bool.or_eq_true]
        left
        rw [knows.named entry List.mem_cons_self, beq_self_eq_true, Bool.and_true]
        exact decide_eq_true condemned
  | revoke pass removed rest =>
    refine .inr ⟨_, rfl, knows.empty _ ?_⟩
    simp only [SyncSandboxesCall.awaits, beq_self_eq_true, Bool.true_or]
  | _ => exact .inl (pass_keeps taken rfl)

end Pass

def SandboxCall.Knows (s : SandboxStore) : SandboxCall → Prop
  | .sync call => PassKnows s call
  | _ => True

theorem timely_outline (J : SandboxCodec) :
    Outline (sandboxProgram J) Timely (fun _ => True) (fun s call => call.Knows s)
      (fun _ _ _ => True) where
  fresh := by
    intro s request _
    cases request with
    | sync namespaceID => exact .idle (fun _ => rfl) rfl
    | _ => trivial
  freshPair _ _ _ _ _ := ⟨trivial, trivial⟩
  own := by
    intro p n call a s' call' holds _ found taken
    refine ⟨trivial, ?_⟩
    cases call with
    | sync call =>
      obtain ⟨next, step, rfl⟩ := lifted_step taken
      exact pass_knows (holds.each n _ found) step
    | _ =>
      obtain ⟨next, step, rfl⟩ := lifted_step taken
      trivial
  other := by
    intro p n call a s' call' holds timely found taken m u away foundU
    refine ⟨?_, trivial, trivial⟩
    have knows := holds.each m u foundU
    cases u with
    | sync pass =>
      refine ⟨fun place waits => ?_, knows.named⟩
      rcases sandbox_remote taken with same | ⟨target, applies, working, elsewhere⟩
      · rw [same]
        exact knows.empty place waits
      · by_cases here : place = target
        · subst here
          have late : untimely p (.advance n a) = true := by
            simp only [untimely, working, Option.isNone_none, Bool.true_and, found, Option.bind_some,
              applies, Option.any_some]
            exact List.any_eq_true.mpr ⟨_, List.mem_of_getElem? foundU, waits⟩
          exact absurd (timely.symm.trans late) Bool.false_ne_true
        · rw [elsewhere place here]
          exact knows.empty place waits
    | _ => trivial
  rest _ _ _ _ _ _ _ _ _ _ _ _ _ _ _ _ _ _ _ := trivial

/-- While no object is applied where a pass in flight counts on there being none, passes take away
only sandboxes whose object does not exist. -/
theorem timely_passes_spare_running (J : SandboxCodec) (s : SandboxStore)
    (actions : List (Action SandboxRequest Answer))
    (timely : Guarded (sandboxProgram J).step Timely ⟨s, []⟩ actions) :
    Guarded (sandboxProgram J).step (SparesRunning J) ⟨s, []⟩ actions := by
  refine guarded_of_invariant ?_ (timely_outline J).step (Holds.empty trivial) timely
  intro p action holds _ n a call q same found taken
  subst same
  obtain ⟨t, s', t', foundT, next, rfl⟩ := step_advance.mp taken
  cases found.symm.trans foundT
  obtain ⟨later, step, rfl⟩ := lifted_step next
  exact pass_spares (holds.each n _ found) step

def passOver : Action SandboxRequest Answer := .call (.sync "n1")

def advanced (thread count : Nat) : List (Action SandboxRequest Answer) :=
  List.replicate count (.advance thread {})

def timelyRun : List (Action SandboxRequest Answer) :=
  .call (newWeb "") :: advanced 0 7 ++ passOver :: advanced 1 3 ++
    .call (.create ⟨ada, some { id := "s2", namespaceID := "n1", name := "api" }⟩) :: advanced 2 3 ++
    advanced 1 1 ++ advanced 2 4 ++ advanced 1 5

theorem timely_run_spares :
    (run (sandboxProgram wordsCodec).step ⟨teamStore, []⟩ timelyRun).isSome = true ∧
      Guarded (sandboxProgram wordsCodec).step (SparesRunning wordsCodec) ⟨teamStore, []⟩
        timelyRun := by
  refine ⟨by decide +kernel, timely_passes_spare_running wordsCodec teamStore timelyRun ?_⟩
  decide +kernel

def lateRun : List (Action SandboxRequest Answer) :=
  passOver :: advanced 0 3 ++ .call (newWeb "") :: advanced 1 7 ++ advanced 0 2

def SandboxCall.removing : SandboxCall → Option Place
  | .sync call => call.removing
  | _ => none

def removesWeb (p : Pool SandboxStore SandboxCall) : Bool :=
  decide ((p.threads[0]?).bind SandboxCall.removing = some ("c1", "team", "web")) &&
    (lookup RemoteSandbox.key p.shared.remote ("c1", "team", "web")).isSome &&
    (getSandbox p.shared.sandboxes "s1").isOk && !p.shared.kube.tuples.isEmpty &&
    ((sandboxProgram wordsCodec).step p (.advance 0 {})).any fun m =>
      !(getSandbox m.shared.sandboxes "s1").isOk &&
        ((sandboxProgram wordsCodec).step m (.advance 0 {})).any fun q => q.shared.kube.tuples.isEmpty

/-- The row of a sandbox that has just become ready is deleted, and then its tuples are revoked. -/
theorem running_sandbox_removed :
    ∃ p, run (sandboxProgram wordsCodec).step ⟨teamStore, []⟩ lateRun = some p ∧
      removesWeb p = true ∧ ¬ SparesRunning wordsCodec p (.advance 0 {}) := by
  obtain ⟨p, ran, removes⟩ := Option.map_eq_some_iff.mp (by decide +kernel :
    (run (sandboxProgram wordsCodec).step ⟨teamStore, []⟩ lateRun).map removesWeb = some true)
  refine ⟨p, ran, removes, fun spares => ?_⟩
  simp only [removesWeb, Bool.and_eq_true, decide_eq_true_eq, Option.any_eq_true] at removes
  obtain ⟨⟨⟨⟨aims, there⟩, live⟩, _⟩, m, taken, gone, _⟩ := removes
  obtain ⟨t, found, aims⟩ := Option.bind_eq_some_iff.mp aims
  cases t with
  | sync call =>
    rcases spares 0 {} call m rfl found taken with keeps | ⟨place, aimed, absent⟩
    · obtain ⟨row, read⟩ := exists_of_isOk live
      obtain ⟨row', still⟩ := keeps.rows "s1" row read
      rw [still] at gone
      cases gone
    · cases aims.symm.trans aimed
      rw [absent] at there
      cases there
  | _ => cases aims

end AisphereHub
