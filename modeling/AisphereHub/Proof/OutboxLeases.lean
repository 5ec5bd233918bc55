import AisphereHub.Data.OutboxRepo
import AisphereHub.Foundation.Transition

/-! The leases of the outbox over all interleavings of its workers. An `Ack` or
`Nak` finds its row by id and status alone, so that one from an expired lease
strikes the lease that came after it. -/
namespace AisphereHub

open Transition

def OutboxStep.returns : OutboxStep → Option Nat
  | .ack lease => some lease
  | .nakStore nak => some nak.lease
  | _ => none

namespace Outbox

def handed (s : Outbox) : OutboxStep → List Int
  | .claim _ types limit _ => (s.claimable types limit).map OutboxRow.id
  | _ => []

def Regranted (s : Outbox) (lease : Nat) : Prop :=
  ∃ id ∈ s.events.drop (lease + 1), s.events[lease]? = some id

instance (s : Outbox) (lease : Nat) : Decidable (s.Regranted lease) :=
  inferInstanceAs (Decidable (∃ id ∈ _, _))

/-- An `Ack` or `Nak` of a lease that was handed out again comes when its event is
not in progress. -/
def Timely (s : Outbox) (step : OutboxStep) : Prop :=
  ∀ lease ∈ step.returns, s.Regranted lease →
    ∀ r ∈ s.rows, s.events[lease]? = some r.id → r.status ≠ .in_progress

instance (s : Outbox) (step : OutboxStep) : Decidable (s.Timely step) :=
  inferInstanceAs (Decidable (∀ lease ∈ _, _ → _))

/-- What is promised of one step: a claim hands out no event of an unexpired lease,
an `Ack` or `Nak` of a lease that was handed out again changes nothing, no retry
count decreases, and no finished event changes. -/
structure Sound (s : Outbox) (step : OutboxStep) (t : Outbox) : Prop where
  exclusive : ∀ worker types limit lease, step = .claim worker types limit lease →
    ∀ r ∈ s.claimable types limit, ∀ l ∈ s.leases, l.id = r.id → l.returned = false →
      l.leaseUntil ≤ s.now
  stale : ∀ lease ∈ step.returns, s.Regranted lease → t.rows = s.rows
  counts : ∀ r ∈ s.rows, ∀ r' ∈ t.rows, r'.id = r.id → r.retryCount ≤ r'.retryCount
  final : ∀ r ∈ s.rows, r.status = .done ∨ r.status = .failed → r ∈ t.rows

/-- The invariant: an unexpired lease that was not given back is the last of its
event and keeps it in progress, and a `Nak` that still holds the last lease has read
the count as it is. -/
structure Held (s : Outbox) : Prop where
  unique : (s.rows.map OutboxRow.id).Nodup
  held : ∀ g l, s.leases[g]? = some l → l.returned = false → s.now < l.leaseUntil →
    ¬s.Regranted g ∧ ∀ r ∈ s.rows, r.id = l.id →
      r.status = .in_progress ∧ r.nextRetryAt = l.leaseUntil
  loaded : ∀ nak ∈ s.naks, s.events[nak.lease]? = some nak.id ∧ (¬s.Regranted nak.lease →
    ∀ r ∈ s.rows, r.id = nak.id → r.status = .in_progress → r.retryCount + 1 = nak.nextRetry)

variable {s t : Outbox} {step : OutboxStep} {r : OutboxRow}

theorem mem_claimable (chosen : r ∈ s.claimable types limit) :
    r ∈ s.rows ∧ r.status = .pending ∧ r.nextRetryAt ≤ s.now := by
  have listed := List.mem_filter.mp (List.mem_of_mem_take chosen)
  have due := of_decide_eq_true listed.2
  exact ⟨listed.1, due.1, due.2.1⟩

theorem mem_handed {id} (given : id ∈ s.handed step) : ∃ r ∈ s.rows, r.id = id := by
  cases step with
  | claim worker types limit lease =>
    obtain ⟨r, chosen, same⟩ := List.mem_map.mp given
    exact ⟨r, (mem_claimable chosen).1, same⟩
  | _ => cases given

theorem Held.handed_nodup (held : s.Held) (step : OutboxStep) : (s.handed step).Nodup := by
  cases step with
  | claim worker types limit lease =>
    exact held.unique.sublist (((List.take_sublist _ _).trans List.filter_sublist).map _)
  | _ => exact List.nodup_nil

theorem Held.pending (held : s.Held) (member : r ∈ s.rows) (given : r.id ∈ s.handed step) :
    r.status = .pending := by
  cases step with
  | claim worker types limit lease =>
    obtain ⟨other, among, same⟩ := List.mem_map.mp given
    obtain ⟨there, pending, _⟩ := mem_claimable among
    rwa [List.inj_on_of_nodup_map held.unique member there same.symm]
  | _ => cases given

theorem id_rowAfter (s : Outbox) (r : OutboxRow) (step : OutboxStep) :
    (s.rowAfter r step).id = r.id := by
  cases step with
  | nakStore nak =>
    simp only [rowAfter, nakked]
    split_ifs <;> rfl
  | _ =>
    simp only [rowAfter]
    try split_ifs
    all_goals rfl

theorem rowAfter_in_progress (running : (s.rowAfter r step).status = .in_progress) :
    s.rowAfter r step = r ∨ r.id ∈ s.handed step := by
  cases step with
  | pass | nakLoad => exact .inl rfl
  | claim worker types limit lease =>
    simp only [rowAfter]
    split_ifs with chosen
    · exact .inr chosen
    · exact .inl rfl
  | _ =>
    simp only [rowAfter, nakked] at running ⊢
    split_ifs at running ⊢
    exact .inl rfl

variable {g : Nat}

theorem regranted_of_lt {id} (less : g < g') (first : s.events[g]? = some id)
    (later : s.events[g']? = some id) : s.Regranted g := by
  refine ⟨id, ?_, first⟩
  rw [List.mem_iff_getElem?]
  refine ⟨g' - (g + 1), ?_⟩
  rw [List.getElem?_drop, show g + 1 + (g' - (g + 1)) = g' by omega]
  exact later

variable {l : OutboxLease}

theorem Held.only (held : s.Held) (timely : s.Timely step) (gives : g ∈ step.returns)
    (other : g' ≠ g) (member : r ∈ s.rows) (running : r.status = .in_progress)
    (named : s.events[g]? = some r.id) (there : s.leases[g']? = some l) (kept : l.returned = false)
    (fresh : s.now < l.leaseUntil) : l.id ≠ r.id := by
  intro same
  have event : s.events[g']? = some r.id := by
    rw [events, List.getElem?_map, there, Option.map_some, same]
  rcases Nat.lt_or_gt_of_ne other with less | more
  · exact (held.held g' l there kept fresh).1 (regranted_of_lt less event named)
  · exact timely g gives (regranted_of_lt more named event) r member named running

theorem rows_next (taken : s.next step = some t) :
    t.rows = s.rows.map fun r => s.rowAfter r step := by
  cases step with
  | nakLoad g maxRetries baseBackoff =>
    obtain ⟨l, _, rfl⟩ := Option.map_eq_some_iff.mp taken
    split <;> rfl
  | _ =>
    simp only [next] at taken
    try split_ifs at taken
    all_goals cases taken
    all_goals rfl

theorem Held.returned_row (held : s.Held) (taken : s.next step = some t) (gives : g ∈ step.returns)
    (r : OutboxRow) :
    s.rowAfter r step = r ∨ r.status = .in_progress ∧ s.events[g]? = some r.id := by
  cases step with
  | ack lease =>
    cases gives
    simp only [rowAfter]
    split_ifs with hit
    · exact .inr hit.symm
    · exact .inl rfl
  | nakStore nak =>
    cases gives
    simp only [next] at taken
    split_ifs at taken with known
    simp only [rowAfter]
    split_ifs with hit
    · exact .inr ⟨hit.2, hit.1 ▸ (held.loaded nak known).1⟩
    · exact .inl rfl
  | _ => cases gives

theorem Held.count_le (held : s.Held) (timely : s.Timely step) (taken : s.next step = some t)
    (member : r ∈ s.rows) : r.retryCount ≤ (s.rowAfter r step).retryCount := by
  cases step with
  | nakStore nak =>
    simp only [next] at taken
    split_ifs at taken with known
    obtain ⟨named, loaded⟩ := held.loaded nak known
    simp only [rowAfter]
    split_ifs with hit
    · have last : ¬s.Regranted nak.lease := fun again =>
        timely nak.lease rfl again r member (hit.1 ▸ named) hit.2
      have read := loaded last r member hit.1 hit.2
      unfold nakked
      split_ifs <;> exact Nat.le_of_lt (read ▸ Nat.lt_succ_self _)
    · exact Nat.le_refl _
  | _ =>
    simp only [rowAfter]
    try split_ifs
    all_goals exact Nat.le_refl _

theorem Held.rowAfter_final (held : s.Held) (member : r ∈ s.rows)
    (final : r.status = .done ∨ r.status = .failed) : s.rowAfter r step = r := by
  have running : r.status ≠ .in_progress := by rcases final with h | h <;> simp [h]
  cases step with
  | claim worker types limit lease =>
    refine if_neg fun chosen => ?_
    have given : r.id ∈ s.handed (.claim worker types limit lease) := chosen
    have waiting := held.pending member given
    rcases final with h | h <;> simp [h] at waiting
  | _ => simp [rowAfter, running]

theorem Held.sound (held : s.Held) (timely : s.Timely step) (taken : s.next step = some t) :
    s.Sound step t where
  exclusive := by
    rintro worker types limit lease rfl r chosen l member same kept
    obtain ⟨g, there⟩ := List.mem_iff_getElem?.mp member
    obtain ⟨among, pending, _⟩ := mem_claimable chosen
    by_contra fresh
    have running := (held.held g l there kept (Int.not_le.mp fresh)).2 r among same.symm
    simp [pending] at running
  stale := by
    intro g gives again
    rw [rows_next taken]
    refine (List.map_congr_left fun r member => ?_).trans (List.map_id _)
    rcases held.returned_row taken gives r with same | ⟨running, named⟩
    · exact same
    · exact absurd running (timely g gives again r member named)
  counts := by
    intro r member r' after same
    rw [rows_next taken] at after
    obtain ⟨old, among, rfl⟩ := List.mem_map.mp after
    rw [id_rowAfter] at same
    rw [← List.inj_on_of_nodup_map held.unique among member same]
    exact held.count_le timely taken among
  final := by
    intro r member final
    rw [rows_next taken]
    exact List.mem_map.mpr ⟨r, member, held.rowAfter_final member final⟩

theorem events_giveBack (s : Outbox) (g : Nat) : (s.giveBack g).map OutboxLease.id = s.events := by
  refine List.ext_getElem? fun i => ?_
  simp only [giveBack, events, List.getElem?_map, List.getElem?_modify]
  split_ifs <;> cases s.leases[i]? <;> rfl

theorem events_next (taken : s.next step = some t) : t.events = s.events ++ s.handed step := by
  cases step with
  | nakLoad g maxRetries baseBackoff =>
    obtain ⟨l, _, rfl⟩ := Option.map_eq_some_iff.mp taken
    split <;> exact (List.append_nil _).symm
  | claim worker types limit lease =>
    cases taken
    simp [events, handed, Function.comp_def]
  | _ =>
    simp only [next] at taken
    try split_ifs at taken
    all_goals cases taken
    all_goals simp [events, handed, events_giveBack s]

theorem regranted_next (taken : s.next step = some t) (old : g < s.events.length) :
    t.Regranted g ↔ s.Regranted g ∨ ∃ id ∈ s.handed step, s.events[g]? = some id := by
  simp only [Regranted, events_next taken, List.drop_append_of_le_length old,
    List.getElem?_append_left old, List.mem_append, or_and_right, exists_or]

theorem lease_next (taken : s.next step = some t) (there : t.leases[g]? = some l)
    (kept : l.returned = false) : s.leases[g]? = some l ∧ g ∉ step.returns ∨ s.leases.length ≤ g ∧
      ∃ worker types limit lease, step = .claim worker types limit lease ∧
        l.leaseUntil = s.leaseUntil types lease ∧
        (s.handed step)[g - s.leases.length]? = some l.id := by
  have given : ∀ n, (s.giveBack n)[g]? = some l → s.leases[g]? = some l ∧ n ≠ g := by
    intro n modified
    rw [giveBack, List.getElem?_modify] at modified
    obtain ⟨old, found, changed⟩ := Option.map_eq_some_iff.mp modified
    split_ifs at changed with same
    · simp [← changed] at kept
    · exact ⟨changed ▸ found, same⟩
  cases step with simp only [next] at taken
  | claim worker types limit lease =>
    cases taken
    rcases Nat.lt_or_ge g s.leases.length with old | new
    · rw [List.getElem?_append_left old] at there
      exact .inl ⟨there, Option.not_mem_none g⟩
    · rw [List.getElem?_append_right new, List.getElem?_map] at there
      obtain ⟨r, chosen, rfl⟩ := Option.map_eq_some_iff.mp there
      exact .inr ⟨new, worker, types, limit, lease, rfl, rfl, by
        rw [handed, List.getElem?_map, chosen, Option.map_some]⟩
  | nakLoad n maxRetries baseBackoff =>
    obtain ⟨_, _, rfl⟩ := Option.map_eq_some_iff.mp taken
    refine .inl ⟨?_, Option.not_mem_none g⟩
    split at there <;> exact there
  | ack n =>
    split_ifs at taken
    cases taken
    obtain ⟨before, other⟩ := given n there
    exact .inl ⟨before, fun same => other (Option.some.inj same)⟩
  | nakStore nak =>
    split_ifs at taken
    cases taken
    obtain ⟨before, other⟩ := given nak.lease there
    exact .inl ⟨before, fun same => other (Option.some.inj same)⟩
  | _ =>
    cases taken
    exact .inl ⟨there, Option.not_mem_none g⟩

theorem now_le_next (taken : s.next step = some t) : s.now ≤ t.now := by
  cases step with
  | pass duration =>
    cases taken
    exact Int.le_add_of_nonneg_right (Int.natCast_nonneg duration)
  | nakLoad n maxRetries baseBackoff =>
    obtain ⟨_, _, rfl⟩ := Option.map_eq_some_iff.mp taken
    split <;> exact Int.le_refl _
  | _ =>
    simp only [next] at taken
    try split_ifs at taken
    all_goals cases taken
    all_goals exact Int.le_refl _

theorem Held.row_kept (held : s.Held) (timely : s.Timely step) (taken : s.next step = some t)
    (there : s.leases[g]? = some l) (kept : l.returned = false) (fresh : s.now < l.leaseUntil)
    (notGiven : g ∉ step.returns) (member : r ∈ s.rows) (same : r.id = l.id)
    : r.id ∉ s.handed step ∧ s.rowAfter r step = r := by
  obtain ⟨running, due⟩ := (held.held g l there kept fresh).2 r member same
  have waits : r.id ∉ s.handed step := fun given => by
    have waiting := held.pending member given
    rw [running] at waiting
    cases waiting
  refine ⟨waits, ?_⟩
  have returning : ∀ n ∈ step.returns, s.rowAfter r step = r := by
    intro n gives
    rcases held.returned_row taken gives r with unchanged | ⟨_, named⟩
    · exact unchanged
    · have other : g ≠ n := fun equal => notGiven (equal ▸ gives)
      exact absurd same.symm (held.only timely gives other member running named there kept fresh)
  cases step with
  | claim worker types limit lease => exact if_neg waits
  | requeueStuck => exact if_neg fun late => absurd late.2 (by omega)
  | ack n => exact returning n rfl
  | nakStore nak => exact returning nak.lease rfl
  | _ => rfl

theorem Held.leases_next (held : s.Held) (timely : s.Timely step) (taken : s.next step = some t)
    (g : Nat) (l : OutboxLease) (there : t.leases[g]? = some l) (kept : l.returned = false)
    (fresh : t.now < l.leaseUntil) : ¬t.Regranted g ∧ ∀ r ∈ t.rows, r.id = l.id →
      r.status = .in_progress ∧ r.nextRetryAt = l.leaseUntil := by
  rw [rows_next taken]
  rcases lease_next taken there kept with ⟨before, notGiven⟩ | ⟨new, worker, types, limit, lease,
    rfl, ends, named⟩
  · have old := Int.lt_of_le_of_lt (now_le_next taken) fresh
    obtain ⟨last, row⟩ := held.held g l before kept old
    have bound : g < s.events.length := by
      rw [events, List.length_map]
      exact (List.getElem?_eq_some_iff.mp before).1
    refine ⟨?_, ?_⟩
    · rw [regranted_next taken bound]
      rintro (again | ⟨id, given, event⟩)
      · exact last again
      · obtain ⟨r, member, rfl⟩ := mem_handed given
        rw [events, List.getElem?_map, before, Option.map_some, Option.some.injEq] at event
        exact (held.row_kept timely taken before kept old notGiven member event.symm).1 given
    · intro r after same
      obtain ⟨r, member, rfl⟩ := List.mem_map.mp after
      rw [id_rowAfter] at same
      rw [(held.row_kept timely taken before kept old notGiven member same).2]
      exact row r member same
  · have length : s.events.length = s.leases.length := List.length_map _
    refine ⟨?_, ?_⟩
    · rintro ⟨id, again, event⟩
      rw [events_next taken, List.getElem?_append_right (by omega), length, named] at event
      rw [events_next taken, List.drop_append, List.drop_eq_nil_of_le (by omega), List.nil_append,
        length, show g + 1 - s.leases.length = g - s.leases.length + 1 by omega] at again
      have here := List.getElem?_take_of_lt (Nat.lt_succ_self _) |>.trans (named.trans event)
      exact List.disjoint_take_drop (held.handed_nodup _) (Nat.le_refl _) (List.mem_of_getElem? here) again
    · intro r after same
      obtain ⟨r, member, rfl⟩ := List.mem_map.mp after
      rw [id_rowAfter] at same
      have given : r.id ∈ (s.claimable types limit).map OutboxRow.id :=
        same ▸ List.mem_of_getElem? named
      rw [rowAfter, if_pos given]
      exact ⟨rfl, ends.symm⟩

theorem nak_next (taken : s.next step = some t) (member : nak ∈ t.naks) :
    nak ∈ s.naks ∨ t.events = s.events ∧ t.rows = s.rows ∧ s.events[nak.lease]? = some nak.id ∧
      ∃ r, Keyed.lookup OutboxRow.id s.rows nak.id = some r ∧ r.retryCount + 1 = nak.nextRetry := by
  cases step with simp only [next] at taken
  | nakLoad n maxRetries baseBackoff =>
    obtain ⟨l, there, rfl⟩ := Option.map_eq_some_iff.mp taken
    split at member
    · exact .inl member
    · rename_i r found
      rcases List.mem_append.mp member with old | new
      · exact .inl old
      · cases List.mem_singleton.mp new
        refine .inr ⟨by simp [events], by simp [rowAfter], ?_, r, found, rfl⟩
        rw [events, List.getElem?_map, there, Option.map_some]
  | nakStore done =>
    split_ifs at taken
    cases taken
    exact .inl (List.mem_of_mem_erase member)
  | ack n =>
    split_ifs at taken
    cases taken
    exact .inl member
  | _ =>
    cases taken
    exact .inl member

theorem Held.next (held : s.Held) (timely : s.Timely step) (taken : s.next step = some t) :
    t.Held where
  unique := by
    have ids : (OutboxRow.id ∘ fun r => s.rowAfter r step) = OutboxRow.id :=
      funext fun r => id_rowAfter s r step
    rw [rows_next taken, List.map_map, ids]
    exact held.unique
  held := held.leases_next timely taken
  loaded := by
    intro nak member
    rcases nak_next taken member with old | ⟨events, rows, named, r, found, read⟩
    · obtain ⟨named, loaded⟩ := held.loaded nak old
      have bound := (List.getElem?_eq_some_iff.mp named).1
      refine ⟨?_, ?_⟩
      · rw [events_next taken, List.getElem?_append_left bound, named]
      · intro last r after same running
        rw [regranted_next taken bound, not_or] at last
        rw [rows_next taken] at after
        obtain ⟨r, there, rfl⟩ := List.mem_map.mp after
        rw [id_rowAfter] at same
        rcases rowAfter_in_progress running with unchanged | given
        · rw [unchanged] at running ⊢
          exact loaded last.1 r there same running
        · exact absurd ⟨r.id, given, same ▸ named⟩ last.2
    · refine ⟨events ▸ named, fun _ other among same _ => ?_⟩
      rw [rows] at among
      have known := (Keyed.lookup_eq_some_iff held.unique).mp found
      rw [List.inj_on_of_nodup_map held.unique among known.1 (same.trans known.2.symm), read]

/-- Where no `Ack` or `Nak` of a lease that was handed out again meets its event in
progress, leases are exclusive, late ones change nothing, and retry counts and
finished events stand. -/
theorem timely_leases_sound (s : Outbox) (unique : (s.rows.map OutboxRow.id).Nodup)
    (fresh : s.leases = [] ∧ s.naks = []) (steps : List OutboxStep)
    (timely : Guarded next Timely s steps) :
    Guarded next (fun s step => ∀ t, s.next step = some t → s.Sound step t) s steps := by
  refine guarded_of_invariant (I := Held) (fun s step held timely t taken =>
    held.sound timely taken) (fun s step t timely held taken => held.next timely taken) ?_ timely
  refine ⟨unique, fun g l there => ?_, fun nak member => ?_⟩
  · simp [fresh.1] at there
  · simp [fresh.2] at member

def regrantedRun : List OutboxStep :=
  [.claim "a" none 1 10, .pass 10, .requeueStuck, .claim "b" none 1 100]

theorem regranted_run_sound : Guarded next
    (fun s step => ∀ t, s.next step = some t → s.Sound step t) ⟨[{ id := 1 }], 0, [], []⟩
    (regrantedRun ++ [.ack 1, .ack 0]) :=
  timely_leases_sound ⟨[{ id := 1 }], 0, [], []⟩ (List.nodup_singleton _) ⟨rfl, rfl⟩ _
    (by decide +kernel)

/-- The first worker's late `Ack` finishes the event under the other one's lease. -/
theorem late_ack_strikes : ∃ s t, run next ⟨[{ id := 1 }], 0, [], []⟩ regrantedRun = some s ∧
    s.Regranted 0 ∧ s.next (.ack 0) = some t ∧ t.rows ≠ s.rows :=
  ⟨_, _, rfl, by decide +kernel, rfl, by decide +kernel⟩

end Outbox
end AisphereHub
