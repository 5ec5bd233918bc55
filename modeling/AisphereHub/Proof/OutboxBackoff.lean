import AisphereHub.Data.OutboxRepo
import AisphereHub.Foundation.Transition

/-! The delays between the attempts of one outbox event. -/
namespace AisphereHub

open GoStrconv Outbox Transition

def OutboxRow.nak (r : OutboxRow) (lease : Nat) (maxRetries baseBackoff now : Int) : OutboxNak where
  lease := lease
  id := r.id
  nextRetry := r.retryCount + 1
  maxRetries := if maxRetries < 1 then 5 else maxRetries
  baseBackoff := if baseBackoff ≤ 0 then 5 * second else baseBackoff
  now := now

inductive RetryStep where
  | claim (worker : String) (types : Option (List String)) (limit lease : Int)
  | nak (lease : Nat)

/-- One event among those of any table, with the delays its `Nak`s have put before the next
attempt. -/
def retryStep (maxRetries baseBackoff : Int) (x : OutboxRow × List Int)
    (label : Outbox × RetryStep) : Option (OutboxRow × List Int) :=
  if x.1 ∈ label.1.rows then
    match label.2 with
    | .claim worker types limit lease =>
      some (label.1.rowAfter x.1 (.claim worker types limit lease), x.2)
    | .nak lease =>
      let r := label.1.rowAfter x.1
        (.nakStore (x.1.nak lease maxRetries baseBackoff label.1.now))
      some (r, if x.1.status = .in_progress ∧ r.status = .pending then
        x.2 ++ [r.nextRetryAt - label.1.now] else x.2)
  else none

section

variable {maxRetries baseBackoff : Int}

/-- The shift of the last retry stays an `int64`. -/
def ShiftFits (maxRetries baseBackoff : Int) : Prop :=
  baseBackoff * 2 ^ (if maxRetries < 1 then 5 else maxRetries).toNat ≤ maxInt64

structure BacksOff (baseBackoff : Int) (x : OutboxRow × List Int) : Prop where
  bounded : ∀ d ∈ x.2, 0 < d ∧ d ≤ 3600 * second ∧ d ≤ baseBackoff * 2 ^ x.1.retryCount
  grows : x.2.Pairwise (· ≤ ·)

theorem shift_mono (positive : 0 < baseBackoff) (le : k ≤ n) :
    baseBackoff * 2 ^ k ≤ baseBackoff * 2 ^ n := by
  have powers : (2 : Int) ^ k ≤ 2 ^ n := by exact_mod_cast Nat.pow_le_pow_right (by decide) le
  exact Int.mul_le_mul_of_nonneg_left powers (Int.le_of_lt positive)

theorem BacksOff.step (positive : 0 < baseBackoff) (fits : ShiftFits maxRetries baseBackoff)
    (x : OutboxRow × List Int) (label : Outbox × RetryStep) (x' : OutboxRow × List Int)
    (holds : BacksOff baseBackoff x) (taken : retryStep maxRetries baseBackoff x label = some x') :
    BacksOff baseBackoff x' := by
  obtain ⟨r, delays⟩ := x
  obtain ⟨s, step⟩ := label
  have later : ∀ d ∈ delays,
      0 < d ∧ d ≤ 3600 * second ∧ d ≤ baseBackoff * 2 ^ (r.retryCount + 1) := by
    intro d member
    obtain ⟨low, high, under⟩ := holds.bounded d member
    exact ⟨low, high, Int.le_trans under (shift_mono positive (Nat.le_succ _))⟩
  unfold retryStep at taken
  split_ifs at taken
  cases step with
  | claim worker types limit lease =>
    cases taken
    simp only [rowAfter]
    split_ifs <;> exact ⟨holds.bounded, holds.grows⟩
  | nak lease =>
    cases taken
    generalize loaded : r.nak lease maxRetries baseBackoff s.now = nak
    have ours : r.id = nak.id ∧ nak.nextRetry = r.retryCount + 1 ∧ nak.now = s.now := by
      rw [← loaded]
      exact ⟨rfl, rfl, rfl⟩
    by_cases held : r.status = .in_progress
    · by_cases exhausted : nak.maxRetries < nak.nextRetry
      · simp only [rowAfter, nakked, ours.1, held, exhausted, reduceCtorEq, and_self, and_false,
          if_true, if_false]
        exact ⟨by simpa only [ours.2.1] using later, holds.grows⟩
      · have delay : backoff nak = min (baseBackoff * 2 ^ (r.retryCount + 1)) (3600 * second) := by
          rw [← loaded] at exhausted ⊢
          have within := shift_mono positive (k := r.retryCount + 1)
            (n := (if maxRetries < 1 then 5 else maxRetries).toNat) (by
              simp only [OutboxRow.nak] at exhausted
              omega)
          have shifted := shift_mono positive (Nat.zero_le (r.retryCount + 1))
          have range : wrapInt64 (baseBackoff * 2 ^ (r.retryCount + 1)) =
              baseBackoff * 2 ^ (r.retryCount + 1) := by
            refine wrapInt64_of_range ?_ (Int.le_trans within fits)
            have low : minInt64 ≤ 0 := by decide
            omega
          simp only [backoff, OutboxRow.nak, if_neg (Int.not_le.mpr positive), range]
        have shifted : 0 < baseBackoff * 2 ^ (r.retryCount + 1) :=
          Int.mul_pos positive (by exact_mod_cast Nat.two_pow_pos _)
        have hour : (0 : Int) < 3600 * second := by decide
        rw [ours.2.1] at exhausted
        simp only [rowAfter, nakked, ours, held, exhausted, and_self, if_true, if_false,
          add_sub_cancel_left, delay]
        refine ⟨?_, List.pairwise_append.mpr ⟨holds.grows, List.pairwise_singleton _ _, ?_⟩⟩
        · intro d member
          rcases List.mem_append.mp member with old | last
          · exact later d old
          · rw [List.mem_singleton.mp last]
            exact ⟨Int.lt_min.mpr ⟨shifted, hour⟩, Int.min_le_right _ _, Int.min_le_left _ _⟩
        · intro d old last added
          obtain ⟨_, high, under⟩ := later d old
          rw [List.mem_singleton.mp added]
          exact Int.le_min.mpr ⟨under, high⟩
    · simp only [rowAfter, held, and_false, if_false, false_and]
      exact holds

end

/-- While the shift of the last retry stays an `int64`, every delay is positive and at most an
hour, and they never decrease. -/
theorem retries_back_off (maxRetries baseBackoff : Int) (positive : 0 < baseBackoff)
    (fits : ShiftFits maxRetries baseBackoff) (r : OutboxRow) (steps : List (Outbox × RetryStep))
    (r' : OutboxRow) (delays : List Int)
    (ran : run (retryStep maxRetries baseBackoff) (r, []) steps = some (r', delays)) :
    (∀ d ∈ delays, 0 < d ∧ d ≤ 3600 * second) ∧ delays.Pairwise (· ≤ ·) := by
  have holds : BacksOff baseBackoff (r', delays) :=
    run_invariant (BacksOff.step positive fits) ⟨by simp, .nil⟩ ran
  exact ⟨fun d member => ⟨(holds.bounded d member).1, (holds.bounded d member).2.1⟩, holds.grows⟩

def claimedEvent (retryCount : Nat) : OutboxRow :=
  { id := 1, eventType := "image.push", status := .in_progress, retryCount }

theorem retries_back_off_once :
    ∃ x, run (retryStep 5 second) (claimedEvent 0, []) [({ rows := [claimedEvent 0] }, .nak 0)] =
        some x ∧ (∀ d ∈ x.2, 0 < d ∧ d ≤ 3600 * second) ∧ x.2.Pairwise (· ≤ ·) :=
  exists_run (P := fun x => x.2 = [2 * second]) (by decide +kernel) fun x ran _ =>
    retries_back_off 5 second (by decide) (by unfold ShiftFits; decide) _ _ x.1 x.2 ran

/-- With a base of five seconds the shift of the thirty-first retry wraps below zero. -/
theorem late_retry_due_at_once :
    ∃ x, run (retryStep 50 (5 * second)) (claimedEvent 30, [])
        [({ rows := [claimedEvent 30] }, .nak 0)] = some x ∧
      ¬((∀ d ∈ x.2, 0 < d ∧ d ≤ 3600 * second) ∧ x.2.Pairwise (· ≤ ·)) := by
  decide +kernel

end AisphereHub
