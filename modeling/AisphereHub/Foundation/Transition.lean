import Mathlib.Data.List.Basic

/-! Finite runs of a partial labelled transition function. A label that is not
enabled in a state has no successor. A condition on a run is a condition on
the state each of its labels is taken from. -/
namespace Transition

variable {σ ι : Type} {labels : List ι} {s t : σ} {I : σ → Prop} {kept : σ → ι → Prop}

def run (step : σ → ι → Option σ) : σ → List ι → Option σ
  | s, [] => some s
  | s, i :: rest => (step s i).bind fun t => run step t rest

/-- Every label of the run meets `allowed` in the state it is taken from. -/
def Guarded (step : σ → ι → Option σ) (allowed : σ → ι → Prop) : σ → List ι → Prop
  | _, [] => True
  | s, i :: rest => allowed s i ∧ ∀ t, step s i = some t → Guarded step allowed t rest

variable {step : σ → ι → Option σ} {allowed : σ → ι → Prop}

@[simp] theorem run_nil (s : σ) : run step s [] = some s := rfl

theorem run_cons : run step s (i :: rest) = some t ↔
      ∃ m, step s i = some m ∧ run step m rest = some t := by
  simp only [run, Option.bind_eq_some_iff]

/-- What can be checked at the end of a run, and what follows from it. -/
theorem exists_run {P Q : σ → Prop} (found : ∃ t, run step s labels = some t ∧ P t)
    (each : ∀ t, run step s labels = some t → P t → Q t) :
    ∃ t, run step s labels = some t ∧ Q t := by
  obtain ⟨t, ran, holds⟩ := found
  exact ⟨t, ran, each t ran holds⟩

theorem run_append : run step s (first ++ rest) = some t ↔
      ∃ m, run step s first = some m ∧ run step m rest = some t := by
  induction first generalizing s with
  | nil => simp
  | cons i first ih =>
    simp only [List.cons_append, run_cons, ih]
    constructor
    · rintro ⟨m, taken, n, front, back⟩
      exact ⟨n, ⟨m, taken, front⟩, back⟩
    · rintro ⟨n, ⟨m, taken, front⟩, back⟩
      exact ⟨m, taken, n, front, back⟩

/-- The invariant rule for runs whose labels all meet a condition. -/
theorem run_preserves (keep : ∀ s i t, allowed s i → I s → step s i = some t → I t) (start : I s)
    (guarded : Guarded step allowed s labels) (ran : run step s labels = some t) : I t := by
  induction labels generalizing s with
  | nil =>
    cases ran
    exact start
  | cons i rest ih =>
    obtain ⟨m, taken, ran⟩ := run_cons.mp ran
    exact ih (keep s i m guarded.1 start taken) (guarded.2 m taken) ran

theorem guarded_append
    (guarded : Guarded step allowed s (first ++ rest)) (ran : run step s first = some m) :
    Guarded step allowed s first ∧ Guarded step allowed m rest := by
  induction first generalizing s with
  | nil =>
    cases ran
    exact ⟨trivial, guarded⟩
  | cons i first ih =>
    obtain ⟨t, taken, ran⟩ := run_cons.mp ran
    have later := ih (guarded.2 t taken) ran
    refine ⟨⟨guarded.1, ?_⟩, later.2⟩
    intro u takenU
    obtain rfl : t = u := Option.some.inj (taken.symm.trans takenU)
    exact later.1

/-- Whether a concrete run meets a decidable condition is decided by running it. -/
instance decidableGuarded [∀ s i, Decidable (allowed s i)] :
    ∀ (s : σ) (labels : List ι), Decidable (Guarded step allowed s labels)
  | _, [] => isTrue trivial
  | s, i :: rest =>
    match taken : step s i with
    | none =>
      decidable_of_iff (allowed s i)
        ⟨fun now => ⟨now, fun t other => by simp [taken] at other⟩, fun all => all.1⟩
    | some m =>
      have : Decidable (Guarded step allowed m rest) := decidableGuarded m rest
      decidable_of_iff (allowed s i ∧ Guarded step allowed m rest)
        ⟨fun both => ⟨both.1, fun t other => by
            rw [taken, Option.some.injEq] at other
            exact other ▸ both.2⟩,
          fun all => ⟨all.1, all.2 m taken⟩⟩

/-- Two conditions that agree wherever the invariant holds guard the same runs. -/
theorem guarded_iff_of_mem (same : ∀ s, ∀ i ∈ labels, I s → (kept s i ↔ allowed s i))
    (keep : ∀ s, ∀ i ∈ labels, ∀ t, kept s i → I s → step s i = some t → I t)
    (start : I s) : Guarded step kept s labels ↔ Guarded step allowed s labels := by
  induction labels generalizing s with
  | nil => rfl
  | cons i rest ih =>
    have agree := same s i (List.mem_cons_self ..) start
    have later : ∀ t, kept s i → step s i = some t →
        (Guarded step kept t rest ↔ Guarded step allowed t rest) := by
      intro t now taken
      exact ih (fun s j member => same s j (List.mem_cons_of_mem i member))
        (fun s j member => keep s j (List.mem_cons_of_mem i member))
        (keep s i (List.mem_cons_self ..) t now start taken)
    constructor
    · rintro ⟨now, rest⟩
      exact ⟨agree.mp now, fun t taken => (later t now taken).mp (rest t taken)⟩
    · rintro ⟨now, rest⟩
      exact ⟨agree.mpr now, fun t taken => (later t (agree.mpr now) taken).mpr (rest t taken)⟩

theorem guarded_iff (same : ∀ s i, I s → (kept s i ↔ allowed s i))
    (keep : ∀ s i t, kept s i → I s → step s i = some t → I t) (start : I s) :
    Guarded step kept s labels ↔ Guarded step allowed s labels :=
  guarded_iff_of_mem (fun s i _ => same s i) (fun s i _ => keep s i) start

/-- Runs that meet one condition meet another one that follows from it and from an
invariant of such runs. -/
theorem guarded_of_invariant (implies : ∀ s i, I s → allowed s i → kept s i)
    (keep : ∀ s i t, allowed s i → I s → step s i = some t → I t) (start : I s)
    (guarded : Guarded step allowed s labels) : Guarded step kept s labels := by
  induction labels generalizing s with
  | nil => trivial
  | cons i rest ih =>
    refine ⟨implies s i start guarded.1, ?_⟩
    intro t taken
    exact ih (keep s i t guarded.1 start taken) (guarded.2 t taken)

/-- The invariant rule for assertions that know which labels are still to come. -/
theorem run_remaining {I : σ → List ι → Prop}
    (keep : ∀ s i rest t, I s (i :: rest) → step s i = some t → I t rest) (start : I s labels)
    (ran : run step s labels = some t) : I t [] := by
  induction labels generalizing s with
  | nil =>
    cases ran
    exact start
  | cons i rest ih =>
    obtain ⟨m, taken, ran⟩ := run_cons.mp ran
    exact ih (keep s i rest m start taken) ran

theorem guarded_true (s : σ) (labels : List ι) : Guarded step (fun _ _ => True) s labels := by
  induction labels generalizing s with
  | nil => trivial
  | cons i rest ih => exact ⟨trivial, fun t _ => ih t⟩

theorem guarded_of_forall (step : σ → ι → Option σ) {meets : ι → Prop} (s : σ)
    (all : ∀ i ∈ labels, meets i) : Guarded step (fun _ i => meets i) s labels := by
  induction labels generalizing s with
  | nil => trivial
  | cons i rest ih =>
    exact ⟨all i List.mem_cons_self,
      fun t _ => ih t fun j later => all j (List.mem_cons_of_mem _ later)⟩

theorem run_invariant (keep : ∀ s i t, I s → step s i = some t → I t) (start : I s)
    (ran : run step s labels = some t) : I t :=
  run_preserves (fun s i t _ => keep s i t) start (guarded_true s labels) ran

/-- Every state the run goes through satisfies `I`, its first and its last one too. -/
def Always (step : σ → ι → Option σ) (I : σ → Prop) : σ → List ι → Prop
  | s, [] => I s
  | s, i :: rest => I s ∧ ∀ t, step s i = some t → Always step I t rest

/-- Where a condition says exactly which labels keep `I`, it guards exactly the runs
that keep it. `J` is what all labels keep. -/
theorem always_iff_guarded {J : σ → Prop}
    (exact : ∀ s i t, J s → I s → step s i = some t → (I t ↔ allowed s i))
    (keep : ∀ s i t, J s → step s i = some t → J t) (start : J s)
    (ran : run step s labels = some t) :
    Always step I s labels ↔ I s ∧ Guarded step allowed s labels := by
  induction labels generalizing s with
  | nil => simp [Always, Guarded]
  | cons i rest ih =>
    obtain ⟨m, taken, ran⟩ := run_cons.mp ran
    have next := ih (keep s i m start taken) ran
    simp only [Always, Guarded, taken, Option.some.injEq, forall_eq']
    rw [next]
    constructor
    · rintro ⟨now, later, guarded⟩
      exact ⟨now, (exact s i m start now taken).mp later, guarded⟩
    · rintro ⟨now, may, guarded⟩
      exact ⟨now, (exact s i m start now taken).mpr may, guarded⟩

end Transition
