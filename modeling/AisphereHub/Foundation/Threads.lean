import AisphereHub.Foundation.Transition

/-! Calls in flight over a shared state. A program says what a call does in one
atomic step against the shared state and an answer of its environment; a pool
interleaves any number of calls. `Outline` is the proof rule for pools: an
assertion on the shared state, one on each call and one on each pair of calls,
shown stable under the steps of the call itself and of the others. -/
namespace Threads

open Transition

structure Program (σ τ ρ χ : Type) where
  start : ρ → τ
  next : σ → τ → χ → Option (σ × τ)
  finished : τ → Bool

structure Pool (σ τ : Type) where
  shared : σ
  threads : List τ

inductive Action (ρ χ : Type) where
  | call (request : ρ)
  | advance (thread : Nat) (answer : χ)

variable {σ τ ρ χ : Type}

/-- A new call joins the pool at its first step, or one call takes one step. -/
def Program.step (P : Program σ τ ρ χ) (p : Pool σ τ) : Action ρ χ → Option (Pool σ τ)
  | .call request => some { p with threads := p.threads ++ [P.start request] }
  | .advance n answer =>
    match p.threads[n]? with
    | none => none
    | some t =>
      (P.next p.shared t answer).map fun out => ⟨out.1, p.threads.set n out.2⟩

def Program.quiescent (P : Program σ τ ρ χ) (p : Pool σ τ) : Bool :=
  p.threads.all P.finished

variable {P : Program σ τ ρ χ} {p q : Pool σ τ} {n : Nat} {answer : χ}

theorem step_advance : P.step p (.advance n answer) = some q ↔
      ∃ t s' t', p.threads[n]? = some t ∧ P.next p.shared t answer = some (s', t') ∧
        q = ⟨s', p.threads.set n t'⟩ := by
  cases found : p.threads[n]? with
  | none => simp [Program.step, found]
  | some t =>
    simp only [Program.step, found, Option.map_eq_some_iff, Prod.exists, Option.some.injEq]
    constructor
    · rintro ⟨s', t', taken, rfl⟩
      exact ⟨t, s', t', rfl, taken, rfl⟩
    · rintro ⟨_, s', t', rfl, taken, rfl⟩
      exact ⟨s', t', taken, rfl⟩

variable {s' : σ} {t' : τ}

/-- A step of a call that a larger type of calls contains. -/
theorem lifted_step {υ : Type} {f : υ → τ} {out}
    (taken : (out.map fun o => (o.1, f o.2)) = some (s', t')) :
    ∃ u', out = some (s', u') ∧ t' = f u' := by
  obtain ⟨⟨_, u'⟩, inner, same⟩ := Option.map_eq_some_iff.mp taken
  cases same
  exact ⟨u', inner, rfl⟩

variable {threads : List τ} {t : τ}

theorem get_set_self (found : threads[n]? = some t) : (threads.set n t')[n]? = some t' := by
  obtain ⟨bound, _⟩ := List.getElem?_eq_some_iff.mp found
  simp [bound]

theorem get_set_other (other : m ≠ n) : (threads.set n t')[m]? = threads[m]? :=
  List.getElem?_set_ne (Ne.symm other)

theorem get_append (found : (threads ++ [t])[m]? = some u) :
    threads[m]? = some u ∨ m = threads.length ∧ u = t := by
  rcases Nat.lt_or_ge m threads.length with old | new
  · exact .inl (by rwa [List.getElem?_append_left old] at found)
  · rw [List.getElem?_append_right new, List.getElem?_singleton] at found
    split at found
    · exact .inr ⟨by omega, (Option.some.inj found).symm⟩
    · cases found

variable {actions : List (Action ρ χ)}

theorem run_shared {I : σ → Prop}
    (keep : ∀ s t answer s' t', I s → P.next s t answer = some (s', t') → I s') (start : I p.shared)
    (ran : run P.step p actions = some q) : I q.shared := by
  refine run_invariant (I := fun p => I p.shared) ?_ start ran
  intro p a q holds taken
  cases a with
  | call request =>
    cases taken
    exact holds
  | advance n answer =>
    obtain ⟨t, s', t', _, next, rfl⟩ := step_advance.mp taken
    exact keep p.shared t answer s' t' holds next

variable {a : Action ρ χ}

theorem step_thread {I : τ → Prop}
    (keep : ∀ s t answer s' t', I t → P.next s t answer = some (s', t') → I t')
    (start : ∃ t, p.threads[n]? = some t ∧ I t) (taken : P.step p a = some q)
    : ∃ t, q.threads[n]? = some t ∧ I t := by
  obtain ⟨t, found, holds⟩ := start
  cases a with
  | call request =>
    cases taken
    exact ⟨t, List.getElem?_append_left (List.getElem?_eq_some_iff.mp found).1 ▸ found, holds⟩
  | advance m answer =>
    obtain ⟨u, s', u', foundU, next, rfl⟩ := step_advance.mp taken
    by_cases same : n = m
    · subst same
      obtain rfl : t = u := Option.some.inj (found.symm.trans foundU)
      exact ⟨u', get_set_self found, keep p.shared t answer s' u' holds next⟩
    · exact ⟨t, (get_set_other same).trans found, holds⟩

theorem run_thread {I : τ → Prop}
    (keep : ∀ s t answer s' t', I t → P.next s t answer = some (s', t') → I t')
    (start : ∃ t, p.threads[n]? = some t ∧ I t) (ran : run P.step p actions = some q) :
    ∃ t, q.threads[n]? = some t ∧ I t :=
  run_invariant (I := fun p => ∃ t, p.threads[n]? = some t ∧ I t)
    (fun _ _ _ => step_thread keep) start ran

structure Holds (G : σ → Prop) (L : σ → τ → Prop) (R : σ → τ → τ → Prop)
    (p : Pool σ τ) : Prop where
  shared : G p.shared
  each : ∀ (n : Nat) (t : τ), p.threads[n]? = some t → L p.shared t
  pair : ∀ (n m : Nat) (t u : τ), n ≠ m → p.threads[n]? = some t →
    p.threads[m]? = some u → R p.shared t u

variable {s : σ}

theorem Holds.empty {R : σ → τ → τ → Prop} (shared : G s)
    : Holds G L R ⟨s, []⟩ where
  shared := shared
  each := by simp
  pair := by simp

/-- An interference-free proof outline for the program: `own` is what a step
gives the call that takes it, `other` what it leaves to another call, `rest`
what it leaves to two others. -/
structure Outline (P : Program σ τ ρ χ) (allowed : Pool σ τ → Action ρ χ → Prop)
    (G : σ → Prop) (L : σ → τ → Prop) (R : σ → τ → τ → Prop) : Prop where
  fresh : ∀ s request, G s → L s (P.start request)
  freshPair : ∀ s request u, G s → L s u →
    R s u (P.start request) ∧ R s (P.start request) u
  own : ∀ (p : Pool σ τ) (n : Nat) (t : τ) (answer : χ) (s' : σ) (t' : τ),
    Holds G L R p → allowed p (.advance n answer) → p.threads[n]? = some t →
    P.next p.shared t answer = some (s', t') → G s' ∧ L s' t'
  other : ∀ (p : Pool σ τ) (n : Nat) (t : τ) (answer : χ) (s' : σ) (t' : τ),
    Holds G L R p → allowed p (.advance n answer) → p.threads[n]? = some t →
    P.next p.shared t answer = some (s', t') →
    ∀ (m : Nat) (u : τ), m ≠ n → p.threads[m]? = some u → L s' u ∧ R s' t' u ∧ R s' u t'
  rest : ∀ (p : Pool σ τ) (n : Nat) (t : τ) (answer : χ) (s' : σ) (t' : τ),
    Holds G L R p → allowed p (.advance n answer) → p.threads[n]? = some t →
    P.next p.shared t answer = some (s', t') →
    ∀ (m k : Nat) (u v : τ), m ≠ n → k ≠ n → m ≠ k → p.threads[m]? = some u →
      p.threads[k]? = some v → R s' u v

variable {allowed : Pool σ τ → Action ρ χ → Prop}
  {G : σ → Prop} {L : σ → τ → Prop} {R : σ → τ → τ → Prop}

theorem Holds.call (outline : Outline P allowed G L R) (holds : Holds G L R p) (request : ρ)
    : Holds G L R { p with threads := p.threads ++ [P.start request] } where
  shared := holds.shared
  each := by
    intro n t found
    rcases get_append found with old | ⟨_, rfl⟩
    · exact holds.each n t old
    · exact outline.fresh p.shared request holds.shared
  pair := by
    intro n m t u different foundT foundU
    rcases get_append foundT with oldT | ⟨lastT, rfl⟩ <;>
      rcases get_append foundU with oldU | ⟨lastU, rfl⟩
    · exact holds.pair n m t u different oldT oldU
    · exact (outline.freshPair p.shared request t holds.shared (holds.each n t oldT)).1
    · exact (outline.freshPair p.shared request u holds.shared (holds.each m u oldU)).2
    · exact absurd (lastT.trans lastU.symm) different

theorem Holds.advance (outline : Outline P allowed G L R) (holds : Holds G L R p)
    (permitted : allowed p (.advance n answer)) (found : p.threads[n]? = some t)
    (taken : P.next p.shared t answer = some (s', t')) : Holds G L R ⟨s', p.threads.set n t'⟩ := by
  have own := outline.own p n t answer s' t' holds permitted found taken
  have other := outline.other p n t answer s' t' holds permitted found taken
  have rest := outline.rest p n t answer s' t' holds permitted found taken
  refine ⟨own.1, ?_, ?_⟩
  · intro m u foundU
    by_cases same : m = n
    · subst same
      rw [get_set_self found, Option.some.injEq] at foundU
      exact foundU ▸ own.2
    · rw [get_set_other same] at foundU
      exact (other m u same foundU).1
  · intro m k u v different foundU foundV
    by_cases sameU : m = n
    · subst sameU
      rw [get_set_self found, Option.some.injEq] at foundU
      rw [get_set_other (Ne.symm different)] at foundV
      exact foundU ▸ (other k v (Ne.symm different) foundV).2.1
    · rw [get_set_other sameU] at foundU
      by_cases sameV : k = n
      · subst sameV
        rw [get_set_self found, Option.some.injEq] at foundV
        exact foundV ▸ (other m u sameU foundU).2.2
      · rw [get_set_other sameV] at foundV
        exact rest m k u v sameU sameV different foundU foundV

theorem Outline.step (outline : Outline P allowed G L R) (p : Pool σ τ) (a : Action ρ χ)
    (q : Pool σ τ) (permitted : allowed p a) (holds : Holds G L R p)
    (taken : P.step p a = some q) : Holds G L R q := by
  cases a with
  | call request =>
    cases taken
    exact holds.call outline request
  | advance n answer =>
    obtain ⟨t, s', t', found, next, rfl⟩ := step_advance.mp taken
    exact holds.advance outline permitted found next

/-- The assertions of an outline hold in every pool a permitted run reaches. -/
theorem Outline.run (outline : Outline P allowed G L R) (start : Holds G L R p)
    (guarded : Guarded P.step allowed p actions) (ran : run P.step p actions = some q)
    : Holds G L R q :=
  run_preserves outline.step start guarded ran

/-- A duty that is done, or that some call in flight still carries. -/
def Owed (D : σ → Prop) (C : τ → Prop) (p : Pool σ τ) : Prop :=
  D p.shared ∨ ∃ (n : Nat) (t : τ), p.threads[n]? = some t ∧ C t

theorem Owed.step (owed : Owed D C p) (taken : P.step p a = some q)
    (keep : ∀ n t answer s' t', a = .advance n answer → p.threads[n]? = some t →
      P.next p.shared t answer = some (s', t') →
      (D p.shared → D s' ∨ C t') ∧ (C t → C t' ∨ D s')) : Owed D C q := by
  cases a with
  | call request =>
    cases taken
    rcases owed with done | ⟨n, t, found, carries⟩
    · exact .inl done
    · have bound := (List.getElem?_eq_some_iff.mp found).1
      exact .inr ⟨n, t, (List.getElem?_append_left bound).trans found, carries⟩
  | advance m answer =>
    obtain ⟨u, s', u', foundU, next, rfl⟩ := step_advance.mp taken
    obtain ⟨stays, passes⟩ := keep m u answer s' u' rfl foundU next
    rcases owed with done | ⟨n, t, found, carries⟩
    · rcases stays done with still | taken
      · exact .inl still
      · exact .inr ⟨m, u', get_set_self foundU, taken⟩
    · by_cases same : n = m
      · subst same
        obtain rfl : t = u := Option.some.inj (found.symm.trans foundU)
        rcases passes carries with still | done
        · exact .inr ⟨n, u', get_set_self found, still⟩
        · exact .inl done
      · exact .inr ⟨n, t, (get_set_other same).trans found, carries⟩

theorem Owed.quiescent (owed : Owed D C p)
    (quiet : P.quiescent p = true) (idle : ∀ t, P.finished t = true → ¬ C t) : D p.shared := by
  rcases owed with done | ⟨n, t, found, carries⟩
  · exact done
  · have ended := List.all_eq_true.mp quiet t (List.mem_of_getElem? found)
    exact absurd carries (idle t ended)

variable {request : ρ}

/-- Calls that join only while the calls in flight want what they want. `want` is what a call
still works towards; a pool in which no call does may turn to another wish. -/
theorem convoy_call {ω : Type} (want : τ → Option ω) (wish : ω) {I : ω → Pool σ τ → Prop}
    (wants : ∀ w, I w p → ∀ t ∈ p.threads, ∀ v ∈ want t, v = w)
    (turn : ∀ w, I w p → (∀ t ∈ p.threads, want t = none) → I wish p)
    (joined : I wish p → I wish { p with threads := p.threads ++ [P.start request] })
    (together : ∀ t ∈ p.threads, ∀ v ∈ want t, v = wish) (holds : ∃ w, I w p) :
    ∃ w, I w { p with threads := p.threads ++ [P.start request] } := by
  obtain ⟨w, holds⟩ := holds
  refine ⟨wish, joined ?_⟩
  by_cases idle : ∀ t ∈ p.threads, want t = none
  · exact turn w holds idle
  · simp only [not_forall] at idle
    obtain ⟨t, member, busy⟩ := idle
    obtain ⟨v, wanted⟩ := Option.ne_none_iff_exists'.mp busy
    rw [← together t member v wanted, wants w holds t member v wanted]
    exact holds

/-- A call that runs alone from its first step to its last. -/
def Program.serve (P : Program σ τ ρ χ) (s : σ) (request : ρ) (answers : List χ) :
    Option (σ × τ) :=
  (run (fun x answer => P.next x.1 x.2 answer) (s, P.start request) answers).filter
    fun x => P.finished x.2

variable {answers : List χ}

theorem serve_keeps {I : σ → τ → Prop}
    (keep : ∀ s t answer s' t', I s t → P.next s t answer = some (s', t') → I s' t')
    (start : I s (P.start request)) (served : P.serve s request answers = some (s', t'))
    : I s' t' := by
  obtain ⟨ran, _⟩ := Option.filter_eq_some_iff.mp served
  refine run_invariant (I := fun x : σ × τ => I x.1 x.2) ?_ start ran
  intro x answer y holds taken
  exact keep x.1 x.2 answer y.1 y.2 holds taken

theorem serve_keeps_lifted {υ : Type} {f : υ → τ} {next : σ → υ → χ → Option (σ × υ)}
    {I : σ → υ → Prop}
    (lift : ∀ s u answer, P.next s (f u) answer = (next s u answer).map fun o => (o.1, f o.2))
    (keep : ∀ s u answer s' u', I s u → next s u answer = some (s', u') → I s' u') {u}
    (begins : P.start request = f u) (start : I s u)
    (served : P.serve s request answers = some (s', t')) : ∃ u', t' = f u' ∧ I s' u' := by
  refine serve_keeps (I := fun s t => ∃ u, t = f u ∧ I s u) ?_ ⟨u, begins, start⟩ served
  intro s t answer s' t' holds taken
  obtain ⟨u, rfl, holds⟩ := holds
  rw [lift] at taken
  obtain ⟨u', inner, rfl⟩ := lifted_step taken
  exact ⟨u', rfl, keep s u answer s' u' holds inner⟩

theorem serve_finished (served : P.serve s request answers = some (s', t'))
    : P.finished t' = true :=
  (Option.filter_eq_some_iff.mp served).2

theorem serve_first (served : P.serve s request answers = some (s', t'))
    (begins : P.finished (P.start request) = false) :
    ∃ answer rest s₁ t₁, answers = answer :: rest ∧
      P.next s (P.start request) answer = some (s₁, t₁) ∧
      run (fun x a => P.next x.1 x.2 a) (s₁, t₁) rest = some (s', t') := by
  obtain ⟨ran, ended⟩ := Option.filter_eq_some_iff.mp served
  cases answers with
  | nil =>
    cases ran
    rw [begins] at ended
    cases ended
  | cons answer rest =>
    obtain ⟨⟨s₁, t₁⟩, taken, ran⟩ := run_cons.mp ran
    exact ⟨answer, rest, s₁, t₁, rfl, taken, ran⟩

/-- The program whose calls keep the request they were made with. -/
def Program.tagged (P : Program σ τ ρ χ) : Program σ (ρ × τ) ρ χ where
  start request := (request, P.start request)
  next s t answer := (P.next s t.2 answer).map fun out => (out.1, (t.1, out.2))
  finished t := P.finished t.2

theorem map_fst_set {threads : List (ρ × τ)} {t t'}
    (found : threads[n]? = some t) (same : t'.1 = t.1) :
    (threads.set n t').map Prod.fst = threads.map Prod.fst := by
  obtain ⟨bound, rfl⟩ := List.getElem?_eq_some_iff.mp found
  rw [List.map_set, same, ← List.getElem_map Prod.fst, List.set_getElem_self]
  rwa [List.length_map]

theorem tagged_next {t t'} : P.tagged.next s t answer = some (s', t') ↔
      P.next s t.2 answer = some (s', t'.2) ∧ t'.1 = t.1 := by
  obtain ⟨request, call⟩ := t'
  simp only [Program.tagged, Option.map_eq_some_iff, Prod.exists, Prod.mk.injEq]
  constructor
  · rintro ⟨_, _, taken, rfl, rfl, rfl⟩
    exact ⟨taken, rfl⟩
  · rintro ⟨taken, rfl⟩
    exact ⟨s', call, taken, rfl, rfl, rfl⟩

section Recorded
variable {ω : Type}

/-- The program with a history variable: every step appends what is observed of
it. -/
def Program.recorded (P : Program σ τ ρ χ) (observe : σ → τ → χ → Option ω) :
    Program (σ × List ω) τ ρ χ where
  start := P.start
  next s t answer :=
    (P.next s.1 t answer).map fun out => ((out.1, s.2 ++ (observe s.1 t answer).toList), out.2)
  finished := P.finished

def Pool.forget (p : Pool (σ × List ω) τ) : Pool σ τ := ⟨p.shared.1, p.threads⟩

variable {observe : σ → τ → χ → Option ω}

theorem recorded_next {s s'} : (P.recorded observe).next s t answer = some (s', t') ↔
      P.next s.1 t answer = some (s'.1, t') ∧ s'.2 = s.2 ++ (observe s.1 t answer).toList := by
  obtain ⟨s', h'⟩ := s'
  simp only [Program.recorded, Option.map_eq_some_iff, Prod.exists, Prod.mk.injEq]
  constructor
  · rintro ⟨_, _, taken, ⟨rfl, rfl⟩, rfl⟩
    exact ⟨taken, rfl⟩
  · rintro ⟨taken, rfl⟩
    exact ⟨s', t', taken, ⟨rfl, rfl⟩, rfl⟩

theorem recorded_step {p q} (taken : (P.recorded observe).step p a = some q)
    : P.step p.forget a = some q.forget := by
  cases a with
  | call request =>
    cases taken
    rfl
  | advance n answer =>
    obtain ⟨t, s', t', found, next, rfl⟩ := step_advance.mp taken
    exact step_advance.mpr ⟨t, s'.1, t', found, (recorded_next.mp next).1, rfl⟩

theorem recorded_run {p q} (ran : run (P.recorded observe).step p actions = some q) :
    run P.step p.forget actions = some q.forget := by
  induction actions generalizing p with
  | nil =>
    cases ran
    rfl
  | cons a rest ih =>
    obtain ⟨m, taken, ran⟩ := run_cons.mp ran
    exact run_cons.mpr ⟨m.forget, recorded_step taken, ih ran⟩

end Recorded

end Threads
