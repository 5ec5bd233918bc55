import AisphereHub.Biz.Error
import AisphereHub.GitCli.Store
import Mathlib.Tactic

/-! Sessions of the git CLI under concurrent processes. The lock is tried once, so helpers share
a refresh when none of them meets it held; and since only `LoadAndRefresh` takes it, a logout
stays in force when it does not fall between the read and the save of a refresh. -/
namespace AisphereHub

open Threads Transition

theorem Credentials.isFresh_earlier {c : Credentials} (le : now ≤ later)
    (fresh : c.isFresh skew later = true) : c.isFresh skew now = true := by
  simp only [isFresh, Bool.and_eq_true, decide_eq_true_eq] at fresh ⊢
  exact ⟨fresh.1, by omega⟩

abbrev RefreshHistory := SessionStore × List (Except StoreError Credentials)

def recordedRefresh : Program RefreshHistory RefreshCall Unit RefreshAnswer :=
  refreshProgram.recorded fun _ call a =>
    match call with
    | .refresh _ => some a.refreshed
    | _ => none

/-- Working steps between `first` and `last`, at which every refresh gives a token that stays
fresh, and in which no lock attempt meets the lock held. -/
def Uncontended (first last : Nat) (p : Pool RefreshHistory RefreshCall) :
    Action Unit RefreshAnswer → Prop
  | .call _ => True
  | .advance n a => a.fault = none ∧ first ≤ a.now ∧ a.now ≤ last ∧
    (∃ r, a.refreshed = .ok r ∧ r.isFresh refreshSkew last = true) ∧
    (p.threads[n]? = some .acquire → p.shared.1.locked = false)

instance (first last : Nat) (p : Pool RefreshHistory RefreshCall) :
    (action : Action Unit RefreshAnswer) → Decidable (Uncontended first last p action)
  | .call _ => .isTrue trivial
  | .advance _ _ => inferInstanceAs (Decidable (_ ∧ _))

section Shared
variable (c : Credentials) (last : Nat)

def Unrefreshed (x : RefreshHistory) : Prop := x.1.file = .ok c ∧ x.2 = []

def Refreshed (x : RefreshHistory) (r : Credentials) : Prop :=
  r.isFresh refreshSkew last = true ∧ x.1.file = .ok r ∧ x.2 = [.ok r]

def RefreshCall.inside : RefreshCall → Bool
  | .load | .acquire | .returned _ => false
  | _ => true

def RefreshCall.Knows (x : RefreshHistory) : RefreshCall → Prop
  | .load | .acquire => True
  | .reread => Unrefreshed c x ∨ ∃ r, Refreshed last x r
  | .clear => False
  | .refresh _ => Unrefreshed c x
  | .save r => r.isFresh refreshSkew last = true ∧ x.1.file = .ok c ∧ x.2 = [.ok r]
  | .unlock out | .returned out => ∃ r, out = .ok r ∧ Refreshed last x r

def RefreshCall.Holding (x : RefreshHistory) (call : RefreshCall) : Prop :=
  (call.inside = true → x.1.locked = true) ∧ call.Knows c last x

def SharedSettled (x : RefreshHistory) : Prop :=
  (x.1.file = .ok c ∨ ∃ r, Refreshed last x r) ∧
    (x.1.locked = false → Unrefreshed c x ∨ ∃ r, Refreshed last x r)

variable {c last} {first : Nat} {x x' : RefreshHistory} {call call' : RefreshCall}
  {a : RefreshAnswer}

/-- One step keeps what the call knows; it changes the store only from inside the lock or by
taking the free lock, and then a saved refresh stays. -/
theorem refresh_step (stale : c.isFresh refreshSkew first = false) (able : c.canRefresh = true)
    (settled : SharedSettled c last x) (holding : call.Holding c last x) (works : a.fault = none)
    (since : first ≤ a.now) (before : a.now ≤ last)
    (gives : ∃ r, a.refreshed = .ok r ∧ r.isFresh refreshSkew last = true)
    (free : call = .acquire → x.1.locked = false)
    (taken : recordedRefresh.next x call a = some (x', call')) :
    SharedSettled c last x' ∧ call'.Holding c last x' ∧
      (x' = x ∧ (call'.inside = true → call.inside = true) ∨
        (call.inside = true ∨ x.1.locked = false) ∧
        ∀ r, Refreshed last x r → Refreshed last x' r) := by
  obtain ⟨s, log⟩ := x
  obtain ⟨s', log'⟩ := x'
  have old : c.isFresh refreshSkew a.now = false := Bool.eq_false_iff.mpr fun fresh => by
    rw [Credentials.isFresh_earlier since fresh] at stale
    cases stale
  have young (r : Credentials) (fresh : r.isFresh refreshSkew last = true) :
      r.isFresh refreshSkew a.now = true := Credentials.isFresh_earlier before fresh
  have read : s.load a = s.file := by simp [SessionStore.load, works]
  obtain ⟨taken, history⟩ := recorded_next.mp taken
  obtain ⟨locks, knows⟩ := holding
  cases call with
  | load =>
    rcases settled.1 with stored | ⟨r, refreshed⟩
    · have step : RefreshCall.load.next s a = some (s, .acquire) := by
        simp [RefreshCall.next, read.trans stored, old]
      cases step.symm.trans taken
      obtain rfl : log' = log := by simpa using history
      exact ⟨settled, ⟨by simp [RefreshCall.inside], trivial⟩, .inl ⟨rfl, by simp [RefreshCall.inside]⟩⟩
    · have step : RefreshCall.load.next s a = some (s, .returned (.ok r)) := by
        simp [RefreshCall.next, read.trans refreshed.2.1, young r refreshed.1]
      cases step.symm.trans taken
      obtain rfl : log' = log := by simpa using history
      exact ⟨settled, ⟨by simp [RefreshCall.inside], r, rfl, refreshed⟩,
        .inl ⟨rfl, by simp [RefreshCall.inside]⟩⟩
  | acquire =>
    have unlocked : s.locked = false := free rfl
    have step : RefreshCall.acquire.next s a = some ({ s with locked := true }, .reread) := by
      simp [RefreshCall.next, works, unlocked]
    cases step.symm.trans taken
    obtain rfl : log' = log := by simpa using history
    exact ⟨⟨settled.1, by simp⟩, ⟨fun _ => rfl, settled.2 unlocked⟩,
      .inr ⟨.inr unlocked, fun r => id⟩⟩
  | reread =>
    rcases knows with stored | ⟨r, refreshed⟩
    · have step : RefreshCall.reread.next s a = some (s, .refresh c) := by
        simp [RefreshCall.next, read.trans stored.1, old, able]
      cases step.symm.trans taken
      obtain rfl : log' = log := by simpa using history
      exact ⟨settled, ⟨locks, stored⟩, .inl ⟨rfl, id⟩⟩
    · have step : RefreshCall.reread.next s a = some (s, .unlock (.ok r)) := by
        simp [RefreshCall.next, read.trans refreshed.2.1, young r refreshed.1]
      cases step.symm.trans taken
      obtain rfl : log' = log := by simpa using history
      exact ⟨settled, ⟨locks, r, rfl, refreshed⟩, .inl ⟨rfl, id⟩⟩
  | clear => exact knows.elim
  | refresh held =>
    obtain ⟨r, given, fresh⟩ := gives
    obtain ⟨stored, rfl⟩ : s.file = .ok c ∧ log = [] := knows
    have locked : s.locked = true := locks rfl
    have step : (RefreshCall.refresh held).next s a = some (s, .save r) := by
      simp [RefreshCall.next, given]
    cases step.symm.trans taken
    obtain rfl : log' = [.ok r] := by simpa [given] using history
    exact ⟨⟨.inl stored, fun free => by cases locked.symm.trans free⟩,
      ⟨locks, fresh, stored, rfl⟩,
      .inr ⟨.inl rfl, fun r' refreshed => by simp [Refreshed] at refreshed⟩⟩
  | save r =>
    obtain ⟨fresh, stored, rfl⟩ : _ ∧ s.file = .ok c ∧ log = [.ok r] := knows
    have step : (RefreshCall.save r).next s a = some ({ s with file := .ok r }, .unlock (.ok r)) := by
      simp [RefreshCall.next, SessionStore.save, works]
    cases step.symm.trans taken
    obtain rfl : log' = [.ok r] := by simpa using history
    have refreshed : Refreshed last ({ s with file := .ok r }, [.ok r]) r := ⟨fresh, rfl, rfl⟩
    refine ⟨⟨.inr ⟨r, refreshed⟩, fun _ => .inr ⟨r, refreshed⟩⟩, ⟨locks, r, rfl, refreshed⟩,
      .inr ⟨.inl rfl, fun r' held => ?_⟩⟩
    cases held.2.2
    exact refreshed
  | unlock out =>
    cases taken
    obtain rfl : log' = log := by simpa using history
    obtain ⟨r, rfl, refreshed⟩ := knows
    exact ⟨⟨settled.1, fun _ => .inr ⟨r, refreshed⟩⟩, ⟨by simp [RefreshCall.inside], r, rfl, refreshed⟩,
      .inr ⟨.inl rfl, fun r => id⟩⟩
  | returned out => cases taken

end Shared

theorem refresh_outline
    (stale : c.isFresh refreshSkew first = false) (able : c.canRefresh = true) :
    Outline recordedRefresh (Uncontended first last) (SharedSettled c last)
      (fun x call => call.Holding c last x)
      (fun _ call other => call.inside = true → other.inside = false) where
  fresh _ _ _ := ⟨by simp [recordedRefresh, Program.recorded, refreshProgram, RefreshCall.inside],
    trivial⟩
  freshPair _ _ _ _ _ := by
    simp [recordedRefresh, Program.recorded, refreshProgram, RefreshCall.inside]
  own p n call a x' call' holds allowed found taken := by
    obtain ⟨works, since, before, gives, free⟩ := allowed
    have kept := refresh_step stale able holds.shared (holds.each n call found) works since before
      gives (fun at_ => free (at_ ▸ found)) taken
    exact ⟨kept.1, kept.2.1⟩
  other p n call a x' call' holds allowed found taken := by
    intro m other different foundU
    obtain ⟨works, since, before, gives, free⟩ := allowed
    obtain ⟨_, _, step⟩ := refresh_step stale able holds.shared (holds.each n call found) works
      since before gives (fun at_ => free (at_ ▸ found)) taken
    have apart := holds.pair n m call other (Ne.symm different) found foundU
    have held := holds.each m other foundU
    rcases step with ⟨rfl, enters⟩ | ⟨owns, stays⟩
    · refine ⟨held, fun inside => apart (enters inside), fun inside => ?_⟩
      exact Bool.eq_false_iff.mpr fun both => by simp [apart (enters both)] at inside
    · have outside : other.inside = false := by
        rcases owns with inside | unlocked
        · exact apart inside
        · exact Bool.eq_false_iff.mpr fun inside => by simp [held.1 inside] at unlocked
      refine ⟨⟨by simp [outside], ?_⟩, fun _ => outside, by simp [outside]⟩
      cases other with
      | load | acquire => trivial
      | returned out =>
        obtain ⟨r, same, refreshed⟩ := held.2
        exact ⟨r, same, stays r refreshed⟩
      | _ => cases outside
  rest p n call a x' call' holds _ _ _ m k u v _ _ different foundU foundV :=
    holds.pair m k u v different foundU foundV

/-- Processes that start on a stale session share one refresh as long as none of them tries the
lock while another holds it. -/
theorem refresh_shared (c : Credentials) (first last : Nat)
    (stale : c.isFresh refreshSkew first = false) (able : c.canRefresh = true)
    (actions : List (Action Unit RefreshAnswer)) (p : Pool RefreshHistory RefreshCall)
    (guarded : Guarded recordedRefresh.step (Uncontended first last) ⟨({ file := .ok c }, []), []⟩
      actions)
    (ran : run recordedRefresh.step ⟨({ file := .ok c }, []), []⟩ actions = some p)
    (called : p.threads ≠ []) :
    (recordedRefresh.quiescent p = true →
      ∃ r, p.shared.2 = [.ok r] ∧ ∀ call ∈ p.threads, call = .returned (.ok r)) ∧
    ∀ call ∈ p.threads, ∀ a, call.isReturned = false →
      (recordedRefresh.next p.shared call a).isSome = true := by
  have holds := (refresh_outline stale able).run
    (Holds.empty ⟨.inl rfl, fun _ => .inl ⟨rfl, rfl⟩⟩) guarded ran
  constructor
  · intro quiet
    have ended (call : RefreshCall) (member : call ∈ p.threads) :
        ∃ r, call = .returned (.ok r) ∧ p.shared.2 = [.ok r] := by
      obtain ⟨n, found⟩ := List.mem_iff_getElem?.mp member
      have finished := List.all_eq_true.mp quiet call member
      cases call with
      | returned out =>
        obtain ⟨r, rfl, refreshed⟩ := (holds.each n _ found).2
        exact ⟨r, rfl, refreshed.2.2⟩
      | _ => cases finished
    obtain ⟨call, member⟩ := List.exists_mem_of_ne_nil _ called
    obtain ⟨r, _, once⟩ := ended call member
    refine ⟨r, once, fun other among => ?_⟩
    obtain ⟨r', returned, again⟩ := ended other among
    cases once.symm.trans again
    exact returned
  · intro call _ a busy
    have steps : (call.next p.shared.1 a).isSome = true := by
      unfold RefreshCall.next
      split
      case h_8 => cases busy
      all_goals repeat' split
      all_goals rfl
    simpa [recordedRefresh, Program.recorded, refreshProgram] using steps

def staleSession : Credentials :=
  { accessToken := "old", accessTokenExp := 100, refreshToken := "r" }

def freshSession : Credentials :=
  { accessToken := "new", accessTokenExp := 4000, refreshToken := "r" }

def takingTurns : List (Action Unit RefreshAnswer) :=
  [.call (), .call ()] ++ [0, 1, 0, 0, 0, 0, 0, 1, 1, 1].map fun n =>
    .advance n { now := 50, refreshed := .ok freshSession }

theorem refresh_shared_turns : ∃ p,
    run recordedRefresh.step ⟨({ file := .ok staleSession }, []), []⟩ takingTurns = some p ∧
    ∃ r, p.shared.2 = [.ok r] ∧ ∀ call ∈ p.threads, call = .returned (.ok r) := by
  refine exists_run (P := fun p => p.threads ≠ [] ∧ recordedRefresh.quiescent p = true)
    (by decide +kernel) fun p ran facts => ?_
  exact (refresh_shared staleSession 50 60 (by decide) (by decide) takingTurns p
    (by decide +kernel) ran facts.1).1 facts.2

/-- A lock attempt while another helper refreshes fails at once. -/
theorem contended_fails : ∃ p,
    run recordedRefresh.step ⟨({ file := .ok staleSession }, []), []⟩
      ([.call (), .call ()] ++ [0, 1, 0, 1, 0, 0, 0, 0].map fun n =>
        .advance n { now := 50, refreshed := .ok freshSession }) = some p ∧
    recordedRefresh.quiescent p = true ∧
    p.threads = [.returned (.ok freshSession),
      .returned (.error (.other "acquire lock: %!w(<nil>)"))] := by
  decide +kernel

section Logout

def CliCall.carries : CliCall → Bool
  | .refresh (.refresh _) | .refresh (.save _) => true
  | _ => false

def CliCall.isLogin : CliCall → Bool
  | .login _ => true
  | _ => false

def LogoutApart (p : Pool SessionStore CliCall) : Action CliRequest RefreshAnswer → Prop
  | .call _ => True
  | .advance n _ => p.threads[n]? = some .logout → ∀ call ∈ p.threads, call.carries = false

def NoLogin (p : Pool SessionStore CliCall) : Action CliRequest RefreshAnswer → Prop
  | .call _ => True
  | .advance n _ => ∀ call ∈ p.threads[n]?, call.isLogin = false

instance (p : Pool SessionStore CliCall) (action : Action CliRequest RefreshAnswer) :
    Decidable (LogoutApart p action ∧ NoLogin p action) :=
  match action with
  | .call _ => .isTrue ⟨trivial, trivial⟩
  | .advance _ _ => inferInstanceAs (Decidable ((_ → _) ∧ ∀ _ ∈ _, _))

def LoggedOut (p : Pool SessionStore CliCall) : Prop :=
  (∀ c, p.shared.file ≠ .ok c) ∧ ∀ call ∈ p.threads, call.carries = false

theorem SessionStore.clear_gone {s : SessionStore}
    (done : s.clear a = .ok s') (c : Credentials) : s'.file ≠ .ok c := by
  unfold clear at done
  split at done <;> cases done
  simp

theorem CliCall.next_loggedOut {call : CliCall}
    (gone : ∀ c, s.file ≠ .ok c) (light : call.carries = false) (other : call.isLogin = false)
    (taken : call.next s a = some (s', call')) :
    (∀ c, s'.file ≠ .ok c) ∧ call'.carries = false := by
  cases call with
  | refresh call =>
    obtain ⟨call', inner, rfl⟩ := lifted_step taken
    cases call with simp only [RefreshCall.next, reduceCtorEq] at inner
    | load =>
      split at inner <;> cases inner
      · refine ⟨gone, ?_⟩
        split <;> rfl
      · exact ⟨gone, rfl⟩
    | acquire =>
      repeat' split at inner
      all_goals cases inner; exact ⟨gone, rfl⟩
    | reread =>
      split at inner
      · cases inner
        exact ⟨gone, rfl⟩
      · rename_i c read
        unfold SessionStore.load at read
        split at read
        · cases read
        · exact absurd read (gone c)
    | clear =>
      cases inner
      refine ⟨?_, rfl⟩
      cases done : s.clear a with
      | error cause => exact gone
      | ok s' => exact SessionStore.clear_gone done
    | refresh | save => cases light
    | unlock out =>
      cases inner
      exact ⟨gone, rfl⟩
  | logout =>
    simp only [next] at taken
    split at taken <;> cases taken
    · exact ⟨gone, rfl⟩
    · rename_i done
      exact ⟨SessionStore.clear_gone done, rfl⟩
  | login creds => cases other
  | ended out => cases taken

/-- The logout has failed, has yet to clear the file, or is in force. -/
def LogoutAt (n : Nat) (p : Pool SessionStore CliCall) : Prop :=
  (∃ e, p.threads[n]? = some (.ended (.error e))) ∨ p.threads[n]? = some .logout ∨ LoggedOut p

theorem logoutAt_step
    (apart : LogoutApart p a ∧ NoLogin p a) (holds : LogoutAt n p)
    (taken : cliProgram.step p a = some q) : LogoutAt n q := by
  rcases holds with ⟨e, failed⟩ | waiting | ⟨gone, light⟩
  · refine .inl ⟨e, ?_⟩
    obtain ⟨_, found, rfl⟩ := step_thread (I := (· = .ended (.error e)))
      (fun _ _ _ _ _ same next => by cases same; cases next) ⟨_, failed, rfl⟩ taken
    exact found
  · cases a with
    | call request =>
      cases taken
      exact .inr (.inl
        ((List.getElem?_append_left (List.getElem?_eq_some_iff.mp waiting).1).trans waiting))
    | advance m a =>
      obtain ⟨call, s', call', found, next, rfl⟩ := step_advance.mp taken
      by_cases same : n = m
      · subst same
        cases found.symm.trans waiting
        simp only [cliProgram, CliCall.next] at next
        split at next <;> cases next
        · exact .inl ⟨_, get_set_self found⟩
        · rename_i done
          refine .inr (.inr ⟨SessionStore.clear_gone done, fun other member => ?_⟩)
          rcases List.mem_or_eq_of_mem_set member with old | rfl
          · exact apart.1 found other old
          · rfl
      · exact .inr (.inl ((get_set_other same).trans waiting))
  · refine .inr (.inr ?_)
    cases a with
    | call request =>
      cases taken
      refine ⟨gone, fun call member => ?_⟩
      rcases List.mem_append.mp member with old | new
      · exact light call old
      · cases List.mem_singleton.mp new
        cases request <;> rfl
    | advance m a =>
      obtain ⟨call, s', call', found, next, rfl⟩ := step_advance.mp taken
      have kept := CliCall.next_loggedOut gone (light call (List.mem_of_getElem? found))
        (apart.2 call found) next
      refine ⟨kept.1, fun other member => ?_⟩
      rcases List.mem_or_eq_of_mem_set member with old | rfl
      · exact light other old
      · exact kept.2

theorem logout_final (p q : Pool SessionStore CliCall)
    (actions : List (Action CliRequest RefreshAnswer))
    (guarded : Guarded cliProgram.step (fun p a => LogoutApart p a ∧ NoLogin p a) p
      (.call .logout :: actions))
    (ran : run cliProgram.step p (.call .logout :: actions) = some q)
    (returned : q.threads[p.threads.length]? = some (.ended (.ok ()))) :
    (∀ c, q.shared.file ≠ .ok c) ∧
    ∀ s c a e, a.refreshed = .error e → e ≠ .errNoSession →
      (RefreshCall.refresh c).next s a = some (s, .unlock (.error e)) ∧
      ∀ s b, (RefreshCall.unlock (.error e)).next s b =
        some ({ s with locked := false }, .returned (.error e)) := by
  obtain ⟨m, called, ran⟩ := run_cons.mp ran
  have started : LogoutAt p.threads.length m := by
    cases called
    exact .inr (.inl (by simp [cliProgram]))
  have final : LogoutAt p.threads.length q :=
    run_preserves (fun _ _ _ => logoutAt_step) started (guarded.2 m called) ran
  constructor
  · rcases final with ⟨e, failed⟩ | waiting | out
    · cases returned.symm.trans failed
    · cases returned.symm.trans waiting
    · exact out.1
  · intro s c a e failed _
    exact ⟨by simp [RefreshCall.next, failed], fun _ _ => rfl⟩

theorem logout_final_alone : ∃ q,
    run cliProgram.step ⟨{ file := .ok staleSession }, []⟩ [.call .logout, .advance 0 {}] =
      some q ∧ ∀ c, q.shared.file ≠ .ok c := by
  refine exists_run (P := fun q => q.threads[0]? = some (.ended (.ok ()))) (by decide +kernel)
    fun q ran ended => ?_
  exact (logout_final _ q _ (by decide +kernel) ran ended).1

/-- A refresh saves over a logout; and one that reports the end of the session leaves it. -/
theorem logout_overwritten : (∃ q,
    run cliProgram.step ⟨{ file := .ok staleSession }, []⟩
      ([.call .loadAndRefresh, .call .logout] ++ [0, 0, 0, 0, 1, 0, 0].map fun n =>
        .advance n { now := 50, refreshed := .ok freshSession }) = some q ∧
    q.threads = [.refresh (.returned (.ok freshSession)), .ended (.ok ())] ∧
    q.shared.file = .ok freshSession) ∧
    ∃ q, run cliProgram.step ⟨{ file := .ok staleSession }, []⟩
      (.call .loadAndRefresh :: List.replicate 5 (.advance 0 { now := 50 })) = some q ∧
    q.threads = [.refresh (.returned (.error .errNoSession))] ∧
    q.shared.file = .ok staleSession := by
  decide +kernel

end Logout

end AisphereHub
