import AisphereHub.Proof.SkillViewers

/-! Visibility calls of one skill in flight at once. -/
namespace AisphereHub

open GoStrings Keyed Transition
open Threads

variable {w : AuthzSubjectRef} {tuples : Tuples} {frame : SwitchFrame}

def SkillVisibilityRequest.wantsPublic (request : SkillVisibilityRequest) : Bool :=
  SkillVisibility.ofString request.visibility = some .public

def SkillVisibilityCall.wantsPublic : SkillVisibilityCall → Bool
  | .load request => request.wantsPublic
  | .reconcile frame _ | .project frame _ _ | .write frame | .reread frame => frame.grants
  | .compensate _ grant _ _ => grant
  | .returned _ => false

def onSkill (name : String) : Action SkillVisibilityRequest (Option String) → Bool
  | .call request => trimSpace request.name = name
  | .advance _ fault => fault = none

def agreeing (name : String) (p : Pool SkillTables SkillVisibilityCall) :
    Action SkillVisibilityRequest (Option String) → Bool
  | .call request => request.name = name && p.threads.all fun t =>
    skillVisibilityProgram.finished t || t.wantsPublic == request.wantsPublic
  | .advance _ _ => true

def SkillShown (s : SkillTables) (name : String) : Prop :=
  (isPublic s.skills name = true ↔ ∀ w ∈ publicSubjects, publicViewer name w ∈ s.tuples) ∧
    (isPublic s.skills name = false → ∀ w ∈ publicSubjects, publicViewer name w ∉ s.tuples)

instance (s : SkillTables) (name : String) : Decidable (SkillShown s name) :=
  inferInstanceAs (Decidable (_ ∧ _))

variable {name : String} {wanted : Bool} {s s' : SkillTables} {call call' : SkillVisibilityCall}

/-- Where a call stands while all calls in flight want `wanted`: the viewers it has
turned, and the row once it has seen or written it, stay as it wants them. -/
def Placed (name : String) (wanted : Bool) (s : SkillTables) : SkillVisibilityCall → Prop
  | .load request => request.name = name ∧ request.wantsPublic = wanted
  | .reconcile frame todo => frame.name = name ∧ frame.grants = wanted ∧
      isPublic s.skills name = wanted ∧ ∀ w ∈ todo, w ∈ publicSubjects
  | .project frame done todo => frame.name = name ∧ frame.grants = wanted ∧
      done ++ todo = publicSubjects ∧ Shown s name wanted done
  | .write frame => frame.name = name ∧ frame.grants = wanted ∧ Shown s name wanted publicSubjects
  | .reread frame => frame.name = name ∧ frame.grants = wanted ∧ isPublic s.skills name = wanted
  | .compensate .. => False
  | .returned _ => True

def SkillVisibilityCall.committing : SkillVisibilityCall → Bool
  | .project .. | .write _ => true
  | _ => false

/-- A step that turns viewers or the row only towards `wanted`. -/
structure Towards (name : String) (wanted : Bool) (s s' : SkillTables) : Prop where
  stored : (lookup SkillRecord.name s.skills name).isSome = true →
    (lookup SkillRecord.name s'.skills name).isSome = true
  viewers : ∀ subjects, (∀ w ∈ subjects, w ∈ publicSubjects) → Shown s name wanted subjects →
    Shown s' name wanted subjects
  row : isPublic s.skills name = wanted → isPublic s'.skills name = wanted

theorem Placed.towards (placed : Placed name wanted s call) (towards : Towards name wanted s s') :
    Placed name wanted s' call := by
  cases call with
  | load | compensate => exact placed
  | reconcile frame todo =>
    obtain ⟨named, grants, row, subjects⟩ := placed
    exact ⟨named, grants, towards.row row, subjects⟩
  | project frame done todo =>
    obtain ⟨named, grants, whole, shown⟩ := placed
    refine ⟨named, grants, whole, towards.viewers done ?_ shown⟩
    intro w member
    rw [← whole]
    exact List.mem_append_left todo member
  | write frame =>
    obtain ⟨named, grants, shown⟩ := placed
    exact ⟨named, grants, towards.viewers publicSubjects (fun _ member => member) shown⟩
  | reread frame =>
    obtain ⟨named, grants, row⟩ := placed
    exact ⟨named, grants, towards.row row⟩
  | returned result => trivial

/-- What one step of a call does: it goes towards what the call wants, the call stays well
placed, and viewers in step with the row stay so unless the call will still write the row. -/
structure RaceStep (name : String) (wanted : Bool) (s : SkillTables) (call : SkillVisibilityCall)
    (s' : SkillTables) (call' : SkillVisibilityCall) : Prop where
  towards : Towards name wanted s s'
  placed : Placed name wanted s' call'
  ahead : isPublic s'.skills name = wanted → Mirrored s' name
  settles : Mirrored s name → Mirrored s' name ∨ call'.committing = true
  commits : call.committing = true → call'.committing = true ∨ Mirrored s' name

theorem towards_projected (named : name ≠ "") (subject : w ∈ publicSubjects)
    (done : projectViewer s.tuples name wanted w none = .ok tuples) :
    Towards name wanted s { s with tuples := tuples } := by
  refine ⟨id, ?_, id⟩
  intro subjects inside shown v member
  rw [mem_projectViewer named subject done (inside v member)]
  split_ifs
  · rfl
  · exact shown v member

theorem mirrored_of_row (row : isPublic s.skills name = shown) :
    Mirrored s name ↔ Shown s name shown publicSubjects := by
  rw [Mirrored, row]

theorem RaceStep.quiet (ahead : isPublic s.skills name = wanted → Mirrored s name)
    (placed : Placed name wanted s call') (light : call.committing = false) :
    RaceStep name wanted s call s call' where
  towards := ⟨id, fun _ _ => id, id⟩
  placed := placed
  ahead := ahead
  settles := .inl
  commits commits := by
    rw [light] at commits
    cases commits

theorem raceStep_projected (named : name ≠ "")
    (ahead : isPublic s.skills name = wanted → Mirrored s name)
    (placed : Placed name wanted s (.project frame before (w :: rest)))
    (done : projectViewer s.tuples frame.name frame.grants w none = .ok tuples) :
    RaceStep name wanted s (.project frame before (w :: rest)) { s with tuples := tuples }
      (frame.projecting (before ++ [w]) rest) := by
  obtain ⟨own, grants, whole, turned⟩ := placed
  rw [own, grants] at done
  have inside : ∀ v ∈ before ++ w :: rest, v ∈ publicSubjects := by
    rw [whole]
    exact fun _ member => member
  have subject := inside w (by simp)
  have towards := towards_projected named subject done
  have more : Shown { s with tuples := tuples } name wanted (before ++ [w]) := by
    apply shown_projected named subject done _ turned
    intro v member
    exact inside v (by simp [member])
  have commits : (frame.projecting (before ++ [w]) rest).committing = true := by
    cases rest <;> rfl
  refine ⟨towards, ?_, ?_, fun _ => .inr commits, fun _ => .inl commits⟩
  · cases rest with
    | nil => exact ⟨own, grants, whole ▸ more⟩
    | cons v rest => exact ⟨own, grants, by simp [← whole], more⟩
  · intro row
    apply (mirrored_of_row row).mpr
    exact towards.viewers _ (fun _ member => member)
      ((mirrored_of_row (s := s) row).mp (ahead row))

theorem raceStep_written (trimmed : trimSpace name = name)
    (placed : Placed name wanted s (.write frame))
    (done : writeSkillVisibility s.skills frame.name frame.visibility = .ok skills) :
    RaceStep name wanted s (.write frame) { s with skills := skills } (.reread frame) := by
  obtain ⟨own, grants, shown⟩ := placed
  obtain ⟨skill, found, _, rfl⟩ := updateSkillRow_eq_ok.mp done
  rw [own, trimmed] at found ⊢
  have row : isPublic (amend SkillRecord.name s.skills name
      (SkillRecord.switched · frame.visibility)) name = wanted := by
    rw [isPublic_amend (·.switched frame.visibility) (fun _ => rfl), if_pos rfl, found, ← grants]
    rfl
  have kept := (mirrored_of_row (s := ⟨_, s.tuples⟩) row).mpr shown
  refine ⟨⟨?_, fun _ _ => id, fun _ => row⟩, ⟨own, grants, row⟩, fun _ => kept,
    fun _ => .inl kept, fun _ => .inr kept⟩
  intro stored
  rwa [isSome_lookup_amend SkillRecord.name (SkillRecord.switched · frame.visibility)
    (fun _ => rfl)]

/-- One step, while the row is stored and viewers are in step with a row that is already
as wanted. -/
theorem raceStep (named : name ≠ "") (trimmed : trimSpace name = name)
    (stored : (lookup SkillRecord.name s.skills name).isSome = true)
    (ahead : isPublic s.skills name = wanted → Mirrored s name)
    (placed : Placed name wanted s call) (taken : SwitchStep s none call s' call') :
    RaceStep name wanted s call s' call' := by
  obtain ⟨skill, row⟩ := Option.isSome_iff_exists.mp stored
  cases taken with
  | refused request e | reread frame skill => exact .quiet ahead trivial rfl
  | unchanged frame text found parsed same =>
    obtain ⟨own, wants⟩ := placed
    dsimp only at own
    have grants : frame.grants = wanted := by
      rw [← wants]
      simp [SkillVisibilityRequest.wantsPublic, parsed, SwitchFrame.grants]
    rw [own, trimmed] at found
    refine .quiet ahead ⟨own, grants, ?_, fun _ member => member⟩ rfl
    rw [isPublic_of_found found, same, ← grants, SwitchFrame.grants]
  | changed frame text found parsed differs =>
    obtain ⟨own, wants⟩ := placed
    have grants : frame.grants = wanted := by
      rw [← wants]
      simp [SkillVisibilityRequest.wantsPublic, parsed, SwitchFrame.grants]
    refine .quiet ahead ⟨own, grants, rfl, ?_⟩ rfl
    intro w member
    cases member
  | reconciled frame w rest tuples done =>
    obtain ⟨own, grants, row, subjects⟩ := placed
    rw [own, grants] at done
    have towards := towards_projected named (subjects w (by simp)) done
    have shown : Shown s name wanted publicSubjects := (mirrored_of_row row).mp (ahead row)
    have kept : Mirrored { s with tuples := tuples } name :=
      (mirrored_of_row (towards.row row)).mpr (towards.viewers _ (fun _ member => member) shown)
    refine ⟨towards, ?_, fun _ => kept, fun _ => .inl kept, fun _ => .inr kept⟩
    cases rest with
    | nil => trivial
    | cons v rest =>
      exact ⟨own, grants, row, fun u member => subjects u (List.mem_cons_of_mem w member)⟩
  | reconcileFailed frame w rest e failed =>
    obtain ⟨own, _, _, subjects⟩ := placed
    cases projectViewer_error (own ▸ named) (subjects w (by simp)) failed
  | projected frame before w rest tuples done => exact raceStep_projected named ahead placed done
  | projectFailed frame before w rest e failed =>
    obtain ⟨own, _, whole, _⟩ := placed
    have subject : w ∈ publicSubjects := by simp [← whole]
    cases projectViewer_error (own ▸ named) subject failed
  | written frame skills done => exact raceStep_written trimmed placed done
  | writeFailed frame e failed =>
    obtain ⟨rfl, _⟩ := placed
    cases underFault_eq_error failed (writeSkillVisibility_isOk trimmed row frame.visibility)
  | rereadFailed frame e failed =>
    obtain ⟨rfl, _⟩ := placed
    have read : (getSkill s.skills frame.name).isOk = true := by
      rw [getSkill, trimmed, row]
      rfl
    cases underFault_eq_error failed read
  | compensated | compensateFailed => exact placed.elim

structure Agreed (name : String) (wanted : Bool) (p : Pool SkillTables SkillVisibilityCall) :
    Prop where
  stored : (lookup SkillRecord.name p.shared.skills name).isSome = true
  ahead : isPublic p.shared.skills name = wanted → Mirrored p.shared name
  each : ∀ (n : Nat) (t : SkillVisibilityCall), p.threads[n]? = some t →
    Placed name wanted p.shared t
  owed : Owed (Mirrored · name) (·.committing = true) p

variable {p q : Pool SkillTables SkillVisibilityCall}

theorem Agreed.advance (named : name ≠ "") (trimmed : trimSpace name = name)
    (agreed : Agreed name wanted p)
    (taken : skillVisibilityProgram.step p (.advance n none) = some q) : Agreed name wanted q := by
  have owed := agreed.owed.step taken (by
    intro m t answer s' t' same found next
    cases same
    have step := raceStep named trimmed agreed.stored agreed.ahead (agreed.each _ t found)
      (next_switchStep next)
    exact ⟨step.settles, step.commits⟩)
  obtain ⟨t, s', t', found, next, rfl⟩ := step_advance.mp taken
  have step := raceStep named trimmed agreed.stored agreed.ahead (agreed.each n t found)
    (next_switchStep next)
  refine ⟨step.towards.stored agreed.stored, step.ahead, ?_, owed⟩
  intro m u foundU
  by_cases same : m = n
  · subst same
    rw [get_set_self found, Option.some.injEq] at foundU
    exact foundU ▸ step.placed
  · rw [get_set_other same] at foundU
    exact (agreed.each m u foundU).towards step.towards

theorem Placed.wants (placed : Placed name wanted s call)
    (flying : skillVisibilityProgram.finished call = false) : call.wantsPublic = wanted := by
  cases call with
  | load request => exact placed.2
  | reconcile | project | write | reread => exact placed.2.1
  | compensate => exact placed.elim
  | returned result => cases flying

def SkillVisibilityCall.wish (call : SkillVisibilityCall) : Option Bool :=
  if skillVisibilityProgram.finished call then none else some call.wantsPublic

theorem wish_eq_some : call.wish = some v ↔
    skillVisibilityProgram.finished call = false ∧ call.wantsPublic = v := by
  unfold SkillVisibilityCall.wish
  split_ifs with ended <;> simp [ended]

theorem wish_eq_none : call.wish = none ↔ skillVisibilityProgram.finished call = true := by
  unfold SkillVisibilityCall.wish
  split_ifs with ended <;> simp [ended]

theorem Placed.ended (ended : skillVisibilityProgram.finished call = true) :
    Placed name wanted s call := by
  cases call with
  | returned result => trivial
  | _ => cases ended

theorem committing_flies (ended : skillVisibilityProgram.finished call = true) :
    ¬ call.committing = true := by
  cases call with
  | returned result => exact Bool.false_ne_true
  | _ => cases ended

theorem Agreed.settled (agreed : Agreed name wanted p)
    (quiet : skillVisibilityProgram.quiescent p = true) : Mirrored p.shared name :=
  agreed.owed.quiescent quiet fun _ => committing_flies

theorem Agreed.turn (agreed : Agreed name wanted p)
    (quiet : skillVisibilityProgram.quiescent p = true) (other : Bool) : Agreed name other p where
  stored := agreed.stored
  ahead _ := agreed.settled quiet
  each _ t found := Placed.ended (List.all_eq_true.mp quiet t (List.mem_of_getElem? found))
  owed := .inl (agreed.settled quiet)

theorem Agreed.joined (agreed : Agreed name wanted p)
    (own : request.name = name) (wants : request.wantsPublic = wanted)
    (taken : skillVisibilityProgram.step p (.call request) = some q) : Agreed name wanted q := by
  have owed := agreed.owed.step taken (by
    intro n t answer s' t' same
    cases same)
  cases taken
  refine ⟨agreed.stored, agreed.ahead, ?_, owed⟩
  intro n t found
  rcases get_append found with old | ⟨_, rfl⟩
  · exact agreed.each n t old
  · exact ⟨own, wants⟩

theorem agreed_step (named : name ≠ "") (trimmed : trimSpace name = name)
    (p : Pool SkillTables SkillVisibilityCall) (a : Action SkillVisibilityRequest (Option String))
    (q : Pool SkillTables SkillVisibilityCall) (allowed : (onSkill name a && agreeing name p a) = true)
    (agreed : ∃ wanted, Agreed name wanted p) (taken : skillVisibilityProgram.step p a = some q) :
    ∃ wanted, Agreed name wanted q := by
  cases a with
  | advance n fault =>
    obtain ⟨wanted, agreed⟩ := agreed
    simp only [onSkill, agreeing, Bool.and_true, decide_eq_true_eq] at allowed
    subst allowed
    exact ⟨wanted, agreed.advance named trimmed taken⟩
  | call request =>
    simp only [onSkill, agreeing, Bool.and_eq_true, decide_eq_true_eq] at allowed
    obtain ⟨_, own, together⟩ := allowed
    have joined := fun agreed : Agreed name request.wantsPublic p => agreed.joined own rfl taken
    cases taken
    refine convoy_call SkillVisibilityCall.wish request.wantsPublic (I := Agreed name)
      ?_ ?_ joined ?_ agreed
    · intro wanted agreed t member v wish
      obtain ⟨n, found⟩ := List.getElem?_of_mem member
      obtain ⟨flying, rfl⟩ := wish_eq_some.mp wish
      exact (agreed.each n t found).wants flying
    · intro wanted agreed idle
      refine agreed.turn (List.all_eq_true.mpr fun t member => ?_) request.wantsPublic
      exact wish_eq_none.mp (idle t member)
    · intro t member v wish
      obtain ⟨flying, rfl⟩ := wish_eq_some.mp wish
      have same := List.all_eq_true.mp together t member
      simpa only [flying, Bool.false_or, beq_iff_eq] using same

theorem skillShown_of_mirrored (mirrored : Mirrored s name) : SkillShown s name := by
  constructor
  · constructor
    · intro isPublic w subject
      exact (mirrored w subject).mpr isPublic
    · intro all
      exact (mirrored { type := "user", id := "*" } (by simp [publicSubjects])).mp
        (all _ (by simp [publicSubjects]))
  · intro isPrivate w subject viewer
    rw [mirrored w subject, isPrivate] at viewer
    cases viewer

/-- Calls that start only while the calls in flight want the same leave the skill public
or not public as it is stored. -/
theorem race_settles {start : SkillTables} {actions : List (Action SkillVisibilityRequest (Option String))}
    (rows : RowsNamed start.skills)
    (stored : (lookup SkillRecord.name start.skills name).isSome = true)
    (mirrored : Mirrored start name)
    (allowed : Guarded skillVisibilityProgram.step
      (fun p a => (onSkill name a && agreeing name p a) = true) ⟨start, []⟩ actions)
    (ran : run skillVisibilityProgram.step ⟨start, []⟩ actions = some p)
    (quiet : skillVisibilityProgram.quiescent p = true) : SkillShown p.shared name := by
  obtain ⟨skill, found⟩ := Option.isSome_iff_exists.mp stored
  obtain ⟨named, trimmed⟩ := rows.found found
  have agreed : Agreed name true ⟨start, []⟩ := by
    refine ⟨stored, fun _ => mirrored, ?_, .inl mirrored⟩
    intro n t found
    cases found
  obtain ⟨_, agreed⟩ := run_preserves (agreed_step named trimmed) ⟨true, agreed⟩ allowed ran
  exact skillShown_of_mirrored (agreed.settled quiet)

def publicWeather : SkillTables where
  skills := [{ name := "weather", visibility := .public, status := .active }]
  tuples := appendSkillPublicViewers [] "weather"

theorem publicWeather_mirrored : Mirrored publicWeather "weather" := by
  intro w subject
  simp only [publicSubjects, List.mem_cons, List.not_mem_nil, or_false] at subject
  rcases subject with rfl | rfl | rfl <;> decide +kernel

def togetherPrivate : List (Action SkillVisibilityRequest (Option String)) :=
  [.call ⟨"weather", "private"⟩, .call ⟨"weather", "internal"⟩, .advance 0 none, .advance 1 none,
    .advance 0 none, .advance 1 none, .advance 1 none, .advance 0 none, .advance 1 none,
    .advance 1 none, .advance 0 none, .advance 0 none, .advance 0 none, .advance 1 none,
    .call ⟨"weather", "public"⟩, .advance 2 none, .advance 2 none, .advance 2 none,
    .advance 2 none, .advance 2 none, .advance 2 none]

theorem together_settles :
    ∃ p, run skillVisibilityProgram.step ⟨publicWeather, []⟩ togetherPrivate = some p ∧
      skillVisibilityProgram.quiescent p = true ∧ SkillShown p.shared "weather" := by
  refine exists_run (P := fun p => skillVisibilityProgram.quiescent p = true)
    (by decide +kernel) fun p ran quiet => ⟨quiet, ?_⟩
  exact race_settles ⟨by decide +kernel, by decide +kernel⟩ (by decide +kernel)
    publicWeather_mirrored (by decide +kernel) ran quiet

def crossing : List (Action SkillVisibilityRequest (Option String)) :=
  [.call ⟨"weather", "public"⟩, .call ⟨"weather", "private"⟩, .advance 0 none, .advance 1 none,
    .advance 1 none, .advance 1 none, .advance 1 none, .advance 0 none, .advance 0 none,
    .advance 0 none, .advance 1 none, .advance 1 none]

theorem crossing_unsettled :
    ∃ p, run skillVisibilityProgram.step ⟨publicWeather, []⟩ crossing = some p ∧
      skillVisibilityProgram.quiescent p = true ∧ ¬SkillShown p.shared "weather" := by
  decide +kernel

end AisphereHub
