import AisphereHub.Proof.SkillViewers

/-! Public means public over calls that run one after another: a skill has the wildcard viewers
exactly while its row is public. Shares can write or remove a wildcard viewer by themselves, and a
switch whose reread fails takes back the tuples and not the row. -/
namespace AisphereHub

open GoStrings Keyed Transition

variable {w : AuthzSubjectRef} {n : String}

section Creation

variable {s : SkillTables} {validator : Option (String → String → Except HubError Unit)}
  {principal : SkillPrincipal} {input : Option NewSkill} {item : SkillRecord}

theorem newSkillItem_named (checked : newSkillItem validator principal input = .ok item) :
    item.name ≠ "" ∧ trimSpace item.name = item.name := by
  unfold newSkillItem at checked
  by_cases authenticated : principal.authenticated = false
  · rw [if_pos authenticated] at checked
    cases checked
  rw [if_neg authenticated] at checked
  cases input with
  | none => cases checked
  | some input =>
    dsimp only at checked
    by_cases refused : skillNamePattern (trimSpace input.name) = false ∨
        trimSpace input.orgID = "" ∨ trimSpace input.orgID ≠ trimSpace principal.orgID
    · rw [if_pos refused] at checked
      cases checked
    rw [if_neg refused] at checked
    cases parsed : SkillVisibility.ofString
        (if input.visibility = "" then "private" else input.visibility) with
    | none => simp [parsed] at checked
    | some visibility =>
      simp only [parsed] at checked
      cases valid : validateProject validator (trimSpace input.orgID)
          (trimSpace input.projectID) with
      | error e => simp [valid, bind, Except.bind] at checked
      | ok _ =>
        simp only [valid, bind, Except.bind, pure, Except.pure, Except.ok.injEq] at checked
        subst checked
        refine ⟨?_, trimSpace_trimSpace input.name⟩
        intro empty
        rw [not_or] at refused
        apply refused.1
        simp only at empty
        rw [empty]
        rfl

theorem publicViewer_mem_initial (subject : w ∈ publicSubjects) :
    publicViewer m w ∈ initialRelationships principal item ↔
      m = item.name ∧ item.visibility = .public := by
  have viewer : publicViewer m w ∈ publicSubjects.map (publicViewer item.name) ↔ m = item.name := by
    simp only [List.mem_map, publicViewer_inj]
    constructor
    · intro listed
      obtain ⟨v, _, same, _⟩ := listed
      exact same.symm
    · intro same
      exact ⟨w, subject, same.symm, rfl⟩
  unfold initialRelationships
  split_ifs with isPublic
  · simp only [appendSkillPublicViewers, List.mem_append, viewer]
    simp [publicViewer, isPublic]
  · simp [publicViewer, isPublic]

theorem Mirrors.created (mirrors : Mirrors s) (principal : SkillPrincipal)
    (free : lookup SkillRecord.name s.skills item.name = none) (solid : item.name ≠ "")
    (trimmed : trimSpace item.name = item.name) :
    Mirrors ⟨s.skills ++ [item], (initialRelationships principal item).foldl touch s.tuples⟩ := by
  refine ⟨mirrors.rows.append free solid trimmed, ?_⟩
  intro m w subject
  rw [mem_foldl_touch, publicViewer_mem_initial subject, mirrors.viewers m w subject,
    isPublic_append free]
  split_ifs with same
  · subst same
    simp [isPublic_of_free free]
  · simp [same]

theorem Mirrors.dropped (mirrors : Mirrors s) (named : n ≠ "") :
    Mirrors (dropRepository (dropResource s n none) n none) := by
  have revoked : revokeResource s.tuples (skillResource n) none = .ok (s.tuples.filter fun r =>
      !AuthzRelationshipFilter.matches { resourceType := "skill", resourceID := n } r) :=
    deleteRelationships_eq_ok.mpr ⟨by simp [skillResource], rfl, rfl⟩
  unfold dropResource dropRepository
  rw [revoked]
  refine ⟨mirrors.rows.remove n, ?_⟩
  intro m w subject
  have reached : AuthzRelationshipFilter.matches { resourceType := "skill", resourceID := n }
      (publicViewer m w) = true ↔ m = n := by
    simp only [AuthzRelationshipFilter.matches, publicViewer, skillResource, Bool.and_eq_true,
      fieldMatches_iff named]
    simp [fieldMatches]
  rw [List.mem_filter, mirrors.viewers m w subject, isPublic_remove]
  split_ifs with same
  · simp [reached.mpr same]
  · simp [Bool.eq_false_iff.mpr (mt reached.mp same)]

theorem Mirrors.activated (mirrors : Mirrors s)
    (written : writeSkillStatus s.skills n expected next = .ok skills) :
    Mirrors { s with skills := skills } := by
  obtain ⟨skill, found, _, rfl⟩ := updateSkillRow_eq_ok.mp written
  refine mirrors.rows_changed (mirrors.rows.amend (·.transitioned next) (fun _ => rfl)
    (trimSpace n)) ?_
  intro m
  rw [isPublic_amend (·.transitioned next) (fun _ => rfl)]
  split_ifs with same
  · rw [same]
    rfl
  · rfl

def CreateStep.compensates : CreateStep → Bool
  | .deleteRepository | .revokeResource => true
  | _ => false

theorem createSkill_mirrors (mirrors : Mirrors s)
    (undo : ∀ step, step.compensates = true → faults step = none) :
    Mirrors (SkillUsecase.createSkill s validator principal input faults).1 := by
  unfold SkillUsecase.createSkill
  rw [undo .deleteRepository rfl, undo .revokeResource rfl]
  cases checked : newSkillItem validator principal input with
  | error e => exact mirrors
  | ok item =>
    obtain ⟨solid, trimmed⟩ := newSkillItem_named checked
    dsimp only
    cases inserted : underFault (faults .createRepository) (insertSkill s.skills item) with
    | error e =>
      dsimp only
      split_ifs <;> exact mirrors
    | ok skills =>
      obtain ⟨free, rfl⟩ := insertSkill_eq_ok.mp (underFault_eq_ok.mp inserted).2
      dsimp only
      cases written : writeRelationships s.tuples (initialRelationships principal item)
          (faults .writeRelationships) with
      | error e =>
        refine mirrors.rows_changed ((mirrors.rows.append free solid trimmed).remove item.name) ?_
        intro m
        rw [isPublic_remove, isPublic_append free]
        split_ifs with same
        · rw [same, isPublic_of_free free]
        · rfl
      | ok tuples =>
        obtain ⟨_, _, rfl⟩ := writeRelationships_eq_ok.mp written
        have created := mirrors.created principal free solid trimmed
        cases updated : underFault (faults .writeStatus)
            (writeSkillStatus (s.skills ++ [item]) item.name .provisioning .active) with
        | error e => exact created.dropped solid
        | ok skills =>
          have active := created.activated (underFault_eq_ok.mp updated).2
          dsimp only
          cases underFault (faults .rereadStatus) (getSkill skills item.name) with
          | error e => exact active.dropped solid
          | ok _ => exact active

end Creation

section Shares

variable {s : SkillTables} {share : SkillShare} {fault : Option String} {tuples : Tuples}

def SkillShare.isPublicViewer (share : SkillShare) : Bool :=
  share.relation = "viewer" && publicSubjects.contains share.subject

theorem createSkillShare_eq_ok (created : createSkillShare s.tuples share fault = .ok tuples) :
    tuples = touch s.tuples share.tuple := by
  unfold createSkillShare grantRole at created
  split_ifs at created
  exact (writeRelationships_eq_ok.mp created).2.2

theorem createSkillShare_mirrors (mirrors : Mirrors s)
    (allowed : share.isPublicViewer = true → isPublic s.skills share.skillName = true)
    (created : createSkillShare s.tuples share fault = .ok tuples) :
    Mirrors { s with tuples := tuples } := by
  refine ⟨mirrors.rows, ?_⟩
  intro m w subject
  have before := mirrors.viewers m w subject
  simp only [createSkillShare_eq_ok created, mem_touch, before]
  constructor
  · intro stands
    rcases stands with shown | same
    · exact shown
    · simp only [publicViewer, SkillShare.tuple, skillResource, AuthzRelationship.mk.injEq,
        AuthzObjectRef.mk.injEq, true_and] at same
      obtain ⟨rfl, relation, rfl⟩ := same
      apply allowed
      simp [SkillShare.isPublicViewer, ← relation, subject]
  · exact .inl

theorem deleteSkillShare_mirrors (mirrors : Mirrors s)
    (spared : ∀ skill ∈ s.skills, skill.visibility = .public → ∀ w ∈ publicSubjects,
      (revokeAllFilter (skillResource share.skillName) share.subject).matches
        (publicViewer skill.name w) = false)
    (deleted : deleteSkillShare s.tuples share fault = .ok tuples) :
    Mirrors { s with tuples := tuples } := by
  obtain ⟨_, _, rfl⟩ := deleteRelationships_eq_ok.mp deleted
  refine ⟨mirrors.rows, ?_⟩
  intro m w subject
  rw [List.mem_filter, mirrors.viewers m w subject]
  constructor
  · exact And.left
  · intro shown
    cases found : lookup SkillRecord.name s.skills m with
    | none => simp [isPublic_of_free found] at shown
    | some skill =>
      rw [isPublic_of_found found, decide_eq_true_eq] at shown
      have clear := spared skill (mem_of_lookup found) shown w subject
      rw [key_of_lookup found] at clear
      refine ⟨?_, by simp [clear]⟩
      rw [isPublic_of_found found, shown]
      rfl

end Shares

section Switch

variable {s s' : SkillTables} {frame : SwitchFrame}
  {call call' : SkillVisibilityCall} {fault : Option String}

structure Reading (s : SkillTables) (frame : SwitchFrame) : Prop where
  rows : RowsNamed s.skills
  elsewhere : ∀ m, m ≠ frame.name → Mirrored s m
  found : lookup SkillRecord.name s.skills frame.name = some frame.current
  differs : frame.current.visibility ≠ frame.visibility

def SwitchFrame.wasPublic (frame : SwitchFrame) : Bool := frame.current.visibility = .public

/-- What holds at each point of a switch that runs alone. -/
def SwitchGood (s : SkillTables) : SkillVisibilityCall → Prop
  | .load request => Mirrors s ∧ trimSpace request.name = request.name
  | .reconcile frame todo => Mirrors s ∧
      lookup SkillRecord.name s.skills frame.name = some frame.current ∧
      frame.current.visibility = frame.visibility ∧ ∀ w ∈ todo, w ∈ publicSubjects
  | .project frame done todo => Reading s frame ∧ done ++ todo = publicSubjects ∧
      Shown s frame.name frame.grants done ∧ Shown s frame.name frame.wasPublic todo
  | .write frame => Reading s frame ∧ Shown s frame.name frame.grants publicSubjects
  | .reread frame => Mirrors s ∧ (lookup SkillRecord.name s.skills frame.name).isSome = true
  | .compensate name grant todo _ => RowsNamed s.skills ∧ name ≠ "" ∧
      (∀ m, m ≠ name → Mirrored s m) ∧ (∀ w ∈ todo, w ∈ publicSubjects) ∧
      (∀ w ∈ publicSubjects, w ∉ todo → (publicViewer name w ∈ s.tuples ↔ grant = true)) ∧
      isPublic s.skills name = grant
  | .returned _ => Mirrors s

def SkillVisibilityCall.compensates : SkillVisibilityCall → Bool
  | .compensate .. => true
  | _ => false

/-- How many answers a call takes before the one to its reread, if it still changes the row. -/
def SkillVisibilityCall.beforeReread : SkillVisibilityCall → Option Nat
  | .load _ => some (publicSubjects.length + 2)
  | .project _ _ todo => some (todo.length + 1)
  | .write _ => some 1
  | .reread _ => some 0
  | _ => none

theorem compensating_good (grant : Bool) (todo : List AuthzSubjectRef)
    (rows : RowsNamed s.skills) (named : name ≠ "")
    (elsewhere : ∀ m, m ≠ name → Mirrored s m) (subjects : ∀ w ∈ todo, w ∈ publicSubjects)
    (turned : ∀ w ∈ publicSubjects, w ∉ todo → (publicViewer name w ∈ s.tuples ↔ grant = true))
    (same : isPublic s.skills name = grant) :
    SwitchGood s (compensating name grant error todo) := by
  cases todo with
  | cons w rest => exact ⟨rows, named, elsewhere, subjects, turned, same⟩
  | nil =>
    refine ⟨rows, ?_⟩
    intro m
    by_cases own : m = name
    · subst own
      intro w subject
      rw [same]
      exact turned w subject (by simp)
    · exact elsewhere m own

theorem Reading.named (reading : Reading s frame) :
    frame.name ≠ "" ∧ trimSpace frame.name = frame.name :=
  reading.rows.found reading.found

theorem Reading.wasPublic (reading : Reading s frame) :
    isPublic s.skills frame.name = frame.wasPublic :=
  isPublic_of_found reading.found

theorem unproject_good (reading : Reading s frame)
    (subjects : ∀ w ∈ done, w ∈ publicSubjects) (turned : Shown s frame.name frame.grants done)
    (left : ∀ w ∈ publicSubjects, w ∉ done →
      (publicViewer frame.name w ∈ s.tuples ↔ frame.wasPublic = true)) :
    SwitchGood s (frame.unproject done error) := by
  have named := reading.named.1
  have back := reading.wasPublic
  unfold SwitchFrame.unproject
  by_cases grants : frame.grants = true
  · have wasPrivate : frame.wasPublic = false := by
      have differs := reading.differs
      simp only [SwitchFrame.grants, decide_eq_true_eq] at grants
      simpa [SwitchFrame.wasPublic, grants] using differs
    rw [if_pos grants]
    rw [wasPrivate] at left back
    exact compensating_good _ _ reading.rows named reading.elsewhere subjects left back
  · rw [if_neg grants]
    rw [Bool.not_eq_true] at grants
    by_cases wasPublic : frame.current.visibility = .public
    · have was : frame.wasPublic = true := by simp [SwitchFrame.wasPublic, wasPublic]
      rw [if_pos wasPublic]
      rw [was] at back
      exact compensating_good _ _ reading.rows named reading.elsewhere (fun _ subject => subject)
        (fun w subject out => absurd subject out) back
    · have was : frame.wasPublic = false := by simp [SwitchFrame.wasPublic, wasPublic]
      rw [if_neg wasPublic]
      -- Neither the old nor the new visibility is public: no viewer was ever touched.
      refine compensating_good false [] reading.rows named reading.elsewhere (by simp) ?_
        (was ▸ back)
      intro w subject _
      by_cases member : w ∈ done
      · rw [turned w member, grants]
      · rw [left w subject member, was]

theorem Mirrors.reconciled (mirrors : Mirrors s) (named : n ≠ "")
    (subject : w ∈ publicSubjects)
    (done : projectViewer s.tuples n (isPublic s.skills n) w fault = .ok tuples) :
    Mirrors { s with tuples := tuples } := by
  refine ⟨mirrors.rows, ?_⟩
  intro m v member
  rw [mem_projectViewer named subject done member]
  split_ifs with own
  · rw [own.1]
  · exact mirrors.viewers m v member

theorem Reading.projected (reading : Reading s frame) (subject : w ∈ publicSubjects)
    (done : projectViewer s.tuples frame.name frame.grants w fault = .ok tuples) :
    Reading { s with tuples := tuples } frame where
  rows := reading.rows
  elsewhere m other :=
    mirrored_elsewhere reading.named.1 subject done other (reading.elsewhere m other)
  found := reading.found
  differs := reading.differs

theorem Reading.written (reading : Reading s frame)
    (turned : Shown s frame.name frame.grants publicSubjects)
    (written : writeSkillVisibility s.skills frame.name frame.visibility = .ok skills) :
    SwitchGood { s with skills := skills } (.reread frame) := by
  obtain ⟨skill, _, _, rfl⟩ := updateSkillRow_eq_ok.mp written
  have trimmed := reading.named.2
  have found := lookup_amend_self (SkillRecord.switched · frame.visibility) (fun _ => rfl)
    reading.found
  rw [trimmed]
  refine ⟨⟨reading.rows.amend (·.switched frame.visibility) (fun _ => rfl) frame.name, ?_⟩,
    Option.isSome_iff_exists.mpr ⟨_, found⟩⟩
  intro m w subject
  rw [isPublic_amend (·.switched frame.visibility) (fun _ => rfl)]
  split_ifs with own
  · rw [own, reading.found]
    exact turned w subject
  · exact reading.elsewhere m own w subject

theorem projected_good
    (reading : Reading s frame) (whole : done ++ w :: rest = publicSubjects)
    (turned : Shown s frame.name frame.grants done)
    (left : Shown s frame.name frame.wasPublic (w :: rest))
    (projected : projectViewer s.tuples frame.name frame.grants w fault = .ok tuples) :
    SwitchGood { s with tuples := tuples } (frame.projecting (done ++ [w]) rest) := by
  have named := reading.named.1
  have inside : ∀ v ∈ done ++ w :: rest, v ∈ publicSubjects := by
    rw [whole]
    exact fun _ member => member
  have subject := inside w (by simp)
  have distinct : (done ++ w :: rest).Nodup := by
    rw [whole]
    decide
  have apart := (List.nodup_cons.mp (List.nodup_append'.mp distinct).2.1).1
  have turned : Shown { s with tuples := tuples } frame.name frame.grants (done ++ [w]) := by
    apply shown_projected named subject projected _ turned
    intro v member
    exact inside v (by simp [member])
  cases rest with
  | nil => exact ⟨reading.projected subject projected, whole ▸ turned⟩
  | cons next rest =>
    refine ⟨reading.projected subject projected, by simp [← whole], turned, ?_⟩
    intro v member
    have other : v ≠ w := fun same => apart (same ▸ member)
    rw [mem_projectViewer named subject projected (inside v (by simp [member])),
      if_neg (by simp [other])]
    exact left v (List.mem_cons_of_mem w member)

theorem compensate_works (good : SwitchGood s (.compensate name grant (w :: rest) e))
    (working : fault = none) (failed : projectViewer s.tuples name grant w fault = .error e') :
    False := by
  obtain ⟨_, named, _, subjects, _⟩ := good
  have broken := projectViewer_error named (subjects w (by simp)) failed
  rw [working] at broken
  cases broken

theorem switch_step (good : SwitchGood s call)
    (working : call.compensates = true → fault = none)
    (read : call.beforeReread = some 0 → fault = none)
    (taken : SwitchStep s fault call s' call') : SwitchGood s' call' := by
  cases taken with
  | refused | reconcileFailed | reread => exact good.1
  | unchanged frame text found parsed same =>
    obtain ⟨mirrors, trimmed⟩ := good
    rw [trimmed] at found
    exact ⟨mirrors, found, same, fun _ subject => subject⟩
  | changed frame text found parsed differs =>
    obtain ⟨mirrors, trimmed⟩ := good
    rw [trimmed] at found
    refine ⟨⟨mirrors.rows, fun m _ => mirrors.viewers m, found, differs⟩, rfl, ?_, ?_⟩
    · intro w member
      cases member
    · intro w subject
      rw [mirrors.viewers frame.name w subject, isPublic_of_found found]
      rfl
  | reconciled frame w rest tuples done =>
    obtain ⟨mirrors, found, same, subjects⟩ := good
    have grants : frame.grants = isPublic s.skills frame.name := by
      rw [isPublic_of_found found, same, SwitchFrame.grants]
    rw [grants] at done
    have kept := mirrors.reconciled (mirrors.rows.found found).1 (subjects w (by simp)) done
    cases rest with
    | nil => exact kept
    | cons next rest =>
      exact ⟨kept, found, same, fun v member => subjects v (List.mem_cons_of_mem w member)⟩
  | projected frame before w rest tuples done =>
    obtain ⟨reading, whole, turned, left⟩ := good
    exact projected_good reading whole turned left done
  | projectFailed frame before w rest e failed =>
    obtain ⟨reading, whole, turned, left⟩ := good
    refine unproject_good reading ?_ turned ?_
    · intro v member
      rw [← whole]
      simp [member]
    · intro v member later
      apply left
      rw [← whole, List.mem_append] at member
      exact member.resolve_left later
  | written frame skills done => exact good.1.written good.2 done
  | writeFailed frame e failed =>
    obtain ⟨reading, turned⟩ := good
    exact unproject_good reading (fun _ subject => subject) turned
      (fun w subject out => absurd subject out)
  | rereadFailed frame e failed =>
    obtain ⟨mirrors, stored⟩ := good
    obtain ⟨skill, found⟩ := Option.isSome_iff_exists.mp stored
    rw [read rfl, underFault, getSkill, (mirrors.rows.found found).2, found] at failed
    cases failed
  | compensated name grant w rest e tuples done =>
    obtain ⟨rows, named, elsewhere, subjects, turned, back⟩ := good
    have subject := subjects w (by simp)
    refine compensating_good _ _ rows named ?_ ?_ ?_ back
    · intro m other
      exact mirrored_elsewhere named subject done other (elsewhere m other)
    · intro v member
      exact subjects v (List.mem_cons_of_mem w member)
    · intro v member later
      rw [mem_projectViewer named subject done member]
      by_cases same : v = w
      · simp [same]
      · rw [if_neg (by simp [same])]
        exact turned v member (by simp [same, later])
  | compensateFailed name grant w rest e e' _ failed =>
    exact (compensate_works good (working rfl) failed).elim

theorem compensates_of_step (good : SwitchGood s call)
    (taken : SwitchStep s fault call s' call') (undoing : call'.compensates = true) :
    call.compensates = true ∨ fault.isSome = true := by
  cases taken with
  | refused | unchanged | changed | reconcileFailed | written | reread => cases undoing
  | reconciled frame w rest => cases rest <;> cases undoing
  | projected frame before w rest => cases rest <;> cases undoing
  | projectFailed frame done w rest e failed =>
    obtain ⟨reading, whole, _⟩ := good
    have subject : w ∈ publicSubjects := by simp [← whole]
    exact .inr (projectViewer_error reading.named.1 subject failed)
  | writeFailed frame e failed =>
    obtain ⟨reading, _⟩ := good
    exact .inr (underFault_eq_error failed
      (writeSkillVisibility_isOk reading.named.2 reading.found frame.visibility))
  | rereadFailed frame e failed =>
    obtain ⟨mirrors, stored⟩ := good
    obtain ⟨skill, found⟩ := Option.isSome_iff_exists.mp stored
    refine .inr (underFault_eq_error failed ?_)
    rw [getSkill, (mirrors.rows.found found).2, found]
    rfl
  | compensated | compensateFailed => exact .inl rfl

theorem beforeReread_of_step (good : SwitchGood s call)
    (working : call.compensates = true → fault = none) (taken : SwitchStep s fault call s' call')
    (ahead : call'.beforeReread = some k) : call.beforeReread = some (k + 1) := by
  have undone (name : String) (grant : Bool) (error : HubError) (todo : List AuthzSubjectRef) :
      (compensating name grant error todo).beforeReread = none := by
    cases todo <;> rfl
  have back (frame : SwitchFrame) (done : List AuthzSubjectRef) (error : HubError) :
      (frame.unproject done error).beforeReread = none := by
    unfold SwitchFrame.unproject
    split_ifs
    · exact undone ..
    · exact undone ..
    · rfl
  cases taken with
  | changed | written => exact congrArg (Option.map (· + 1)) ahead
  | reconciled frame w rest => cases rest <;> cases ahead
  | projected frame before w rest =>
    cases rest <;> exact congrArg (Option.map (· + 1)) ahead
  | projectFailed | writeFailed | rereadFailed =>
    cases (back _ _ _).symm.trans ahead
  | compensated => cases (undone _ _ _ _).symm.trans ahead
  | compensateFailed name grant w rest e e' _ failed =>
    exact (compensate_works good (working rfl) failed).elim
  | _ => cases ahead

def singleFault (answers : List (Option String)) : Bool :=
  (answers.filter Option.isSome).length ≤ 1

theorem singleFault_cons (single : singleFault (fault :: answers) = true) :
    singleFault answers = true ∧ (fault.isSome = true → ∀ a ∈ answers, a = none) := by
  simp only [singleFault, decide_eq_true_eq] at single ⊢
  cases fault with
  | none => exact ⟨by simpa using single, by simp⟩
  | some cause =>
    simp only [List.filter_cons, Option.isSome_some, if_true, List.length_cons] at single
    refine ⟨by omega, ?_⟩
    intro _ a member
    have quiet : answers.filter Option.isSome = [] := by
      apply List.eq_nil_of_length_eq_zero
      omega
    simpa using List.filter_eq_nil_iff.mp quiet a member

/-- A switch that runs alone ends with the tuples in step, if its reread does not fail. -/
theorem switch_served
    (mirrors : Mirrors s) (trimmed : trimSpace request.name = request.name)
    (single : singleFault answers = true)
    (read : answers[publicSubjects.length + 2]?.join = none)
    (served : skillVisibilityProgram.serve s request answers = some (s', call')) :
    SwitchGood s' call' := by
  obtain ⟨ran, _⟩ := Option.filter_eq_some_iff.mp served
  refine (run_remaining (I := fun (x : SkillTables × SkillVisibilityCall) rest =>
    SwitchGood x.1 x.2 ∧ singleFault rest = true ∧
      (x.2.compensates = true → ∀ a ∈ rest, a = none) ∧
      ∀ k, x.2.beforeReread = some k → rest[k]?.join = none) ?_ ?_ ran).1
  · intro x fault rest y good taken
    obtain ⟨good, single, quiet, read⟩ := good
    have step := next_switchStep taken
    have later := singleFault_cons single
    have working : x.2.compensates = true → fault = none :=
      fun undoing => quiet undoing fault (by simp)
    refine ⟨switch_step good working (read 0) step, later.1, ?_,
      fun k ahead => read (k + 1) (beforeReread_of_step good working step ahead)⟩
    intro undoing
    rcases compensates_of_step good step undoing with already | failed
    · exact fun a member => quiet already a (List.mem_cons_of_mem fault member)
    · exact later.2 failed
  · refine ⟨⟨mirrors, trimmed⟩, single, ?_, ?_⟩
    · intro undoing
      cases undoing
    · intro k ahead
      cases ahead
      exact read

end Switch

inductive SkillCall where
  | create (validator : Option (String → String → Except HubError Unit))
      (principal : SkillPrincipal) (input : Option NewSkill)
      (failing : Option (CreateStep × String))
  | updateVisibility (request : SkillVisibilityRequest) (answers : List (Option String))
  | createShare (share : SkillShare) (fault : Option String)
  | deleteShare (share : SkillShare) (fault : Option String)

def SkillTables.withShares (s : SkillTables) (result : Except HubError Tuples) : SkillTables :=
  match result with
  | .error _ => s
  | .ok tuples => { s with tuples := tuples }

/-- A call that runs alone. At most one step of it fails, and that step is not a
compensation. -/
def skillCall (s : SkillTables) : SkillCall → Option SkillTables
  | .create validator principal input failing =>
    if failing.any (·.1.compensates) then none
    else some (SkillUsecase.createSkill s validator principal input (failAt failing)).1
  | .updateVisibility request answers =>
    if singleFault answers then (skillVisibilityProgram.serve s request answers).map Prod.fst
    else none
  | .createShare share fault => some (s.withShares (createSkillShare s.tuples share fault))
  | .deleteShare share fault => some (s.withShares (deleteSkillShare s.tuples share fault))

/-- What keeps the tuples in step: the wildcard viewers are shared only on a public skill,
no share that is deleted reaches the wildcard viewers of a public skill, and a visibility
switch names the skill as it is stored and gets an answer to its reread, which comes after those
to the load, the viewers and the write. -/
def KeepsPublic (s : SkillTables) : SkillCall → Bool
  | .create .. => true
  | .updateVisibility request answers =>
    trimSpace request.name = request.name && answers[publicSubjects.length + 2]?.join = none
  | .createShare share _ => !share.isPublicViewer || isPublic s.skills share.skillName
  | .deleteShare share _ => s.skills.all fun skill => skill.visibility ≠ .public ||
      publicSubjects.all fun w => !(revokeAllFilter (skillResource share.skillName)
        share.subject).matches (publicViewer skill.name w)

theorem skillCall_mirrors (s : SkillTables) (i : SkillCall) (t : SkillTables)
    (keeps : KeepsPublic s i = true) (mirrors : Mirrors s) (taken : skillCall s i = some t) :
    Mirrors t := by
  cases i with
  | create validator principal input failing =>
    simp only [skillCall] at taken
    split_ifs at taken with forward
    cases taken
    refine createSkill_mirrors mirrors fun step undo => ?_
    cases failing with
    | none => rfl
    | some failed =>
      have other : step ≠ failed.1 := by
        rintro rfl
        simp [undo] at forward
      simp [failAt, other]
  | updateVisibility request answers =>
    simp only [skillCall] at taken
    split_ifs at taken with single
    obtain ⟨⟨t', call'⟩, served, rfl⟩ := Option.map_eq_some_iff.mp taken
    simp only [KeepsPublic, Bool.and_eq_true, decide_eq_true_eq] at keeps
    obtain ⟨trimmed, read⟩ := keeps
    have good := switch_served mirrors trimmed single read served
    have ended := Threads.serve_finished served
    cases call' with
    | returned result => exact good
    | _ => cases ended
  | createShare share fault =>
    cases taken
    cases created : createSkillShare s.tuples share fault with
    | error e => exact mirrors
    | ok tuples =>
      refine createSkillShare_mirrors mirrors ?_ created
      intro viewer
      simpa [KeepsPublic, viewer] using keeps
  | deleteShare share fault =>
    cases taken
    cases deleted : deleteSkillShare s.tuples share fault with
    | error e => exact mirrors
    | ok tuples =>
      refine deleteSkillShare_mirrors mirrors ?_ deleted
      intro skill member shown w subject
      have spared := List.all_eq_true.mp keeps skill member
      simp only [shown, ne_eq, not_true_eq_false, decide_false, Bool.false_or,
        List.all_eq_true, Bool.not_eq_true'] at spared
      exact spared w subject

/-- Public means public after every run of calls that keep the tuples in step. -/
theorem public_means_public {start t : SkillTables} {calls : List SkillCall}
    (mirrors : Mirrors start)
    (keeps : Guarded skillCall (fun s i => KeepsPublic s i = true) start calls)
    (ran : run skillCall start calls = some t) : PublicShown t :=
  publicShown_of_mirrors (run_preserves skillCall_mirrors mirrors keeps ran)

theorem mirrors_empty : Mirrors {} := by
  refine ⟨⟨List.nodup_nil, by simp⟩, ?_⟩
  intro name w subject
  simp [isPublic, lookup]

def weatherOwner : SkillPrincipal :=
  { subjectType := "user", subjectID := "ada", orgID := "acme" }

def weatherCalls : List SkillCall :=
  [.create none weatherOwner
      (some { name := "weather", orgID := "acme", visibility := "public" }) none,
    .createShare ⟨"weather", "editor", "user", "bob", ""⟩ none,
    .updateVisibility ⟨"weather", "private"⟩ [none, none, some "down", none, none, none],
    .updateVisibility ⟨"weather", "private"⟩ [none, none, none, none, none, none],
    .deleteShare ⟨"weather", "editor", "user", "bob", ""⟩ none]

theorem weather_public_kept :
    ∃ t, run skillCall {} weatherCalls = some t ∧ t.skills ≠ [] ∧ PublicShown t := by
  refine exists_run (P := fun t => t.skills ≠ []) (by decide +kernel)
    fun t ran stored => ⟨stored, ?_⟩
  exact public_means_public mirrors_empty (by decide +kernel) ran

def weatherTables (visibility : SkillVisibility) : SkillTables where
  skills := [{ name := "weather", visibility := visibility, status := .active }]
  tuples := if visibility = .public then appendSkillPublicViewers [] "weather" else []

/-- A wildcard viewer shared on a private skill, a share deleted with an empty subject id,
and a switch whose reread fails: each leaves rows and tuples apart. -/
theorem weather_public_broken :
    (∃ t, skillCall (weatherTables .private)
        (.createShare ⟨"weather", "viewer", "user", "*", ""⟩ none) = some t ∧ ¬PublicShown t) ∧
    (∃ t, skillCall (weatherTables .public)
        (.deleteShare ⟨"weather", "viewer", "user", "", ""⟩ none) = some t ∧ ¬PublicShown t) ∧
    ∃ t, skillCall (weatherTables .private)
        (.updateVisibility ⟨"weather", "public"⟩
          [none, none, none, none, none, some "down", none, none, none]) = some t ∧
      ¬PublicShown t := by
  decide +kernel

end AisphereHub
