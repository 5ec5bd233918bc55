import AisphereHub.Proof.PullEffect

/-! What a merge puts on the target branch. The history variable is the list of
ref moves, each with the pull request and its reviews as they stood when the ref
moved. The checks of `MergePullRequest`, the engine's command and the row update
are separate steps, so the results hold for runs in which nothing comes between
them. -/
namespace AisphereHub

open Threads Transition

structure RefMove where
  pullRequestID : String
  oldSHA : String
  newSHA : String
  row : Option SkillPullRequest
  reviews : List SkillPullRequestReview
deriving DecidableEq

def refMove (s : SkillStore) (call : PullCall) (a : GitAnswer) : Option RefMove :=
  match call with
  | .merge (.updateRef request pr sourceSHA) =>
    match showRefVerify s.refs request.skill (normalizeRef pr.targetRef),
        a.orFault (updateRef s.refs request.skill (normalizeRef pr.targetRef) sourceSHA
          request.expectedTargetSHA) with
    | .ok oldSHA, .ok _ =>
      some
        { pullRequestID := request.id
          oldSHA := oldSHA
          newSHA := sourceSHA
          row := Keyed.lookup SkillPullRequest.id s.pulls request.id
          reviews := listReviews s.reviews request.id }
    | _, _ => none
  | _ => none

/-- The reviewed commit on the reviewed base, while open and approved. -/
def RefMove.Reviewed (move : RefMove) : Prop :=
  ∃ row, move.row = some row ∧ row.state = .OPEN ∧ move.newSHA = row.sourceSHA ∧
    move.oldSHA = row.targetSHA ∧ (∃ r ∈ move.reviews, r.verdict = .APPROVE) ∧
    ∀ r ∈ move.reviews, r.verdict ≠ .REQUEST_CHANGES

def stateOf (s : SkillStore) (id : String) : Option PullRequestState :=
  (Keyed.lookup SkillPullRequest.id s.pulls id).map SkillPullRequest.state

/-- Nothing comes between the steps of a merge: the engine reads the source
branch where the usecase saw it, the ref moves while the row is still open and
nobody has asked for changes, and once it has moved no step fails and the pull
request is not closed. -/
def MergeCall.undisturbed (s : SkillStore) (a : GitAnswer) : MergeCall → Bool
  | .readSource request pr =>
    match a.orFault (showRefVerify s.refs request.skill (normalizeRef pr.sourceRef)) with
    | .ok sha => sha == pr.sourceSHA
    | .error _ => true
  | .updateRef request pr sourceSHA =>
    match a.orFault (AisphereHub.updateRef s.refs request.skill (normalizeRef pr.targetRef)
        sourceSHA request.expectedTargetSHA) with
    | .ok _ =>
      stateOf s request.id == some .OPEN &&
        (AisphereHub.listReviews s.reviews request.id).all
          fun r => r.verdict != .REQUEST_CHANGES
    | .error _ => true
  | .syncRead _ _ _ _ _ => a.skillMetadata.isOk
  | .syncName _ _ _ _ _ _ => a.fault.isNone
  | .syncDescription _ _ _ _ _ => a.fault.isNone
  | .resolveMerged request pr _ => (a.orFault (resolveRef s.refs request.skill pr.targetRef)).isOk
  | .record request _ _ => a.fault.isNone && stateOf s request.id != some .CLOSED
  | _ => true

def undisturbed (p : Pool (SkillStore × List RefMove) PullCall) :
    Action PullCallRequest GitAnswer → Bool
  | .call _ => true
  | .advance n a =>
    match p.threads[n]? with
    | some (.merge call) => call.undisturbed p.shared.1 a
    | _ => true

structure Known (s : SkillStore) (request : MergeRequest) (pr : SkillPullRequest) : Prop where
  row : ∃ row, Keyed.lookup SkillPullRequest.id s.pulls request.id = some row ∧ pr.Same row
  skill : pr.skillName = request.skill

def Approved (s : SkillStore) (id : String) : Prop :=
  ∃ r ∈ listReviews s.reviews id, r.verdict = .APPROVE

structure Checked (s : SkillStore) (request : MergeRequest) (pr : SkillPullRequest) : Prop where
  known : Known s request pr
  approved : Approved s request.id
  target : pr.targetSHA = request.expectedTargetSHA

structure Landed (x : SkillStore × List RefMove) (request : MergeRequest)
    (pr : SkillPullRequest) : Prop where
  known : Known x.1 request pr
  target : pr.targetSHA = request.expectedTargetSHA
  moved : ∃ move ∈ x.2, move.pullRequestID = request.id

def MergeAt (x : SkillStore × List RefMove) : MergeCall → Prop
  | .load _ => True
  | .listReviews request pr => Known x.1 request pr
  | .resolveTarget request pr => Known x.1 request pr ∧ Approved x.1 request.id
  | .resolveSource request pr => Checked x.1 request pr
  | .readSource request pr => Checked x.1 request pr
  | .mergeBase request pr sourceSHA => Checked x.1 request pr ∧ sourceSHA = pr.sourceSHA
  | .readMetadata request pr sourceSHA => Checked x.1 request pr ∧ sourceSHA = pr.sourceSHA
  | .updateRef request pr sourceSHA => Checked x.1 request pr ∧ sourceSHA = pr.sourceSHA
  | .syncRead request pr _ _ _ => Landed x request pr
  | .syncName request pr _ _ _ _ => Landed x request pr
  | .syncDescription request pr _ _ _ => Landed x request pr
  | .resolveMerged request pr _ => Landed x request pr
  | .record request pr _ => Landed x request pr
  | .returned _ => True

def PullAt (x : SkillStore × List RefMove) : PullCall → Prop
  | .merge call => MergeAt x call
  | call => call.opens

/-- Every move was of a reviewed commit, and every merged row was moved for. -/
structure Ledger (x : SkillStore × List RefMove) : Prop where
  reviewed : ∀ move ∈ x.2, move.Reviewed
  logged : ∀ id, Merged x.1 id → ∃ move ∈ x.2, move.pullRequestID = id

variable {call : PullCall}

section
variable {x x' : SkillStore × List RefMove} {s s' : SkillStore} {a : GitAnswer}
  {request : MergeRequest} {pr : SkillPullRequest}

theorem Known.advance (known : Known s request pr) (advance : Advance s s') :
    Known s' request pr := by
  obtain ⟨row, found, same⟩ := known.row
  obtain ⟨row', found', stays, _⟩ := advance.pulls request.id row found
  exact ⟨⟨row', found', same.trans stays⟩, known.skill⟩

theorem Approved.advance {id} (approved : Approved s id) (advance : Advance s s') :
    Approved s' id := by
  obtain ⟨r, member, verdict⟩ := approved
  obtain ⟨stored, about⟩ := List.mem_filter.mp member
  exact ⟨r, List.mem_filter.mpr ⟨advance.reviews r stored, about⟩, verdict⟩

theorem Checked.advance (checked : Checked s request pr) (advance : Advance s s') :
    Checked s' request pr :=
  ⟨checked.known.advance advance, checked.approved.advance advance, checked.target⟩

theorem Landed.advance (landed : Landed x request pr) (advance : Advance x.1 x'.1)
    (grown : ∀ move ∈ x.2, move ∈ x'.2) : Landed x' request pr := by
  obtain ⟨move, member, about⟩ := landed.moved
  exact ⟨landed.known.advance advance, landed.target, move, grown move member, about⟩

theorem PullAt.advance (holds : PullAt x call) (advance : Advance x.1 x'.1)
    (grown : ∀ move ∈ x.2, move ∈ x'.2) : PullAt x' call := by
  cases call with
  | merge call =>
    cases call with
    | load | returned => trivial
    | listReviews => exact Known.advance holds advance
    | resolveTarget => exact ⟨holds.1.advance advance, holds.2.advance advance⟩
    | resolveSource | readSource => exact Checked.advance holds advance
    | mergeBase | readMetadata | updateRef => exact ⟨holds.1.advance advance, holds.2⟩
    | syncRead | syncName | syncDescription | resolveMerged | record =>
      exact Landed.advance holds advance grown
  | close | review | create | push | pushed => exact holds

def MergeRequest.move (request : MergeRequest) (s : SkillStore) (sourceSHA : String) : RefMove where
  pullRequestID := request.id
  oldSHA := request.expectedTargetSHA
  newSHA := sourceSHA
  row := Keyed.lookup SkillPullRequest.id s.pulls request.id
  reviews := listReviews s.reviews request.id

theorem refMove_updateRef
    (moved : a.orFault (updateRef s.refs request.skill (normalizeRef pr.targetRef) sourceSHA
      request.expectedTargetSHA) = .ok refs) :
    refMove s (.merge (.updateRef request pr sourceSHA)) a = some (request.move s sourceSHA) := by
  have old := (updateRef_eq_ok.mp (gitFault_eq_ok.mp moved).2).1
  simp only [refMove, old, moved]
  rfl

theorem refMove_eq_some (moves : refMove s call a = some move) :
    ∃ request pr sourceSHA refs, call = .merge (.updateRef request pr sourceSHA) ∧
      a.orFault (updateRef s.refs request.skill (normalizeRef pr.targetRef) sourceSHA
        request.expectedTargetSHA) = .ok refs ∧ move = request.move s sourceSHA := by
  unfold refMove at moves
  split at moves
  · rename_i request pr sourceSHA
    split at moves
    · rename_i oldSHA refs _ moved
      have old := (updateRef_eq_ok.mp (gitFault_eq_ok.mp moved).2).1
      refine ⟨request, pr, sourceSHA, refs, rfl, moved, ?_⟩
      rename_i read
      cases read.symm.trans old
      exact (Option.some.inj moves).symm
    · cases moves
  · cases moves

theorem MergeAt.checks {call} (holds : MergeAt x call)
    (guarded : call.undisturbed x.1 a = true) (taken : call.next x.1 a = some (s', call')) :
    MergeAt (s', x.2 ++ (refMove x.1 (.merge call) a).toList) call' := by
  have advance := (merge_advance taken).1
  have grown : ∀ move ∈ x.2, move ∈ x.2 ++ (refMove x.1 (.merge call) a).toList :=
    fun _ member => List.mem_append_left _ member
  cases call with simp only [MergeCall.next, reduceCtorEq] at taken
  | load request =>
    split at taken
    · cases taken
      trivial
    · split at taken
      · cases taken
        trivial
      · rename_i pr read
        split_ifs at taken <;> cases taken
        · trivial
        · obtain ⟨found, named⟩ := getPullRequest_eq_ok.mp (gitFault_eq_ok.mp read).2
          exact ⟨⟨pr, found, .refl pr⟩, named⟩
  | listReviews request pr =>
    split at taken <;> cases taken
    · trivial
    · rename_i passed
      obtain ⟨already | approves, _⟩ := checkReviews_eq_ok (gitFault_eq_ok.mp passed).2
      · cases already
      · exact ⟨holds, approves⟩
  | resolveTarget request pr =>
    split at taken
    · cases taken
      trivial
    · split_ifs at taken with stale <;> cases taken
      · trivial
      · rw [not_or, not_not, not_not] at stale
        exact ⟨holds.1, holds.2, stale.1.symm.trans stale.2⟩
  | resolveSource request pr | mergeBase request pr sourceSHA =>
    split at taken
    · cases taken
      trivial
    · split_ifs at taken <;> cases taken
      · trivial
      · exact holds
  | readSource request pr =>
    split at taken <;> cases taken
    · trivial
    · rename_i sourceSHA read
      refine ⟨holds, ?_⟩
      simpa [MergeCall.undisturbed, read] using guarded
  | readMetadata request pr sourceSHA =>
    split at taken <;> cases taken
    · trivial
    · exact holds
  | updateRef request pr sourceSHA =>
    split at taken <;> cases taken
    · trivial
    · rename_i refs moved
      rw [refMove_updateRef moved]
      refine ⟨holds.1.known.advance advance, holds.1.target, request.move x.1 sourceSHA, ?_, rfl⟩
      simp
  | syncRead request pr sourceSHA pass sha
  | syncName request pr sourceSHA pass displayName description
  | resolveMerged request pr sourceSHA =>
    split at taken <;> cases taken
    · trivial
    · exact Landed.advance holds advance grown
  | syncDescription request pr sourceSHA pass description =>
    split at taken <;> cases taken
    · trivial
    · cases pass <;> exact Landed.advance holds advance grown
  | record request pr sourceSHA =>
    split at taken <;> cases taken <;> trivial

theorem Checked.reviewed (checked : Checked s request pr)
    (same : sourceSHA = pr.sourceSHA)
    (moved : a.orFault (updateRef s.refs request.skill (normalizeRef pr.targetRef) sourceSHA
      request.expectedTargetSHA) = .ok refs)
    (guarded : (MergeCall.updateRef request pr sourceSHA).undisturbed s a = true) :
    (request.move s sourceSHA).Reviewed := by
  obtain ⟨row, found, frame⟩ := checked.known.row
  simp only [MergeCall.undisturbed, moved, stateOf, found, Option.map_some, Bool.and_eq_true,
    beq_iff_eq, Option.some.injEq, List.all_eq_true, bne_iff_ne] at guarded
  refine ⟨row, found, guarded.1, ?_, ?_, checked.approved, guarded.2⟩
  · exact same.trans frame.sourceSHA.symm
  · exact checked.target.symm.trans frame.targetSHA.symm

theorem Ledger.step (ledger : Ledger x) (holds : PullAt x call)
    (guarded : ∀ merge, call = .merge merge → merge.undisturbed x.1 a = true)
    (merges : ∀ id, Merged s' id → Merged x.1 id ∨
      ∃ request pr sourceSHA, call = .merge (.record request pr sourceSHA) ∧ request.id = id) :
    Ledger (s', x.2 ++ (refMove x.1 call a).toList) := by
  refine ⟨?_, ?_⟩
  · intro move member
    rcases List.mem_append.mp member with old | new
    · exact ledger.reviewed move old
    · have moves : refMove x.1 call a = some move := by simpa using new
      obtain ⟨request, pr, sourceSHA, refs, rfl, moved, rfl⟩ := refMove_eq_some moves
      exact Checked.reviewed holds.1 holds.2 moved (guarded _ rfl)
  · intro id merged
    have logged : ∃ move ∈ x.2, move.pullRequestID = id := by
      rcases merges id merged with old | ⟨request, pr, sourceSHA, rfl, rfl⟩
      · exact ledger.logged id old
      · exact Landed.moved holds
    obtain ⟨move, member, about⟩ := logged
    exact ⟨move, List.mem_append_left _ member, about⟩

def PullCall.landing : PullCall → Option String
  | .merge (.syncRead request _ _ _ _) => some request.id
  | .merge (.syncName request _ _ _ _ _) => some request.id
  | .merge (.syncDescription request _ _ _ _) => some request.id
  | .merge (.resolveMerged request _ _) => some request.id
  | .merge (.record request _ _) => some request.id
  | _ => none

theorem landing_step {id} (holds : MergeAt x merge)
    (guarded : merge.undisturbed x.1 a = true) (taken : merge.next x.1 a = some (s', merge'))
    (carries : (PullCall.merge merge).landing = some id) :
    (PullCall.merge merge').landing = some id ∨ Merged s' id := by
  have advance := (merge_advance taken).1
  cases merge with simp only [MergeCall.next] at taken
  | syncRead | resolveMerged =>
    split at taken <;> cases taken
    · rename_i failed
      simp [MergeCall.undisturbed, failed, Except.isOk, Except.toBool] at guarded
    · exact .inl carries
  | syncName request pr sourceSHA pass displayName description =>
    split at taken <;> cases taken
    · rename_i failed
      simp [MergeCall.undisturbed, failed] at guarded
    · exact .inl carries
  | syncDescription request pr sourceSHA pass description =>
    split at taken <;> cases taken
    · rename_i failed
      simp [MergeCall.undisturbed, failed] at guarded
    · cases pass <;> exact .inl carries
  | record request pr sourceSHA =>
    right
    cases carries
    obtain ⟨row, found, frame⟩ := holds.known.row
    simp only [MergeCall.undisturbed, stateOf, found, Option.map_some, Bool.and_eq_true,
      Option.isNone_iff_eq_none, bne_iff_ne, ne_eq, Option.some.injEq] at guarded
    cases state : row.state with
    | CLOSED => exact absurd state guarded.2
    | MERGED => exact advance.merged ⟨row, found, state⟩
    | OPEN =>
      have skill : row.skillName = request.skill := frame.skillName.trans holds.known.skill
      have target : row.targetSHA = request.expectedTargetSHA :=
        frame.targetSHA.trans holds.target
      have read := getPullRequest_eq_ok.mpr ⟨found, skill⟩
      simp [GitAnswer.orFault, guarded.1, mergePullRequest, read, Keyed.update, found, state,
        target] at taken
      cases taken.1
      exact ⟨row.recordMerge sourceSHA request.principal.subjectID a.now,
        Keyed.lookup_amend_self (SkillPullRequest.recordMerge · _ _ _) (fun _ => rfl) found,
        rfl⟩
  | load | listReviews | resolveTarget | resolveSource | readSource | mergeBase | readMetadata
  | updateRef | returned => cases carries

theorem PullAt.opens (holds : PullAt x call) : call.opens := by
  cases call with
  | merge => trivial
  | close | review | create | push | pushed => exact holds

theorem PullAt.step (holds : PullAt x call)
    (calm : ∀ merge, call = .merge merge → merge.undisturbed x.1 a = true)
    (taken : call.next x.1 a = some (s', call')) :
    PullAt (s', x.2 ++ (refMove x.1 call a).toList) call' := by
  have opens := next_opens taken
  cases call with
  | merge merge =>
    obtain ⟨merge', inner, rfl⟩ := next_merge taken
    exact MergeAt.checks holds (calm merge rfl) inner
  | close | review | create =>
    obtain ⟨_, inner, rfl⟩ := lifted_step taken
    exact opens
  | push skill name sha =>
    simp only [PullCall.next] at taken
    split at taken <;> cases taken <;> trivial
  | pushed => cases taken

end

theorem undisturbed_merge
    (guarded : undisturbed p (.advance n a) = true) (found : p.threads[n]? = some call) :
    ∀ merge, call = .merge merge → merge.undisturbed p.shared.1 a = true := by
  rintro merge rfl
  simpa only [undisturbed, found] using guarded

theorem mergeOutline :
    Outline (pullProgram.recorded refMove) (fun p action => undisturbed p action = true)
      Ledger PullAt (fun _ _ _ => True) where
  fresh x request _ := by
    cases request <;> trivial
  freshPair _ _ _ _ _ := ⟨trivial, trivial⟩
  own p n call a x' call' holds guarded found taken := by
    obtain ⟨next, log⟩ := recorded_next.mp taken
    have here := holds.each n call found
    have calm := undisturbed_merge guarded found
    obtain ⟨s', moves⟩ := x'
    cases log
    exact ⟨holds.shared.step here calm (next_advance here.opens next).2, here.step calm next⟩
  other p n call a x' call' holds _ found taken m other _ foundOther := by
    obtain ⟨next, log⟩ := recorded_next.mp taken
    have here := holds.each n call found
    refine ⟨(holds.each m other foundOther).advance (next_advance here.opens next).1 ?_,
      trivial, trivial⟩
    intro move member
    rw [log]
    exact List.mem_append_left _ member
  rest _ _ _ _ _ _ _ _ _ _ _ _ _ _ _ _ _ _ _ := trivial

/-- Every pull request that a target ref was moved for is merged, or its merge
is still in flight. -/
def Accounted (p : Pool (SkillStore × List RefMove) PullCall) : Prop :=
  ∀ move ∈ p.shared.2,
    Owed (fun x : SkillStore × List RefMove => Merged x.1 move.pullRequestID)
      (fun call => call.landing = some move.pullRequestID) p

theorem Accounted.step (accounted : Accounted p)
    (holds : Holds Ledger PullAt (fun _ _ _ => True) p) (guarded : undisturbed p action = true)
    (taken : (pullProgram.recorded refMove).step p action = some q) : Accounted q := by
  intro move member
  have known : move ∈ p.shared.2 ∨ ∃ n call a, action = .advance n a ∧
      p.threads[n]? = some call ∧ refMove p.shared.1 call a = some move := by
    cases action with
    | call request =>
      cases taken
      exact .inl member
    | advance n a =>
      obtain ⟨call, x', call', found, next, rfl⟩ := step_advance.mp taken
      have log := (recorded_next.mp next).2
      rw [log] at member
      rcases List.mem_append.mp member with old | new
      · exact .inl old
      · exact .inr ⟨n, call, a, rfl, found, by simpa using new⟩
  rcases known with old | ⟨n, call, a, rfl, found, moves⟩
  · refine (accounted move old).step taken ?_
    rintro n call a x' call' rfl found next
    obtain ⟨moved, _⟩ := recorded_next.mp next
    have here := holds.each n call found
    refine ⟨fun merged => .inl ((next_advance here.opens moved).1.merged merged), ?_⟩
    intro carries
    cases call with
    | merge merge =>
      obtain ⟨merge', inner, rfl⟩ := next_merge moved
      exact landing_step here (undisturbed_merge guarded found merge rfl) inner carries
    | close | review | create | push | pushed => cases carries
  · obtain ⟨_, x', call', foundCall, next, rfl⟩ := step_advance.mp taken
    cases found.symm.trans foundCall
    obtain ⟨request, pr, sourceSHA, refs, rfl, accepted, rfl⟩ := refMove_eq_some moves
    obtain ⟨moved, _⟩ := recorded_next.mp next
    obtain ⟨merge', inner, rfl⟩ := next_merge moved
    simp only [MergeCall.next, accepted] at inner
    obtain ⟨_, rfl⟩ := Prod.mk.inj (Option.some.inj inner)
    exact .inr ⟨n, _, get_set_self found, rfl⟩

theorem finished_not_landing (ended : call.finished = true) (id : String) :
    call.landing ≠ some id := by
  cases call with
  | merge merge =>
    cases merge with
    | returned result => simp [PullCall.landing]
    | _ => cases ended
  | close | review | create | push | pushed => simp [PullCall.landing]

/-- In every run in which nothing comes between the steps of a merge, a merge
moves the target only from the recorded base to the recorded commit, while the
pull request is open and approved; and at rest the target has moved for exactly
the merged pull requests. -/
theorem merges_are_reviewed_and_recorded (s : SkillStore) (unmerged : ∀ id, ¬ Merged s id)
    (actions : List (Action PullCallRequest GitAnswer))
    (p : Pool (SkillStore × List RefMove) PullCall)
    (guarded : Guarded (pullProgram.recorded refMove).step
      (fun p action => undisturbed p action = true) ⟨(s, []), []⟩ actions)
    (ran : run (pullProgram.recorded refMove).step ⟨(s, []), []⟩ actions = some p) :
    (∀ move ∈ p.shared.2, move.Reviewed) ∧
    (pullProgram.quiescent p.forget = true →
      ∀ id, (∃ move ∈ p.shared.2, move.pullRequestID = id) ↔ Merged p.shared.1 id) := by
  have start : Ledger (s, []) :=
    ⟨by simp, fun id merged => absurd merged (unmerged id)⟩
  have kept : Holds Ledger PullAt (fun _ _ _ => True) p ∧ Accounted p := by
    refine run_preserves
      (I := fun p => Holds Ledger PullAt (fun _ _ _ => True) p ∧ Accounted p)
      ?_ ⟨.empty start, by simp [Accounted]⟩ guarded ran
    rintro p action q calm ⟨holds, accounted⟩ taken
    exact ⟨mergeOutline.step p action q calm holds taken, accounted.step holds calm taken⟩
  obtain ⟨holds, accounted⟩ := kept
  refine ⟨holds.shared.reviewed, ?_⟩
  intro quiet id
  constructor
  · rintro ⟨move, member, rfl⟩
    have ended : (pullProgram.recorded refMove).quiescent p = true := quiet
    exact (accounted move member).quiescent ended fun call finished =>
      finished_not_landing finished move.pullRequestID
  · exact holds.shared.logged id

def approvedStore : SkillStore where
  refs := [⟨"search", "refs/heads/main", "T"⟩, ⟨"search", "refs/heads/fix", "M"⟩]
  pulls :=
    [{ id := "pr-1", skillName := "search", sourceRef := "refs/heads/fix"
       targetRef := "refs/heads/main", sourceSHA := "M", targetSHA := "T", title := "fix" }]
  reviews := [⟨"rv-1", "pr-1", "bob", .APPROVE, "", 0⟩]
  profiles := [⟨"search", "Search", ""⟩]

theorem approvedStore_unmerged (id : String) : ¬ Merged approvedStore id := by
  rintro ⟨row, found, state⟩
  have member := Keyed.mem_of_lookup found
  cases List.mem_singleton.mp member
  cases state

def mergeIt : Action PullCallRequest GitAnswer :=
  .call (.merge
    { principal := ⟨"user", "ann", ""⟩, skill := "search", id := "pr-1", expectedTargetSHA := "T" })

def advances (thread steps : Nat) : List (Action PullCallRequest GitAnswer) :=
  List.replicate steps (.advance thread { mergeBase := "T" })

def overlappingMerges : List (Action PullCallRequest GitAnswer) :=
  [mergeIt, mergeIt] ++ advances 0 7 ++ advances 1 7 ++ advances 0 9 ++ advances 1 1

/-- Two merges of one pull request overlap; the ref moves once. -/
theorem overlapping_merges_are_reviewed_and_recorded :
    ∃ p, run (pullProgram.recorded refMove).step ⟨(approvedStore, []), []⟩
        overlappingMerges = some p ∧
      pullProgram.quiescent p.forget = true ∧ p.shared.2.map RefMove.newSHA = ["M"] ∧
      (∀ move ∈ p.shared.2, move.Reviewed) ∧ Merged p.shared.1 "pr-1" := by
  have calm : Guarded (pullProgram.recorded refMove).step
      (fun p action => undisturbed p action = true) ⟨(approvedStore, []), []⟩
      overlappingMerges := by
    decide
  refine ⟨_, rfl, rfl, rfl, ?_⟩
  have both := merges_are_reviewed_and_recorded approvedStore approvedStore_unmerged
    overlappingMerges _ calm rfl
  exact ⟨both.1, (both.2 rfl "pr-1").mp ⟨_, List.mem_singleton_self _, rfl⟩⟩

/-- A push between the usecase's check and the engine's read gets an unreviewed
commit merged; a close in that time does not stop the merge and leaves a closed
pull request on the target; a projection that fails after the move leaves an
open one there. -/
theorem merge_moves_target_unreviewed_or_unrecorded :
    (∃ p, run (pullProgram.recorded refMove).step ⟨(approvedStore, []), []⟩
        ([mergeIt] ++ advances 0 4 ++ [.call (.push "search" "refs/heads/fix" (some "M2"))] ++
          advances 1 1 ++ advances 0 12) = some p ∧
      pullProgram.quiescent p.forget = true ∧ p.shared.2.map RefMove.newSHA = ["M2"] ∧
      p.shared.1.pulls.map SkillPullRequest.sourceSHA = ["M"] ∧
      stateOf p.shared.1 "pr-1" = some .MERGED) ∧
    (∃ p, run (pullProgram.recorded refMove).step ⟨(approvedStore, []), []⟩
        ([mergeIt] ++ advances 0 7 ++ [.call (.close "search" "pr-1")] ++ advances 1 2 ++
          advances 0 9) = some p ∧
      pullProgram.quiescent p.forget = true ∧ p.shared.2.map RefMove.newSHA = ["M"] ∧
      stateOf p.shared.1 "pr-1" = some .CLOSED) ∧
    ∃ p, run (pullProgram.recorded refMove).step ⟨(approvedStore, []), []⟩
        ([mergeIt] ++ advances 0 9 ++ [.advance 0 { fault := some "connection reset" }]) = some p ∧
      pullProgram.quiescent p.forget = true ∧ p.shared.2.map RefMove.newSHA = ["M"] ∧
      stateOf p.shared.1 "pr-1" = some .OPEN :=
  ⟨⟨_, rfl, rfl, rfl, rfl, rfl⟩, ⟨_, rfl, rfl, rfl, rfl⟩, _, rfl, rfl, rfl, rfl⟩

theorem advanceOutline (s : SkillStore) : Outline pullProgram (fun _ _ => True) (Advance s)
    (fun _ call => call.opens) fun _ _ _ => True where
  fresh _ request _ := by cases request <;> trivial
  freshPair _ _ _ _ _ := ⟨trivial, trivial⟩
  own _ n call _ _ _ holds _ found taken :=
    ⟨holds.shared.trans (next_advance (holds.each n call found) taken).1, next_opens taken⟩
  other _ _ _ _ _ _ holds _ _ _ m call _ found := ⟨holds.each m call found, trivial, trivial⟩
  rest := by intros; trivial

/-- Whatever calls overlap and whichever of their steps fail, from any state of a run on no pull
request is lost or comes to stand for other commits, a merged one stays merged, and no review
is withdrawn. -/
theorem pull_requests_only_advance (s : SkillStore) (before after) (p q : Pool _ PullCall)
    (reached : run pullProgram.step ⟨s, []⟩ before = some p)
    (ran : run pullProgram.step p after = some q) : Advance p.shared q.shared := by
  have here := (advanceOutline s).run (.empty (.of_same rfl rfl)) (guarded_true _ _) reached
  exact ((advanceOutline p.shared).run ⟨.of_same rfl rfl, here.each, here.pair⟩
    (guarded_true _ _) ran).shared

theorem approval_outlasts_merge : ∃ p q,
    run pullProgram.step ⟨approvedStore, []⟩ [mergeIt] = some p ∧
    run pullProgram.step p (advances 0 16) = some q ∧ Advance p.shared q.shared :=
  ⟨_, _, rfl, rfl, pull_requests_only_advance approvedStore [mergeIt] (advances 0 16) _ _ rfl rfl⟩

end AisphereHub
