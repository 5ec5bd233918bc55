import AisphereHub.Proof.VisibilityProjection

/-! The compensating write of a failed switch, against a switch that completed in
between. -/
namespace AisphereHub

open Transition
open Threads

def VisibilityCall.frame : VisibilityCall → Option VisibilityFrame
  | .project f => some f
  | .reload f => some f
  | .revert f _ => some f
  | .reread f => some f
  | .acknowledge f => some f
  | .announce f _ => some f
  | _ => none

def OnFrame (f : VisibilityFrame) (t : NamespaceCall) : Prop :=
  ∃ call, t = .visibility call ∧ (call.frame = some f ∨ ∃ result, call = .returned result)

def ReachedRevision (id : String) (revision : Int) (s : KubeStore) : Prop :=
  ∀ v, rowView s id = some v → revision ≤ v.revision

variable {s s' : KubeStore} {call call' : VisibilityCall} {a : Answer} {f : VisibilityFrame}

theorem onFrame_next (s : KubeStore) (t : NamespaceCall) (a : Answer) (s' : KubeStore)
    (t' : NamespaceCall) (on : OnFrame f t) (taken : visibilityProgram.next s t a = some (s', t'))
    : OnFrame f t' := by
  obtain ⟨call, rfl, on⟩ := on
  obtain ⟨call', next, rfl⟩ := lifted_step taken
  rcases on with held | ⟨result, rfl⟩
  · refine ⟨call', rfl, ?_⟩
    cases call with
    | authorize | load | mark | returned => cases held
    | project frame | reload frame | revert frame current | acknowledge frame =>
      simp only [VisibilityCall.next] at next
      split at next <;> cases next <;> exact .inl held
    | reread frame | announce frame ready =>
      cases next
      exact .inr ⟨_, rfl⟩
  · cases next

theorem reachedRevision_next {id} (s : KubeStore) (t : NamespaceCall)
    (a : Answer) (s' : KubeStore) (t' : NamespaceCall) (reached : ReachedRevision id revision s)
    (taken : visibilityProgram.next s t a = some (s', t')) : ReachedRevision id revision s' := by
  intro v row
  cases next_effect taken with
  | quiet rows => exact reached v (rows id ▸ row)
  | write j old visibility sync found rows =>
    rw [rows] at row
    split_ifs at row with same
    · cases row
      have := reached old (same ▸ found)
      simp only
      omega
    · exact reached v row
  | project k held pending faultless rows => exact reached v (rowView_congr rows id ▸ row)

/-- The compensating step writes the prior visibility exactly when the database
answers and the row is still at the reloaded revision. -/
theorem revert_row
    (taken : (VisibilityCall.revert f current).next s a = some (s', call'))
    (row : rowView s f.request.id = some old) (row' : rowView s' f.request.id = some new) :
    new.visibility = if a.fault = none ∧ old.revision = current.revision then f.ns.visibility
      else old.visibility := by
  simp only [VisibilityCall.next] at taken
  split at taken
  · rename_i e failed
    cases taken
    rw [row, Option.some.injEq] at row'
    subst row'
    have refused : ¬(a.fault = none ∧ old.revision = current.revision) := by
      rintro ⟨faultless, same⟩
      obtain ⟨ns, live, rfl⟩ := rowView_eq_some.mp row
      have committed : ∃ out, updateNamespaceVisibility s.namespaces f.request.id
          current.revision f.ns.visibility .SYNC_FAILED a.now = .ok out :=
        ⟨(_, _), updateNamespaceVisibility_eq_ok.mpr ⟨ns, live, same, rfl, rfl⟩⟩
      obtain ⟨out, committed⟩ := committed
      rw [Answer.orFault, faultless, committed] at failed
      cases failed
    rw [if_neg refused]
  · rename_i rows updated committed
    cases taken
    obtain ⟨faultless, committed⟩ := orFault_eq_ok.mp committed
    obtain ⟨found, row'', revision, _, views⟩ :=
      rowView_switched committed
    rw [views, if_pos rfl, Option.some.injEq] at row'
    rw [row, Option.some.injEq] at row''
    subst row' row''
    rw [if_pos ⟨faultless, revision⟩]

/-- A compensating write that commits finds the row at the revision the call's
own first write left, or already at the call's prior visibility. -/
def CompensationTimely (p : Pool KubeStore NamespaceCall) (a : Action NamespaceRequest Answer) :
    Bool :=
  match a with
  | .call _ => true
  | .advance n answer =>
    match p.threads[n]? with
    | some (.visibility (.revert f current)) =>
      answer.fault.isSome ||
        (match liveNamespace p.shared.namespaces f.request.id with
        | none => true
        | some row =>
          row.revision != current.revision || row.revision == f.updated.revision ||
            row.visibility == f.ns.visibility)
    | _ => true

/-- A run in which call `a` commits its first write, call `b` then stamps
SYNCED on the same namespace, and `a`, its own projection having failed, takes
its compensating step. Any other calls and passes run in between. -/
structure OvertakenSwitch where
  a : Nat
  b : Nat
  request : VisibilityRequest
  desired : Visibility
  ns : Namespace
  frame : VisibilityFrame
  frameNow : VisibilityFrame
  frameB : VisibilityFrame
  ready : Namespace
  current : Namespace
  loaded : Pool KubeStore NamespaceCall
  marked : Pool KubeStore NamespaceCall
  projected : Pool KubeStore NamespaceCall
  stamped : Pool KubeStore NamespaceCall
  failed : Pool KubeStore NamespaceCall
  compensated : Pool KubeStore NamespaceCall
  markAnswer : Answer
  stampAnswer : Answer
  revertAnswer : Answer
  meanwhile : List (Action NamespaceRequest Answer)
  afterwards : List (Action NamespaceRequest Answer)
  atMark : loaded.threads[a]? = some (.visibility (.mark request desired ns))
  mark : visibilityProgram.step loaded (.advance a markAnswer) = some marked
  markCommitted : marked.threads[a]? = some (.visibility (.project frame))
  untilStamp : run visibilityProgram.step marked meanwhile = some projected
  atStamp : projected.threads[b]? = some (.visibility (.acknowledge frameB))
  stamp : visibilityProgram.step projected (.advance b stampAnswer) = some stamped
  stampCommitted : stamped.threads[b]? = some (.visibility (.announce frameB ready))
  sameNamespace : frameB.request.id = request.id
  untilRevert : run visibilityProgram.step stamped afterwards = some failed
  atRevert : failed.threads[a]? = some (.visibility (.revert frameNow current))
  revert : visibilityProgram.step failed (.advance a revertAnswer) = some compensated

theorem visibility_step (found : p.threads[n]? = some (.visibility call))
    (taken : visibilityProgram.step p (.advance n answer) = some q) :
    ∃ call', call.next p.shared answer = some (q.shared, call') ∧
      q.threads[n]? = some (.visibility call') := by
  obtain ⟨t, s', t', foundT, next, rfl⟩ := step_advance.mp taken
  obtain rfl : NamespaceCall.visibility call = t := Option.some.inj (found.symm.trans foundT)
  obtain ⟨call', inner, rfl⟩ := lifted_step next
  exact ⟨call', inner, get_set_self found⟩

theorem visibility_step_to (found : p.threads[n]? = some (.visibility call))
    (taken : visibilityProgram.step p (.advance n answer) = some q)
    (found' : q.threads[n]? = some (.visibility call')) :
    call.next p.shared answer = some (q.shared, call') := by
  obtain ⟨call'', inner, reached⟩ := visibility_step found taken
  rw [found', Option.some.injEq, NamespaceCall.visibility.injEq] at reached
  exact reached ▸ inner

namespace OvertakenSwitch

variable (o : OvertakenSwitch)

theorem marked_row : o.frame.request = o.request ∧
      rowView o.marked.shared o.request.id = some o.frame.updated.view := by
  have taken := visibility_step_to o.atMark o.mark o.markCommitted
  simp only [VisibilityCall.next] at taken
  split at taken
  · cases (Prod.mk.inj (Option.some.inj taken)).2
  rename_i committed
  obtain ⟨old, _, _, view, views⟩ := rowView_switched (orFault_eq_ok.mp committed).2
  obtain ⟨shared, frame⟩ := Prod.mk.inj (Option.some.inj taken)
  rw [← shared, ← VisibilityCall.project.inj frame]
  exact ⟨rfl, by simp only [views, if_true, view]⟩

theorem frame_kept : o.frameNow = o.frame := by
  have start : ∃ t, o.marked.threads[o.a]? = some t ∧ OnFrame o.frame t :=
    ⟨_, o.markCommitted, _, rfl, .inl rfl⟩
  have middle := run_thread onFrame_next start o.untilStamp
  have crossed := step_thread onFrame_next middle o.stamp
  obtain ⟨u, foundU, call, rfl, held⟩ := run_thread onFrame_next crossed o.untilRevert
  rw [o.atRevert, Option.some.injEq, NamespaceCall.visibility.injEq] at foundU
  subst foundU
  rcases held with held | ⟨result, impossible⟩
  · exact Option.some.inj held
  · cases impossible

theorem overtaken_revision (row : rowView o.failed.shared o.request.id = some v) :
    o.frame.updated.revision < v.revision := by
  have start : ReachedRevision o.request.id o.frame.updated.revision o.marked.shared := by
    intro v row
    rw [o.marked_row.2, Option.some.injEq] at row
    exact row ▸ Int.le_refl _
  have middle := run_shared reachedRevision_next start o.untilStamp
  have crossed : ReachedRevision o.request.id (o.frame.updated.revision + 1) o.stamped.shared := by
    have taken := visibility_step_to o.atStamp o.stamp o.stampCommitted
    simp only [VisibilityCall.next] at taken
    split at taken
    · cases (Prod.mk.inj (Option.some.inj taken)).2
    rename_i committed
    obtain ⟨old, found, _, _, views⟩ := rowView_switched (orFault_eq_ok.mp committed).2
    intro v row
    rw [← (Prod.mk.inj (Option.some.inj taken)).1, views, if_pos o.sameNamespace.symm,
      Option.some.injEq] at row
    rw [o.sameNamespace] at found
    have := middle old found
    subst row
    simp only
    omega
  have := run_shared reachedRevision_next crossed o.untilRevert v row
  omega

end OvertakenSwitch

/-- When a switch completed after the failed one's first write and its visibility
still stands, the compensation leaves that visibility alone exactly when it is
timely. -/
theorem compensation_keeps_stamped_visibility_iff (o : OvertakenSwitch) (before after : Namespace)
    (rowBefore : liveNamespace o.failed.shared.namespaces o.request.id = some before)
    (stands : before.visibility = o.ready.visibility)
    (rowAfter : liveNamespace o.compensated.shared.namespaces o.request.id = some after) :
    after.visibility = o.ready.visibility ↔
      CompensationTimely o.failed (.advance o.a o.revertAnswer) = true := by
  obtain ⟨call', taken, _⟩ := visibility_step o.atRevert o.revert
  rw [o.frame_kept] at taken
  have sameID : o.frame.request.id = o.request.id := congrArg _ o.marked_row.1
  have written := revert_row taken (sameID ▸ rowView_of_live rowBefore)
    (sameID ▸ rowView_of_live rowAfter)
  have late := o.overtaken_revision (rowView_of_live rowBefore)
  have overtaken : before.revision ≠ o.frame.updated.revision :=
    fun same => Int.lt_irrefl _ (same ▸ late)
  change after.visibility = _ at written
  rw [← stands, written]
  simp only [CompensationTimely, o.atRevert, o.frame_kept, o.marked_row.1, rowBefore, Bool.or_eq_true,
    Option.isSome_iff_ne_none, bne_iff_ne, beq_iff_eq, overtaken, or_false]
  split_ifs with commits
  · have reads : before.revision = o.current.revision := commits.2
    simp [commits.1, reads, eq_comm]
  · exact iff_of_true rfl (or_assoc.mp (.inl (not_and_or.mp commits)))

def poolAfter (actions : List (Action NamespaceRequest Answer)) : Pool KubeStore NamespaceCall :=
  (run visibilityProgram.step ⟨privateStore, []⟩ actions).getD ⟨privateStore, []⟩

def overtakenByRevocation : OvertakenSwitch :=
  { a := 0, b := 1, request := ⟨⟨"user", "alice", ""⟩, "ns-1", 1, "PUBLIC"⟩,
    desired := .PUBLIC, ns := _, frame := _, frameNow := _, frameB := _, ready := _, current := _,
    loaded := poolAfter (switchTo 1 "PUBLIC" :: proceed 0 2),
    marked := _, projected := _, stamped := _, failed := _, compensated := _, markAnswer := {}, stampAnswer := {},
    revertAnswer := {},
    meanwhile := switchTo 2 "PRIVATE" :: proceed 1 4,
    afterwards := [.advance 0 { fault := some "unavailable" }, .advance 0 {}],
    atMark := rfl, mark := rfl, markCommitted := rfl, untilStamp := rfl, atStamp := rfl,
    stamp := rfl, stampCommitted := rfl, sameNamespace := rfl, untilRevert := rfl,
    atRevert := rfl, revert := rfl }

theorem compensation_keeps_revoked_visibility :
    ∃ before after,
      liveNamespace overtakenByRevocation.failed.shared.namespaces "ns-1" = some before ∧
      liveNamespace overtakenByRevocation.compensated.shared.namespaces "ns-1" = some after ∧
      after.visibility = overtakenByRevocation.ready.visibility :=
  ⟨_, _, rfl, rfl, (compensation_keeps_stamped_visibility_iff overtakenByRevocation _ _ rfl
    (by decide) rfl).mpr (by decide)⟩

def overtakenByPublication : OvertakenSwitch :=
  { a := 0, b := 1, request := ⟨⟨"user", "alice", ""⟩, "ns-1", 1, "PUBLIC"⟩,
    desired := .PUBLIC, ns := _, frame := _, frameNow := _, frameB := _, ready := _, current := _,
    loaded := poolAfter (switchTo 1 "PUBLIC" :: proceed 0 2 ++ switchTo 2 "PUBLIC" :: proceed 1 2),
    marked := _, projected := _, stamped := _, failed := _, compensated := _, markAnswer := {}, stampAnswer := {},
    revertAnswer := {},
    meanwhile := proceed 1 2,
    afterwards := [.advance 0 { fault := some "unavailable" }, .advance 0 {}],
    atMark := rfl, mark := rfl, markCommitted := rfl, untilStamp := rfl, atStamp := rfl,
    stamp := rfl, stampCommitted := rfl, sameNamespace := rfl, untilRevert := rfl,
    atRevert := rfl, revert := rfl }

/-- The compensation took the row away from the visibility the other call stamped. -/
def OvertakenSwitch.Overwrites (o : OvertakenSwitch) : Prop :=
  ∃ before after, liveNamespace o.failed.shared.namespaces o.request.id = some before ∧
    before.visibility = o.ready.visibility ∧
    liveNamespace o.compensated.shared.namespaces o.request.id = some after ∧
    after.visibility ≠ o.ready.visibility

/-- Two publications, the first one's compensation undoing what the second one
stamped; and the same with a revocation between them, every call expecting the
revision the row has when it arrives. -/
theorem compensation_overwrites_stamped_visibility :
    ((∃ earlier, run visibilityProgram.step ⟨privateStore, []⟩ earlier
        = some overtakenByPublication.loaded) ∧ overtakenByPublication.Overwrites) ∧
    ∃ p ready ns, run visibilityProgram.step ⟨privateStore, []⟩
        (switchTo 1 "PUBLIC" :: proceed 0 3 ++ switchTo 2 "PRIVATE" :: proceed 1 6 ++
          switchTo 4 "PUBLIC" :: proceed 2 6 ++
          .advance 0 { fault := some "unavailable" } :: proceed 0 3) = some p ∧
      visibilityProgram.quiescent p = true ∧
      p.threads[2]? = some (.visibility (.returned (.ok ready))) ∧
      ready.visibility = .PUBLIC ∧ ready.visibilitySyncStatus = .SYNCED ∧
      liveNamespace p.shared.namespaces "ns-1" = some ns ∧ ns.visibility = .PRIVATE :=
  ⟨⟨⟨switchTo 1 "PUBLIC" :: proceed 0 2 ++ switchTo 2 "PUBLIC" :: proceed 1 2, rfl⟩,
      _, _, rfl, by decide, rfl, by decide⟩,
    _, _, _, rfl, by decide, rfl, by decide, by decide, rfl, by decide⟩

end AisphereHub
