import AisphereHub.Biz.NamespaceVisibility

/-! What one step of a visibility switch or of a reconciler pass does to the
rows and to the wildcard tuples. Every later result about visibility goes
through `next_effect`. -/
namespace AisphereHub

variable {id : String} {s : KubeStore} {a : Answer} {visibility : Visibility}

/-- The part of a live row the visibility protocol is about. -/
structure RowView where
  visibility : Visibility
  sync : VisibilitySync
  revision : Int
deriving DecidableEq

def Namespace.view (ns : Namespace) : RowView :=
  ⟨ns.visibility, ns.visibilitySyncStatus, ns.revision⟩

def rowView (s : KubeStore) (id : String) : Option RowView :=
  (liveNamespace s.namespaces id).map Namespace.view

/-- A projection a call holds the right to acknowledge: the revision it will
stamp at, and whether its tuple write is already done. -/
structure Ticket where
  id : String
  revision : Int
  visibility : Visibility
  projected : Bool
deriving DecidableEq

def NamespaceCall.ticket : NamespaceCall → Option Ticket
  | .visibility (.project f) => some ⟨f.request.id, f.updated.revision, f.desired, false⟩
  | .visibility (.acknowledge f) => some ⟨f.request.id, f.updated.revision, f.desired, true⟩
  | .converge (.project ns) => some ⟨ns.id, ns.revision, ns.visibility, false⟩
  | .converge (.stamp ns) => some ⟨ns.id, ns.revision, ns.visibility, true⟩
  | _ => none

/-- The three things a step can do. A row write advances the revision by one,
and only the holder of a projected ticket at the row's revision writes SYNCED. -/
inductive VisibilityEffect (s : KubeStore) (t : NamespaceCall) (a : Answer) (s' : KubeStore)
    (t' : NamespaceCall) : Prop where
  | quiet (rows : ∀ j, rowView s' j = rowView s j) (tuples : s'.tuples = s.tuples)
      (ticket : ∀ k, t'.ticket = some k → k.projected = false ∧
        ∃ sync, rowView s k.id = some ⟨k.visibility, sync, k.revision⟩)
  | write (id : String) (old : RowView) (visibility : Visibility) (sync : VisibilitySync)
      (found : rowView s id = some old)
      (rows : ∀ j, rowView s' j =
        if j = id then some ⟨visibility, sync, old.revision + 1⟩ else rowView s j)
      (tuples : s'.tuples = s.tuples)
      (ticket : ∀ k, t'.ticket = some k → k = ⟨id, old.revision + 1, visibility, false⟩)
      (synced : sync = .SYNCED → t.ticket = some ⟨id, old.revision, visibility, true⟩)
  | project (k : Ticket) (held : t.ticket = some k) (pending : k.projected = false)
      (faultless : a.fault = none) (rows : s'.namespaces = s.namespaces)
      (tuples : projectVisibility s.tuples k.id k.visibility none = .ok s'.tuples)
      (ticket : t'.ticket = some { k with projected := true })

theorem VisibilityEffect.same (none : t'.ticket = none) : VisibilityEffect s t a s t' :=
  .quiet (fun _ => rfl) rfl (by simp [none])

theorem rowView_eq_some :
    rowView s id = some v ↔ ∃ ns, liveNamespace s.namespaces id = some ns ∧ ns.view = v := by
  simp [rowView]

theorem rowView_of_live (found : liveNamespace s.namespaces id = some ns)
    : rowView s id = some ns.view := by
  simp [rowView, found]

theorem rowView_congr (rows : s'.namespaces = s.namespaces) (j : String) :
    rowView s' j = rowView s j := by
  simp [rowView, rows]

theorem rowView_switched
    (committed : updateNamespaceVisibility s.namespaces id expected visibility sync now =
      .ok (rows, updated)) : ∃ old, rowView s id = some old ∧ old.revision = expected ∧
      updated.view = ⟨visibility, sync, old.revision + 1⟩ ∧
      ∀ j, rowView { s with namespaces := rows } j =
        if j = id then some ⟨visibility, sync, old.revision + 1⟩ else rowView s j := by
  obtain ⟨ns, found, revision, rfl, rfl⟩ := updateNamespaceVisibility_eq_ok.mp committed
  refine ⟨ns.view, rowView_of_live found, revision, rfl, fun j => ?_⟩
  unfold rowView liveNamespace at *
  rw [Keyed.select_amend (Namespace.switched · visibility sync now)
    (fun _ => rfl) (fun _ => rfl)]
  split_ifs
  · simp only [found, Option.map_some]
    rfl
  · rfl

theorem projectVisibility_eq_ok
    (done : projectVisibility tuples id visibility fault = .ok tuples') : fault = none := by
  cases visibility with
  | PUBLIC => exact (writeRelationships_eq_ok.mp done).2.1
  | PRIVATE => exact (deleteRelationships_eq_ok.mp done).2.1

theorem fieldMatches_self (wanted : String) : fieldMatches wanted wanted = true := by
  simp [fieldMatches]

theorem wildcardFilter_matches (named : id ≠ "") :
    (wildcardFilter id).matches (wildcardViewer j) = true ↔ j = id := by
  have resource : fieldMatches id j = true ↔ j = id := fieldMatches_iff named
  simp [AuthzRelationshipFilter.matches, wildcardFilter, wildcardViewer, namespaceResource,
    fieldMatches_self, resource]

/-- A projection that took effect decides the wildcard of its namespace and
leaves every other wildcard as it was. -/
theorem mem_projectVisibility (named : id ≠ "")
    (done : projectVisibility tuples id visibility none = .ok tuples') (j : String) :
    wildcardViewer j ∈ tuples' ↔
      if j = id then visibility = .PUBLIC else wildcardViewer j ∈ tuples := by
  cases visibility with
  | PUBLIC =>
    rw [projectVisibility, writeRelationships_eq_ok] at done
    obtain ⟨_, _, written⟩ := done
    have sameWildcard : wildcardViewer j = wildcardViewer id ↔ j = id := by
      simp [wildcardViewer, namespaceResource]
    rw [written, mem_foldl_touch, List.mem_singleton, sameWildcard]
    split_ifs with same <;> simp [same]
  | PRIVATE =>
    rw [projectVisibility, deleteRelationships_eq_ok] at done
    obtain ⟨_, _, deleted⟩ := done
    rw [deleted, List.mem_filter]
    have matched := wildcardFilter_matches (j := j) named
    split_ifs with same
    · simp [matched.mpr same]
    · have unmatched : (wildcardFilter id).matches (wildcardViewer j) = false := by
        simpa using mt matched.mp same
      simp [unmatched]

theorem visibilityCall_effect (taken : call.next s a = some (s', call')) :
    VisibilityEffect s (.visibility call) a s' (.visibility call') := by
  cases call with simp only [VisibilityCall.next, reduceCtorEq] at taken
  | authorize request | reload frame =>
    split at taken <;> cases taken <;> exact .same rfl
  | load request desired =>
    split at taken
    · cases taken
      exact .same rfl
    · split at taken <;> cases taken <;> exact .same rfl
  | mark request desired ns =>
    split at taken
    · cases taken
      exact .same rfl
    · rename_i rows updated committed
      cases taken
      obtain ⟨old, found, revision, view, views⟩ :=
        rowView_switched (orFault_eq_ok.mp committed).2
      refine .write request.id old desired (pendingStatus desired) found views rfl ?_ ?_
      · intro k held
        have := congrArg RowView.revision view
        simp only [NamespaceCall.ticket, Option.some.injEq] at held
        rw [← held]
        exact congrArg (Ticket.mk request.id · desired false) this
      · cases desired <;> simp [pendingStatus]
  | project frame =>
    split at taken
    · cases taken
      exact .same rfl
    · rename_i tuples done
      cases taken
      have faultless := projectVisibility_eq_ok done
      exact .project _ rfl rfl faultless rfl (faultless ▸ done) rfl
  | revert frame current =>
    split at taken
    · cases taken
      exact .same rfl
    · rename_i rows updated committed
      cases taken
      obtain ⟨old, found, _, _, views⟩ :=
        rowView_switched (orFault_eq_ok.mp committed).2
      exact .write frame.request.id old frame.ns.visibility .SYNC_FAILED found views rfl
        (by simp [NamespaceCall.ticket]) (by simp)
  | reread frame =>
    cases taken
    exact .same rfl
  | announce frame ready =>
    cases taken
    exact .quiet (fun _ => rfl) rfl (by simp [NamespaceCall.ticket])
  | acknowledge frame =>
    split at taken
    · cases taken
      exact .same rfl
    · rename_i rows updated committed
      cases taken
      obtain ⟨old, found, revision, _, views⟩ :=
        rowView_switched (orFault_eq_ok.mp committed).2
      refine .write frame.request.id old frame.desired .SYNCED found views rfl
        (by simp [NamespaceCall.ticket]) ?_
      intro _
      rw [revision]
      rfl

theorem convergeCall_effect (taken : call.next s a = some (s', call')) :
    VisibilityEffect s (.converge call) a s' (.converge call') := by
  cases call with simp only [ConvergeCall.next, reduceCtorEq] at taken
  | list id =>
    split at taken
    · cases taken
      exact .same rfl
    · split at taken
      · cases taken
        exact .same rfl
      · rename_i ns found
        split at taken
        · cases taken
          refine .quiet (fun _ => rfl) rfl ?_
          intro k held
          simp only [NamespaceCall.ticket, Option.some.injEq] at held
          have sameID := id_of_live found
          subst sameID held
          exact ⟨rfl, ns.visibilitySyncStatus, rowView_of_live found⟩
        · cases taken
          exact .same rfl
  | project ns =>
    split at taken
    · cases taken
      exact .same rfl
    · rename_i tuples done
      cases taken
      have faultless := projectVisibility_eq_ok done
      exact .project _ rfl rfl faultless rfl (faultless ▸ done) rfl
  | stamp ns =>
    split at taken
    · cases taken
      exact .same rfl
    · rename_i rows updated committed
      obtain ⟨old, found, revision, _, views⟩ :=
        rowView_switched (orFault_eq_ok.mp committed).2
      have held : (NamespaceCall.converge (.stamp ns)).ticket =
          some ⟨ns.id, old.revision, ns.visibility, true⟩ := by
        rw [revision]
        rfl
      split at taken <;> cases taken <;>
        exact .write ns.id old ns.visibility .SYNCED found views rfl
          (by simp [NamespaceCall.ticket]) (fun _ => held)
  | recover updated =>
    split at taken
    · cases taken
      exact .same rfl
    · rename_i rows row committed
      cases taken
      refine .quiet (fun j => ?_) rfl (by simp [NamespaceCall.ticket])
      obtain ⟨ns, found, _, rfl⟩ := updateNamespaceStatus_eq_ok (orFault_eq_ok.mp committed).2
      unfold rowView liveNamespace at *
      rw [Keyed.select_amend (Namespace.transitioned · _ _ _) (fun _ => rfl) (fun _ => rfl)]
      split_ifs with same
      · subst same
        simp only [found, Option.map_some]
        rfl
      · rfl

theorem next_effect
    (taken : visibilityProgram.next s t a = some (s', t')) : VisibilityEffect s t a s' t' := by
  cases t with
  | visibility call =>
    obtain ⟨call', next, rfl⟩ := Threads.lifted_step taken
    exact visibilityCall_effect next
  | converge call =>
    obtain ⟨call', next, rfl⟩ := Threads.lifted_step taken
    exact convergeCall_effect next

end AisphereHub
