import AisphereHub.Proof.VisibilityEffect

/-! The visibility of a namespace against its wildcard tuple, over interleaved switches. -/
namespace AisphereHub

open Transition
open Threads (Pool Action Holds Outline)

variable {p : Pool KubeStore NamespaceCall} {s : KubeStore}

def Agrees (s : KubeStore) (id : String) (visibility : Visibility) : Prop :=
  wildcardViewer id ∈ s.tuples ↔ visibility = .PUBLIC

def ProjectionSafe (s : KubeStore) : Prop :=
  ∀ id ns, liveNamespace s.namespaces id = some ns → ns.visibilitySyncStatus = .SYNCED →
    Agrees s id ns.visibility

def NamespacesNamed (s : KubeStore) : Prop :=
  ∀ id ns, liveNamespace s.namespaces id = some ns → id ≠ ""

def otherStamps (p : Pool KubeStore NamespaceCall) (n : Nat) (id : String) (revision : Int) :
    Bool :=
  p.threads.zipIdx.any fun (t, m) =>
    m != n && (match t.ticket with
      | some k => k.id == id && k.projected && k.revision == revision
      | none => false)

/-- A tuple write or delete that takes effect finds the live row at the
visibility it projects, or finds it not SYNCED with nobody else about to stamp
SYNCED at its revision. -/
def TimelyProjection (p : Pool KubeStore NamespaceCall) (a : Action NamespaceRequest Answer) :
    Bool :=
  match a with
  | .call _ => true
  | .advance n answer =>
    match p.threads[n]?.bind NamespaceCall.ticket with
    | none => true
    | some k =>
      k.projected || answer.fault.isSome ||
        (match liveNamespace p.shared.namespaces k.id with
        | none => true
        | some ns =>
          ns.visibility == k.visibility ||
            (ns.visibilitySyncStatus != .SYNCED &&
              !otherStamps p n k.id ns.revision))

def SyncedAgrees (s : KubeStore) : Prop :=
  ∀ id v, rowView s id = some v → id ≠ "" ∧ (v.sync = .SYNCED → Agrees s id v.visibility)

/-- The assertion on a call: its ticket is not from the future, and while the
ticket is current the row has the ticket's visibility, and the tuple too once
the ticket is projected. -/
def TicketGood (s : KubeStore) (t : NamespaceCall) : Prop :=
  ∀ k, t.ticket = some k → k.id ≠ "" ∧ ∀ v, rowView s k.id = some v →
    k.revision ≤ v.revision ∧
      (k.revision = v.revision →
        v.visibility = k.visibility ∧ (k.projected = true → Agrees s k.id k.visibility))

theorem syncedAgrees_iff : SyncedAgrees s ↔ NamespacesNamed s ∧ ProjectionSafe s := by
  constructor
  · intro all
    exact ⟨fun id ns found => (all id ns.view (rowView_of_live found)).1,
      fun id ns found => (all id ns.view (rowView_of_live found)).2⟩
  · rintro ⟨named, safe⟩ id v found
    obtain ⟨ns, live, rfl⟩ := rowView_eq_some.mp found
    exact ⟨named id ns live, safe id ns live⟩

variable {n : Nat}

variable {t : NamespaceCall}

theorem timely_project
    (timely : TimelyProjection p (.advance n answer)) (found : p.threads[n]? = some t)
    (held : t.ticket = some k) (pending : k.projected = false) (faultless : answer.fault = none)
    (row : rowView p.shared k.id = some v) : v.visibility = k.visibility ∨
      (v.sync ≠ .SYNCED ∧ ∀ m u k', m ≠ n → p.threads[m]? = some u → u.ticket = some k' →
        k'.projected = true → k'.id = k.id → k'.revision ≠ v.revision) := by
  obtain ⟨ns, live, rfl⟩ := rowView_eq_some.mp row
  simp only [TimelyProjection, found, Option.bind_some, held, pending, faultless, live,
    Option.isSome_none, Bool.false_or, Bool.or_eq_true, beq_iff_eq, Bool.and_eq_true, bne_iff_ne,
    Bool.not_eq_true'] at timely
  rcases timely with same | ⟨unsynced, nobody⟩
  · exact .inl same
  refine .inr ⟨unsynced, ?_⟩
  intro m u k' different foundU heldU projected sameID sameRevision
  have stamps : otherStamps p n k'.id k'.revision = true := by
    refine List.any_eq_true.mpr ⟨(u, m), List.mk_mem_zipIdx_iff_getElem?.mpr foundU, ?_⟩
    simp [different, heldU, projected]
  rw [sameID, sameRevision] at stamps
  exact Bool.false_ne_true (nobody.symm.trans stamps)

variable {s' : KubeStore} {id : String} {visibility : Visibility}

theorem agrees_congr (tuples : s'.tuples = s.tuples)
    : Agrees s' id visibility ↔ Agrees s id visibility := by
  simp only [Agrees, tuples]

theorem agrees_projected (named : id ≠ "")
    (done : projectVisibility s.tuples id visibility none = .ok s'.tuples) :
    Agrees s' id visibility := by
  simp [Agrees, mem_projectVisibility named done]

theorem agrees_projected_other (named : id ≠ "")
    (done : projectVisibility s.tuples id visibility none = .ok s'.tuples) (other : j ≠ id)
    : Agrees s' j v ↔ Agrees s j v := by
  simp [Agrees, mem_projectVisibility named done, other]

theorem projection_own (synced : SyncedAgrees p.shared)
    (good : TicketGood p.shared t) (timely : TimelyProjection p (.advance n a))
    (found : p.threads[n]? = some t) (effect : VisibilityEffect p.shared t a s' t')
    : SyncedAgrees s' ∧ TicketGood s' t' := by
  cases effect with
  | quiet rows tuples ticket =>
    refine ⟨fun id v row => ?_, fun k held => ?_⟩
    · rw [rows] at row
      exact (synced id v row).imp_right fun agrees sync => (agrees_congr tuples).mpr (agrees sync)
    · obtain ⟨pending, sync, row⟩ := ticket k held
      refine ⟨(synced k.id _ row).1, fun v row' => ?_⟩
      rw [rows, row, Option.some.injEq] at row'
      subst row'
      exact ⟨Int.le_refl _, fun _ => ⟨rfl, by simp [pending]⟩⟩
  | write id old visibility sync row rows tuples ticket stamp =>
    refine ⟨fun j v row' => ?_, fun k held => ?_⟩
    · rw [rows] at row'
      split_ifs at row' with same
      · cases row'
        subst same
        refine ⟨(synced j old row).1, fun isSynced => (agrees_congr tuples).mpr ?_⟩
        exact (((good _ (stamp isSynced)).2 old row).2 rfl).2 rfl
      · exact (synced j v row').imp_right fun agrees sync =>
          (agrees_congr tuples).mpr (agrees sync)
    · rw [ticket k held]
      refine ⟨(synced id old row).1, fun v row' => ?_⟩
      rw [rows, if_pos rfl, Option.some.injEq] at row'
      subst row'
      exact ⟨Int.le_refl _, fun _ => ⟨rfl, by simp⟩⟩
  | project k held pending faultless rows tuples ticket =>
    have named := (good k held).1
    refine ⟨fun j v row => ?_, fun k' held' => ?_⟩
    · rw [rowView_congr rows] at row
      refine ⟨(synced j v row).1, fun isSynced => ?_⟩
      by_cases same : j = k.id
      · subst same
        rcases timely_project timely found held pending faultless row with
          match_ | ⟨unsynced, _⟩
        · exact match_ ▸ agrees_projected named tuples
        · exact absurd isSynced unsynced
      · exact (agrees_projected_other named tuples same).mpr ((synced j v row).2 isSynced)
    · rw [ticket, Option.some.injEq] at held'
      subst held'
      refine ⟨named, fun v row => ?_⟩
      rw [rowView_congr rows] at row
      obtain ⟨past, current⟩ := (good k held).2 v row
      exact ⟨past, fun same => ⟨(current same).1, fun _ => agrees_projected named tuples⟩⟩

theorem projection_other (good : TicketGood p.shared t) (goodU : TicketGood p.shared u)
    (timely : TimelyProjection p (.advance n a)) (found : p.threads[n]? = some t)
    (different : m ≠ n) (foundU : p.threads[m]? = some u)
    (effect : VisibilityEffect p.shared t a s' t') : TicketGood s' u := by
  intro k held
  refine ⟨(goodU k held).1, fun v row => ?_⟩
  cases effect with
  | quiet rows tuples _ =>
    rw [rows] at row
    obtain ⟨past, current⟩ := (goodU k held).2 v row
    exact ⟨past, fun same => (current same).imp_right fun agrees projected =>
      (agrees_congr tuples).mpr (agrees projected)⟩
  | write id old visibility sync found' rows tuples _ _ =>
    rw [rows] at row
    split_ifs at row with same
    · cases row
      have past := ((goodU k held).2 old (same ▸ found')).1
      exact ⟨by simp; omega, fun current => by simp at current; omega⟩
    · obtain ⟨past, current⟩ := (goodU k held).2 v row
      exact ⟨past, fun same => (current same).imp_right fun agrees projected =>
        (agrees_congr tuples).mpr (agrees projected)⟩
  | project k' held' pending faultless rows tuples _ =>
    have named := (good k' held').1
    rw [rowView_congr rows] at row
    obtain ⟨past, current⟩ := (goodU k held).2 v row
    refine ⟨past, fun now => ⟨(current now).1, fun projected => ?_⟩⟩
    by_cases same : k.id = k'.id
    · rcases timely_project timely found held' pending faultless (same ▸ row) with
        match_ | ⟨_, nobody⟩
      · have agree : k'.visibility = k.visibility := match_.symm.trans (current now).1
        exact same ▸ agree ▸ agrees_projected named tuples
      · exact absurd now (nobody m u k different foundU held projected same)
    · exact (agrees_projected_other named tuples same).mpr ((current now).2 projected)

theorem projectionOutline :
    Outline visibilityProgram (fun p a => TimelyProjection p a = true) SyncedAgrees TicketGood
      (fun _ _ _ => True) where
  fresh := by
    intro s request _ k held
    cases request <;> simp [visibilityProgram, NamespaceCall.ticket] at held
  freshPair := fun _ _ _ _ _ => ⟨trivial, trivial⟩
  own := fun p n t a s' t' holds timely found next =>
    projection_own holds.shared (holds.each n t found) timely found (next_effect next)
  other := fun p n t a s' t' holds timely found next m u different foundU =>
    ⟨projection_other (holds.each n t found) (holds.each m u foundU) timely found different foundU
      (next_effect next), trivial, trivial⟩
  rest := fun _ _ _ _ _ _ _ _ _ _ _ _ _ _ _ _ _ _ _ => trivial

instance (s : KubeStore) (id : String) (visibility : Visibility) :
    Decidable (Agrees s id visibility) :=
  inferInstanceAs (Decidable (_ ↔ _))

theorem namespacesNamed_of_rows (rows : ∀ ns ∈ s.namespaces, ns.id ≠ "") : NamespacesNamed s := by
  intro id ns found
  have sameID := id_of_live found
  exact sameID ▸ rows ns (Keyed.mem_of_select found)

theorem projectionSafe_of_rows
    (rows : ∀ ns ∈ s.namespaces, ns.visibilitySyncStatus = .SYNCED → Agrees s ns.id ns.visibility)
    : ProjectionSafe s := by
  intro id ns found
  have sameID := id_of_live found
  exact sameID ▸ rows ns (Keyed.mem_of_select found)

/-- In every run whose tuple writes are timely, a live SYNCED row agrees with
its wildcard tuple in every state reached, quiescent or not. -/
theorem synced_row_agrees_with_wildcard (s : KubeStore) (named : NamespacesNamed s)
    (safe : ProjectionSafe s) (actions : List (Action NamespaceRequest Answer))
    (timely : Guarded visibilityProgram.step
      (fun p a => TimelyProjection p a = true) ⟨s, []⟩ actions)
    (p : Pool KubeStore NamespaceCall)
    (ran : run visibilityProgram.step ⟨s, []⟩ actions = some p) :
    ProjectionSafe p.shared :=
  (syncedAgrees_iff.mp (projectionOutline.run
    (Holds.empty (syncedAgrees_iff.mpr ⟨named, safe⟩)) timely ran).shared).2

def privateStore : KubeStore :=
  { namespaces :=
      [{ id := "ns-1", clusterID := "cl-1", kubeName := "team", lifecycle := .READY,
         managed := true, revision := 1 }] }

def switchTo (expectedRevision : Int) (desired : String) : Action NamespaceRequest Answer :=
  .call (.updateVisibility ⟨⟨"user", "alice", ""⟩, "ns-1", expectedRevision, desired⟩)

def proceed (n count : Nat) : List (Action NamespaceRequest Answer) :=
  List.replicate count (.advance n {})

theorem synced_row_agrees_after_publish :
    ∃ p, run visibilityProgram.step ⟨privateStore, []⟩
        (switchTo 1 "PUBLIC" :: proceed 0 6) = some p ∧
      visibilityProgram.quiescent p = true ∧ ProjectionSafe p.shared :=
  ⟨_, rfl, by decide, synced_row_agrees_with_wildcard privateStore
    (namespacesNamed_of_rows (by decide)) (projectionSafe_of_rows (by decide))
    (switchTo 1 "PUBLIC" :: proceed 0 6) (by decide) _ rfl⟩

/-- The first switch publishes only after the second one has revoked and
stamped SYNCED: the row ends PRIVATE and SYNCED, the wildcard stays. -/
theorem stale_publish_outlives_revocation :
    NamespacesNamed privateStore ∧ ProjectionSafe privateStore ∧
    ∃ p, run visibilityProgram.step ⟨privateStore, []⟩
        (switchTo 1 "PUBLIC" :: proceed 0 3 ++ switchTo 2 "PRIVATE" :: proceed 1 6 ++
          proceed 0 3) = some p ∧
      visibilityProgram.quiescent p = true ∧
      ∃ ns, liveNamespace p.shared.namespaces "ns-1" = some ns ∧ ns.visibility = .PRIVATE ∧
        ns.visibilitySyncStatus = .SYNCED ∧ wildcardViewer "ns-1" ∈ p.shared.tuples :=
  ⟨namespacesNamed_of_rows (by decide), projectionSafe_of_rows (by decide), _, rfl, by decide,
    _, rfl, by decide, by decide, by decide⟩

end AisphereHub
