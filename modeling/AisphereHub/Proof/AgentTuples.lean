import AisphereHub.Proof.AgentPlacement

/-! The tuples that agents have in SpiceDB: that they follow the stored row over interleaved
updates, and which project an agent reaches by them. The space of a project is named by the
organisation and the project with a slash between them, so a part between two slashes can be read
on either side. -/
namespace AisphereHub

open Transition
open GoStrings (trimSpace)
open Threads (Pool Action)

def TuplesFollow (id : String) (s : AgentTables) : Prop :=
  ∀ row, s.catalog.live id = some row → ∀ r : AuthzRelationship, r.resource = agentObject id →
    r.relation ∈ ownedRelations → (r ∈ s.tuples ↔ r ∈ agentAuthzRelationships row)

def AgentCall.wish : AgentCall → Option (AgentScope × String)
  | .planUpdate _ _ request => some request.wish
  | .commit u | .reconcile u _ => some (u.scope, u.projectID)
  | _ => none

/-- Updates of one agent that start only while those in flight want the same scope and
project, and no failure of SpiceDB once a row is committed. -/
def orderly (id : String) (p : Pool AgentTables AgentCall) : Action AgentRequest AgentAnswer → Bool
  | .call (.create _ _) => false
  | .call (.update _ name request) =>
    trimSpace name = id && p.threads.all fun t => t.wish.all fun wish => wish = request.wish
  | .advance n answer =>
    match p.threads[n]? with
    | some (.reconcile _ _) => answer.fault = none
    | _ => true

section Convoy

variable {φ : Type} {A : AgentCodec φ} {id : String} {base row : AgentRow}
  {wish : AgentScope × String} {s s' : AgentTables} {call call' : AgentCall} {answer : AgentAnswer}

def SameBase (row base : AgentRow) : Prop :=
  row.agentID = base.agentID ∧ row.orgID = base.orgID ∧ row.ownerType = base.ownerType ∧
    row.ownerID = base.ownerID

def placedRow (base : AgentRow) (wish : AgentScope × String) : AgentRow where
  agentID := base.agentID
  scope := wish.1
  ownerType := base.ownerType
  ownerID := base.ownerID
  orgID := base.orgID
  projectID := wish.2

theorem relationships_placedRow (same : SameBase row base) (placed : (row.scope, row.projectID) = wish) :
    agentAuthzRelationships row = agentAuthzRelationships (placedRow base wish) := by
  obtain ⟨agentID, orgID, ownerType, ownerID⟩ := same
  subst placed
  unfold agentAuthzRelationships placedRow
  rw [agentID, orgID, ownerType, ownerID]

def Clean (base : AgentRow) (wish : AgentScope × String) (s : AgentTables) (relation : String) : Prop :=
  ∀ r ∈ s.tuples, r.resource = agentObject base.agentID → r.relation = relation →
    r ∈ agentAuthzRelationships (placedRow base wish)

def Arrived (id : String) (wish : AgentScope × String) (s : AgentTables) : Prop :=
  ∀ row, s.catalog.live id = some row → (row.scope, row.projectID) = wish

/-- Where an update stands while all updates in flight want the same. -/
def Underway (base : AgentRow) (wish : AgentScope × String) (s : AgentTables) : AgentCall → Prop
  | .planUpdate _ name request => name = base.agentID ∧ request.wish = wish
  | .commit u => u.id = base.agentID ∧ (u.scope, u.projectID) = wish ∧ SameBase u.existing base
  | .reconcile u todo => u.id = base.agentID ∧ (u.scope, u.projectID) = wish ∧
      SameBase u.existing base ∧ Arrived base.agentID wish s ∧
      ∃ done, done ++ todo = ownedRelations ∧ ∀ relation ∈ done, Clean base wish s relation
  | .reload _ | .returned _ => True
  | _ => False

def LiveBase (base : AgentRow) (s : AgentTables) : Prop :=
  ∃ row, s.catalog.live base.agentID = some row ∧ SameBase row base

structure Onward (base : AgentRow) (wish : AgentScope × String) (s s' : AgentTables) : Prop where
  based : LiveBase base s → LiveBase base s'
  arrived : Arrived base.agentID wish s → Arrived base.agentID wish s'
  clean : ∀ relation, Clean base wish s relation → Clean base wish s' relation

theorem Underway.onward (underway : Underway base wish s call) (onward : Onward base wish s s') :
    Underway base wish s' call := by
  cases call with
  | planUpdate | commit => exact underway
  | reconcile u todo =>
    obtain ⟨named, wants, same, arrived, done, whole, clean⟩ := underway
    exact ⟨named, wants, same, onward.arrived arrived, done, whole,
      fun relation member => onward.clean relation (clean relation member)⟩
  | reload | returned => trivial
  | _ => exact underway.elim

/-- A call that has committed its row and still has to write the tuples. -/
def AgentCall.reconciling : AgentCall → Bool
  | .reconcile _ _ => true
  | _ => false

structure UpdateStep (base : AgentRow) (wish : AgentScope × String) (s : AgentTables)
    (call : AgentCall) (s' : AgentTables) (call' : AgentCall) : Prop where
  onward : Onward base wish s s'
  underway : Underway base wish s' call'
  settles : TuplesFollow base.agentID s → TuplesFollow base.agentID s' ∨ call'.reconciling = true
  carries : call.reconciling = true → call'.reconciling = true ∨ TuplesFollow base.agentID s'

theorem UpdateStep.quiet (underway : Underway base wish s call') (light : call.reconciling = false) :
    UpdateStep base wish s call s call' where
  onward := ⟨id, id, fun _ => id⟩
  underway := underway
  settles := .inl
  carries carries := by
    rw [light] at carries
    cases carries

theorem commit_onward {u : AgentUpdate} (named : u.id = base.agentID)
    (wants : (u.scope, u.projectID) = wish) (committed : s.catalog.update u.id u.apply u.version = .ok c) :
    Onward base wish s { s with catalog := c } ∧
      Arrived base.agentID wish { s with catalog := c } := by
  obtain ⟨_, _, _, _, _, rfl⟩ := update_eq_ok.mp committed
  have after : AgentCatalog.live ⟨Keyed.amend AgentRow.agentID s.catalog.agents u.id u.apply,
      s.catalog.versions ++ [u.version]⟩ base.agentID =
      (s.catalog.live base.agentID).map u.apply := by
    rw [AgentCatalog.live, Keyed.select_amend u.apply (fun _ => rfl) (fun _ => rfl), named,
      if_pos rfl]
    rfl
  have arrived : Arrived base.agentID wish
      ⟨⟨Keyed.amend AgentRow.agentID s.catalog.agents u.id u.apply,
        s.catalog.versions ++ [u.version]⟩, s.tuples⟩ := by
    intro row live
    rw [after] at live
    obtain ⟨before, _, rfl⟩ := Option.map_eq_some_iff.mp live
    exact wants
  refine ⟨⟨?_, fun _ => arrived, fun _ clean => clean⟩, arrived⟩
  rintro ⟨row, live, same⟩
  exact ⟨u.apply row, by rw [after, live]; rfl, same⟩

theorem write_onward (target : agentAuthzRelationships row = agentAuthzRelationships (placedRow base wish)) :
    Onward base wish s (s.write row) := by
  refine ⟨id, id, fun relation clean r member resource related => ?_⟩
  rcases mem_foldl_touch.mp member with before | added
  · exact clean r before resource related
  · exact target ▸ added

theorem updateStep (based : LiveBase base s) (underway : Underway base wish s call)
    (works : call.reconciling = true → answer.fault = none)
    (taken : (agentProgram A).next s call answer = some (s', call')) :
    UpdateStep base wish s call s' call' := by
  cases call with
  | planUpdate caller name request =>
    obtain ⟨rfl, wants⟩ := underway
    simp only [agentProgram, agentNext] at taken
    split at taken
    · cases taken
      exact .quiet trivial rfl
    · rename_i u planned
      cases taken
      obtain ⟨_, _, _, existing, named, scope, project, _⟩ := planUpdate_eq_ok planned
      obtain ⟨row, live, same⟩ := based
      obtain rfl : row = u.existing := Option.some.inj (live.symm.trans existing)
      refine .quiet ⟨named, ?_, same⟩ rfl
      rw [scope, project]
      exact wants
  | commit u =>
    obtain ⟨named, wants, same⟩ := underway
    simp only [agentProgram, agentNext] at taken
    split at taken
    · cases taken
      exact .quiet trivial rfl
    · rename_i c committed
      cases taken
      obtain ⟨onward, arrived⟩ := commit_onward named wants (transact_eq_ok.mp committed).1
      exact {
        onward := onward
        underway := ⟨named, wants, same, arrived, [], rfl, by simp⟩
        settles := fun _ => .inr rfl
        carries := fun carries => absurd carries (by simp [AgentCall.reconciling]) }
  | reconcile u todo =>
    obtain ⟨named, wants, same, arrived, done, whole, clean⟩ := underway
    cases todo with
    | cons relation todo =>
      simp only [agentProgram, agentNext, works rfl] at taken
      cases taken
      rw [named]
      have onward : Onward base wish s (s.deleteRelation base.agentID relation) :=
        ⟨id, id, fun _ clean r member => clean r (List.mem_of_mem_filter member)⟩
      refine ⟨onward, ⟨named, wants, same, onward.arrived arrived, done ++ [relation], ?_, ?_⟩,
        fun _ => .inr rfl, fun _ => .inl rfl⟩
      · rw [List.append_assoc]
        exact whole
      · intro other member
        rcases List.mem_append.mp member with before | last
        · exact onward.clean other (clean other before)
        · rw [List.mem_singleton.mp last]
          intro r member resource related
          have kept := (List.mem_filter.mp member).2
          simp [AuthzRelationshipFilter.matches, fieldMatches, resource, related, agentObject] at kept
    | nil =>
      simp only [agentProgram, agentNext, works rfl] at taken
      cases taken
      rw [List.append_nil] at whole
      rw [whole] at clean
      have target : agentAuthzRelationships u.target =
          agentAuthzRelationships (placedRow base wish) :=
        relationships_placedRow ⟨named, same.2⟩ wants
      have settled : TuplesFollow base.agentID (s.write u.target) := by
        intro stored live r resource owned
        obtain ⟨other, found, same⟩ := based
        obtain rfl : other = stored := Option.some.inj (found.symm.trans live)
        rw [relationships_placedRow same (arrived other found), AgentTables.write, mem_foldl_touch,
          target]
        exact ⟨fun either => either.elim (fun before => clean r.relation owned r before resource rfl)
          fun r => r, .inr⟩
      exact ⟨write_onward target, trivial, fun _ => .inl settled, fun _ => .inr settled⟩
  | reload id =>
    cases taken
    exact .quiet trivial rfl
  | returned result => cases taken
  | _ => exact underway.elim

structure Convoy (base : AgentRow) (wish : AgentScope × String) (p : Pool AgentTables AgentCall) :
    Prop where
  based : LiveBase base p.shared
  each : ∀ t ∈ p.threads, Underway base wish p.shared t
  owed : Threads.Owed (TuplesFollow base.agentID) (·.reconciling = true) p

variable {p q : Pool AgentTables AgentCall}

theorem Convoy.advance (convoy : Convoy base wish p)
    (works : orderly base.agentID p (.advance n answer) = true)
    (taken : (agentProgram A).step p (.advance n answer) = some q) : Convoy base wish q := by
  have works : ∀ t, p.threads[n]? = some t → t.reconciling = true → answer.fault = none := by
    intro t found reconciling
    cases t with
    | reconcile u todo => simpa only [orderly, found, decide_eq_true_eq] using works
    | _ => cases reconciling
  have owed := convoy.owed.step taken (by
    intro m t given s' t' same found next
    cases same
    have step := updateStep convoy.based (convoy.each t (List.mem_of_getElem? found)) (works t found) next
    exact ⟨step.settles, step.carries⟩)
  obtain ⟨t, s', t', found, next, rfl⟩ := Threads.step_advance.mp taken
  have step := updateStep convoy.based (convoy.each t (List.mem_of_getElem? found)) (works t found) next
  refine ⟨step.onward.based convoy.based, ?_, owed⟩
  intro u member
  rcases List.mem_or_eq_of_mem_set member with before | rfl
  · exact (convoy.each u before).onward step.onward
  · exact step.underway

theorem Underway.wants (underway : Underway base wish s call) : ∀ v ∈ call.wish, v = wish := by
  intro v wanted
  cases call with
  | planUpdate caller name request => exact (Option.some.inj wanted).symm.trans underway.2
  | commit u | reconcile u todo => exact (Option.some.inj wanted).symm.trans underway.2.1
  | _ => cases wanted

theorem Convoy.turn (convoy : Convoy base wish p) (idle : ∀ t ∈ p.threads, t.wish = none)
    (other : AgentScope × String) : Convoy base other p where
  based := convoy.based
  each t member := by
    have underway := convoy.each t member
    cases t with
    | planUpdate | commit | reconcile => cases idle _ member
    | reload | returned => trivial
    | _ => exact underway.elim
  owed := by
    rcases convoy.owed with done | ⟨n, t, found, carries⟩
    · exact .inl done
    · have waiting := idle t (List.mem_of_getElem? found)
      cases t with
      | reconcile => cases waiting
      | _ => cases carries

theorem convoy_step (p : Pool AgentTables AgentCall) (a : Action AgentRequest AgentAnswer)
    (q : Pool AgentTables AgentCall) (allowed : orderly base.agentID p a = true)
    (convoy : ∃ wish, Convoy base wish p) (taken : (agentProgram A).step p a = some q) :
    ∃ wish, Convoy base wish q := by
  cases a with
  | advance n answer =>
    obtain ⟨wish, convoy⟩ := convoy
    exact ⟨wish, convoy.advance allowed taken⟩
  | call request =>
    cases request with
    | create caller request => cases allowed
    | update caller name request =>
      simp only [orderly, Bool.and_eq_true, decide_eq_true_eq, List.all_eq_true] at allowed
      obtain ⟨own, together⟩ := allowed
      have owed := fun (wish) (convoy : Convoy base wish p) => convoy.owed.step taken (by
        intro n t answer s' t' same
        cases same)
      cases taken
      refine Threads.convoy_call AgentCall.wish request.wish (I := Convoy base)
        (fun _ convoy t member => (convoy.each t member).wants)
        (fun _ convoy idle => convoy.turn idle request.wish) ?_ ?_ convoy
      · intro convoy
        refine ⟨convoy.based, ?_, owed _ convoy⟩
        intro t member
        rcases List.mem_append.mp member with before | last
        · exact convoy.each t before
        · rw [List.mem_singleton.mp last]
          exact ⟨own, rfl⟩
      · intro t member v wanted
        have same := together t member
        rw [Option.mem_def.mp wanted, Option.all_some, decide_eq_true_eq] at same
        exact same

end Convoy

/-- Updates of an agent that start only while those in flight want the same scope and project,
and that SpiceDB does not fail, leave the tuples of the stored row. -/
theorem agent_tuples_follow {φ : Type} (A : AgentCodec φ) (start : AgentTables) (id : String)
    (stored : (start.catalog.live id).isSome = true) (follows : TuplesFollow id start)
    (actions : List (Action AgentRequest AgentAnswer)) (p : Pool AgentTables AgentCall)
    (allowed : Guarded (agentProgram A).step (fun p a => orderly id p a = true)
      ⟨start, []⟩ actions)
    (ran : run (agentProgram A).step ⟨start, []⟩ actions = some p)
    (quiet : (agentProgram A).quiescent p = true) : TuplesFollow id p.shared := by
  obtain ⟨base, live⟩ := Option.isSome_iff_exists.mp stored
  obtain rfl : base.agentID = id := Keyed.key_of_select live
  have convoy : Convoy base (.private, "") ⟨start, []⟩ :=
    ⟨⟨base, live, rfl, rfl, rfl, rfl⟩, by simp, .inl follows⟩
  obtain ⟨wish, convoy⟩ := run_preserves convoy_step ⟨_, convoy⟩ allowed ran
  refine convoy.owed.quiescent quiet ?_
  intro t ended
  cases t with
  | returned result => exact Bool.false_ne_true
  | _ => cases ended

def privateScout : AgentTables where
  catalog := { agents := [{ agentID := "scout", latestVersion := "v1" }] }
  tuples := agentAuthzRelationships { agentID := "scout" }

theorem privateScout_follows : TuplesFollow "scout" privateScout := by
  intro row live r _ _
  rw [← Option.some.inj live]
  exact Iff.rfl

def placeScout (scope project version : String) : Action AgentRequest AgentAnswer :=
  .call (.update { toPrincipal := launcher } "scout"
    { scope := scope, projectID := project, version := version, definition := sampleDefinition [] })

def succeeding (threads : List Nat) : List (Action AgentRequest AgentAnswer) :=
  threads.map fun n => .advance n {}

def movesTogether : List (Action AgentRequest AgentAnswer) :=
  [placeScout "project" "atlas" "v2", placeScout "project" "atlas" "v3"] ++
    succeeding [0, 1, 0, 1, 0, 1, 1, 0, 0, 0, 1, 1] ++ [placeScout "private" "" "v4"] ++
    succeeding [2, 2, 2, 0, 2, 2, 2, 1, 2]

theorem moves_together_follow : ∃ p,
    run (agentProgram plainAgents).step ⟨privateScout, []⟩ movesTogether = some p ∧
    (agentProgram plainAgents).quiescent p = true ∧ TuplesFollow "scout" p.shared := by
  refine exists_run (P := fun p => (agentProgram plainAgents).quiescent p = true)
    (by decide +kernel) fun p ran quiet => ⟨quiet, ?_⟩
  exact agent_tuples_follow plainAgents privateScout "scout" (by decide +kernel)
    privateScout_follows
    movesTogether p (by decide +kernel) ran quiet

def crossingMoves : List (Action AgentRequest AgentAnswer) :=
  [placeScout "project" "atlas" "v2", placeScout "private" "" "v3"] ++
    succeeding [0, 0, 1, 1, 1, 1, 1, 1, 1, 0, 0, 0, 0, 0]

def failedDelete : List (Action AgentRequest AgentAnswer) :=
  [placeScout "project" "atlas" "v2"] ++ succeeding (List.replicate 7 0) ++
    [placeScout "private" "" "v3"] ++ succeeding [1, 1] ++ [.advance 1 { fault := some "unavailable" }]

def atlasParent : AuthzRelationship :=
  ⟨agentObject "scout", "parent", { type := "agent_space", id := agentSpaceObjectID "" "atlas" }⟩

def LeavesParent (actions : List (Action AgentRequest AgentAnswer)) : Prop :=
  ∃ p, run (agentProgram plainAgents).step ⟨privateScout, []⟩ actions = some p ∧
    (agentProgram plainAgents).quiescent p = true ∧
    p.shared.catalog.placement "scout" = some (.private, "") ∧
    atlasParent ∈ p.shared.tuples ∧ ¬TuplesFollow "scout" p.shared

theorem leavesParent_of_eval
    (ends : (run (agentProgram plainAgents).step ⟨privateScout, []⟩ actions).map (fun p =>
      (agentProgram plainAgents).quiescent p &&
        (decide (p.shared.catalog.placement "scout" = some (.private, "")) &&
          (decide (atlasParent ∈ p.shared.tuples) && (p.shared.catalog.live "scout").any fun row =>
            decide (atlasParent ∉ agentAuthzRelationships row)))) = some true) :
    LeavesParent actions := by
  obtain ⟨p, ran, facts⟩ := Option.map_eq_some_iff.mp ends
  obtain ⟨quiet, facts⟩ := (Bool.and_eq_true _ _).mp facts
  obtain ⟨placed, facts⟩ := (Bool.and_eq_true _ _).mp facts
  obtain ⟨left, facts⟩ := (Bool.and_eq_true _ _).mp facts
  obtain ⟨row, live, unwanted⟩ := Option.any_eq_true _ _ |>.mp facts
  refine ⟨p, ran, quiet, of_decide_eq_true placed, of_decide_eq_true left, fun follows => ?_⟩
  exact of_decide_eq_true unwanted
    ((follows row live atlasParent rfl (by decide)).mp (of_decide_eq_true left))

/-- Moves that cross, and one that fails half way, leave a private agent in the project. -/
theorem parent_left_behind : LeavesParent crossingMoves ∧ LeavesParent failedDelete :=
  ⟨leavesParent_of_eval (by decide +kernel), leavesParent_of_eval (by decide +kernel)⟩

section Spaces

def AgentRow.inSpace (row : AgentRow) : Prop :=
  (row.scope = .project ∨ row.scope = .public) ∧ trimSpace row.projectID ≠ ""

def AgentRow.spaceID (row : AgentRow) : String := agentSpaceObjectID row.orgID row.projectID

def agentInSpace (agentID spaceID : String) : AuthzRelationship :=
  ⟨agentObject agentID, "parent", { type := "agent_space", id := spaceID }⟩

def spaceInProject (spaceID projectID : String) : AuthzRelationship :=
  ⟨⟨"agent_space", spaceID⟩, "parent", { type := "project", id := projectID }⟩

def ReachesProject (tuples : Tuples) (agentID projectID : String) : Prop :=
  ∃ spaceID, agentInSpace agentID spaceID ∈ tuples ∧ spaceInProject spaceID projectID ∈ tuples

variable {rows : List AgentRow} {row : AgentRow} {agentID spaceID projectID : String}

theorem agentInSpace_mem : agentInSpace agentID spaceID ∈ agentAuthzRelationships row ↔
    row.inSpace ∧ agentID = row.agentID ∧ spaceID = row.spaceID := by
  unfold agentAuthzRelationships AgentRow.inSpace
  split_ifs <;> simp_all [agentInSpace, agentObject, AgentRow.spaceID]

theorem spaceInProject_mem : spaceInProject spaceID projectID ∈ agentAuthzRelationships row ↔
    row.inSpace ∧ spaceID = row.spaceID ∧ projectID = row.projectID := by
  unfold agentAuthzRelationships AgentRow.inSpace
  split_ifs <;> simp_all [spaceInProject, agentObject, AgentRow.spaceID]

theorem mem_written : r ∈ (rows.foldl AgentTables.write s).tuples ↔
      r ∈ s.tuples ∨ ∃ row ∈ rows, r ∈ agentAuthzRelationships row := by
  induction rows generalizing s with
  | nil => simp
  | cons row rest ih =>
    rw [List.foldl_cons, ih, AgentTables.write, mem_foldl_touch, List.exists_mem_cons_iff, or_assoc]

/-- The ids of another organisation and project read the same: they are the same blanks aside, or
a part between two slashes belongs to the organisation in one and to the project in the other. -/
def AgentRow.Overlaps (row row' : AgentRow) : Prop :=
  trimSpace row.orgID = trimSpace row'.orgID ∧ trimSpace row.projectID = trimSpace row'.projectID ∨
    (∃ part, trimSpace row'.orgID = trimSpace row.orgID ++ "/" ++ part ∧
      trimSpace row.projectID = part ++ "/" ++ trimSpace row'.projectID) ∨
    ∃ part, trimSpace row.orgID = trimSpace row'.orgID ++ "/" ++ part ∧
      trimSpace row'.projectID = part ++ "/" ++ trimSpace row.projectID

theorem spaceID_eq_iff (row row' : AgentRow) :
    row.spaceID = row'.spaceID ↔ row.Overlaps row' := by
  have parts (a b : List Char) (s t : String) :
      (∃ m, a = s.toList ++ '/' :: m ∧ b = m ++ '/' :: t.toList) ↔
        ∃ part : String, a = (s ++ "/" ++ part).toList ∧ b = (part ++ "/" ++ t).toList := by
    constructor
    · rintro ⟨m, rfl, rfl⟩
      exact ⟨String.ofList m, by simp, by simp⟩
    · rintro ⟨part, rfl, rfl⟩
      exact ⟨part.toList, by simp, by simp⟩
  have text (org project : String) : (agentSpaceObjectID org project).toList =
      ((trimSpace org).toList ++ '/' :: (trimSpace project).toList) ++ "/agents".toList := by
    simp [agentSpaceObjectID]
  rw [AgentRow.spaceID, AgentRow.spaceID, ← String.toList_inj, text, text, List.append_cancel_right_eq,
    GoStrings.separated_iff, parts, parts]
  simp only [String.toList_inj, AgentRow.Overlaps]

/-- Agents reach their own project and no other one, and agents of different projects are in
different spaces, exactly if no two ids read the same. -/
theorem agent_spaces_separate_iff (rows : List AgentRow)
    (distinct : ∀ row ∈ rows, ∀ row' ∈ rows, row.agentID = row'.agentID → row = row') :
    ((∀ row ∈ rows, ∀ projectID,
        ReachesProject (rows.foldl AgentTables.write {}).tuples row.agentID projectID ↔
          row.inSpace ∧ projectID = row.projectID) ∧
      ∀ row ∈ rows, row.inSpace → ∀ row' ∈ rows, row'.inSpace →
        (row.orgID, row.projectID) ≠ (row'.orgID, row'.projectID) → row.spaceID ≠ row'.spaceID) ↔
    ∀ row ∈ rows, row.inSpace → ∀ row' ∈ rows, row'.inSpace →
      (row.orgID, row.projectID) ≠ (row'.orgID, row'.projectID) → ¬row.Overlaps row' := by
  simp only [ne_eq, spaceID_eq_iff]
  refine ⟨And.right, fun apart => ⟨fun row member projectID => ?_, apart⟩⟩
  simp only [ReachesProject, mem_written, agentInSpace_mem, spaceInProject_mem]
  constructor
  · rintro ⟨spaceID, none | ⟨one, listed, placed, named, rfl⟩, there⟩
    · cases none
    obtain rfl := distinct row member one listed named
    obtain none | ⟨other, listed', placed', shared, rfl⟩ := there
    · cases none
    by_contra foreign
    refine apart row member placed other listed' placed' (fun same => foreign ⟨placed, ?_⟩)
      ((spaceID_eq_iff _ _).mp shared)
    exact (congrArg Prod.snd same).symm
  · rintro ⟨placed, rfl⟩
    exact ⟨row.spaceID, .inr ⟨row, member, placed, rfl, rfl⟩, .inr ⟨row, member, placed, rfl, rfl⟩⟩

def projectAgent (agentID orgID projectID : String) : AgentRow where
  agentID := agentID
  scope := .project
  orgID := orgID
  projectID := projectID

theorem acme_spaces_separate : ReachesProject
    ([projectAgent "scout" "a/b" "c/d", projectAgent "guide" "x" "y"].foldl
      AgentTables.write {}).tuples "scout" "c/d" := by
  refine (((agent_spaces_separate_iff [projectAgent "scout" "a/b" "c/d", projectAgent "guide" "x" "y"]
    (by decide)).mpr ?_).1 _ (List.mem_cons_self ..) "c/d").mpr ⟨⟨.inl rfl, by decide⟩, rfl⟩
  intro row member _ row' member' _ differ overlaps
  refine (?_ : row.spaceID ≠ row'.spaceID) ((spaceID_eq_iff row row').mpr overlaps)
  simp only [List.mem_cons, List.not_mem_nil, or_false] at member member'
  rcases member with rfl | rfl <;> rcases member' with rfl | rfl
  · exact absurd rfl differ
  · decide
  · decide
  · exact absurd rfl differ

/-- A slash in an organisation and one in a project. -/
theorem agents_share_space : ReachesProject
    ([projectAgent "scout" "acme" "eu/atlas", projectAgent "guide" "acme/eu" "atlas"].foldl
      AgentTables.write {}).tuples "scout" "atlas" :=
  ⟨"acme/eu/atlas/agents", by decide, by decide⟩

end Spaces

end AisphereHub
