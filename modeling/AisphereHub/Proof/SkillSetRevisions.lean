import AisphereHub.Server.SkillSets

/-! Skill sets over histories of transactions: frozen revisions stay, and the members
agree with the latest one. -/
namespace AisphereHub

namespace SkillSetTables

def revisionRow (t : SkillSetTables) (name : String) (revision : Nat) : Option SkillSetRevisionRow :=
  Keyed.lookup SkillSetRevisionRow.key t.revisions (name, revision)

def Faithful (t : SkillSetTables) : Prop :=
  ∀ name row, t.set name = some row → row.deleted = false →
    t.members name = t.frozen name row.revision

structure Numbered (t : SkillSetTables) : Prop where
  rows : ∀ r ∈ t.revisions, ∃ row, t.set r.skillSetName = some row ∧ r.revision ≤ row.revision
  items : ∀ i ∈ t.revisionItems, ∃ row, t.set i.skillSetName = some row ∧ i.revision ≤ row.revision

/-- What two states of the tables have in common when the second is later. -/
structure Advanced (s t : SkillSetTables) : Prop where
  frozen : ∀ name revision, (s.revisionRow name revision).isSome = true →
    t.revisionRow name revision = s.revisionRow name revision ∧
      t.frozen name revision = s.frozen name revision
  grows : ∀ name row, s.set name = some row →
    ∃ row', t.set name = some row' ∧ row.revision ≤ row'.revision

/-- A transaction up to its last statement: the set `name` and its members may have changed,
its revision has not. -/
structure Edited (name : String) (s u : SkillSetTables) : Prop where
  rows : ∀ n, (u.set n).map (fun r => (r.revision, r.deleted)) =
    (s.set n).map fun r => (r.revision, r.deleted)
  members : ∀ n, n ≠ name → u.members n = s.members n
  revisions : u.revisions = s.revisions
  revisionItems : u.revisionItems = s.revisionItems

variable {s t u : SkillSetTables} {name : String} {revision : Nat}

theorem Advanced.refl (s : SkillSetTables) : Advanced s s :=
  ⟨fun _ _ _ => ⟨rfl, rfl⟩, fun _ row found => ⟨row, found, le_refl _⟩⟩

theorem Advanced.trans (first : Advanced s t) (second : Advanced t u) : Advanced s u where
  frozen name revision captured := by
    obtain ⟨row, members⟩ := first.frozen name revision captured
    obtain ⟨row', members'⟩ := second.frozen name revision (row ▸ captured)
    exact ⟨row'.trans row, members'.trans members⟩
  grows name row found := by
    obtain ⟨middle, found, le⟩ := first.grows name row found
    obtain ⟨last, found, le'⟩ := second.grows name middle found
    exact ⟨last, found, le.trans le'⟩

theorem members_of_items (same : u.items = s.items) (n : String) : u.members n = s.members n := by
  rw [members, same, members]

theorem frozen_of_items (same : u.revisionItems = s.revisionItems) (n : String) (r : Nat) :
    u.frozen n r = s.frozen n r := by
  rw [frozen, same, frozen]

theorem frozen_snapshot_self
    (fresh : ∀ i ∈ t.revisionItems, ¬ (i.skillSetName = name ∧ i.revision = revision)) :
    (t.snapshotRevision name revision).frozen name revision = t.members name := by
  have none_old : t.revisionItems.filter
      (fun i => i.skillSetName = name ∧ i.revision = revision) = [] := by
    rw [List.filter_eq_nil_iff]
    intro i member
    simpa using fresh i member
  have all_new : ∀ i ∈ (t.items.filter fun i => i.skillSetName = name).map
      (fun i => SkillSetRevisionItem.mk i.skillSetName revision i.member),
      (i.skillSetName = name ∧ i.revision = revision) ∧
        (Keyed.lookup SkillSetRevisionItem.key t.revisionItems i.key).isNone = true := by
    intro i member
    obtain ⟨item, inside, rfl⟩ := List.mem_map.mp member
    have own : item.skillSetName = name := by simpa using (List.mem_filter.mp inside).2
    refine ⟨⟨own, rfl⟩, ?_⟩
    rw [Option.isNone_iff_eq_none, Keyed.lookup_eq_none_iff]
    intro other stored same
    obtain ⟨sameName, sameRest⟩ := Prod.ext_iff.mp same
    exact fresh other stored ⟨sameName.trans own, (Prod.ext_iff.mp sameRest).1⟩
  unfold frozen snapshotRevision
  simp only
  rw [List.filter_append, none_old, List.nil_append,
    List.filter_eq_self.mpr fun i member => (all_new i member).2,
    List.filter_eq_self.mpr fun i member => decide_eq_true (all_new i member).1, List.map_map]
  rfl

variable {n : String}

theorem frozen_snapshot_other (other : ¬ (n = name ∧ r = revision)) :
    (t.snapshotRevision name revision).frozen n r = t.frozen n r := by
  unfold frozen snapshotRevision
  simp only
  rw [List.filter_append]
  convert congrArg (List.map SkillSetRevisionItem.member) (List.append_nil _) using 3
  rw [List.filter_eq_nil_iff]
  intro i member matched
  obtain ⟨item, inside, rfl⟩ := List.mem_map.mp (List.mem_filter.mp member).1
  have own : item.skillSetName = name := by simpa using (List.mem_filter.mp inside).2
  have here : item.skillSetName = n ∧ revision = r := by simpa using matched
  exact other ⟨here.1.symm.trans own, here.2.symm⟩

variable {row : SkillSetRow}

theorem numbered_snapshot (numbered : Numbered t) (found : t.set name = some row)
    (current : row.revision = revision) : Numbered (t.snapshotRevision name revision) where
  rows r member := by
    rcases List.mem_append.mp member with old | new
    · exact numbered.rows r old
    · obtain ⟨set, inside, rfl⟩ := List.mem_map.mp (List.mem_filter.mp new).1
      have own : set.name = name ∧ set.revision = revision := by
        simpa using (List.mem_filter.mp inside).2
      exact ⟨row, own.1.symm ▸ found, le_of_eq (own.2.trans current.symm)⟩
  items i member := by
    rcases List.mem_append.mp member with old | new
    · exact numbered.items i old
    · obtain ⟨item, inside, rfl⟩ := List.mem_map.mp (List.mem_filter.mp new).1
      have own : item.skillSetName = name := by simpa using (List.mem_filter.mp inside).2
      exact ⟨row, own.symm ▸ found, le_of_eq current.symm⟩

structure Kept (s t : SkillSetTables) : Prop where
  advanced : Advanced s t
  numbered : Numbered t
  faithful : Faithful s → Faithful t

theorem Edited.set_iff (edited : Edited name s u) :
    (∃ row, u.set n = some row ∧ row.revision = number ∧ row.deleted = gone) ↔
      ∃ row, s.set n = some row ∧ row.revision = number ∧ row.deleted = gone := by
  have shape (v : SkillSetTables) :
      (∃ row, v.set n = some row ∧ row.revision = number ∧ row.deleted = gone) ↔
        (v.set n).map (fun r => (r.revision, r.deleted)) = some (number, gone) := by
    simp [Option.map_eq_some_iff]
  rw [shape u, shape s, edited.rows n]

theorem Edited.refl (name : String) (s : SkillSetTables) : Edited name s s :=
  ⟨fun _ => rfl, fun _ _ => rfl, rfl, rfl⟩

theorem Edited.trans (first : Edited name s t) (second : Edited name t u) : Edited name s u where
  rows n := (second.rows n).trans (first.rows n)
  members n other := (second.members n other).trans (first.members n other)
  revisions := second.revisions.trans first.revisions
  revisionItems := second.revisionItems.trans first.revisionItems

theorem Numbered.grown (numbered : Numbered s) (rows : u.revisions = s.revisions)
    (items : u.revisionItems = s.revisionItems) (grows : ∀ n row, s.set n = some row →
      ∃ row', u.set n = some row' ∧ row.revision ≤ row'.revision) : Numbered u ∧ Advanced s u := by
  refine ⟨⟨?_, ?_⟩, ?_, grows⟩
  · intro r member
    obtain ⟨row, found, le⟩ := numbered.rows r (rows ▸ member)
    obtain ⟨row', found', le'⟩ := grows _ row found
    exact ⟨row', found', le.trans le'⟩
  · intro i member
    obtain ⟨row, found, le⟩ := numbered.items i (items ▸ member)
    obtain ⟨row', found', le'⟩ := grows _ row found
    exact ⟨row', found', le.trans le'⟩
  · intro n r _
    rw [revisionRow, rows, revisionRow]
    exact ⟨rfl, frozen_of_items items n r⟩

theorem Edited.grown (edited : Edited name s u) (numbered : Numbered s) :
    Numbered u ∧ Advanced s u := by
  apply numbered.grown edited.revisions edited.revisionItems
  intro n row found
  obtain ⟨row', found', same, _⟩ := edited.set_iff.mpr ⟨row, found, rfl, rfl⟩
  exact ⟨row', found', le_of_eq same.symm⟩

theorem Edited.agrees (edited : Edited name s u)
    (faithful : ∀ row, s.set n = some row → row.deleted = false →
      s.members n = s.frozen n row.revision) (other : n ≠ name) (found : u.set n = some row)
    (live : row.deleted = false) : u.members n = u.frozen n row.revision := by
  obtain ⟨row', found', same, gone⟩ := edited.set_iff.mp ⟨row, found, rfl, rfl⟩
  rw [edited.members n other, frozen_of_items edited.revisionItems,
    faithful row' found' (gone.trans live), same]

theorem set_raiseRevision (u : SkillSetTables) (name n : String) :
    (u.raiseRevision name).set n = if n = name then
      (u.set name).map fun r => { r with revision := r.revision + 1 } else u.set n := by
  apply Keyed.lookup_amend
  exact fun _ => rfl

theorem grown_raiseRevision (numbered : Numbered u) (name : String) :
    Numbered (u.raiseRevision name) ∧ Advanced u (u.raiseRevision name) := by
  refine Numbered.grown (u := u.raiseRevision name) numbered rfl rfl ?_
  intro n row found
  rw [set_raiseRevision]
  split_ifs with here
  · rw [← here, found]
    exact ⟨_, rfl, Nat.le_succ _⟩
  · exact ⟨row, found, le_refl _⟩

theorem advanced_snapshot (fresh : t.revisionRow name revision = none) :
    Advanced t (t.snapshotRevision name revision) where
  frozen n r captured := by
    have other : ¬ (n = name ∧ r = revision) := by
      rintro ⟨rfl, rfl⟩
      rw [fresh] at captured
      cases captured
    refine ⟨?_, frozen_snapshot_other other⟩
    unfold revisionRow snapshotRevision Keyed.lookup
    simp only
    rw [List.find?_append]
    convert Option.or_none using 2
    rw [List.find?_eq_none]
    intro row member matched
    obtain ⟨set, inside, rfl⟩ := List.mem_map.mp (List.mem_filter.mp member).1
    have own : set.name = name ∧ set.revision = revision := by
      simpa using (List.mem_filter.mp inside).2
    have here : set.name = n ∧ set.revision = r := by
      simpa [SkillSetRevisionRow.key] using matched
    exact other ⟨here.1.symm.trans own.1, here.2.symm.trans own.2⟩
  grows _ row found := ⟨row, found, le_refl _⟩

theorem Numbered.fresh (numbered : Numbered t)
    (ahead : ∀ row, t.set name = some row → row.revision < revision) :
    t.revisionRow name revision = none ∧
      ∀ i ∈ t.revisionItems, ¬ (i.skillSetName = name ∧ i.revision = revision) := by
  constructor
  · rw [revisionRow, Keyed.lookup_eq_none_iff]
    intro r member same
    obtain ⟨own, foundOwn, le⟩ := numbered.rows r member
    obtain ⟨sameName, sameRevision⟩ : r.skillSetName = name ∧ r.revision = revision :=
      Prod.ext_iff.mp same
    have reached := ahead own (sameName ▸ foundOwn)
    omega
  · rintro i member ⟨sameName, sameRevision⟩
    obtain ⟨own, foundOwn, le⟩ := numbered.items i member
    have reached := ahead own (sameName ▸ foundOwn)
    omega

theorem kept_of_bump (numbered : Numbered s) (edited : Edited name s u)
    (bumped : u.bumpRevision name = some t) : Kept s t := by
  obtain ⟨numberedU, advanced⟩ := edited.grown numbered
  unfold bumpRevision at bumped
  split at bumped
  · rename_i absent
    cases bumped
    refine ⟨advanced, numberedU, ?_⟩
    intro faithful n row found live
    refine edited.agrees (faithful n) ?_ found live
    rintro rfl
    cases absent.symm.trans found
  rename_i row found
  split_ifs at bumped
  obtain rfl := Option.some.inj bumped
  have ahead : ∀ r, u.set name = some r → r.revision < row.revision + 1 := by
    intro r foundR
    obtain rfl : row = r := Option.some.inj (found.symm.trans foundR)
    exact Nat.lt_succ_self _
  obtain ⟨freshRow, freshItems⟩ := numberedU.fresh ahead
  have foundV : (u.raiseRevision name).set name = some { row with revision := row.revision + 1 } := by
    rw [set_raiseRevision, if_pos rfl, found, Option.map_some]
  obtain ⟨numberedV, raised⟩ := grown_raiseRevision numberedU name
  refine ⟨advanced.trans (raised.trans (advanced_snapshot freshRow)),
    numbered_snapshot numberedV foundV rfl, ?_⟩
  intro faithful n row' foundN live
  have foundN' : (u.raiseRevision name).set n = some row' := foundN
  by_cases here : n = name
  · subst here
    obtain rfl := Option.some.inj (foundV.symm.trans foundN')
    exact (frozen_snapshot_self (t := u.raiseRevision n) freshItems).symm
  · rw [set_raiseRevision, if_neg here] at foundN'
    rw [frozen_snapshot_other fun both => here both.1]
    exact edited.agrees (faithful n) here foundN' live

theorem members_filter (keep : SkillSetItem → Bool) (t : SkillSetTables) (n : String)
    (all : ∀ i ∈ t.items, i.skillSetName = n → keep i = true) :
    members { t with items := t.items.filter keep } n = t.members n := by
  unfold members
  simp only
  rw [List.filter_filter]
  congr 1
  apply List.filter_congr
  intro i member
  by_cases here : i.skillSetName = n
  · simp [here, all i member here]
  · simp [here]

theorem members_append (t : SkillSetTables) (other : n ≠ name) (member : SkillSetMember) :
    members { t with items := t.items ++ [⟨name, member⟩] } n = t.members n := by
  simp [members, List.filter_append, Ne.symm other]

theorem members_amend (t : SkillSetTables) (other : n ≠ name) (skill : String)
    (member : SkillSetMember) :
    members { t with items := (Keyed.amend SkillSetItem.key t.items (name, skill) fun i =>
      { i with member := member }) } n = t.members n := by
  unfold members Keyed.amend
  simp only
  rw [List.filter_map, List.map_map]
  have same : ((fun i : SkillSetItem => decide (i.skillSetName = n)) ∘ fun i =>
      if i.key = (name, skill) then { i with member := member } else i) =
      fun i => decide (i.skillSetName = n) := by
    funext i
    simp only [Function.comp_apply]
    split_ifs <;> rfl
  rw [same]
  apply List.map_congr_left
  intro i inside
  have own : i.skillSetName = n := by simpa using (List.mem_filter.mp inside).2
  have elsewhere : i.key ≠ (name, skill) := by
    intro key
    exact other (own.symm.trans (Prod.ext_iff.mp key).1)
  simp [elsewhere]

theorem edited_items {items}
    (same : ∀ n, n ≠ name → members { s with items := items } n = s.members n) :
    Edited name s { s with items := items } :=
  ⟨fun _ => rfl, same, rfl, rfl⟩

theorem edited_insertItem (done : s.insertItem name member = some u) :
    Edited name s u := by
  unfold insertItem at done
  split_ifs at done
  cases done
  exact edited_items fun n other => members_append s other member

variable {members : List SkillSetMember}

theorem edited_insertMembers {index} (done : insertMembers name s index members = some u)
    : Edited name s u := by
  induction members generalizing s index with
  | nil =>
    cases done
    exact Edited.refl name _
  | cons m rest ih =>
    obtain ⟨middle, first, done⟩ := Option.bind_eq_some_iff.mp done
    exact (edited_insertItem first).trans (ih done)

theorem edited_replace (done : s.replaceSkillSetMembers name members = some u) :
    Edited name s u := by
  refine Edited.trans (edited_items ?_) (edited_insertMembers done)
  intro n other
  apply members_filter
  intro i _ own
  simpa [own] using other

theorem edited_updateLive (keepName : ∀ r, (f r).name = r.name)
    (keep : ∀ r, (f r).revision = r.revision ∧ (f r).deleted = r.deleted)
    (done : s.updateLive name f = some u) : Edited name s u := by
  unfold updateLive at done
  split at done
  · cases done
  split_ifs at done
  cases done
  refine ⟨?_, fun _ _ => rfl, rfl, rfl⟩
  intro n
  unfold set
  simp only
  rw [Keyed.lookup_amend keepName]
  split_ifs with here
  · rw [here, Option.map_map]
    congr 1
    funext r
    simp [keep r]
  · rfl

theorem edited_bindItem (done : s.bindItem name member = some u) : Edited name s u := by
  unfold bindItem at done
  split_ifs at done
  split at done
  · cases done
    exact edited_items fun n other => members_append s other member
  · cases done
    exact edited_items fun n other => members_amend s other _ member

variable {skill : String}

theorem edited_updateItem
    (done : s.updateItem name skill order release = some u) : Edited name s u := by
  unfold updateItem at done
  split at done
  · cases done
  dsimp only at done
  split_ifs at done
  cases done
  exact edited_items fun n other => members_amend s other _ _

theorem edited_editMembers {members} (done : s.editMembers name members = some u) :
    Edited name s u := by
  cases members with
  | none =>
    cases done
    exact Edited.refl name _
  | some members => exact edited_replace done

theorem kept_update {members} (numbered : Numbered s)
    (done : s.update name displayName description visibility members = some t) : Kept s t := by
  obtain ⟨first, updated, done⟩ := Option.bind_eq_some_iff.mp done
  obtain ⟨second, replaced, bumped⟩ := Option.bind_eq_some_iff.mp done
  have row : Edited name s first := by
    refine edited_updateLive ?_ ?_ updated
    · exact fun _ => rfl
    · exact fun _ => ⟨rfl, rfl⟩
  exact kept_of_bump numbered (row.trans (edited_editMembers replaced)) bumped

theorem kept_unbind (numbered : Numbered s) (done : s.unbind name skill = some t) : Kept s t := by
  unfold unbind at done
  split_ifs at done
  refine kept_of_bump numbered (edited_items ?_) done
  intro n other
  apply members_filter
  intro i _ own
  have elsewhere : i.key ≠ (name, skill) := by
    intro key
    exact other (own.symm.trans (Prod.ext_iff.mp key).1)
  simpa using elsewhere

theorem kept_remove (numbered : Numbered s) (done : s.remove name = some t) : Kept s t := by
  unfold remove updateLive at done
  split at done
  · cases done
  rename_i row found
  split_ifs at done
  obtain rfl := Option.some.inj done
  generalize shape : ({ s with sets := (Keyed.amend SkillSetRow.name s.sets name fun r =>
    { r with deleted := true }) } : SkillSetTables) = u
  have lookup (n : String) : u.set n =
      if n = name then some { row with deleted := true } else s.set n := by
    have amended : u.set n = if n = name then (s.set name).map fun r => { r with deleted := true }
        else s.set n := by
      rw [← shape]
      apply Keyed.lookup_amend
      exact fun _ => rfl
    rw [amended, found, Option.map_some]
  have grows : ∀ n r, s.set n = some r → ∃ r', u.set n = some r' ∧ r.revision ≤ r'.revision := by
    intro n r foundN
    rw [lookup]
    split_ifs with here
    · obtain rfl : row = r := Option.some.inj (found.symm.trans (here ▸ foundN))
      exact ⟨_, rfl, le_refl _⟩
    · exact ⟨r, foundN, le_refl _⟩
  obtain ⟨numberedU, advanced⟩ := numbered.grown (by rw [← shape]) (by rw [← shape]) grows
  refine ⟨advanced, numberedU, ?_⟩
  intro faithful n row' foundN live
  rw [lookup] at foundN
  split_ifs at foundN
  · cases foundN
    cases live
  · rw [members_of_items (by rw [← shape]), frozen_of_items (by rw [← shape])]
    exact faithful n row' foundN live

theorem kept_create (numbered : Numbered s) (done : s.create row members = some t) : Kept s t := by
  unfold create at done
  dsimp only at done
  split_ifs at done with free
  obtain ⟨u, replaced, rfl⟩ := Option.map_eq_some_iff.mp done
  have absent : s.set row.name = none := Option.isNone_iff_eq_none.mp free.2
  generalize shape : ({ s with sets := s.sets ++ [{ row with revision := 1, deleted := false }] } :
    SkillSetTables) = first at replaced
  have lookup (n : String) : first.set n = (s.set n).or
      (if row.name = n then some { row with revision := 1, deleted := false } else none) := by
    rw [← shape]
    exact Keyed.lookup_append _ s.sets n
  have grows : ∀ n r, s.set n = some r → ∃ r', first.set n = some r' ∧ r.revision ≤ r'.revision := by
    intro n r found
    rw [lookup, found]
    exact ⟨r, rfl, le_refl _⟩
  obtain ⟨numberedF, advanced⟩ := numbered.grown (by rw [← shape]) (by rw [← shape]) grows
  have edited := edited_replace replaced
  obtain ⟨numberedU, advancedU⟩ := edited.grown numberedF
  have items : u.revisionItems = s.revisionItems := edited.revisionItems.trans (by rw [← shape])
  have rows : u.revisions = s.revisions := edited.revisions.trans (by rw [← shape])
  have ahead : ∀ r, s.set row.name = some r → r.revision < 1 := by
    intro r foundR
    cases absent.symm.trans foundR
  obtain ⟨freshRow, freshItems⟩ := numbered.fresh ahead
  rw [revisionRow, ← rows] at freshRow
  rw [← items] at freshItems
  obtain ⟨created, found, current, _⟩ := edited.set_iff.mpr
    ⟨{ row with revision := 1, deleted := false }, by rw [lookup, absent, if_pos rfl]; rfl, rfl, rfl⟩
  refine ⟨advanced.trans (advancedU.trans (advanced_snapshot freshRow)),
    numbered_snapshot numberedU found current, ?_⟩
  intro faithful n row' foundN live
  by_cases here : n = row.name
  · subst here
    have same : created = row' := Option.some.inj (found.symm.trans foundN)
    rw [← same, current]
    exact (frozen_snapshot_self freshItems).symm
  · rw [frozen_snapshot_other fun both => here both.1]
    refine edited.agrees ?_ here foundN live
    intro old foundOld liveOld
    rw [lookup, if_neg (Ne.symm here), Option.or_none] at foundOld
    rw [members_of_items (by rw [← shape]), frozen_of_items (by rw [← shape])]
    exact faithful n old foundOld liveOld

theorem kept_skills (numbered : Numbered s) (skills : List SkillRecord) :
    Kept s { s with skills := skills } :=
  ⟨⟨fun _ _ _ => ⟨rfl, rfl⟩, fun _ row found => ⟨row, found, le_refl _⟩⟩,
    ⟨numbered.rows, numbered.items⟩, fun faithful n row found live => faithful n row found live⟩

theorem kept_saveSkill (numbered : Numbered s) (skill : SkillRecord) : Kept s (s.saveSkill skill) := by
  unfold saveSkill
  split
  · exact kept_skills numbered _
  · exact kept_skills numbered _

def unbound (s : SkillSetTables) (skill : String) : Bool :=
  s.items.all fun i => i.member.skillName ≠ skill || (s.set i.skillSetName).all SkillSetRow.deleted

theorem unbound_iff : s.unbound skill = true ↔
    ∀ i ∈ s.items, ∀ row, s.set i.skillSetName = some row → row.deleted = false →
      i.member.skillName ≠ skill := by
  simp only [unbound, List.all_eq_true, Bool.or_eq_true, decide_eq_true_eq, Option.all_eq_true]
  constructor
  · intro all i member row found live named
    rcases all i member with other | gone
    · exact other named
    · rw [gone row found] at live
      cases live
  · intro all i member
    by_cases named : i.member.skillName = skill
    · refine .inr fun row found => ?_
      by_contra live
      exact all i member row found (Bool.eq_false_iff.mpr live) named
    · exact .inl named

theorem faithful_deleteSkill (faithful : Faithful s) (skill : String) :
    Faithful (s.deleteSkill skill) ↔ s.unbound skill = true := by
  rw [unbound_iff]
  constructor
  · intro after i member row found live named
    have cut : (s.deleteSkill skill).members i.skillSetName = s.members i.skillSetName :=
      (after _ row found live).trans (faithful _ row found live).symm
    have present : i.member ∈ (s.deleteSkill skill).members i.skillSetName := by
      rw [cut]
      exact List.mem_map.mpr ⟨i, List.mem_filter.mpr ⟨member, by simp⟩, rfl⟩
    obtain ⟨j, inside, same⟩ := List.mem_map.mp present
    have kept := (List.mem_filter.mp (List.mem_filter.mp inside).1).2
    rw [same] at kept
    simp [named] at kept
  · intro free n row found live
    have same : (s.deleteSkill skill).members n = s.members n := by
      apply members_filter
      intro i member own
      simpa using free i member row (own ▸ found) live
    exact same.trans (faithful n row found live)

end SkillSetTables

open SkillSetTables

/-- A repository is deleted only while no live set has it among its members. -/
def keepsMembers (s : SkillSetTables) : SkillSetTransaction → Bool
  | .deleteSkill skill => s.unbound skill
  | _ => true

variable {x : SkillSetTransaction}

theorem kept_of_commit (numbered : Numbered s) (done : s.commit x = some t) :
    SkillSetTables.Kept s t ∨ ∃ skill, x = .deleteSkill skill ∧ t = s.deleteSkill skill := by
  cases x with
  | create row members => exact .inl (kept_create numbered done)
  | update name displayName description visibility members => exact .inl (kept_update numbered done)
  | bind name member =>
    obtain ⟨u, bound, bumped⟩ := Option.bind_eq_some_iff.mp done
    exact .inl (kept_of_bump numbered (edited_bindItem bound) bumped)
  | updateMember name skillName order release =>
    obtain ⟨u, updated, bumped⟩ := Option.bind_eq_some_iff.mp done
    exact .inl (kept_of_bump numbered (edited_updateItem updated) bumped)
  | unbind name skillName => exact .inl (kept_unbind numbered done)
  | remove name => exact .inl (kept_remove numbered done)
  | saveSkill skill =>
    obtain rfl := Option.some.inj done
    exact .inl (kept_saveSkill numbered skill)
  | deleteSkill skill => exact .inr ⟨skill, rfl, (Option.some.inj done).symm⟩

theorem advanced_of_commit (numbered : Numbered s)
    (done : s.commit x = some t) : Numbered t ∧ Advanced s t := by
  rcases kept_of_commit numbered done with kept | ⟨skill, _, rfl⟩
  · exact ⟨kept.numbered, kept.advanced⟩
  · refine ⟨⟨numbered.rows, numbered.items⟩, fun _ _ _ => ⟨rfl, rfl⟩, ?_⟩
    exact fun _ row found => ⟨row, found, le_refl _⟩

theorem faithful_commit_iff (numbered : Numbered s) (faithful : Faithful s)
    (done : s.commit x = some t) : Faithful t ↔ keepsMembers s x = true := by
  rcases kept_of_commit numbered done with kept | ⟨skill, rfl, rfl⟩
  · cases x with
    | deleteSkill skill =>
      obtain rfl := Option.some.inj done
      exact faithful_deleteSkill faithful skill
    | _ => exact ⟨fun _ => rfl, fun _ => kept.faithful faithful⟩
  · exact faithful_deleteSkill faithful skill

theorem advanced_of_history
    (numbered : Numbered s) (ran : Transition.run SkillSetTables.commit s history = some t) :
    Numbered t ∧ Advanced s t := by
  refine Transition.run_invariant (I := fun u => Numbered u ∧ Advanced s u) ?_
    ⟨numbered, Advanced.refl s⟩ ran
  intro u x v holds taken
  obtain ⟨numberedV, later⟩ := advanced_of_commit holds.1 taken
  exact ⟨numberedV, holds.2.trans later⟩

theorem numbered_empty : Numbered {} :=
  ⟨by simp, by simp⟩

/-- Over every history of committed transactions: from any state `m` of it on, what is frozen
stays and revisions only grow; and the members of all live sets agree with their revision at
every moment exactly when no deleted repository was a member of a live set. -/
theorem revisions_faithful_iff (first rest : List SkillSetTransaction) (m t : SkillSetTables)
    (before : Transition.run SkillSetTables.commit {} first = some m)
    (after : Transition.run SkillSetTables.commit m rest = some t) :
    (∀ name revision, (m.revisionRow name revision).isSome = true →
      t.revisionRow name revision = m.revisionRow name revision ∧
        t.frozen name revision = m.frozen name revision) ∧
    (∀ name row, m.set name = some row →
      ∃ row', t.set name = some row' ∧ row.revision ≤ row'.revision) ∧
    (Transition.Always SkillSetTables.commit Faithful {} (first ++ rest) ↔
      Transition.Guarded SkillSetTables.commit (fun s x => keepsMembers s x = true) {}
        (first ++ rest)) := by
  obtain ⟨numbered, _⟩ := advanced_of_history numbered_empty before
  obtain ⟨_, advanced⟩ := advanced_of_history numbered after
  have whole := Transition.run_append.mpr ⟨m, before, after⟩
  have empty : Faithful {} := by
    intro name row found
    cases found
  refine ⟨advanced.frozen, advanced.grows, ?_⟩
  rw [Transition.always_iff_guarded (J := Numbered) _ _ numbered_empty whole, and_iff_right empty]
  · intro s x u numbered faithful taken
    exact faithful_commit_iff numbered faithful taken
  · intro s x u numbered taken
    exact (advanced_of_commit numbered taken).1

def pdfMember (version digest : String) : SkillSetMember :=
  ⟨"pdf", 0, version, digest, digest, digest, none⟩

def coreHistory : List SkillSetTransaction :=
  [.saveSkill { name := "pdf", status := .active },
    .create { name := "core", ownerID := "u1" } [pdfMember "v1.0.0" "c1"],
    .bind "core" (pdfMember "v1.1.0" "c2")]

theorem core_set_faithful : ∃ m t,
    Transition.run SkillSetTables.commit {} (coreHistory.take 2) = some m ∧
    Transition.run SkillSetTables.commit m (coreHistory.drop 2) = some t ∧
    (m.revisionRow "core" 1).isSome = true ∧ t.frozen "core" 1 = m.frozen "core" 1 ∧
    Transition.Always SkillSetTables.commit Faithful {} coreHistory := by
  obtain ⟨m, before, facts⟩ := Option.map_eq_some_iff.mp
    (by decide +kernel : (Transition.run SkillSetTables.commit {} (coreHistory.take 2)).map
      (fun m => (m.revisionRow "core" 1).isSome &&
        (Transition.run SkillSetTables.commit m (coreHistory.drop 2)).isSome) = some true)
  obtain ⟨captured, runs⟩ := (Bool.and_eq_true _ _).mp facts
  obtain ⟨t, after⟩ := Option.isSome_iff_exists.mp runs
  obtain ⟨frozen, _, faithful⟩ := revisions_faithful_iff _ _ m t before after
  exact ⟨m, t, before, after, captured, (frozen "core" 1 captured).2,
    faithful.mpr (by decide +kernel)⟩

/-- The member's repository is deleted: the set is live, at revision one and empty, while
revision one holds the member. -/
theorem deleted_skill_leaves_revision_behind : ∃ history t row,
    Transition.run SkillSetTables.commit {} history = some t ∧ t.set "core" = some row ∧
    row.deleted = false ∧ t.members "core" ≠ t.frozen "core" row.revision := by
  obtain ⟨t, ran, facts⟩ := Option.map_eq_some_iff.mp
    (by decide +kernel : (Transition.run SkillSetTables.commit {}
      (coreHistory.take 2 ++ [.deleteSkill "pdf"])).map
      (fun t => (t.set "core").map fun row =>
        !row.deleted && decide (t.members "core" ≠ t.frozen "core" row.revision)) = some (some true))
  obtain ⟨row, found, facts⟩ := Option.map_eq_some_iff.mp facts
  obtain ⟨live, differs⟩ := (Bool.and_eq_true _ _).mp facts
  exact ⟨_, t, row, ran, found, by simpa using live, of_decide_eq_true differs⟩

end AisphereHub
