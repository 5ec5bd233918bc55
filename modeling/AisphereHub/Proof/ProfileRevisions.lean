import AisphereHub.Server.ModelCatalog

/-! The revisions of model profiles, numbered by calls that read before they write. -/
namespace AisphereHub

open Keyed Transition Threads

variable {target : Option String} {v : ProfileRevisionRowV2}

def FrozenIn (v : ProfileRevisionRowV2) (p : ProfileRowV2) : Prop :=
  v.snapshot.endpointID = p.endpointID ∧ v.snapshot.policy = p.reasoningPolicy ∧
    v.snapshot.limits = p.limits

/-- The revisions of each profile are those from one to its latest, which freezes the row. -/
structure RevisionsDense (s : CatalogV2) : Prop where
  unique : (s.profiles.map ProfileRowV2.id).Nodup
  owned : ∀ v ∈ s.revisions, ∃ p ∈ s.profiles, p.id = v.profileID
  started : ∀ p ∈ s.profiles, 1 ≤ p.latestRevision
  dense : ∀ p ∈ s.profiles, ∀ n, (∃ v ∈ s.revisions, v.profileID = p.id ∧ v.revision = n) ↔
    1 ≤ n ∧ n ≤ p.latestRevision
  frozen : ∀ p ∈ s.profiles, ∀ v ∈ s.revisions, v.profileID = p.id →
    v.revision = p.latestRevision → FrozenIn v p

/-- A number that is the first of a new profile, or at most the next of an old one. -/
def NumberedFor (s : CatalogV2) (n : Int) : Option String → Prop
  | none => n = 1
  | some id => 1 ≤ n ∧ ∃ p ∈ s.profiles, p.id = id ∧ n ≤ p.latestRevision + 1

def CatalogCall.Drafted (s : CatalogV2) : CatalogCall → Prop
  | .loadEndpoint _ target n _ => NumberedFor s n target
  | .loadModel _ target n _ _ => NumberedFor s n target
  | .storeProfile target row v => NumberedFor s row.latestRevision target ∧
      v.revision = row.latestRevision ∧ v.profileID = target.getD row.id ∧ FrozenIn v row
  | _ => True

def Grown (s s' : CatalogV2) : Prop :=
  ∀ p ∈ s.profiles, ∃ p' ∈ s'.profiles, p'.id = p.id ∧ p.latestRevision ≤ p'.latestRevision

variable {R : ReasoningRules} {s s' : CatalogV2} {call call' : CatalogCall} {a : Answer}

theorem Grown.refl (s : CatalogV2) : Grown s s :=
  fun p member => ⟨p, member, rfl, Int.le_refl _⟩

theorem NumberedFor.grown (numbered : NumberedFor s n target) (grown : Grown s s')
    : NumberedFor s' n target := by
  cases target with
  | none => exact numbered
  | some id =>
    obtain ⟨positive, p, member, named, bound⟩ := numbered
    obtain ⟨p', member', same, more⟩ := grown p member
    exact ⟨positive, p', member', same.trans named, by omega⟩

theorem CatalogCall.Drafted.grown (drafted : call.Drafted s) (grown : Grown s s') :
    call.Drafted s' := by
  cases call with
  | loadEndpoint _ target n _ | loadModel _ target n _ _ => exact NumberedFor.grown drafted grown
  | storeProfile target row v => exact ⟨drafted.1.grown grown, drafted.2⟩
  | _ => trivial

theorem softDeleteResource_profiles {id}
    (gone : softDeleteResource s orgID id now kind = some s') :
    s'.revisions = s.revisions ∧ ∃ deletedAt : ProfileRowV2 → Option Nat,
      s'.profiles = s.profiles.map fun p => { p with deletedAt := deletedAt p } := by
  cases kind with
  | profile =>
    obtain ⟨out, updated, rfl⟩ := Option.map_eq_some_iff.mp gone
    obtain ⟨_, _, _, rfl⟩ := update_eq_some.mp updated
    refine ⟨rfl, fun p => if p.id = id then some now else p.deletedAt, ?_⟩
    refine List.map_congr_left fun p _ => ?_
    by_cases same : p.id = id <;> simp [same]
  | _ =>
    obtain ⟨_, _, rfl⟩ := Option.map_eq_some_iff.mp gone
    exact ⟨rfl, ProfileRowV2.deletedAt, (List.map_id _).symm⟩

theorem storeEndpointRow_frame (stored : storeEndpointRow s target row = .ok s') :
    ∃ endpoints, s' = { s with endpoints := endpoints } := by
  unfold storeEndpointRow at stored
  cases target with
  | none =>
    split_ifs at stored
    cases stored
    exact ⟨_, rfl⟩
  | some id =>
    obtain ⟨out, _, rfl⟩ := map_eq_ok stored
    exact ⟨out.1, rfl⟩

theorem RevisionsDense.marked (holds : RevisionsDense s) {deletedAt : ProfileRowV2 → Option Nat}
    (profiles : s'.profiles = s.profiles.map fun p => { p with deletedAt := deletedAt p })
    (revisions : s'.revisions = s.revisions) : RevisionsDense s' ∧ Grown s s' := by
  have back : ∀ p ∈ s'.profiles, ∃ old ∈ s.profiles, p = { old with deletedAt := p.deletedAt } := by
    intro p member
    rw [profiles] at member
    obtain ⟨old, among, rfl⟩ := List.mem_map.mp member
    exact ⟨old, among, rfl⟩
  have grown : Grown s s' := by
    intro p member
    refine ⟨{ p with deletedAt := deletedAt p }, ?_, rfl, Int.le_refl _⟩
    rw [profiles]
    exact List.mem_map.mpr ⟨p, member, rfl⟩
  refine ⟨⟨?_, ?_, ?_, ?_, ?_⟩, grown⟩
  · rw [profiles, List.map_map]
    exact holds.unique
  · intro v stored
    obtain ⟨p, member, same⟩ := holds.owned v (revisions ▸ stored)
    obtain ⟨p', member', named, _⟩ := grown p member
    exact ⟨p', member', named.trans same⟩
  all_goals
    intro p member
    obtain ⟨old, among, shape⟩ := back p member
    rw [shape]
  · exact holds.started old among
  · rw [revisions]
    exact holds.dense old among
  · rw [revisions]
    exact holds.frozen old among

theorem RevisionsDense.insert (holds : RevisionsDense s)
    (free : lookup ProfileRowV2.id s.profiles row.id = none) (first : row.latestRevision = 1)
    (number : v.revision = row.latestRevision) (owner : v.profileID = row.id)
    (freezes : FrozenIn v row) :
    RevisionsDense { s with profiles := s.profiles ++ [row], revisions := s.revisions ++ [v] } := by
  have none : ∀ w ∈ s.revisions, w.profileID ≠ row.id := by
    intro w stored same
    obtain ⟨p, member, named⟩ := holds.owned w stored
    exact lookup_eq_none_iff.mp free p member (named.trans same)
  have apart : ∀ p ∈ s.profiles, p.id ≠ row.id := lookup_eq_none_iff.mp free
  refine ⟨nodup_concat.mpr ⟨holds.unique, free⟩, ?_, ?_, ?_, ?_⟩
  all_goals simp only [List.mem_append, List.mem_singleton]
  · rintro w (old | rfl)
    · obtain ⟨p, member, named⟩ := holds.owned w old
      exact ⟨p, .inl member, named⟩
    · exact ⟨row, .inr rfl, owner.symm⟩
  · rintro p (old | rfl)
    · exact holds.started p old
    · omega
  · rintro p (old | rfl) n
    · rw [← holds.dense p old n]
      constructor
      · rintro ⟨w, stored | rfl, named, same⟩
        · exact ⟨w, stored, named, same⟩
        · exact absurd (named.symm.trans owner) (apart p old)
      · rintro ⟨w, stored, facts⟩
        exact ⟨w, .inl stored, facts⟩
    · constructor
      · rintro ⟨w, stored | rfl, named, same⟩
        · exact absurd named (none w stored)
        · omega
      · intro range
        exact ⟨v, .inr rfl, owner, by omega⟩
  · rintro p (old | rfl) w (stored | rfl) named last
    · exact holds.frozen p old w stored named last
    · exact absurd (named.symm.trans owner) (apart p old)
    · exact absurd named (none w stored)
    · exact freezes

theorem RevisionsDense.update (holds : RevisionsDense s)
    (member : p ∈ s.profiles) (next : v.revision = p.latestRevision + 1)
    (number : v.revision = row.latestRevision) (owner : v.profileID = p.id)
    (freezes : FrozenIn v row) : RevisionsDense { s with
      profiles := amend ProfileRowV2.id s.profiles p.id row.updates
      revisions := s.revisions ++ [v] } := by
  have rows : ∀ q, q ∈ amend ProfileRowV2.id s.profiles p.id row.updates ↔
      q = row.updates p ∨ q ∈ s.profiles ∧ q ≠ p := fun q => mem_amend_iff holds.unique member
  have apart : ∀ q ∈ s.profiles, q ≠ p → q.id ≠ p.id := fun q among other same =>
    other (List.inj_on_of_nodup_map holds.unique among member same)
  refine ⟨nodup_amend holds.unique p.id fun _ => rfl, ?_, ?_, ?_, ?_⟩
  all_goals simp only [rows, List.mem_append, List.mem_singleton]
  · rintro w (old | rfl)
    · obtain ⟨q, among, named⟩ := holds.owned w old
      by_cases same : q = p
      · exact ⟨row.updates p, .inl rfl, same ▸ named⟩
      · exact ⟨q, .inr ⟨among, same⟩, named⟩
    · exact ⟨row.updates p, .inl rfl, owner.symm⟩
  · rintro q (rfl | ⟨among, _⟩)
    · have := holds.started p member
      simp only [ProfileRowV2.updates]
      omega
    · exact holds.started q among
  · rintro q (rfl | ⟨among, other⟩) n
    · have old := holds.dense p member n
      simp only [ProfileRowV2.updates]
      constructor
      · rintro ⟨w, stored | rfl, named, same⟩
        · have := old.mp ⟨w, stored, named, same⟩
          omega
        · have := holds.started p member
          omega
      · intro range
        by_cases last : n = p.latestRevision + 1
        · exact ⟨v, .inr rfl, owner, next.trans last.symm⟩
        · obtain ⟨w, stored, facts⟩ := old.mpr ⟨range.1, by omega⟩
          exact ⟨w, .inl stored, facts⟩
    · rw [← holds.dense q among n]
      constructor
      · rintro ⟨w, stored | rfl, named, same⟩
        · exact ⟨w, stored, named, same⟩
        · exact absurd (named.symm.trans owner) (apart q among other)
      · rintro ⟨w, stored, facts⟩
        exact ⟨w, .inl stored, facts⟩
  · rintro q (rfl | ⟨among, other⟩) w (stored | rfl) named last
    · have := (holds.dense p member w.revision).mp ⟨w, stored, named, rfl⟩
      simp only [ProfileRowV2.updates] at last
      omega
    · exact freezes
    · exact holds.frozen q among w stored named last
    · exact absurd (named.symm.trans owner) (apart q among other)

theorem RevisionsDense.stored (holds : RevisionsDense s)
    (drafted : (CatalogCall.storeProfile target row v).Drafted s)
    (stored : storeProfileRevision s target row v = .ok s') : RevisionsDense s' ∧ Grown s s' := by
  obtain ⟨numbered, number, owner, freezes⟩ := drafted
  obtain ⟨fresh, profiles, rfl, ⟨rfl, free, rfl⟩ | ⟨p, member, rfl, _, rfl⟩⟩ :=
    storeProfileRevision_eq_ok stored
  · refine ⟨holds.insert free numbered number owner freezes, fun p member => ?_⟩
    exact ⟨p, List.mem_append_left _ member, rfl, Int.le_refl _⟩
  · obtain ⟨positive, other, among, same, bound⟩ := numbered
    cases List.inj_on_of_nodup_map holds.unique among member same
    -- a number up to the latest one is stored already
    have next : v.revision = p.latestRevision + 1 := by
      by_contra earlier
      obtain ⟨w, old, named, equal⟩ :=
        (holds.dense p member v.revision).mpr ⟨by omega, by omega⟩
      exact fresh w old (named.trans owner.symm) equal
    refine ⟨holds.update member next number owner freezes, fun q old => ?_⟩
    by_cases same : q = p
    · refine ⟨row.updates p, (mem_amend_iff holds.unique member).mpr (.inl rfl),
        same ▸ rfl, ?_⟩
      simp only [ProfileRowV2.updates, same]
      omega
    · exact ⟨q, (mem_amend_iff holds.unique member).mpr (.inr ⟨old, same⟩), rfl,
        Int.le_refl _⟩

theorem CatalogMove.dense (holds : RevisionsDense s) (drafted : call.Drafted s)
    (move : CatalogMove s call s' call') : RevisionsDense s' ∧ call'.Drafted s' ∧ Grown s s' := by
  cases move with
  | failed => exact ⟨holds, trivial, .refl s⟩
  | authorized request =>
    refine ⟨holds, ?_, .refl s⟩
    rcases request with _ | ⟨_, _ | _, _⟩ | _
    · trivial
    · rfl
    · trivial
    · trivial
  | profileLoaded principal id req p found =>
    have member := mem_of_select found
    have := holds.started p member
    exact ⟨holds, ⟨by omega, p, member, key_of_select found, Int.le_refl _⟩, .refl s⟩
  | endpointLoaded => exact ⟨holds, drafted, .refl s⟩
  | built principal target n req e row v same =>
    obtain ⟨_, _, rfl, _, number, owner, freezes⟩ := same
    exact ⟨holds, ⟨drafted, number, owner, freezes⟩, .refl s⟩
  | endpointStored target row s' stored =>
    obtain ⟨_, rfl⟩ := storeEndpointRow_frame stored
    exact ⟨⟨holds.unique, holds.owned, holds.started, holds.dense, holds.frozen⟩, trivial, .refl s⟩
  | profileStored target row v s' stored =>
    obtain ⟨holds', grown⟩ := holds.stored drafted stored
    exact ⟨holds', trivial, grown⟩
  | deleted orgID kind id now s' gone =>
    obtain ⟨revisions, _, profiles⟩ := softDeleteResource_profiles gone
    obtain ⟨holds', grown⟩ := holds.marked profiles revisions
    exact ⟨holds', trivial, grown⟩
  | _ => exact ⟨holds, trivial, .refl s⟩

theorem revisions_outline (R : ReasoningRules) : Outline (modelCatalogProgram R)
    (fun _ _ => True) RevisionsDense (fun s call => call.Drafted s) fun _ _ _ => True where
  fresh _ _ _ := trivial
  freshPair _ _ _ _ _ := ⟨trivial, trivial⟩
  own p n t a s' t' holds _ found taken := by
    obtain ⟨dense, drafted, _⟩ := (CatalogCall.move taken).dense holds.shared (holds.each n t found)
    exact ⟨dense, drafted⟩
  other p n t a s' t' holds _ found taken m u _ there := by
    obtain ⟨_, _, grown⟩ := (CatalogCall.move taken).dense holds.shared (holds.each n t found)
    exact ⟨(holds.each m u there).grown grown, trivial, trivial⟩
  rest _ _ _ _ _ _ _ _ _ _ _ _ _ _ _ _ _ _ _ := trivial

theorem CatalogMove.revisions (move : CatalogMove s call s' call') :
    s.revisions <+: s'.revisions := by
  cases move with
  | profileStored target row v s' stored =>
    obtain ⟨_, _, rfl, _⟩ := storeProfileRevision_eq_ok stored
    exact List.prefix_append ..
  | endpointStored target row s' stored =>
    obtain ⟨_, rfl⟩ := storeEndpointRow_frame stored
    exact List.prefix_refl _
  | deleted orgID kind id now s' gone =>
    rw [(softDeleteResource_profiles gone).1]
  | _ => exact List.prefix_refl _

/-- In every state that catalog calls reach, the revisions of a profile are those from
one to its latest, which freezes the row's endpoint, policy and limits; and no later
step changes a stored one. -/
theorem profile_revisions_dense (R : ReasoningRules) (s : CatalogV2)
    (empty : s.profiles = [] ∧ s.revisions = [])
    (first rest : List (Action CatalogRequest Answer))
    (p q : Pool CatalogV2 CatalogCall)
    (ran : run (modelCatalogProgram R).step ⟨s, []⟩ first = some p)
    (more : run (modelCatalogProgram R).step p rest = some q) :
    RevisionsDense p.shared ∧ p.shared.revisions <+: q.shared.revisions := by
  have start : RevisionsDense s := by
    constructor <;> simp [empty.1, empty.2]
  refine ⟨((revisions_outline R).run (.empty start) (guarded_true ..) ran).shared, ?_⟩
  refine run_shared (I := fun t => p.shared.revisions <+: t.revisions) ?_
    (List.prefix_refl _) more
  intro s call a s' call' grew taken
  exact grew.trans (CatalogCall.move taken).revisions

/-- Two updates that read the same number: the second one is refused. -/
theorem stale_update_refused :
    let R : ReasoningRules := ⟨fun policy _ => .ok policy, fun _ _ => .ok ""⟩
    let ann : Principal := ⟨"user", "ann", "org"⟩
    let s : CatalogV2 :=
      { models := [⟨"m", "org", "active", "", none⟩]
        endpoints := [⟨"e", "m", "org", "active", "", none⟩] }
    let update : Action CatalogRequest Answer :=
      .call (.profile ann (some "p") { code := "p", endpointID := "e", limits := "x" })
    ∃ q, run (modelCatalogProgram R).step ⟨s, []⟩
        (.call (.profile ann none { code := "p", endpointID := "e" }) ::
          List.replicate 4 (.advance 0 { uuid := "p" }) ++ [update, update] ++
          List.flatten (List.replicate 5 [.advance 1 {}, .advance 2 {}])) = some q ∧
      RevisionsDense q.shared ∧
      q.threads[2]? = some (.returned (.error modelConflict)) := by
  intro R ann s update
  refine exists_run (P := fun q => q.threads[2]? =
    some (.returned (.error modelConflict)))
    (by decide +kernel) fun q ran refused => ⟨?_, refused⟩
  exact (profile_revisions_dense R s ⟨rfl, rfl⟩ _ [] q q ran rfl).1

end AisphereHub
