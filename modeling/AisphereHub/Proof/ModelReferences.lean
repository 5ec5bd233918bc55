import AisphereHub.Server.ModelCatalog

/-! The references of the model catalog under deletions that count before they delete. -/
namespace AisphereHub

open Keyed Transition Threads

def LiveModel (s : CatalogV2) (orgID id : String) : Prop :=
  ∃ m ∈ s.models, m.id = id ∧ m.visible orgID = true

def LiveEndpoint (s : CatalogV2) (orgID id : String) : Prop :=
  ∃ e ∈ s.endpoints, e.id = id ∧ e.visible orgID = true

/-- Live endpoints belong to live models, and live profiles to live endpoints, of their
organisation. -/
def NoDangling (s : CatalogV2) : Prop :=
  (∀ e ∈ s.endpoints, e.deletedAt = none → LiveModel s e.orgID e.modelID) ∧
    ∀ p ∈ s.profiles, p.deletedAt = none → LiveEndpoint s p.orgID p.endpointID

/-- Ids are unique, and those of models have no space around them. -/
structure CatalogKeys (s : CatalogV2) : Prop where
  models : ∀ m ∈ s.models, GoStrings.trimSpace m.id = m.id
  endpoints : (s.endpoints.map EndpointRowV2.id).Nodup
  profiles : (s.profiles.map ProfileRowV2.id).Nodup

def CatalogCall.refers : CatalogCall → Bool
  | .storeEndpoint .. | .loadModel .. | .storeProfile .. => true
  | _ => false

def CatalogCall.deletes : CatalogCall → Bool
  | .softDelete .. => true
  | _ => false

/-- No deletion is past its count while another call is past its check. -/
def DeletesAlone (p : Pool CatalogV2 CatalogCall) : Prop :=
  ∀ t ∈ p.threads, ∀ u ∈ p.threads, t.refers = true → u.deletes = false

def OwnProfile (s : CatalogV2) (orgID : String) (target : Option String) : Prop :=
  ∀ id ∈ target, ∃ p ∈ s.profiles, p.id = id ∧ p.orgID = orgID

def CatalogCall.Found (s : CatalogV2) : CatalogCall → Prop
  | .storeEndpoint _ row => LiveModel s row.orgID row.modelID
  | .loadEndpoint principal target _ _ => OwnProfile s principal.orgID target
  | .loadModel principal target _ _ e =>
    LiveEndpoint s principal.orgID e.id ∧ OwnProfile s principal.orgID target
  | .storeProfile target row _ =>
    LiveEndpoint s row.orgID row.endpointID ∧ OwnProfile s row.orgID target
  | .softDelete _ kind id => catalogReferences s id kind = 0
  | _ => True

variable {R : ReasoningRules} {s s' : CatalogV2} {call call' : CatalogCall} {orgID : String}
  {target : Option String}

theorem OwnProfile.kept (own : OwnProfile s orgID target)
    (kept : ∀ p ∈ s.profiles, ∃ p' ∈ s'.profiles, p'.id = p.id ∧ p'.orgID = p.orgID) :
    OwnProfile s' orgID target := by
  intro id named
  obtain ⟨p, member, same, org⟩ := own id named
  obtain ⟨p', member', same', org'⟩ := kept p member
  exact ⟨p', member', same'.trans same, org'.trans org⟩

variable {id : String}

theorem storeEndpointRow_eq_ok (unique : (s.endpoints.map EndpointRowV2.id).Nodup)
    (stored : storeEndpointRow s target row = .ok s') : ∃ endpoints,
      s' = { s with endpoints := endpoints } ∧ (endpoints.map EndpointRowV2.id).Nodup ∧
      (∀ e ∈ endpoints, e ∈ s.endpoints ∨ e.modelID = row.modelID ∧ e.orgID = row.orgID) ∧
      ∀ e ∈ s.endpoints, ∃ e' ∈ endpoints, e'.id = e.id ∧ e'.orgID = e.orgID ∧
        e'.deletedAt = e.deletedAt := by
  unfold storeEndpointRow at stored
  cases target with
  | none =>
    split_ifs at stored with taken
    cases stored
    refine ⟨_, rfl, nodup_concat.mpr ⟨unique, by simpa using taken⟩, ?_, fun e member =>
      ⟨e, List.mem_append_left _ member, rfl, rfl, rfl⟩⟩
    intro e member
    rcases List.mem_append.mp member with old | new
    · exact .inl old
    · exact .inr (List.mem_singleton.mp new ▸ ⟨rfl, rfl⟩)
  | some id =>
    obtain ⟨out, updated, rfl⟩ := map_eq_ok stored
    obtain ⟨old, found, live, rfl⟩ := update_eq_some.mp (orNotFound_eq_ok.mp updated)
    cases key_of_lookup found
    have member := mem_of_lookup found
    have org : old.orgID = row.orgID := by
      simp only [EndpointRowV2.visible, Bool.and_eq_true, beq_iff_eq] at live
      exact live.2
    refine ⟨_, rfl, nodup_amend unique _ fun _ => rfl, ?_, ?_⟩
    · intro e after
      rcases (mem_amend_iff unique member).mp after with rfl | ⟨among, _⟩
      · exact .inr ⟨rfl, org⟩
      · exact .inl among
    · intro e among
      by_cases same : e = old
      · exact ⟨_, (mem_amend_iff unique member).mpr (.inl rfl), same ▸ rfl, same ▸ rfl,
          same ▸ rfl⟩
      · exact ⟨e, (mem_amend_iff unique member).mpr (.inr ⟨among, same⟩), rfl, rfl, rfl⟩

theorem storeProfileRevision_refers
    (unique : (s.profiles.map ProfileRowV2.id).Nodup) (own : OwnProfile s row.orgID target)
    (stored : storeProfileRevision s target row v = .ok s') :
    ∃ profiles revisions, s' = { s with profiles := profiles, revisions := revisions } ∧
      (profiles.map ProfileRowV2.id).Nodup ∧
      (∀ p ∈ profiles, p ∈ s.profiles ∨ p.endpointID = row.endpointID ∧ p.orgID = row.orgID) ∧
      ∀ p ∈ s.profiles, ∃ p' ∈ profiles, p'.id = p.id ∧ p'.orgID = p.orgID := by
  obtain ⟨_, profiles, rfl, ⟨rfl, free, rfl⟩ | ⟨old, member, rfl, _, rfl⟩⟩ :=
    storeProfileRevision_eq_ok stored
  · refine ⟨_, _, rfl, nodup_concat.mpr ⟨unique, free⟩, ?_, fun p member =>
      ⟨p, List.mem_append_left _ member, rfl, rfl⟩⟩
    intro p member
    rcases List.mem_append.mp member with old | new
    · exact .inl old
    · exact .inr (List.mem_singleton.mp new ▸ ⟨rfl, rfl⟩)
  · obtain ⟨p, among, same, org⟩ := own old.id rfl
    cases List.inj_on_of_nodup_map unique among member same
    refine ⟨_, _, rfl, nodup_amend unique _ fun _ => rfl, ?_, ?_⟩
    · intro q after
      rcases (mem_amend_iff unique member).mp after with rfl | ⟨among, _⟩
      · exact .inr ⟨rfl, org⟩
      · exact .inl among
    · intro q among
      by_cases same : q = old
      · exact ⟨_, (mem_amend_iff unique member).mpr (.inl rfl), same ▸ rfl, same ▸ rfl⟩
      · exact ⟨q, (mem_amend_iff unique member).mpr (.inr ⟨among, same⟩), rfl, rfl⟩

theorem references_eq_zero : (catalogReferences s id .model = 0 ↔
      ∀ e ∈ s.endpoints, e.deletedAt = none → e.modelID ≠ id) ∧
    (catalogReferences s id .endpoint = 0 ↔
      ∀ p ∈ s.profiles, p.deletedAt = none → p.endpointID ≠ id) := by
  simp only [catalogReferences, List.countP_eq_zero, Bool.and_eq_true, beq_iff_eq,
    Option.isNone_iff_eq_none, not_and]
  exact ⟨⟨fun h e m d same => h e m same d, fun h e m same d => h e m d same⟩,
    ⟨fun h p m d same => h p m same d, fun h p m same d => h p m d same⟩⟩

theorem softDeleteResource_safe (keys : CatalogKeys s)
    (safe : NoDangling s) (unused : catalogReferences s id kind = 0)
    (gone : softDeleteResource s orgID id now kind = some s') : CatalogKeys s' ∧ NoDangling s' ∧
      (∀ p ∈ s.profiles, ∃ p' ∈ s'.profiles, p'.id = p.id ∧ p'.orgID = p.orgID) ∧
      ∀ other id', catalogReferences s id' other = 0 → catalogReferences s' id' other = 0 := by
  cases kind with
  | model =>
    obtain ⟨out, updated, rfl⟩ := Option.map_eq_some_iff.mp gone
    obtain ⟨_, _, _, rfl⟩ := update_eq_some.mp updated
    rw [references_eq_zero.1] at unused
    refine ⟨⟨?_, keys.endpoints, keys.profiles⟩, ⟨?_, safe.2⟩, fun p member =>
      ⟨p, member, rfl, rfl⟩, fun other id' none => ?_⟩
    · intro m member
      rcases mem_amend member with ⟨among, _⟩ | ⟨old, among, _, rfl⟩
      · exact keys.models m among
      · exact keys.models old among
    · intro e member live
      obtain ⟨m, among, named, visible⟩ := safe.1 e member live
      exact ⟨m, mem_amend_of_ne among (named ▸ unused e member live), named, visible⟩
    · cases other <;> exact none
  | endpoint =>
    obtain ⟨out, updated, rfl⟩ := Option.map_eq_some_iff.mp gone
    obtain ⟨_, _, _, rfl⟩ := update_eq_some.mp updated
    rw [references_eq_zero.2] at unused
    have old : ∀ e ∈ amend EndpointRowV2.id s.endpoints id
        (fun e => { e with deletedAt := some now }), e.deletedAt = none → e ∈ s.endpoints := by
      intro e member live
      rcases mem_amend member with ⟨among, _⟩ | ⟨_, _, _, rfl⟩
      · exact among
      · cases live
    refine ⟨⟨keys.models, nodup_amend keys.endpoints _ fun _ => rfl, keys.profiles⟩,
      ⟨fun e member live => safe.1 e (old e member live) live, ?_⟩, fun p member =>
      ⟨p, member, rfl, rfl⟩, fun other id' none => ?_⟩
    · intro p member live
      obtain ⟨e, among, named, visible⟩ := safe.2 p member live
      exact ⟨e, mem_amend_of_ne among (named ▸ unused p member live), named, visible⟩
    · cases other with
      | model =>
        rw [references_eq_zero.1] at none ⊢
        exact fun e member live => none e (old e member live) live
      | _ => exact none
  | profile =>
    obtain ⟨out, updated, rfl⟩ := Option.map_eq_some_iff.mp gone
    obtain ⟨_, _, _, rfl⟩ := update_eq_some.mp updated
    have old : ∀ p ∈ amend ProfileRowV2.id s.profiles id
        (fun p => { p with deletedAt := some now }), p.deletedAt = none → p ∈ s.profiles := by
      intro p member live
      rcases mem_amend member with ⟨among, _⟩ | ⟨_, _, _, rfl⟩
      · exact among
      · cases live
    refine ⟨⟨keys.models, keys.endpoints, nodup_amend keys.profiles _ fun _ => rfl⟩,
      ⟨safe.1, fun p member live => safe.2 p (old p member live) live⟩, fun p member => ?_,
      fun other id' none => ?_⟩
    · by_cases same : p.id = id
      · exact ⟨_, List.mem_map.mpr ⟨p, member, if_pos same⟩, rfl, rfl⟩
      · exact ⟨p, mem_amend_of_ne member same, rfl, rfl⟩
    · cases other with
      | endpoint =>
        rw [references_eq_zero.2] at none ⊢
        exact fun p member live => none p (old p member live) live
      | _ => exact none

theorem CatalogMove.references (keys : CatalogKeys s) (safe : NoDangling s) (found : call.Found s)
    (move : CatalogMove s call s' call') : CatalogKeys s' ∧ NoDangling s' ∧ call'.Found s' := by
  cases move with
  | authorized request =>
    refine ⟨keys, safe, ?_⟩
    rcases request with _ | ⟨_, _ | _, _⟩ | _
    all_goals first | trivial | exact nofun
  | ensured orgID target req m row chosen built =>
    have member := mem_of_select chosen
    refine ⟨keys, safe, m, member, ?_, built.2.1 ▸ (select_eq_some.mp chosen).2⟩
    rw [built.1, ← key_of_select chosen, keys.models m member]
  | endpointStored target row s' stored =>
    obtain ⟨endpoints, rfl, unique, rows, kept⟩ := storeEndpointRow_eq_ok keys.endpoints stored
    refine ⟨⟨keys.models, unique, keys.profiles⟩, ⟨?_, ?_⟩, trivial⟩
    · intro e member live
      rcases rows e member with old | ⟨model, org⟩
      · exact safe.1 e old live
      · rw [model, org]
        exact found
    · intro p member live
      obtain ⟨e, among, named, visible⟩ := safe.2 p member live
      obtain ⟨e', there, id, org, deleted⟩ := kept e among
      refine ⟨e', there, id.trans named, ?_⟩
      rwa [EndpointRowV2.visible, org, deleted]
  | profileLoaded principal id req p chosen =>
    have visible := (select_eq_some.mp chosen).2
    simp only [ProfileRowV2.visible, Bool.and_eq_true, beq_iff_eq] at visible
    refine ⟨keys, safe, fun other named => ?_⟩
    cases named
    exact ⟨p, mem_of_select chosen, key_of_select chosen, visible.2⟩
  | endpointLoaded principal target n req e chosen =>
    exact ⟨keys, safe, ⟨e, mem_of_select chosen, rfl, (select_eq_some.mp chosen).2⟩, found⟩
  | built principal target n req e row v same =>
    refine ⟨keys, safe, ?_⟩
    simp only [CatalogCall.Found, same.1, same.2.1]
    exact found
  | profileStored target row v s' stored =>
    obtain ⟨profiles, _, rfl, unique, rows, _⟩ :=
      storeProfileRevision_refers keys.profiles found.2 stored
    refine ⟨⟨keys.models, keys.endpoints, unique⟩, ⟨safe.1, ?_⟩, trivial⟩
    intro p member live
    rcases rows p member with old | ⟨endpoint, org⟩
    · exact safe.2 p old live
    · rw [endpoint, org]
      exact found.1
  | counted orgID kind id unused => exact ⟨keys, safe, unused⟩
  | deleted orgID kind id now s' gone =>
    obtain ⟨keys', safe', _⟩ := softDeleteResource_safe keys safe found gone
    exact ⟨keys', safe', trivial⟩
  | failed => exact ⟨keys, safe, trivial⟩

theorem CatalogMove.others (keys : CatalogKeys s) (safe : NoDangling s) (found : call.Found s)
    (move : CatalogMove s call s' call') {u : CatalogCall} (foundU : u.Found s)
    (apart : call.refers = true → u.deletes = false) (apart' : u.refers = true → call.deletes = false) :
    u.Found s' := by
  cases move with
  | endpointStored target row s' stored =>
    obtain ⟨endpoints, rfl, _, _, kept⟩ := storeEndpointRow_eq_ok keys.endpoints stored
    have lives : ∀ orgID id, LiveEndpoint s orgID id →
        LiveEndpoint { s with endpoints := endpoints } orgID id := by
      rintro orgID id ⟨e, among, named, visible⟩
      obtain ⟨e', there, same, org, deleted⟩ := kept e among
      refine ⟨e', there, same.trans named, ?_⟩
      rwa [EndpointRowV2.visible, org, deleted]
    cases u with
    | softDelete => exact absurd (apart rfl) (by simp [CatalogCall.deletes])
    | loadModel | storeProfile => exact ⟨lives _ _ foundU.1, foundU.2⟩
    | _ => exact foundU
  | profileStored target row v s' stored =>
    obtain ⟨profiles, _, rfl, _, _, kept⟩ :=
      storeProfileRevision_refers keys.profiles found.2 stored
    cases u with
    | softDelete => exact absurd (apart rfl) (by simp [CatalogCall.deletes])
    | loadEndpoint => exact OwnProfile.kept foundU kept
    | loadModel | storeProfile => exact ⟨foundU.1, foundU.2.kept kept⟩
    | _ => exact foundU
  | deleted orgID kind id now s' gone =>
    obtain ⟨_, _, kept, fewer⟩ := softDeleteResource_safe keys safe found gone
    cases u with
    | softDelete => exact fewer _ _ foundU
    | loadEndpoint => exact OwnProfile.kept foundU kept
    | loadModel | storeEndpoint | storeProfile => exact absurd (apart' rfl) (by simp [CatalogCall.deletes])
    | _ => trivial
  | _ => exact foundU

theorem references_outline (R : ReasoningRules) : Outline (modelCatalogProgram R)
    (fun p _ => DeletesAlone p) (fun s => CatalogKeys s ∧ NoDangling s)
    (fun s call => call.Found s) fun _ _ _ => True where
  fresh _ _ _ := trivial
  freshPair _ _ _ _ _ := ⟨trivial, trivial⟩
  own p n t a s' t' holds _ found taken := by
    obtain ⟨keys, safe, own⟩ := (CatalogCall.move taken).references holds.shared.1 holds.shared.2
      (holds.each n t found)
    exact ⟨⟨keys, safe⟩, own⟩
  other p n t a s' t' holds alone found taken m u _ there := by
    have memberT := List.mem_of_getElem? found
    have memberU := List.mem_of_getElem? there
    exact ⟨(CatalogCall.move taken).others holds.shared.1 holds.shared.2 (holds.each n t found)
      (holds.each m u there) (alone t memberT u memberU) (alone u memberU t memberT), trivial, trivial⟩
  rest _ _ _ _ _ _ _ _ _ _ _ _ _ _ _ _ _ _ _ := trivial

/-- Where no deletion is past its count while another call is past its check, no
reference dangles in any state that catalog calls reach. -/
theorem exclusive_deletions_safe (R : ReasoningRules) (s : CatalogV2) (keys : CatalogKeys s)
    (safe : NoDangling s) (actions : List (Action CatalogRequest Answer))
    (p : Pool CatalogV2 CatalogCall)
    (ran : run (modelCatalogProgram R).step ⟨s, []⟩ actions = some p)
    (alone : Guarded (modelCatalogProgram R).step (fun p _ => DeletesAlone p) ⟨s, []⟩
      actions) : NoDangling p.shared :=
  ((references_outline R).run (.empty ⟨keys, safe⟩) alone ran).shared.2

instance (p : Pool CatalogV2 CatalogCall) : Decidable (DeletesAlone p) :=
  inferInstanceAs (Decidable (∀ t ∈ p.threads, ∀ u ∈ p.threads, _ → _))

def anyPolicy : ReasoningRules := ⟨fun policy _ => .ok policy, fun _ _ => .ok ""⟩

def oneModel : CatalogV2 := { models := [⟨"m", "org", "active", "", none⟩] }

def endpointAndDeletion : List (Action CatalogRequest Answer) :=
  [.call (.endpoint ⟨"user", "ann", "org"⟩ none ⟨"m", "e", "https://e", "m", "", "", ""⟩),
    .call (.delete ⟨"user", "bob", "org"⟩ .model "m")]

theorem endpoint_then_deletion_safe : ∃ p, run (modelCatalogProgram anyPolicy).step
    ⟨oneModel, []⟩ (endpointAndDeletion ++ [.advance 0 {}, .advance 0 { uuid := "e" }, .advance 0 {},
      .advance 1 {}, .advance 1 {}]) = some p ∧ p.shared.endpoints ≠ [] ∧ NoDangling p.shared := by
  refine exists_run (P := fun p => p.shared.endpoints ≠ []) (by decide +kernel)
    fun p ran some => ⟨some, ?_⟩
  exact exclusive_deletions_safe anyPolicy oneModel
    ⟨by decide +kernel, by decide +kernel, by decide +kernel⟩ ⟨nofun, nofun⟩ _ p ran
    (by decide +kernel)

/-- The model is deleted between the check and the insert. -/
theorem endpoint_dangles : ∃ p, run (modelCatalogProgram anyPolicy).step
    ⟨oneModel, []⟩ (endpointAndDeletion ++ [.advance 0 {}, .advance 0 { uuid := "e" }, .advance 1 {},
      .advance 1 {}, .advance 1 {}, .advance 0 {}]) = some p ∧
    (modelCatalogProgram anyPolicy).quiescent p = true ∧ ¬NoDangling p.shared := by
  refine ⟨_, rfl, by decide +kernel, fun safe => ?_⟩
  obtain ⟨m, member, _, visible⟩ := safe.1 _ (List.mem_singleton_self _) rfl
  cases List.mem_singleton.mp member
  exact absurd visible (by decide)

end AisphereHub
