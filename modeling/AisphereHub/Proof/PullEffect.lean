import AisphereHub.Biz.PullRequestUsecase

/-! What one step of the pull request calls does to the rows and the reviews.
Rows stay what they were opened as and reviews are never withdrawn, so what a
merge has checked of them once holds to its end, except the row's state. -/
namespace AisphereHub

open Keyed Threads

def Merged (s : SkillStore) (id : String) : Prop :=
  ∃ row, lookup SkillPullRequest.id s.pulls id = some row ∧ row.state = .MERGED

structure SkillPullRequest.Same (row other : SkillPullRequest) : Prop where
  skillName : other.skillName = row.skillName
  sourceSHA : other.sourceSHA = row.sourceSHA
  targetSHA : other.targetSHA = row.targetSHA

theorem SkillPullRequest.Same.refl (row : SkillPullRequest) : row.Same row := ⟨rfl, rfl, rfl⟩

variable {row : SkillPullRequest}

theorem SkillPullRequest.Same.trans (first : row.Same other)
    (second : other.Same third) : row.Same third :=
  ⟨second.skillName.trans first.skillName, second.sourceSHA.trans first.sourceSHA,
    second.targetSHA.trans first.targetSHA⟩

/-- Every row stays what it was opened as, a merged one stays merged, and no
review is withdrawn. -/
structure Advance (s s' : SkillStore) : Prop where
  reviews : ∀ r ∈ s.reviews, r ∈ s'.reviews
  pulls : ∀ id row, lookup SkillPullRequest.id s.pulls id = some row →
    ∃ row', lookup SkillPullRequest.id s'.pulls id = some row' ∧ row.Same row' ∧
      (row.state = .MERGED → row'.state = .MERGED)

variable {id : String}

theorem Advance.merged (advance : Advance s s') (merged : Merged s id) : Merged s' id := by
  obtain ⟨row, found, state⟩ := merged
  obtain ⟨row', found', _, stays⟩ := advance.pulls id row found
  exact ⟨row', found', stays state⟩

theorem Advance.of_same (reviews : s'.reviews = s.reviews)
    (pulls : s'.pulls = s.pulls) : Advance s s' := by
  refine ⟨?_, ?_⟩
  · intro r member
    exact reviews ▸ member
  · intro id row found
    exact ⟨row, pulls ▸ found, .refl row, fun merged => merged⟩

theorem Advance.trans (first : Advance s s') (second : Advance s' t) : Advance s t where
  reviews r member := second.reviews r (first.reviews r member)
  pulls id row found := by
    obtain ⟨row', found', same, merged⟩ := first.pulls id row found
    obtain ⟨row'', found'', same', merged'⟩ := second.pulls id row' found'
    exact ⟨row'', found'', same.trans same', fun state => merged' (merged state)⟩

theorem advance_same (s : SkillStore) : Advance s s ∧ ∀ id, Merged s id → Merged s id :=
  ⟨.of_same rfl rfl, fun _ merged => merged⟩

theorem Advance.amend (f : SkillPullRequest → SkillPullRequest)
    (keep : ∀ row, (f row).id = row.id) (same : ∀ row : SkillPullRequest, row.Same (f row))
    (found : lookup SkillPullRequest.id s.pulls id = some row) (opened : row.state = .OPEN) :
    Advance s { s with pulls := amend SkillPullRequest.id s.pulls id f } := by
  refine ⟨fun _ member => member, ?_⟩
  intro j other foundOther
  simp only [lookup_amend keep]
  by_cases here : j = id
  · subst here
    rw [found, Option.some.injEq] at foundOther
    subst foundOther
    refine ⟨f row, by simp [found], same row, ?_⟩
    intro merged
    rw [opened] at merged
    cases merged
  · exact ⟨other, by simp [here, foundOther], .refl other, fun merged => merged⟩

theorem merged_amend (f : SkillPullRequest → SkillPullRequest)
    (keep : ∀ row, (f row).id = row.id)
    (merged : Merged { s with pulls := amend SkillPullRequest.id s.pulls id f } j) :
    Merged s j ∨ j = id ∧ ∃ row, (f row).state = .MERGED := by
  obtain ⟨row', found, state⟩ := merged
  simp only [lookup_amend keep] at found
  split_ifs at found with here
  · obtain ⟨row, _, rfl⟩ := Option.map_eq_some_iff.mp found
    exact .inr ⟨here, row, state⟩
  · exact .inl ⟨row', found, state⟩

theorem merged_append (opened : row.state = .OPEN)
    (merged : Merged { s with pulls := s.pulls ++ [row] } id) : Merged s id := by
  obtain ⟨row', found, state⟩ := merged
  simp only [lookup_append, Option.or_eq_some_iff] at found
  rcases found with old | ⟨_, new⟩
  · exact ⟨row', old, state⟩
  · split_ifs at new
    cases new
    rw [opened] at state
    cases state

section
variable {s s' : SkillStore} {a : GitAnswer}

theorem merge_advance {call : MergeCall} (taken : call.next s a = some (s', call')) :
    Advance s s' ∧ ∀ id, Merged s' id → Merged s id ∨
      ∃ request pr sourceSHA, call = .record request pr sourceSHA ∧ request.id = id := by
  have quiet : ∀ {s' : SkillStore}, s'.reviews = s.reviews → s'.pulls = s.pulls →
      Advance s s' ∧ ∀ id, Merged s' id → Merged s id ∨
        ∃ request pr sourceSHA, call = .record request pr sourceSHA ∧ request.id = id := by
    intro s' reviews pulls
    refine ⟨.of_same reviews pulls, ?_⟩
    rintro id ⟨row, found, state⟩
    exact .inl ⟨row, pulls ▸ found, state⟩
  cases call with simp only [MergeCall.next, reduceCtorEq] at taken
  | record request pr sourceSHA =>
    split at taken
    · cases taken
      exact quiet rfl rfl
    · rename_i rows merged recorded
      cases taken
      have recorded := (gitFault_eq_ok.mp recorded).2
      unfold mergePullRequest at recorded
      split at recorded
      · cases recorded
      split_ifs at recorded
      split at recorded
      · cases recorded
      rename_i updating
      cases recorded
      obtain ⟨row, found, guard, same⟩ := Keyed.update_eq_some.mp updating
      simp only [Bool.and_eq_true, beq_iff_eq] at guard
      cases same
      refine ⟨.amend (SkillPullRequest.recordMerge · _ _ _) (fun _ => rfl)
        (fun _ => ⟨rfl, rfl, rfl⟩) found guard.1, ?_⟩
      intro id merged
      rcases merged_amend (SkillPullRequest.recordMerge · _ _ _) (fun _ => rfl) merged with
        old | ⟨here, _⟩
      · exact .inl old
      · exact .inr ⟨request, pr, sourceSHA, rfl, here.symm⟩
  | _ =>
    repeat' split at taken
    all_goals
      cases taken
      exact quiet rfl rfl

theorem close_advance {call : CloseCall} (taken : call.next s a = some (s', call')) :
    Advance s s' ∧ ∀ id, Merged s' id → Merged s id := by
  cases call with simp only [CloseCall.next, reduceCtorEq] at taken
  | close skill id =>
    split at taken
    · cases taken
      exact advance_same s
    · split at taken <;> cases taken
      · exact advance_same s
      · rename_i rows updated closed
        obtain ⟨row, found, guard, out⟩ := Keyed.update_eq_some.mp closed
        simp only [Bool.and_eq_true, beq_iff_eq] at guard
        cases out
        refine ⟨.amend (SkillPullRequest.closed · _) (fun _ => rfl) (fun _ => ⟨rfl, rfl, rfl⟩)
          found guard.2, ?_⟩
        intro j merged
        rcases merged_amend (SkillPullRequest.closed · _) (fun _ => rfl) merged with
          old | ⟨_, _, state⟩
        · exact old
        · cases state
  | reread skill id affected =>
    split at taken <;> cases taken <;> exact advance_same s

theorem review_advance {call : ReviewCall} (taken : call.next s a = some (s', call')) :
    Advance s s' ∧ ∀ id, Merged s' id → Merged s id := by
  cases call with
  | create request =>
    simp only [ReviewCall.next] at taken
    split at taken
    · cases taken
      exact advance_same s
    · split at taken <;> cases taken
      · exact advance_same s
      · rename_i reviews created
        obtain rfl := createReview_eq_ok (gitFault_eq_ok.mp created).2
        refine ⟨⟨?_, ?_⟩, fun _ merged => merged⟩
        · intro r member
          exact List.mem_append_left _ member
        · intro id row found
          exact ⟨row, found, .refl row, fun merged => merged⟩
  | returned result => cases taken

theorem create_advance {call : CreateCall}
    (opens : ∀ item, call = .insert item → item.state = .OPEN)
    (taken : call.next s a = some (s', call')) :
    Advance s s' ∧ ∀ id, Merged s' id → Merged s id := by
  cases call with simp only [CreateCall.next, reduceCtorEq] at taken
  | resolveSource | resolveTarget =>
    repeat' split at taken
    all_goals
      cases taken
      exact advance_same s
  | insert item =>
    split at taken <;> cases taken
    · exact advance_same s
    · rename_i rows created
      obtain rfl := createPullRequest_eq_ok (gitFault_eq_ok.mp created).2
      refine ⟨⟨fun _ member => member, ?_⟩, ?_⟩
      · intro id row found
        exact ⟨row, by simp [lookup_append, found], .refl row, fun merged => merged⟩
      · intro id
        exact merged_append (opens item rfl)

variable {call' : PullCall}

theorem next_merge (taken : PullCall.next s (.merge merge) a = some (s', call')) :
    ∃ merge', merge.next s a = some (s', merge') ∧ call' = .merge merge' :=
  lifted_step taken

def PullCall.opens : PullCall → Prop
  | .create (.insert item) => item.state = .OPEN
  | _ => True

theorem next_opens {call : PullCall} (taken : call.next s a = some (s', call')) : call'.opens := by
  cases call with
  | create call =>
    obtain ⟨_, inner, rfl⟩ := lifted_step taken
    cases call with simp only [CreateCall.next, reduceCtorEq] at inner
    | resolveTarget request item =>
      split at inner <;> cases inner
      · trivial
      · rfl
    | resolveSource | insert =>
      repeat' split at inner
      all_goals
        cases inner
        trivial
  | merge | close | review =>
    obtain ⟨_, inner, rfl⟩ := lifted_step taken
    trivial
  | push skill name sha =>
    simp only [PullCall.next] at taken
    split at taken <;> cases taken <;> trivial
  | pushed => cases taken

theorem next_advance {call : PullCall} (opens : call.opens)
    (taken : call.next s a = some (s', call')) : Advance s s' ∧ ∀ id, Merged s' id → Merged s id ∨
      ∃ request pr sourceSHA, call = .merge (.record request pr sourceSHA) ∧ request.id = id := by
  cases call with
  | merge call =>
    obtain ⟨_, inner, rfl⟩ := lifted_step taken
    obtain ⟨advance, merged⟩ := merge_advance inner
    refine ⟨advance, ?_⟩
    intro id now
    rcases merged id now with old | ⟨request, pr, sourceSHA, rfl, here⟩
    · exact .inl old
    · exact .inr ⟨request, pr, sourceSHA, rfl, here⟩
  | close call =>
    obtain ⟨_, inner, rfl⟩ := lifted_step taken
    obtain ⟨advance, merged⟩ := close_advance inner
    exact ⟨advance, fun id now => .inl (merged id now)⟩
  | review call =>
    obtain ⟨_, inner, rfl⟩ := lifted_step taken
    obtain ⟨advance, merged⟩ := review_advance inner
    exact ⟨advance, fun id now => .inl (merged id now)⟩
  | create call =>
    obtain ⟨_, inner, rfl⟩ := lifted_step taken
    have items : ∀ item, call = .insert item → item.state = .OPEN := by
      rintro item rfl
      exact opens
    obtain ⟨advance, merged⟩ := create_advance items inner
    exact ⟨advance, fun id now => .inl (merged id now)⟩
  | push skill name sha =>
    simp only [PullCall.next] at taken
    split at taken <;> cases taken <;>
      exact ⟨.of_same rfl rfl, fun _ merged => .inl merged⟩
  | pushed => cases taken

theorem checkReviews_eq_ok (passed : checkReviews reviews approved = .ok ()) :
    (approved = true ∨ ∃ r ∈ reviews, r.verdict = .APPROVE) ∧
      ∀ r ∈ reviews, r.verdict ≠ .REQUEST_CHANGES := by
  induction reviews generalizing approved with
  | nil =>
    simp only [checkReviews] at passed
    split_ifs at passed with already
    exact ⟨.inl already, by simp⟩
  | cons review rest ih =>
    simp only [checkReviews] at passed
    split_ifs at passed with rejected
    obtain ⟨approves, clean⟩ := ih passed
    refine ⟨?_, ?_⟩
    · simp only [Bool.or_eq_true, beq_iff_eq] at approves
      rcases approves with (already | here) | ⟨r, member, verdict⟩
      · exact .inl already
      · exact .inr ⟨review, List.mem_cons_self, here⟩
      · exact .inr ⟨r, List.mem_cons_of_mem _ member, verdict⟩
    · intro r member
      rcases List.mem_cons.mp member with rfl | later
      · exact rejected
      · exact clean r later

end

end AisphereHub
