import AisphereHub.Proof.DefaultBranchMetadata
import AisphereHub.Proof.RejectedWrite

/-! The stored projection of a skill against `SKILL.md` at the head of its default
branch. -/
namespace AisphereHub

open GoStrings Transition

variable {β : Type} {P : Plumbing β} {a : EngineAnswer β} {r r' : Repository β}
  {commit : Commit β} {name : String}

def Projected (P : Plumbing β) (r : Repository β) : Prop :=
  (r.lookup skillDefaultRef).bind (metadataOf P r.name) = some (r.displayName, r.description)

instance (P : Plumbing β) (r : Repository β) : Decidable (Projected P r) :=
  inferInstanceAs (Decidable (_ = _))

theorem syncSkillMetadata_eq_ok (synced : syncSkillMetadata P a r commit = (r', .ok ())) :
    ∃ shown, metadataOf P r.name commit = some shown ∧
      r' = { r with displayName := shown.1, description := shown.2 } := by
  unfold syncSkillMetadata at synced
  split at synced
  · cases synced
  rename_i displayName description read
  split at synced
  · cases synced
  split at synced
  · cases synced
  refine ⟨(displayName, description), ?_, (Prod.mk.inj synced).1.symm⟩
  unfold shownMetadata at read
  split at read
  · cases read
  split at read
  · cases read
  rename_i content shown
  split at read
  · cases read
  rename_i metadata parsed
  cases read
  simp only [metadataOf, shown, parsed]
  rfl

/-- The spelling for which a write refreshes the projection. -/
def FileEdit.syncs (filePath branch : String) : FileEdit → Bool
  | .delete _ => false
  | _ => filePath = "SKILL.md" && trimSpace branch = "main"

theorem sync_eq_ok {edit : FileEdit}
    (synced : edit.sync P a r filePath branch commit = (r', .ok ())) :
    (edit.syncs filePath branch = false ∧ r' = r) ∨
      edit.syncs filePath branch = true ∧ ∃ shown, metadataOf P r.name commit = some shown ∧
        r' = { r with displayName := shown.1, description := shown.2 } := by
  have refresh (synced : syncSkillMetadataOnWrite P a r filePath branch commit = (r', .ok ())) :
      ((filePath = "SKILL.md" && trimSpace branch = "main") = false ∧ r' = r) ∨
        (filePath = "SKILL.md" && trimSpace branch = "main") = true ∧
          ∃ shown, metadataOf P r.name commit = some shown ∧
            r' = { r with displayName := shown.1, description := shown.2 } := by
    unfold syncSkillMetadataOnWrite at synced
    by_cases other : filePath ≠ "SKILL.md" ∨ trimSpace branch ≠ "main"
    · rw [if_pos other] at synced
      refine .inl ⟨?_, (Prod.mk.inj synced).1.symm⟩
      rcases other with path | branch <;> simp [*]
    · rw [if_neg other] at synced
      rw [not_or, not_not, not_not] at other
      split at synced
      · cases synced
      split at synced
      · cases synced
      rename_i done
      cases synced
      exact .inr ⟨by simp [other], syncSkillMetadata_eq_ok done⟩
  cases edit with
  | create | update => exact refresh synced
  | delete sha => exact .inl ⟨rfl, (Prod.mk.inj synced).1.symm⟩

def answered {α : Type} (result : Repository β × Except HubError α) : Option (Repository β) :=
  match result.2 with
  | .ok _ => some result.1
  | .error _ => none

theorem answered_eq_some {result : Repository β × Except HubError α} :
    answered result = some r ↔ ∃ out, result = (r, .ok out) := by
  obtain ⟨s, outcome⟩ := result
  cases outcome with
  | error | ok => simp [answered]

/-- The steps that return successfully. A pull request targets the default branch, and
`MergePullRequest` refreshes once more after `Merge`. -/
def landed (P : Plumbing β) (r : Repository β) : RepositoryStep β → Option (Repository β)
  | .write a edit filePath message branch who =>
    answered (editFile P a r edit filePath message branch who)
  | .merge a sourceRef targetRef expectedTargetSHA =>
    if targetRef = skillDefaultRef then
      (answered (mergeRefs P a r sourceRef targetRef expectedTargetSHA)).bind fun merged =>
        answered (syncSkillMetadataOfRef P a merged targetRef)
    else none
  | .restore a request _ => answered (restoreRef P a r request)
  | .push services env ref new =>
    receivePack P services env "main" r ref (new.map Subtype.val)

/-- What keeps the projection. A write of the default branch refreshes it or leaves the
metadata as stored, and one of another branch refreshes it to what is stored. A restore
or a push of the default branch brings the metadata that is stored. -/
def KeepsProjection (P : Plumbing β) (r : Repository β) : RepositoryStep β → Prop
  | .write _ edit filePath _ branch _ =>
    (refPath (branchReferenceName branch) = skillDefaultRef ↔
        edit.syncs (trimSpace filePath) branch = true) ∨
      edit.metadata P r.name (splitPath (trimSpace filePath)) (some (r.displayName, r.description)) =
        some (r.displayName, r.description)
  | .merge .. => True
  | .restore a request _ => request.targetRef = skillDefaultRef →
      ∀ source, resolveVersionRef a request.sourceRef = .ok source →
        metadataOf P r.name source = some (r.displayName, r.description)
  | .push _ _ ref new => ref = skillDefaultRef →
      (new.map Subtype.val).bind (metadataOf P r.name) = some (r.displayName, r.description)

theorem Moved.projected_iff (moved : Moved r r' ref new) :
    Projected P r' ↔ (if ref = skillDefaultRef then new else r.lookup skillDefaultRef).bind
      (metadataOf P r.name) = some (r'.displayName, r'.description) := by
  unfold Projected
  rw [moved.name, moved.lookup]
  by_cases default : ref = skillDefaultRef
  · rw [if_pos default.symm, if_pos default]
  · rw [if_neg (Ne.symm default), if_neg default]

@[simp] theorem displayName_moveRef (r : Repository β) (ref : String) (commit : Commit β) :
    (r.moveRef ref commit).displayName = r.displayName := rfl

@[simp] theorem description_moveRef (r : Repository β) (ref : String) (commit : Commit β) :
    (r.moveRef ref commit).description = r.description := rfl

theorem FileEdit.metadata_of_syncs {edit : FileEdit}
    (syncs : edit.syncs filePath branch = true) (before after : Option (String × String)) :
    edit.metadata P name (splitPath filePath) before =
      edit.metadata P name (splitPath filePath) after := by
  have root : splitPath "SKILL.md" = ["SKILL.md"] := by decide
  cases edit with
  | delete sha => cases syncs
  | create content | update content sha =>
    obtain ⟨rfl, _⟩ : filePath = "SKILL.md" ∧ trimSpace branch = "main" := by
      simpa [FileEdit.syncs] using syncs
    rw [FileEdit.metadata, FileEdit.metadata, if_pos root, if_pos root]

theorem write_projected_iff (stored : Stored r)
    (projected : Projected P r)
    (made : editFile P a r edit filePath message branch who = (r', .ok out)) :
    Projected P r' ↔ (refPath (branchReferenceName branch) = skillDefaultRef ↔
        edit.syncs (trimSpace filePath) branch = true) ∨
      edit.metadata P r.name (splitPath (trimSpace filePath))
        (some (r.displayName, r.description)) = some (r.displayName, r.description) := by
  rcases editFile_effect made with ⟨_, _, e, failed⟩ | ⟨head, tree, edited, result, synced, answers⟩
  · cases failed
  obtain ⟨_, rfl⟩ := exists_of_isOk (answers.mp ⟨out, rfl⟩)
  have written : metadataOf P r.name (editCommit P a message who head tree) = _ :=
    edited.metadata (stored _ _ edited.found)
  rw [edited.asMoved.projected_iff]
  unfold Projected at projected
  by_cases default : refPath (branchReferenceName branch) = skillDefaultRef
  · have before : metadataOf P r.name head = some (r.displayName, r.description) := by
      rwa [← default, edited.found] at projected
    rw [if_pos default, Option.bind_some]
    rcases sync_eq_ok synced with ⟨skips, same⟩ | ⟨syncs, shown, read, same⟩
    · rw [same, written, before]
      simp [default, skips]
    · rw [same, show metadataOf P r.name (editCommit P a message who head tree) = some shown from read]
      simp [default, syncs]
  · rw [if_neg default, projected]
    rcases sync_eq_ok synced with ⟨skips, same⟩ | ⟨syncs, shown, read, same⟩
    · rw [same]
      simp [default, skips]
    · have shownIs : some shown = edit.metadata P r.name (splitPath (trimSpace filePath))
          (some (r.displayName, r.description)) := by
        rw [edit.metadata_of_syncs syncs _ (metadataOf P r.name head), ← written]
        exact read.symm
      rw [← shownIs, same]
      simp only [default, syncs, Option.some.injEq, Prod.mk.injEq, iff_true, false_or]
      constructor
      · intro both
        exact (Prod.ext both.1 both.2).symm
      · intro both
        rw [both]
        exact ⟨rfl, rfl⟩

theorem syncSkillMetadataOfRef_eq_ok
    (synced : syncSkillMetadataOfRef P a r ref = (r', .ok ())) :
    ∃ commit, r.lookup (normalizeRef ref) = some commit ∧
      syncSkillMetadata P a r commit = (r', .ok ()) := by
  unfold syncSkillMetadataOfRef at synced
  split at synced
  · cases synced
  split at synced
  · cases synced
  · cases synced
  rename_i commit _ found
  exact ⟨commit, found, synced⟩

theorem sync_projected (synced : syncSkillMetadataOfRef P a r skillDefaultRef = (r', .ok ())) :
    Projected P r' := by
  have normal : normalizeRef skillDefaultRef = skillDefaultRef := by decide
  obtain ⟨commit, found, done⟩ := syncSkillMetadataOfRef_eq_ok synced
  obtain ⟨shown, read, rfl⟩ := syncSkillMetadata_eq_ok done
  have kept : Repository.lookup { r with displayName := shown.1, description := shown.2 }
      skillDefaultRef = some commit := normal ▸ found
  rw [Projected, kept, Option.bind_some]
  exact read

theorem metadataOf_restored {request : RestoreSkillRef} :
    metadataOf P name (request.commit P source head) = metadataOf P name source := by
  rw [metadataOf_eq, metadataOf_eq]
  rfl

theorem restore_projected_iff
    (projected : Projected P r) (restored : restoreRef P a r request = (r', .ok out)) :
    Projected P r' ↔ (request.targetRef = skillDefaultRef →
      ∀ source, resolveVersionRef a request.sourceRef = .ok source →
        metadataOf P r.name source = some (r.displayName, r.description)) := by
  unfold restoreRef at restored
  cases planned : restorePlan P a r request with
  | error e =>
    rw [planned] at restored
    cases restored
  | ok plan =>
    obtain ⟨ref, commit⟩ := plan
    obtain ⟨source, head, metadata, resolved, read, found, rfl, rfl⟩ := restorePlan_eq_ok planned
    rw [planned] at restored
    obtain rfl := (Prod.mk.inj restored).1
    rw [(moved_moveRef found _).projected_iff]
    rw [displayName_moveRef, description_moveRef, resolved]
    by_cases default : request.targetRef = skillDefaultRef
    · rw [if_pos default, Option.bind_some, metadataOf_restored]
      simp [default]
    · simp only [default, false_implies, iff_true]
      exact projected

theorem landed_projected_iff (stored : Stored r)
    (projected : Projected P r) (taken : landed P r i = some r') :
    Projected P r' ↔ KeepsProjection P r i := by
  cases i with
  | write a edit filePath message branch who =>
    obtain ⟨out, made⟩ := answered_eq_some.mp taken
    exact write_projected_iff stored projected made
  | merge a sourceRef targetRef expected =>
    simp only [landed] at taken
    split_ifs at taken with default
    obtain ⟨merged, _, again⟩ := Option.bind_eq_some_iff.mp taken
    obtain ⟨_, synced⟩ := answered_eq_some.mp again
    simp only [KeepsProjection, iff_true]
    exact sync_projected (default ▸ synced)
  | restore a request sound =>
    obtain ⟨out, restored⟩ := answered_eq_some.mp taken
    exact restore_projected_iff projected restored
  | push services env ref new =>
    obtain ⟨rfl, _⟩ := receivePack_eq_some taken
    rw [(moved_setRef r ref (new.map Subtype.val)).projected_iff]
    unfold KeepsProjection
    by_cases default : ref = skillDefaultRef
    · simp only [default, true_implies]
      rfl
    · simp only [default, false_implies, iff_true]
      exact projected

theorem landed_refs (taken : landed P r i = some r') :
    ∃ moved, repositoryStep P r i = some moved ∧ r'.refs = moved.refs := by
  cases i with
  | write a edit filePath message branch who =>
    obtain ⟨out, made⟩ := answered_eq_some.mp taken
    exact ⟨r', by rw [repositoryStep, made], rfl⟩
  | merge a sourceRef targetRef expected =>
    simp only [landed] at taken
    split_ifs at taken
    obtain ⟨merged, first, again⟩ := Option.bind_eq_some_iff.mp taken
    obtain ⟨out, made⟩ := answered_eq_some.mp first
    obtain ⟨_, synced⟩ := answered_eq_some.mp again
    obtain ⟨commit, _, done⟩ := syncSkillMetadataOfRef_eq_ok synced
    have kept := (syncSkillMetadata_refs P a merged commit).1
    rw [done] at kept
    exact ⟨merged, by rw [repositoryStep, made], kept⟩
  | restore a request sound =>
    obtain ⟨out, restored⟩ := answered_eq_some.mp taken
    exact ⟨r', by rw [repositoryStep, restored], rfl⟩
  | push services env ref new => exact ⟨r', taken, rfl⟩

theorem landed_stored (stored : Stored r) (taken : landed P r i = some r') : Stored r' := by
  obtain ⟨moved, step, refs⟩ := landed_refs taken
  have after := repositoryStep_stored stored step
  intro k commit found
  rw [lookup_congr refs] at found
  exact after k commit found

/-- Between the calls of a run the projection is what `SKILL.md` at the head of the
default branch says exactly when it was so at the start and every step keeps it. -/
theorem projection_follows_head_iff (P : Plumbing β) (start r' : Repository β)
    (steps : List (RepositoryStep β)) (stored : Stored start)
    (ran : run (landed P) start steps = some r') :
    Always (landed P) (Projected P) start steps ↔
      Projected P start ∧ Guarded (landed P) (KeepsProjection P) start steps :=
  always_iff_guarded (I := Projected P) (J := Stored)
    (fun _ _ _ stored projected taken => landed_projected_iff stored projected taken)
    (fun _ _ _ stored taken => landed_stored stored taken) stored ran

def projectedWeather : Repository String :=
  { weatherRepository with displayName := "weather", description := "Forecasts" }

theorem projectedWeather_stored : Stored projectedWeather := by
  intro k commit found
  have head : projectedWeather.lookup k =
      if skillDefaultRef = k then some { tree := weatherTree } else none := by
    simp only [Repository.lookup, projectedWeather, weatherRepository, Keyed.lookup_cons]
    split_ifs <;> rfl
  rw [head] at found
  split_ifs at found
  cases found
  exact weatherTree_wellFormed

def rewordWeather : RepositoryStep String :=
  .write {} (.update "---\nname: weather\ndescription: Rain\n---\n" "") "SKILL.md" "Reword" "main" {}

def restoreWeather : RepositoryStep String :=
  .restore (mainVersion projectedWeather)
    { sourceRef := "main", targetBranch := "main", expectedHeadSHA := "cc", actorID := "ada" } (by
      intro name commit answer
      simp only [mainVersion] at answer
      split_ifs at answer
      exact projectedWeather_stored _ _ answer)

def deleteUsage : RepositoryStep String :=
  .write {} (.delete "") "docs/usage.md" "Drop" "main" {}

theorem weather_projection_follows :
    Projected plainPlumbing projectedWeather ∧
      ∃ r', run (landed plainPlumbing) projectedWeather [rewordWeather, deleteUsage] =
          some r' ∧
        Always (landed plainPlumbing) (Projected plainPlumbing) projectedWeather
          [rewordWeather, deleteUsage] := by
  have start : Projected plainPlumbing projectedWeather := by decide +kernel
  obtain ⟨r', ran⟩ := Option.isSome_iff_exists.mp (by decide +kernel :
    (run (landed plainPlumbing) projectedWeather [rewordWeather, deleteUsage]).isSome =
      true)
  refine ⟨start, r', ran, (projection_follows_head_iff plainPlumbing projectedWeather r' _
    projectedWeather_stored ran).mpr ⟨start, ?_, fun s _ => ⟨?_, fun _ _ => trivial⟩⟩⟩
  · exact .inl ⟨fun _ => by decide +kernel, fun _ => by decide +kernel⟩
  · refine .inr ?_
    have apart : splitPath (trimSpace "docs/usage.md") ≠ ["SKILL.md"] := by decide +kernel
    simp [FileEdit.metadata, apart]

/-- The restored version and a pushed one keep the old projection, and a deleted
`SKILL.md` has none. -/
theorem unrefreshed_projection_differs :
    Stored projectedWeather ∧ Projected plainPlumbing projectedWeather ∧
      ∀ steps ∈ [[rewordWeather, restoreWeather],
          [rewordWeather, .push openServices { repoPath := "/srv" } skillDefaultRef
            (some ⟨{ tree := weatherTree }, weatherTree_wellFormed⟩)],
          [.write {} (.delete "") "SKILL.md" "Drop" "main" {}]],
        ∃ r', run (landed plainPlumbing) projectedWeather steps = some r' ∧
          ¬Projected plainPlumbing r' := by
  refine ⟨projectedWeather_stored, by decide +kernel, ?_⟩
  simp only [List.forall_mem_cons]
  exact ⟨by decide +kernel, by decide +kernel, by decide +kernel, by simp⟩

end AisphereHub
