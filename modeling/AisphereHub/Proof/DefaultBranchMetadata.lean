import AisphereHub.Foundation.Transition
import AisphereHub.Gitengine.Hook
import AisphereHub.Gitengine.Versioning
import AisphereHub.Proof.ArchiveImport
import AisphereHub.Proof.FrontMatter

/-! The metadata at the head of the default branch, from the import on and over every
kind of write. -/
namespace AisphereHub

open GoStrings Transition

variable {β δ : Type} {P : Plumbing β} {a : EngineAnswer β} {r r' : Repository β}
  {commit : Commit β}

def CommitValid (P : Plumbing β) (name : String) (commit : Commit β) : Prop :=
  ∃ mode blob, fileAt commit.tree ["SKILL.md"] = some (mode, blob) ∧ mode ≠ .Submodule ∧
    (parseSkillMetadata P.yaml name (trimSpace (P.text blob))).isOk = true

theorem headValid_iff : HeadValid P r ↔
    ∃ commit, r.lookup skillDefaultRef = some commit ∧ CommitValid P r.name commit := by
  constructor
  · rintro ⟨commit, mode, blob, head, file, kind, parsed⟩
    exact ⟨commit, head, mode, blob, file, kind, parsed⟩
  · rintro ⟨commit, head, mode, blob, file, kind, parsed⟩
    exact ⟨commit, mode, blob, head, file, kind, parsed⟩

def headShows (P : Plumbing β) (r : Repository β) : Bool :=
  match (r.lookup skillDefaultRef).bind fun commit => fileAt commit.tree ["SKILL.md"] with
  | some (mode, blob) => mode ≠ .Submodule &&
      (parseSkillMetadata P.yaml r.name (trimSpace (P.text blob))).isOk
  | none => false

theorem headShows_iff : headShows P r = true ↔ HeadValid P r := by
  unfold headShows HeadValid
  cases head : r.lookup skillDefaultRef with
  | none => simp
  | some commit =>
    cases file : fileAt commit.tree ["SKILL.md"] with
    | none => simp [file]
    | some x =>
      obtain ⟨mode, blob⟩ := x
      simp [file]

instance (P : Plumbing β) (r : Repository β) : Decidable (HeadValid P r) :=
  decidable_of_iff (headShows P r = true) headShows_iff

theorem parseSkillMetadata_trimSpace (yaml : Yaml) (name content : String) :
    parseSkillMetadata yaml (trimSpace name) content = parseSkillMetadata yaml name content := by
  unfold parseSkillMetadata
  rw [trimSpace_trimSpace]

def metadataOf (P : Plumbing β) (name : String) (commit : Commit β) : Option (String × String) :=
  match gitShowSkill P commit with
  | .error _ => none
  | .ok content => (parseSkillMetadata P.yaml name content).toOption

def fileMetadata (P : Plumbing β) (name : String) : Option (FileMode × β) → Option (String × String)
  | none => none
  | some (.Submodule, _) => none
  | some (_, blob) => (parseSkillMetadata P.yaml name (trimSpace (P.text blob))).toOption

theorem isSome_toOption {ε α : Type} {result : Except ε α} :
    result.toOption.isSome = true ↔ result.isOk = true := by
  cases result <;> simp [Except.toOption, Except.isOk, Except.toBool]

theorem toOption_of_not_ok {ε α : Type} {result : Except ε α} (failed : result.isOk = false) :
    result.toOption = none := by
  cases result with
  | error e => rfl
  | ok x => cases failed

theorem metadataOf_eq (P : Plumbing β) (name : String) (commit : Commit β) :
    metadataOf P name commit = fileMetadata P name (fileAt commit.tree ["SKILL.md"]) := by
  unfold metadataOf gitShowSkill
  rw [fileAt_cons]
  cases found : findEntryInSlice commit.tree "SKILL.md" with
  | none => rfl
  | some node =>
    cases node with
    | dir entries =>
      simp only [String.append_assoc]
      have listing : ∀ text, (parseSkillMetadata P.yaml name (trimSpace ("tree " ++ text))).isOk =
          false := fun _ => parseSkillMetadata_head P.yaml name (String.toList_append ..)
        (by decide) (by decide) (by decide)
      rw [toOption_of_not_ok (listing _)]
      rfl
    | file mode blob => cases mode <;> rfl

variable {name content : String}

theorem commitValid_iff : CommitValid P name commit ↔ (metadataOf P name commit).isSome = true := by
  rw [metadataOf_eq, CommitValid]
  generalize fileAt commit.tree ["SKILL.md"] = file
  constructor
  · rintro ⟨mode, blob, rfl, kind, parsed⟩
    have shown := isSome_toOption.mpr parsed
    cases mode with
    | Submodule => exact absurd rfl kind
    | _ => exact shown
  · intro shown
    cases file with
    | none => cases shown
    | some file =>
      obtain ⟨mode, blob⟩ := file
      cases mode with
      | Submodule => cases shown
      | _ => exact ⟨_, blob, rfl, by decide, isSome_toOption.mp shown⟩

theorem commitValid_of_shown (shown : gitShowSkill P commit = .ok content)
    (parsed : (parseSkillMetadata P.yaml name content).isOk = true) :
    CommitValid P name commit := by
  simp only [commitValid_iff, metadataOf, shown, isSome_toOption, parsed]

theorem commitValid_of_read
    (read : readSkillMetadata P a commit name = .ok metadata) : CommitValid P name commit := by
  unfold readSkillMetadata at read
  split at read
  · cases read
  · split at read
    · cases read
    · rename_i content shown
      exact commitValid_of_shown shown (by rw [read]; rfl)

/-- The trees that come from outside are trees as git writes them. -/
abbrev StoredCommit (β : Type) := { commit : Commit β // WellFormed commit.tree }

inductive RepositoryStep (β : Type) where
  | write (a : EngineAnswer β) (edit : FileEdit) (filePath message branch : String)
      (who : Committer)
  | merge (a : EngineAnswer β) (sourceRef targetRef expectedTargetSHA : String)
  | restore (a : EngineAnswer β) (request : RestoreSkillRef)
      (stored : ∀ name commit, a.revParse name = some commit → WellFormed commit.tree)
  | push (services : HookServices) (env : HookEnv) (ref : String) (new : Option (StoredCommit β))

/-- A push that the hook refuses is no step; every other call is one, also when it
answers with an error. -/
def repositoryStep (P : Plumbing β) (r : Repository β) : RepositoryStep β → Option (Repository β)
  | .write a edit filePath message branch who =>
    some (editFile P a r edit filePath message branch who).1
  | .merge a sourceRef targetRef expectedTargetSHA =>
    some (mergeRefs P a r sourceRef targetRef expectedTargetSHA).1
  | .restore a request _ => some (restoreRef P a r request).1
  | .push services env ref new =>
    receivePack P services env "main" r ref (new.map Subtype.val)

def FileEdit.keepsMetadata (P : Plumbing β) (name : String) (path : List String) : FileEdit → Prop
  | .create content | .update content _ => ["SKILL.md"] <+: path →
      path = ["SKILL.md"] ∧ (parseSkillMetadata P.yaml name (trimSpace content)).isOk = true
  | .delete _ => path ≠ ["SKILL.md"]

def FileEdit.metadata (P : Plumbing β) (name : String) (path : List String)
    (before : Option (String × String)) : FileEdit → Option (String × String)
  | .create content | .update content _ =>
    if path = ["SKILL.md"] then (parseSkillMetadata P.yaml name (trimSpace content)).toOption
    else if ["SKILL.md"] <+: path then none else before
  | .delete _ => if path = ["SKILL.md"] then none else before

/-- What a step has to observe: an accepted edit of the default branch keeps the
metadata, and no push deletes the branch. -/
def KeepsMetadata (P : Plumbing β) (r : Repository β) : RepositoryStep β → Prop
  | .write a edit filePath _ branch _ =>
    Accepts P a r edit filePath branch → refPath (branchReferenceName branch) = skillDefaultRef →
      edit.keepsMetadata P r.name (splitPath (trimSpace filePath))
  | .push _ _ ref new => ref = skillDefaultRef → new ≠ none
  | _ => True

def Stored (r : Repository β) : Prop :=
  ∀ name commit, r.lookup name = some commit → WellFormed commit.tree

structure Moved (r r' : Repository β) (ref : String) (new : Option (Commit β)) : Prop where
  name : r'.name = r.name
  lookup : ∀ k, r'.lookup k = if k = ref then new else r.lookup k

section Moves

variable {ref : String} {new : Option (Commit β)}

theorem Moved.headValid_iff (moved : Moved r r' ref new) :
    HeadValid P r' ↔ if ref = skillDefaultRef then
      ∃ commit, new = some commit ∧ CommitValid P r.name commit else HeadValid P r := by
  rw [AisphereHub.headValid_iff, moved.name, moved.lookup]
  by_cases default : ref = skillDefaultRef
  · simp [default]
  · simp only [default, Ne.symm default, if_false]
    rw [AisphereHub.headValid_iff]

theorem Moved.headValid (moved : Moved r r' ref (some commit)) (valid : HeadValid P r)
    (holds : CommitValid P r.name commit) : HeadValid P r' := by
  rw [moved.headValid_iff]
  split_ifs
  · exact ⟨commit, rfl, holds⟩
  · exact valid

theorem Moved.stored (moved : Moved r r' ref new) (stored : Stored r)
    (holds : ∀ commit, new = some commit → WellFormed commit.tree) : Stored r' := by
  intro name commit found
  rw [moved.lookup] at found
  split_ifs at found
  · exact holds commit found
  · exact stored name commit found

theorem moved_moveRef (found : r.lookup ref = some head) (commit : Commit β) :
    Moved r (r.moveRef ref commit) ref (some commit) where
  name := rfl
  lookup k := by rw [lookup_moveRef, found, Option.map_some]

theorem moved_setRef (r : Repository β) (ref : String) (new : Option (Commit β)) :
    Moved r (r.setRef ref new) ref new := by
  refine ⟨rfl, fun k => ?_⟩
  rw [Repository.lookup, Repository.setRef, Keyed.lookup_reset r.refs (by simp)]
  split_ifs
  · cases new <;> rfl
  · rfl

end Moves

theorem mergeRefs_effect
    (merged : mergeRefs P a r sourceRef targetRef expected = (r', outcome)) :
    r' = r ∨ ∃ source, r.lookup (normalizeRef sourceRef) = some source ∧
      CommitValid P r.name source ∧ Moved r r' (normalizeRef targetRef) (some source) := by
  have kept {outcome' : Except HubError String} (same : (r, outcome') = (r', outcome)) : r' = r :=
    (Prod.mk.inj same).1.symm
  unfold mergeRefs at merged
  split at merged
  · exact .inl (kept merged)
  split at merged
  · exact .inl (kept merged)
  · exact .inl (kept merged)
  rename_i source _ found
  split at merged
  · exact .inl (kept merged)
  split at merged
  · exact .inl (kept merged)
  split at merged
  · exact .inl (kept merged)
  rename_i metadata read
  split at merged
  · exact .inl (kept merged)
  split at merged
  · exact .inl (kept merged)
  rename_i current
  obtain ⟨head, target, _⟩ := Option.map_eq_some_iff.mp (not_not.mp current)
  have moved := moved_moveRef target source
  have unmoved := syncSkillMetadata_refs P a (r.moveRef (normalizeRef targetRef) source) source
  refine .inr ⟨source, found, commitValid_of_read read, ?_⟩
  split at merged
  all_goals
    rename_i synced
    rw [synced] at unmoved
    obtain rfl := (Prod.mk.inj merged).1
    exact ⟨unmoved.2.trans moved.name, fun k => (lookup_congr unmoved.1 k).trans (moved.lookup k)⟩

theorem resolveVersionRef_eq_ok
    (resolved : resolveVersionRef a ref = .ok source) : ∃ name, a.revParse name = some source := by
  unfold resolveVersionRef at resolved
  dsimp only at resolved
  split at resolved
  · cases resolved
  · split at resolved
    · cases resolved
    · rename_i found
      cases resolved
      obtain ⟨candidate, _, answer⟩ := List.exists_of_findSome?_eq_some found
      exact ⟨_, answer⟩

theorem restoreRef_effect (restored : restoreRef P a r request = (r', outcome)) :
    r' = r ∨ ∃ source head, (∃ name, a.revParse name = some source) ∧ CommitValid P r.name source ∧
      Moved r r' request.targetRef (some (request.commit P source head)) := by
  unfold restoreRef at restored
  cases planned : restorePlan P a r request with
  | error e =>
    rw [planned] at restored
    exact .inl (Prod.mk.inj restored).1.symm
  | ok plan =>
    obtain ⟨ref, commit⟩ := plan
    obtain ⟨source, head, metadata, resolved, read, found, rfl, rfl⟩ := restorePlan_eq_ok planned
    rw [planned] at restored
    obtain rfl := (Prod.mk.inj restored).1
    exact .inr ⟨source, head, resolveVersionRef_eq_ok resolved, commitValid_of_read read,
      moved_moveRef found _⟩

section Write

variable {edit : FileEdit} {filePath message branch : String} {who : Committer}
  {head : Commit β} {tree : GitTree β}

theorem Edited.asMoved (edited : Edited P a r r' edit filePath message branch who head tree) :
    Moved r r' (refPath (branchReferenceName branch)) (some (editCommit P a message who head tree)) :=
  ⟨edited.name, edited.moved⟩

theorem apply_wellFormed (holds : WellFormed head.tree)
    (planned : edit.apply P head.tree filePath = .ok tree) : WellFormed tree := by
  cases edit with
  | create content =>
    exact (upsertEntry_files holds (fun _ => splitPath_named) (create_apply_eq_ok planned)).1
  | update content sha =>
    exact (upsertEntry_files holds (fun _ => splitPath_named) (update_apply_eq_ok planned).2).1
  | delete sha => exact (removeEntry_files holds (delete_apply_eq_ok planned).2).1

variable {path : List String}

theorem prefix_singleton (some : path ≠ []) (above : path <+: [name]) : path = [name] := by
  cases path with
  | nil => exact absurd rfl some
  | cons first rest =>
    obtain ⟨rfl, last⟩ := List.cons_prefix_cons.mp above
    rw [List.prefix_nil.mp last]

theorem written_metadata (holds : WellFormed head.tree)
    (named : ∀ part ∈ path, part ≠ "" ∧ '/' ∉ part.toList)
    (done : upsertEntry P.refuses head.tree path (.file .Regular (P.bytes content)) = .ok tree) :
    metadataOf P name (editCommit P a message who head tree) =
      if path = ["SKILL.md"] then (parseSkillMetadata P.yaml name (trimSpace content)).toOption
      else if ["SKILL.md"] <+: path then none else metadataOf P name head := by
  have some : path ≠ [] := by
    rintro rfl
    cases done
  obtain ⟨_, files⟩ := upsertEntry_files holds named done
  rw [metadataOf_eq, metadataOf_eq, editCommit, files]
  by_cases same : path = ["SKILL.md"]
  · rw [if_pos same, same, PathMap.write_self]
    show (parseSkillMetadata P.yaml name (trimSpace (P.text (P.bytes content)))).toOption = _
    rw [P.text_bytes]
  · split_ifs with below
    · have lost : PathMap.write (fileAt head.tree) path (.Regular, P.bytes content) ["SKILL.md"] =
          none := by
        simp [PathMap.write, Ne.symm same, PathMap.Overlap, below]
      rw [lost]
      rfl
    · have apart : ¬PathMap.Overlap path ["SKILL.md"] := by
        rintro (above | below')
        · exact same (prefix_singleton some above)
        · exact below below'
      rw [PathMap.write_apart apart]

theorem Edited.metadata (edited : Edited P a r r' edit filePath message branch who head tree)
    (holds : WellFormed head.tree) : metadataOf P name (editCommit P a message who head tree) =
      edit.metadata P name (splitPath (trimSpace filePath)) (metadataOf P name head) := by
  have planned := edited.planned
  cases edit with
  | create content =>
    rw [FileEdit.metadata]
    exact written_metadata holds (fun _ => splitPath_named) (create_apply_eq_ok planned)
  | update content sha =>
    rw [FileEdit.metadata]
    exact written_metadata holds (fun _ => splitPath_named) (update_apply_eq_ok planned).2
  | delete sha =>
    have done := (delete_apply_eq_ok planned).2
    have some : splitPath (trimSpace filePath) ≠ [] := by
      intro none
      rw [none] at done
      cases done
    obtain ⟨_, files⟩ := removeEntry_files holds done
    rw [metadataOf_eq, metadataOf_eq, editCommit, files, FileEdit.metadata]
    by_cases same : splitPath (trimSpace filePath) = ["SKILL.md"]
    · have gone : PathMap.erase (fileAt head.tree) ["SKILL.md"] ["SKILL.md"] = none :=
        if_pos (List.prefix_refl _)
      rw [if_pos same, same, gone]
      rfl
    · have apart : ¬splitPath (trimSpace filePath) <+: ["SKILL.md"] := fun above =>
        same (prefix_singleton some above)
      rw [if_neg same, PathMap.erase, if_neg apart]

theorem Edited.commitValid_iff (edited : Edited P a r r' edit filePath message branch who head tree)
    (holds : WellFormed head.tree) (valid : CommitValid P name head) :
    CommitValid P name (editCommit P a message who head tree) ↔
      edit.keepsMetadata P name (splitPath (trimSpace filePath)) := by
  have some := AisphereHub.commitValid_iff.mp valid
  rw [AisphereHub.commitValid_iff, edited.metadata holds]
  cases edit with
  | create content | update content sha =>
    simp only [FileEdit.keepsMetadata, FileEdit.metadata]
    split_ifs with same below
    · simp [same, isSome_toOption]
    · simp [same, below]
    · simp [below, some]
  | delete sha =>
    simp only [FileEdit.keepsMetadata, FileEdit.metadata]
    split_ifs with same
    · simp [same]
    · simp [same, some]

end Write

theorem repositoryStep_valid_iff (stored : Stored r) (valid : HeadValid P r)
    (taken : repositoryStep P r i = some r') : HeadValid P r' ↔ KeepsMetadata P r i := by
  obtain ⟨head, atHead, holds⟩ := headValid_iff.mp valid
  cases i with
  | write a edit filePath message branch who =>
    obtain rfl := Option.some.inj taken
    unfold KeepsMetadata
    have made := (Prod.eta (editFile P a r edit filePath message branch who)).symm
    rcases editFile_effect made with ⟨rejects, same, _⟩ | ⟨before, tree, edited, _⟩
    · simp [same, valid, rejects]
    · have accepts : Accepts P a r edit filePath branch :=
        ⟨edited.valid, _, before, tree, edited.opened, edited.planned⟩
      rw [edited.asMoved.headValid_iff]
      by_cases default : refPath (branchReferenceName branch) = skillDefaultRef
      · obtain rfl : before = head := by
          have found := edited.found
          rw [default, atHead] at found
          exact (Option.some.inj found).symm
        have same := edited.commitValid_iff (stored _ _ atHead) holds
        simp [default, accepts, same]
      · simp [default, valid]
  | merge a sourceRef targetRef expected =>
    obtain rfl := Option.some.inj taken
    simp only [KeepsMetadata, iff_true]
    have made := (Prod.eta (mergeRefs P a r sourceRef targetRef expected)).symm
    rcases mergeRefs_effect made with same | ⟨source, _, validSource, moved⟩
    · exact same.symm ▸ valid
    · exact moved.headValid valid validSource
  | restore a request _ =>
    obtain rfl := Option.some.inj taken
    simp only [KeepsMetadata, iff_true]
    have made := (Prod.eta (restoreRef P a r request)).symm
    rcases restoreRef_effect made with same | ⟨source, _, _, validSource, moved⟩
    · exact same.symm ▸ valid
    · exact moved.headValid valid validSource
  | push services env ref new =>
    obtain ⟨rfl, _⟩ := receivePack_eq_some taken
    rw [(moved_setRef r ref (new.map Subtype.val)).headValid_iff]
    unfold KeepsMetadata
    by_cases default : ref = skillDefaultRef
    · subst default
      cases new with
      | none => simp
      | some commit =>
        obtain ⟨content, shown, parsed⟩ := receivePack_default taken
        rw [parseSkillMetadata_trimSpace] at parsed
        simpa using commitValid_of_shown shown parsed
    · simp [default, valid]

theorem repositoryStep_stored (stored : Stored r)
    (taken : repositoryStep P r i = some r') : Stored r' := by
  cases i with
  | write a edit filePath message branch who =>
    obtain rfl := Option.some.inj taken
    have made := (Prod.eta (editFile P a r edit filePath message branch who)).symm
    rcases editFile_effect made with ⟨_, same, _⟩ | ⟨head, tree, edited, _⟩
    · exact same.symm ▸ stored
    · refine edited.asMoved.stored stored ?_
      rintro commit ⟨⟩
      exact apply_wellFormed (stored _ _ edited.found) edited.planned
  | merge a sourceRef targetRef expected =>
    obtain rfl := Option.some.inj taken
    have made := (Prod.eta (mergeRefs P a r sourceRef targetRef expected)).symm
    rcases mergeRefs_effect made with same | ⟨source, found, _, moved⟩
    · exact same.symm ▸ stored
    · refine moved.stored stored ?_
      rintro commit ⟨⟩
      exact stored _ _ found
  | restore a request sound =>
    obtain rfl := Option.some.inj taken
    have made := (Prod.eta (restoreRef P a r request)).symm
    rcases restoreRef_effect made with same | ⟨source, _, ⟨name, answer⟩, _, moved⟩
    · exact same.symm ▸ stored
    · refine moved.stored stored ?_
      rintro commit ⟨⟩
      exact sound name source answer
  | push services env ref new =>
    obtain ⟨rfl, _⟩ := receivePack_eq_some taken
    refine (moved_setRef r ref (new.map Subtype.val)).stored stored ?_
    intro commit pushed
    obtain ⟨⟨commit, holds⟩, _, rfl⟩ := Option.map_eq_some_iff.mp pushed
    exact holds

section Creation

variable {skill : GitSkill β} {archive : SkillArchive β} {taken : Bool}

theorem createSkill_eq_ok (created : createSkill P a taken skill = .ok r) :
    ∃ commit, seedInitialCommit P a { skill with name := trimSpace skill.name } = .ok commit ∧
      r.name = trimSpace skill.name ∧ r.refs = [⟨skillDefaultRef, commit⟩] := by
  unfold createSkill at created
  dsimp only at created
  split at created
  · cases created
  split at created
  · cases created
  split at created
  · cases created
  rename_i commit seeded
  cases created
  exact ⟨commit, seeded, rfl, rfl⟩

/-- No file that comes after `SKILL.md` puts a directory in its place. -/
def KeepsSkillFile (files : List (SkillArchiveFile β)) : Prop :=
  ∀ before file after, files = before ++ file :: after → file.path = "SKILL.md" →
    ∀ other ∈ after, hasPrefix other.path "SKILL.md/" = false

theorem overlap_skillFile {other : SkillArchiveFile β} :
    PathMap.Overlap other.entry.1 ["SKILL.md"] ↔
      other.path = "SKILL.md" ∨ hasPrefix other.path "SKILL.md/" = true := by
  have root : split "SKILL.md" '/' = ["SKILL.md"] := by decide
  have below : ["SKILL.md"] <+: split other.path '/' ↔
      other.path = "SKILL.md" ∨ hasPrefix other.path "SKILL.md/" = true := by
    rw [← root, split_prefix_iff]
    rfl
  unfold PathMap.Overlap SkillArchiveFile.entry
  rw [below]
  refine or_iff_right_of_imp fun above => ?_
  have same := prefix_singleton (split_ne_nil other.path '/') above
  exact .inl (split_injective (same.trans root.symm))

theorem skillFile_kept_iff {file : SkillArchiveFile β}
    (distinct : (paths files).Nodup) (member : file ∈ files) (named : file.path = "SKILL.md") :
    PathMap.writeAll (fun _ => none) (files.map SkillArchiveFile.entry) ["SKILL.md"] =
      some (.Regular, file.content) ↔ KeepsSkillFile files := by
  have entry : (["SKILL.md"], FileMode.Regular, file.content) = file.entry := by
    rw [SkillArchiveFile.entry, named]
    rfl
  rw [PathMap.writeAll_eq_some, entry]
  -- the file is listed once, so all its occurrences are one
  have once : ∀ front back, files.map SkillArchiveFile.entry = front ++ file.entry :: back →
      ∀ before other after, files = before ++ other :: after → other.path = "SKILL.md" →
        back = after.map SkillArchiveFile.entry := by
    rintro front back shape before other after rfl path
    have unique := (entries_nodup distinct).of_map
    obtain rfl : other = file := List.inj_on_of_nodup_map distinct (by simp) member
      (path.trans named.symm)
    rw [List.map_append, List.map_cons] at shape unique
    obtain ⟨fresh, gone⟩ := List.nodup_middle.mp unique |> List.nodup_cons.mp
    rw [List.mem_append, not_or] at fresh
    exact ((List.append_cons_inj_of_notMem fresh.1 fresh.2).mp shape).2.2.symm
  constructor
  · rintro ⟨front, back, shape, apart⟩ before other after split_ path later among
    obtain rfl := once front back shape before other after split_ path
    have free := apart later.entry (List.mem_map_of_mem among)
    rw [overlap_skillFile, not_or] at free
    simpa using free.2
  · intro keeps
    obtain ⟨before, after, rfl⟩ := List.append_of_mem member
    refine ⟨before.map SkillArchiveFile.entry, after.map SkillArchiveFile.entry, by simp, ?_⟩
    intro e among
    obtain ⟨other, later, rfl⟩ := List.mem_map.mp among
    rw [overlap_skillFile, keeps before file after rfl named other later]
    simp only [Bool.false_eq_true, or_false]
    intro path
    simp only [paths, List.map_append, List.map_cons, List.nodup_append, List.nodup_cons] at distinct
    exact distinct.2.1.1 (by rw [named, ← path]; exact List.mem_map_of_mem later)

theorem createSkill_valid_iff (accepted : Accepted P.toContent archive)
    (imported : skill.initialFiles = archive.files) (named : skill.name = archive.name)
    (created : createSkill P a taken skill = .ok r) :
    Stored r ∧ (HeadValid P r ↔ KeepsSkillFile archive.files) := by
  obtain ⟨commit, seeded, name, refs⟩ := createSkill_eq_ok created
  have initial : ({ skill with name := trimSpace skill.name } : GitSkill β).initialFiles =
      archive.files := imported
  obtain ⟨holds, files⟩ := seedInitialCommit_files accepted initial seeded
  obtain ⟨file, member, path, document⟩ := accepted.described
  have lookup : ∀ k, r.lookup k = if k = skillDefaultRef then some commit else none := by
    intro k
    unfold Repository.lookup
    rw [refs, Keyed.lookup_cons]
    by_cases same : k = skillDefaultRef
    · simp [same]
    · simp [same, Ne.symm same, Keyed.lookup]
  constructor
  · intro k other found
    rw [lookup] at found
    split_ifs at found
    cases found
    exact holds
  · have parses := congrArg Except.isOk (parseSkillMetadata_of_document document)
    rw [← parseSkillMetadata_trimSpace, ← named, ← name] at parses
    rw [← skillFile_kept_iff accepted.distinct member path, headValid_iff, lookup, if_pos rfl]
    constructor
    · rintro ⟨_, ⟨⟩, mode, blob, written, _⟩
      rw [files] at written
      obtain ⟨before, after, shape, _⟩ := PathMap.writeAll_eq_some.mp written
      have listed : (["SKILL.md"], (mode, blob)) ∈ archive.files.map SkillArchiveFile.entry := by
        simp [shape]
      obtain ⟨other, among, entry⟩ := List.mem_map.mp listed
      have same : other.path = file.path := by
        rw [path]
        exact split_injective ((Prod.mk.inj entry).1.trans (by decide))
      rw [written, ← (Prod.mk.inj entry).2,
        List.inj_on_of_nodup_map accepted.distinct among member same]
    · intro written
      exact ⟨commit, rfl, .Regular, file.content, files ▸ written, by simp, parses⟩

end Creation

/-- From the import of an accepted archive on, the head of the default branch has valid
metadata in every state of a run exactly when nothing in the archive displaces its
`SKILL.md` and every step observes what it has to. -/
theorem default_branch_metadata_iff (P : Plumbing β) (Z : ZipFormat P.toContent δ) (data : δ)
    (limits : SkillArchiveLimits) (archive : SkillArchive β) (a : EngineAnswer β) (taken : Bool)
    (skill : GitSkill β) (r r' : Repository β) (labels : List (RepositoryStep β))
    (parsed : parseSkillArchive Z data limits = .ok archive)
    (imported : skill.initialFiles = archive.files) (named : skill.name = archive.name)
    (created : createSkill P a taken skill = .ok r)
    (ran : run (repositoryStep P) r labels = some r') :
    Always (repositoryStep P) (HeadValid P) r labels ↔
      KeepsSkillFile archive.files ∧
        Guarded (repositoryStep P) (KeepsMetadata P) r labels := by
  have accepted := parseSkillArchive_accepted parsed
  have initial := createSkill_valid_iff accepted imported named created
  rw [← initial.2]
  exact always_iff_guarded (I := HeadValid P) (J := Stored)
    (fun _ _ _ stored valid taken => repositoryStep_valid_iff stored valid taken)
    (fun _ _ _ stored taken => repositoryStep_stored stored taken) initial.1 ran

def rewordAndPush : List (RepositoryStep String) :=
  [.write {} (.update (weatherSkill ++ "# Weather\n") "") "SKILL.md" "Reword" "main" {},
    .push openServices { repoPath := "/srv" } skillDefaultRef
      (some ⟨{ tree := weatherTree }, weatherTree_wellFormed⟩)]

theorem weather_metadata_kept :
    ∃ archive r r', parseSkillArchive (listZip plainPlumbing.toContent) weatherArchive {} =
        .ok archive ∧
      createSkill plainPlumbing {} false
        { name := archive.name, initialFiles := archive.files } = .ok r ∧
      run (repositoryStep plainPlumbing) r rewordAndPush = some r' ∧
      Always (repositoryStep plainPlumbing) (HeadValid plainPlumbing) r rewordAndPush := by
  obtain ⟨archive, parsed, named, files⟩ := weatherArchive_parses
  obtain ⟨r, created, name, r', ran, _⟩ : ∃ r, createSkill plainPlumbing {} false
      { name := archive.name, initialFiles := archive.files } = .ok r ∧ r.name = "weather" ∧
      ∃ r', run (repositoryStep plainPlumbing) r rewordAndPush = some r' ∧ True := by
    rw [named, files]
    decide +kernel
  refine ⟨archive, r, r', parsed, created, ran, ?_⟩
  refine (default_branch_metadata_iff plainPlumbing (listZip plainPlumbing.toContent) weatherArchive
    {} archive {} false _ r r' rewordAndPush parsed rfl rfl created ran).mpr ⟨?_, ?_, ?_⟩
  · have apart : ∀ other ∈ archive.files, hasPrefix other.path "SKILL.md/" = false := by
      rw [files]
      decide +kernel
    intro before file after shape _ other later
    exact apart other (by simp [shape, later])
  · intro _ _ _
    rw [name]
    exact ⟨by decide, by decide +kernel⟩
  · exact fun _ _ => ⟨fun _ => by simp, fun _ _ => trivial⟩

/-- Deleting the file, replacing it by a text without front matter, and creating a
file below it are all carried out. -/
theorem writes_break_metadata :
    ∃ archive r, parseSkillArchive (listZip plainPlumbing.toContent) weatherArchive {} =
        .ok archive ∧
      createSkill plainPlumbing {} false
        { name := archive.name, initialFiles := archive.files } = .ok r ∧
      ∀ edit ∈ [(FileEdit.delete "", "SKILL.md"), (.update "# Weather" "", "SKILL.md"),
          (.create "", "SKILL.md/notes")],
        ∃ r', run (repositoryStep plainPlumbing) r
          [.write {} edit.1 edit.2 "Edit" "main" {}] = some r' ∧ ¬HeadValid plainPlumbing r' := by
  simp only [exists_and_left]
  decide +kernel

end AisphereHub
