import AisphereHub.Gitengine.Repository

/-! The file API of the engine. `CreateFile`, `UpdateFile` and `DeleteFile` check the
path, open the branch, edit the tree of its head, commit, and move the branch; the
first two then refresh the metadata projection when they wrote `SKILL.md` on the
default branch. -/
namespace AisphereHub

open GoStrings

variable {β : Type}

structure Committer where
  name : String := ""
  email : String := ""
deriving DecidableEq

/-- `NewBranchReferenceName`; an empty branch is the skill default. -/
def branchReferenceName (branch : String) : String :=
  "refs/heads/" ++ (if branch = "" then "main" else branch)

/-- The reference store opens a ref as a file below the repository directory, so
dot segments of the name are resolved. -/
def refPath (refName : String) : String := GoPath.clean refName

def crossesBoundary (path : String) : Bool := path == ".." || hasPrefix path "../"

def openBare (a : EngineAnswer β) (r : Repository β) (branch : String) :
    Except HubError (String × Commit β) :=
  match a.check .open errGit with
  | .error e => .error e
  | .ok _ =>
    match a.check .plainOpen errGit with
    | .error e => .error e
    | .ok _ =>
      let path := refPath (branchReferenceName branch)
      if crossesBoundary path then .error (errGit "chroot boundary crossed")
      else
        match r.lookup path with
        | none => .error (errBranchNotFound (if branch = "" then "main" else branch))
        | some head => .ok (path, head)

def filePathInvalid (filePath : String) : Bool :=
  filePath == "" || contains filePath ".." || hasPrefix filePath "/"

inductive FileEdit where
  | create (content : String)
  | update (content sha : String)
  | delete (sha : String)
deriving DecidableEq

def wrapGit {α : Type} : Except HubError α → Except HubError α
  | .error e => .error (errGit e.detail)
  | .ok value => .ok value

def FileEdit.apply (P : Plumbing β) (edit : FileEdit) (tree : GitTree β) (filePath : String) :
    Except HubError (GitTree β) :=
  match edit, findEntry tree filePath with
  | .create _, some _ => .error (errFileExists filePath)
  | .create content, none =>
    wrapGit (upsertFileInTree P.refuses tree filePath (P.bytes content) .Regular)
  | .update _ _, none => .error (errFileNotFound filePath)
  | .update content sha, some existing =>
    if sha ≠ "" ∧ P.nodeHash existing ≠ sha then .error (errFileExists filePath)
    else wrapGit (upsertFileInTree P.refuses tree filePath (P.bytes content) .Regular)
  | .delete _, none => .error (errFileNotFound filePath)
  | .delete sha, some existing =>
    if sha ≠ "" ∧ P.nodeHash existing ≠ sha then .error (errFileExists filePath)
    else wrapGit (removeFileFromTree P.refuses tree filePath)

def syncSkillMetadataOnWrite (P : Plumbing β) (a : EngineAnswer β) (r : Repository β)
    (filePath branch : String) (commit : Commit β) : Repository β × Except HubError Unit :=
  if filePath ≠ "SKILL.md" ∨ trimSpace branch ≠ "main" then (r, .ok ())
  else
    match a.check .reopen errGit with
    | .error e => (r, .error e)
    | .ok _ =>
      match syncSkillMetadata P a r commit with
      | (r', .error e) => (r', .error ⟨e.code,
          "gitengine: sync skill metadata after SKILL.md write: " ++ e.detail⟩)
      | (r', .ok _) => (r', .ok ())

/-- Only a deletion skips the projection. -/
def FileEdit.sync (P : Plumbing β) (edit : FileEdit) (a : EngineAnswer β) (r : Repository β)
    (filePath branch : String) (commit : Commit β) : Repository β × Except HubError Unit :=
  match edit with
  | .delete _ => (r, .ok ())
  | _ => syncSkillMetadataOnWrite P a r filePath branch commit

structure WriteResult where
  path : String
  ref : String
  commitSHA : String
  commitMessage : String
deriving DecidableEq

/-- An edit from the request to its answer: the branch moves between the edit of
the tree and the projection. -/
def editFile (P : Plumbing β) (a : EngineAnswer β) (r : Repository β) (edit : FileEdit)
    (filePath message branch : String) (who : Committer) :
    Repository β × Except HubError WriteResult :=
  let filePath := trimSpace filePath
  if filePathInvalid filePath then (r, .error (errPathInvalid filePath))
  else
    match openBare a r branch with
    | .error e => (r, .error e)
    | .ok (refName, head) =>
      match edit.apply P head.tree filePath with
      | .error e => (r, .error e)
      | .ok tree =>
        let commit : Commit β := ⟨tree, [P.commitHash head], message, who.name, who.email, a.now⟩
        match edit.sync P a (r.moveRef refName commit) filePath branch commit with
        | (r', .error e) => (r', .error e)
        | (r', .ok _) => (r', .ok ⟨filePath, branch, P.commitHash commit, message⟩)

def createFile (P : Plumbing β) (a : EngineAnswer β) (r : Repository β)
    (filePath content message branch : String) (who : Committer) :
    Repository β × Except HubError WriteResult :=
  editFile P a r (.create content) filePath message branch who

def updateFile (P : Plumbing β) (a : EngineAnswer β) (r : Repository β)
    (filePath content message sha branch : String) (who : Committer) :
    Repository β × Except HubError WriteResult :=
  editFile P a r (.update content sha) filePath message branch who

def deleteFile (P : Plumbing β) (a : EngineAnswer β) (r : Repository β)
    (filePath message sha branch : String) (who : Committer) :
    Repository β × Except HubError WriteResult :=
  editFile P a r (.delete sha) filePath message branch who

def headTree (r : Repository β) (branch : String) : Option (GitTree β) :=
  (r.lookup (refPath (branchReferenceName branch))).map Commit.tree

def editCommit (P : Plumbing β) (a : EngineAnswer β) (message : String) (who : Committer)
    (head : Commit β) (tree : GitTree β) : Commit β :=
  ⟨tree, [P.commitHash head], message, who.name, who.email, a.now⟩

variable {P : Plumbing β} {a : EngineAnswer β} {r r' : Repository β} {edit : FileEdit}
  {filePath message branch refName : String} {who : Committer} {head : Commit β}
  {tree : GitTree β}

theorem openBare_eq_ok (opened : openBare a r branch = .ok (refName, head)) :
    refName = refPath (branchReferenceName branch) ∧ r.lookup refName = some head := by
  unfold openBare at opened
  cases first : a.check .open errGit with
  | error e => simp [first] at opened
  | ok _ =>
    cases second : a.check .plainOpen errGit with
    | error e => simp [first, second] at opened
    | ok _ =>
      simp only [first, second] at opened
      by_cases crossed : crossesBoundary (refPath (branchReferenceName branch)) = true
      · simp [crossed] at opened
      simp only [crossed, Bool.false_eq_true, if_false] at opened
      cases found : r.lookup (refPath (branchReferenceName branch)) with
      | none => simp [found] at opened
      | some commit =>
        simp only [found, Except.ok.injEq, Prod.mk.injEq] at opened
        obtain ⟨rfl, rfl⟩ := opened
        exact ⟨rfl, found⟩

theorem wrapGit_eq_ok {value : α}
    (wrapped : wrapGit result = .ok value) : result = .ok value := by
  cases result with
  | error e => cases wrapped
  | ok _ => exact wrapped

theorem syncSkillMetadata_refs (P : Plumbing β) (a : EngineAnswer β) (r : Repository β)
    (commit : Commit β) : (syncSkillMetadata P a r commit).1.refs = r.refs ∧
      (syncSkillMetadata P a r commit).1.name = r.name := by
  unfold syncSkillMetadata
  split
  · exact ⟨rfl, rfl⟩
  · split
    · exact ⟨rfl, rfl⟩
    · split <;> exact ⟨rfl, rfl⟩

theorem sync_refs (synced : edit.sync P a r filePath branch commit =
    (r', result)) : r'.refs = r.refs ∧ r'.name = r.name := by
  have projected := syncSkillMetadata_refs P a r commit
  unfold FileEdit.sync at synced
  split at synced
  · cases synced
    exact ⟨rfl, rfl⟩
  · unfold syncSkillMetadataOnWrite at synced
    split_ifs at synced
    · cases synced
      exact ⟨rfl, rfl⟩
    · split at synced
      · cases synced
        exact ⟨rfl, rfl⟩
      · split at synced <;> rename_i outcome <;> rw [outcome] at projected <;> cases synced <;>
          exact projected

/-- The request passes everything that is checked before the branch moves. -/
def Accepts (P : Plumbing β) (a : EngineAnswer β) (r : Repository β) (edit : FileEdit)
    (filePath branch : String) : Prop :=
  filePathInvalid (trimSpace filePath) = false ∧
    ∃ refName head tree, openBare a r branch = .ok (refName, head) ∧
      edit.apply P head.tree (trimSpace filePath) = .ok tree

/-- What an edit that is not refused has done to the repository, whatever the
projection then answers. -/
structure Edited (P : Plumbing β) (a : EngineAnswer β) (r r' : Repository β) (edit : FileEdit)
    (filePath message branch : String) (who : Committer) (head : Commit β) (tree : GitTree β) :
    Prop where
  valid : filePathInvalid (trimSpace filePath) = false
  opened : openBare a r branch = .ok (refPath (branchReferenceName branch), head)
  found : r.lookup (refPath (branchReferenceName branch)) = some head
  planned : edit.apply P head.tree (trimSpace filePath) = .ok tree
  name : r'.name = r.name
  moved : ∀ k, r'.lookup k = if k = refPath (branchReferenceName branch) then
    some (editCommit P a message who head tree) else r.lookup k

theorem editFile_effect
    (made : editFile P a r edit filePath message branch who = (r', outcome)) :
    (¬Accepts P a r edit filePath branch ∧ r' = r ∧ ∃ e, outcome = .error e) ∨
    ∃ head tree, Edited P a r r' edit filePath message branch who head tree ∧
      ∃ result, edit.sync P a (r.moveRef (refPath (branchReferenceName branch))
        (editCommit P a message who head tree)) (trimSpace filePath) branch
        (editCommit P a message who head tree) = (r', result) ∧
        ((∃ out, outcome = .ok out) ↔ result.isOk = true) := by
  unfold editFile at made
  by_cases invalid : filePathInvalid (trimSpace filePath) = true
  · simp only [invalid, if_true] at made
    cases made
    exact .inl ⟨by simp [Accepts, invalid], rfl, _, rfl⟩
  simp only [invalid, Bool.false_eq_true, if_false] at made
  cases opened : openBare a r branch with
  | error e =>
    simp only [opened] at made
    cases made
    exact .inl ⟨by simp [Accepts, opened], rfl, e, rfl⟩
  | ok branchHead =>
    obtain ⟨refName, head⟩ := branchHead
    obtain ⟨rfl, found⟩ := openBare_eq_ok opened
    cases planned : edit.apply P head.tree (trimSpace filePath) with
    | error e =>
      simp only [opened, planned] at made
      cases made
      exact .inl ⟨by simp [Accepts, opened, planned], rfl, e, rfl⟩
    | ok tree =>
      simp only [opened, planned] at made
      split at made
      all_goals
        rename_i synced
        cases made
        obtain ⟨refs, name⟩ := sync_refs synced
        refine .inr ⟨head, tree, ⟨by simpa using invalid, opened, found, planned, name, fun k => ?_⟩,
          _, synced, by simp [Except.isOk, Except.toBool]⟩
        rw [lookup_congr refs, lookup_moveRef, found]
        rfl

theorem editFile_eq_ok
    (made : editFile P a r edit filePath message branch who = (r', .ok out)) :
    ∃ tree tree', headTree r branch = some tree ∧ headTree r' branch = some tree' ∧
      filePathInvalid (trimSpace filePath) = false ∧
      edit.apply P tree (trimSpace filePath) = .ok tree' := by
  rcases editFile_effect made with ⟨_, _, e, failed⟩ | ⟨head, tree', edited, _⟩
  · cases failed
  · refine ⟨head.tree, tree', by simp [headTree, edited.found], ?_, edited.valid, edited.planned⟩
    rw [headTree, edited.moved, if_pos rfl]
    rfl

theorem create_apply_eq_ok
    (planned : FileEdit.apply P (.create content) tree filePath = .ok tree') :
    upsertEntry P.refuses tree (splitPath filePath) (.file .Regular (P.bytes content))
      = .ok tree' := by
  unfold FileEdit.apply at planned
  cases found : findEntry tree filePath with
  | some existing => simp [found] at planned
  | none =>
    simp only [found] at planned
    exact wrapGit_eq_ok planned

theorem update_apply_eq_ok
    (planned : FileEdit.apply P (.update content sha) tree filePath = .ok tree') :
    (∃ existing, findEntry tree filePath = some existing) ∧
      upsertEntry P.refuses tree (splitPath filePath) (.file .Regular (P.bytes content))
        = .ok tree' := by
  unfold FileEdit.apply at planned
  cases found : findEntry tree filePath with
  | none => simp [found] at planned
  | some existing =>
    simp only [found] at planned
    split_ifs at planned
    exact ⟨⟨existing, rfl⟩, wrapGit_eq_ok planned⟩

theorem delete_apply_eq_ok
    (planned : FileEdit.apply P (.delete sha) tree filePath = .ok tree') :
    (∃ existing, findEntry tree filePath = some existing) ∧
      removeEntry P.refuses tree (splitPath filePath) = .ok tree' := by
  unfold FileEdit.apply at planned
  cases found : findEntry tree filePath with
  | none => simp [found] at planned
  | some existing =>
    simp only [found] at planned
    split_ifs at planned
    exact ⟨⟨existing, rfl⟩, wrapGit_eq_ok planned⟩

end AisphereHub
