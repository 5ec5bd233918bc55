import AisphereHub.Proof.ArchiveImport

/-! The names in committed trees, against those that git itself refuses. -/
namespace AisphereHub

open GoStrings GoPath

variable {β δ : Type} {tree tree' : GitTree β} {refuses : GitTree β → Option String} {name : String}
  {node : GitNode β}

def isGitName (part : String) : Bool := part.toList.map Char.toLower == ".git".toList

def LawfulName (part : String) : Prop :=
  part ≠ "" ∧ part ≠ "." ∧ part ≠ ".." ∧ isGitName part = false

/-- Every name on the way to a file or a directory is lawful. -/
def LawfulTree (tree : GitTree β) : Prop :=
  ∀ q node, nodeAt tree q = some node → ∀ part ∈ q, LawfulName part

theorem nodeAt_cons (tree : GitTree β) (name next : String) (rest : List String) :
    nodeAt tree (name :: next :: rest) = nodeAt (childTree tree name) (next :: rest) := by
  have empty : ∀ path, nodeAt ([] : GitTree β) path = none := by
    intro path
    cases path with
    | nil => rfl
    | cons first rest => cases rest <;> rfl
  simp only [nodeAt, childTree]
  split
  · rfl
  · rw [empty]

theorem lawfulTree_iff : LawfulTree tree ↔
    (∀ name node, findEntryInSlice tree name = some node → LawfulName name) ∧
      ∀ name, LawfulTree (childTree tree name) := by
  constructor
  · intro lawful
    refine ⟨fun name node found => lawful [name] node found name (by simp), ?_⟩
    intro name q node found part member
    cases q with
    | nil => cases member
    | cons first rest =>
      rw [← nodeAt_cons] at found
      exact lawful _ node found part (by simp [member])
  · rintro ⟨here, below⟩ q node found part member
    cases q with
    | nil => cases member
    | cons name rest =>
      cases rest with
      | nil => exact List.mem_singleton.mp member ▸ here name node found
      | cons next rest =>
        rcases List.mem_cons.mp member with rfl | member
        · simp only [nodeAt] at found
          split at found
          · rename_i entries dir
            exact here part (.dir entries) dir
          · cases found
        · rw [nodeAt_cons] at found
          exact below name _ node found part member

theorem lawfulTree_nil : LawfulTree ([] : GitTree β) := by
  intro q node found
  cases q with
  | nil => cases found
  | cons name rest => cases rest <;> cases found

theorem LawfulTree.replaceOrAppend (lawful : LawfulTree tree) (holds : WellFormed tree)
    (named : LawfulName name) (inside : LawfulTree (childTree [(name, node)] name)) :
    LawfulTree (replaceOrAppend tree (name, node)) := by
  rw [lawfulTree_iff] at lawful ⊢
  refine ⟨?_, ?_⟩
  · intro k found there
    rw [find_replaceOrAppend holds.unique] at there
    split_ifs at there with same
    · exact same ▸ named
    · exact lawful.1 k found there
  · intro k
    rw [childTree, find_replaceOrAppend holds.unique]
    split_ifs
    · simpa [childTree, findEntryInSlice, Keyed.lookup] using inside
    · exact lawful.2 k

theorem LawfulTree.upsert (lawful : LawfulTree tree) (holds : WellFormed tree)
    (named : ∀ part ∈ parts, LawfulName part)
    (done : upsertEntry refuses tree parts (.file mode blob) = .ok tree') : LawfulTree tree' := by
  revert lawful holds named
  refine upsertEntry_induction ?_ ?_ done
  · intro tree name lawful holds named
    refine lawful.replaceOrAppend holds (named name (by simp)) ?_
    simpa [childTree, findEntryInSlice, Keyed.lookup] using lawfulTree_nil
  · intro tree name next parts child ih lawful holds named
    have lawfulChild := ih ((lawfulTree_iff.mp lawful).2 name) (holds.childTree name)
      fun part member => named part (by simp [member])
    refine lawful.replaceOrAppend holds (named name (by simp)) ?_
    simpa [childTree, findEntryInSlice, Keyed.lookup] using lawfulChild

inductive Filled : GitTree β → Prop where
  | mk (tree : GitTree β) (some : ∀ name entries, (name, .dir entries) ∈ tree → entries ≠ [])
      (below : ∀ name entries, (name, .dir entries) ∈ tree → Filled entries) : Filled tree

theorem Filled.inside (filled : Filled tree)
    (member : (name, .dir entries) ∈ tree) : entries ≠ [] ∧ Filled entries := by
  cases filled with
  | mk _ some below => exact ⟨some name entries member, below name entries member⟩

theorem Filled.child (filled : Filled tree)
    (found : findEntryInSlice tree name = some (.dir entries)) : entries ≠ [] ∧ Filled entries := by
  obtain ⟨entry, there, same⟩ := Option.map_eq_some_iff.mp found
  have member : (entry.1, .dir entries) ∈ tree := by
    rw [← same]
    exact Keyed.mem_of_lookup there
  exact filled.inside member

theorem filled_nil : Filled ([] : GitTree β) := .mk [] (by simp) (by simp)

theorem Filled.childTree (filled : Filled tree) (name : String) : Filled (childTree tree name) := by
  unfold AisphereHub.childTree
  split
  · rename_i entries found
    exact (filled.child found).2
  · exact filled_nil

theorem Filled.replaceOrAppend (filled : Filled tree)
    (inside : ∀ entries, node = .dir entries → entries ≠ [] ∧ Filled entries) :
    replaceOrAppend tree (name, node) ≠ [] ∧ Filled (replaceOrAppend tree (name, node)) := by
  have each : ∀ other entries, (other, .dir entries) ∈ AisphereHub.replaceOrAppend tree (name, node) →
      entries ≠ [] ∧ Filled entries := by
    intro other entries member
    rcases mem_replaceOrAppend.mp member with same | ⟨old, _⟩
    · exact inside entries (Prod.mk.inj same).2.symm
    · exact filled.inside old
  refine ⟨List.ne_nil_of_mem (mem_replaceOrAppend.mpr (.inl rfl)), .mk _ ?_ ?_⟩
  · exact fun other entries member => (each other entries member).1
  · exact fun other entries member => (each other entries member).2

theorem Filled.upsert (filled : Filled tree)
    (done : upsertEntry refuses tree parts (.file mode blob) = .ok tree') :
    tree' ≠ [] ∧ Filled tree' := by
  revert filled
  refine upsertEntry_induction ?_ ?_ done
  · exact fun tree name filled => filled.replaceOrAppend (by simp)
  · intro tree name next parts child ih filled
    refine filled.replaceOrAppend ?_
    rintro entries same
    cases same
    exact ih (filled.childTree name)

theorem Filled.has_file (filled : Filled tree) (some : tree ≠ []) :
    ∃ path, fileAt tree path ≠ none := by
  induction filled with
  | mk tree inside _ ih =>
    cases tree with
    | nil => exact absurd rfl some
    | cons entry rest =>
      obtain ⟨name, node⟩ := entry
      have here : findEntryInSlice ((name, node) :: rest) name = Option.some node := by
        simp [findEntryInSlice, Keyed.lookup]
      cases node with
      | file mode blob => exact ⟨[name], by rw [fileAt_cons, here]; simp⟩
      | dir entries =>
        obtain ⟨path, found⟩ := ih name entries (by simp) (inside name entries (by simp))
        exact ⟨name :: path, by rwa [fileAt_cons, here]⟩

theorem Filled.file_below (filled : Filled tree)
    (found : nodeAt tree q = some node) : ∃ rest, fileAt tree (q ++ rest) ≠ none := by
  induction q generalizing tree with
  | nil => cases found
  | cons name q ih =>
    cases q with
    | nil =>
      cases node with
      | file mode blob => exact ⟨[], by simp [fileAt, found]⟩
      | dir entries =>
        obtain ⟨some, inside⟩ := filled.child found
        obtain ⟨path, there⟩ := inside.has_file some
        refine ⟨path, ?_⟩
        rw [nodeAt] at found
        rwa [List.singleton_append, fileAt_cons, found]
    | cons next q =>
      rw [nodeAt_cons] at found
      obtain ⟨rest, there⟩ := ih (filled.childTree name) found
      exact ⟨rest, by rwa [List.cons_append, fileAt_childTree] at there⟩

variable {P : Plumbing β} {files : List (SkillArchiveFile β)}

theorem writeFiles_filled (filled : Filled root)
    (done : writeFiles P root files = .ok tree) : Filled tree := by
  induction files generalizing root with
  | nil =>
    cases done
    exact filled
  | cons file files ih =>
    unfold writeFiles at done
    cases first : upsertFileInTree P.refuses root file.path file.content .Regular with
    | error e => simp [first] at done
    | ok next =>
      simp only [first] at done
      exact ih (filled.upsert first).2 done

def Kept (files : List (SkillArchiveFile β)) (file : SkillArchiveFile β) : Prop :=
  ∃ before after, files = before ++ file :: after ∧
    ∀ later ∈ after, ¬PathMap.Overlap (split later.path '/') (split file.path '/')

theorem kept_iff :
    PathMap.writeAll (fun _ => none) (files.map SkillArchiveFile.entry) q = some x ↔
      ∃ file, Kept files file ∧ file.entry = (q, x) := by
  rw [PathMap.writeAll_eq_some]
  constructor
  · rintro ⟨before, after, shape, apart⟩
    obtain ⟨first, rest, rfl, rfl, more⟩ := List.map_eq_append_iff.mp shape
    obtain ⟨file, others, rfl, here, rfl⟩ := List.map_eq_cons_iff.mp more
    refine ⟨file, ⟨first, others, rfl, ?_⟩, here⟩
    intro later member
    have path : split file.path '/' = q := congrArg Prod.fst here
    rw [path]
    exact apart later.entry (List.mem_map_of_mem member)
  · rintro ⟨file, ⟨before, after, rfl, apart⟩, here⟩
    refine ⟨before.map SkillArchiveFile.entry, after.map SkillArchiveFile.entry, by simp [here], ?_⟩
    intro e member
    obtain ⟨later, inAfter, rfl⟩ := List.mem_map.mp member
    have path : split file.path '/' = q := congrArg Prod.fst here
    rw [← path]
    exact apart later inAfter

/-- The last component is `.git`, or some component is `.git` in another case. -/
def GitNamed (p : String) : Prop :=
  (split p '/').getLast? = some ".git" ∨ ∃ part ∈ split p '/', isGitName part = true ∧ part ≠ ".git"

instance (p : String) : Decidable (GitNamed p) := inferInstanceAs (Decidable (_ ∨ _))

theorem ArchivePath.git_last (listed : ArchivePath p) (member : ".git" ∈ split p '/') :
    (split p '/').getLast? = some ".git" := by
  obtain ⟨before, after, shape⟩ := List.append_of_mem member
  cases after with
  | nil => simp [shape]
  | cons next after =>
    have whole := join_split p '/'
    have slash : String.ofList ['/'] = "/" := rfl
    rw [shape] at whole
    cases before with
    | nil =>
      rw [List.nil_append, join_cons, slash] at whole
      have inside : hasPrefix p ".git/" = true := hasPrefix_iff.mpr ⟨_, whole.symm⟩
      rw [listed.notGitDir] at inside
      cases inside
    | cons first before =>
      rw [join_append (by simp) (by simp), join_cons, slash] at whole
      have inside : contains p "/.git/" = true := by
        refine contains_iff.mpr ⟨join (first :: before) '/', join (next :: after) '/', ?_⟩
        rw [← whole]
        simp [← String.toList_inj]
      rw [listed.notInGitDir] at inside
      cases inside

theorem ArchivePath.lawful_iff (listed : ArchivePath p) :
    (∀ part ∈ split p '/', LawfulName part) ↔ ¬GitNamed p := by
  constructor
  · rintro lawful (last | ⟨part, member, git, _⟩)
    · have name := (lawful ".git" (List.mem_of_getLast? last)).2.2.2
      cases name
    · rw [(lawful part member).2.2.2] at git
      cases git
  · intro free part member
    obtain ⟨nonempty, notDot, notUp, _⟩ := listed.plain part member
    refine ⟨nonempty, notDot, notUp, ?_⟩
    by_contra git
    by_cases exact : part = ".git"
    · subst exact
      exact free (.inl (listed.git_last member))
    · exact free (.inr ⟨part, member, by simpa using git, exact⟩)

theorem seeded_lawful_iff (accepted : Accepted P.toContent archive) (same : skill.initialFiles = archive.files)
    (seeded : seedInitialCommit P a skill = .ok commit) :
    LawfulTree commit.tree ↔ ∀ file, Kept archive.files file → ¬GitNamed file.path := by
  obtain ⟨_, files⟩ := seedInitialCommit_files accepted same seeded
  have filled : Filled commit.tree := by
    obtain ⟨file, member, _⟩ := accepted.described
    exact writeFiles_filled filled_nil
      (seedInitialCommit_eq_ok (by rw [same]; exact List.ne_nil_of_mem member) seeded)
  have listed : ∀ file, Kept archive.files file → ArchivePath file.path := by
    rintro file ⟨before, after, shape, _⟩
    exact accepted.listed file (by simp [shape])
  constructor
  · intro lawful file kept
    rw [← (listed file kept).lawful_iff]
    have there : fileAt commit.tree (split file.path '/') = some (.Regular, file.content) := by
      rw [files]
      exact kept_iff.mpr ⟨file, kept, rfl⟩
    unfold fileAt at there
    split at there
    · rename_i found
      exact lawful _ _ found
    · cases there
  · intro free q node found part member
    obtain ⟨rest, there⟩ := filled.file_below found
    obtain ⟨x, stored⟩ := Option.ne_none_iff_exists'.mp there
    rw [files] at stored
    obtain ⟨file, kept, here⟩ := kept_iff.mp stored
    have path : split file.path '/' = q ++ rest := congrArg Prod.fst here
    exact (listed file kept).lawful_iff.mpr (free file kept) part (by simp [path, member])

theorem created_lawful_iff (lawful : LawfulTree tree)
    (holds : WellFormed tree) (valid : filePathInvalid path = false)
    (planned : FileEdit.apply P (.create content) tree path = .ok tree') :
    LawfulTree tree' ↔ ∀ part ∈ splitPath path, part ≠ "." ∧ isGitName part = false := by
  have done := create_apply_eq_ok planned
  constructor
  · intro lawful' part member
    have there : fileAt tree' (splitPath path) = some (.Regular, P.bytes content) := by
      rw [(upsertEntry_files holds (fun _ => splitPath_named) done).2, PathMap.write_self]
    unfold fileAt at there
    split at there
    · rename_i found
      obtain ⟨_, notDot, _, notGit⟩ := lawful' _ _ found part member
      exact ⟨notDot, notGit⟩
    · cases there
  · intro free
    refine lawful.upsert holds ?_ done
    intro part member
    refine ⟨(splitPath_named member).1, (free part member).1, ?_, (free part member).2⟩
    rintro rfl
    rw [splitPath_eq, List.mem_filter] at member
    have up := contains_of_mem_split member.1
    simp [filePathInvalid, up] at valid

/-- Names in the trees the import and `CreateFile` commit: the import lets through
a last component `.git` and other spellings of it, `CreateFile` also `.` and any
`.git`. -/
theorem committed_names_lawful_iff (P : Plumbing β) :
    (∀ (Z : ZipFormat P.toContent δ) (data : δ) (limits : SkillArchiveLimits)
      (archive : SkillArchive β) (a : EngineAnswer β) (skill : GitSkill β) (commit : Commit β),
      parseSkillArchive Z data limits = .ok archive → skill.initialFiles = archive.files →
      seedInitialCommit P a skill = .ok commit →
      (LawfulTree commit.tree ↔ ∀ file, Kept archive.files file → ¬GitNamed file.path)) ∧
    ∀ (a : EngineAnswer β) (r r' : Repository β) (filePath content message branch : String)
      (who : Committer) (out : WriteResult),
      createFile P a r filePath content message branch who = (r', .ok out) →
      (∀ tree, headTree r branch = some tree → WellFormed tree ∧ LawfulTree tree) →
      ∃ tree', headTree r' branch = some tree' ∧
        (LawfulTree tree' ↔
          ∀ part ∈ splitPath (trimSpace filePath), part ≠ "." ∧ isGitName part = false) := by
  constructor
  · intro Z data limits archive a skill commit parsed imported seeded
    exact seeded_lawful_iff (parseSkillArchive_accepted parsed) imported seeded
  · intro a r r' filePath content message branch who out made holds
    obtain ⟨tree, tree', before, after, valid, planned⟩ := editFile_eq_ok made
    obtain ⟨wellFormed, lawful⟩ := holds tree before
    exact ⟨tree', after, created_lawful_iff lawful wellFormed valid planned⟩

def seededRepository (name : String) (commit : Commit β) : Repository β :=
  { name := name, refs := [⟨skillDefaultRef, commit⟩] }

theorem weather_names_lawful :
    ∃ archive commit r' out tree',
      parseSkillArchive (listZip plainPlumbing.toContent) weatherArchive {} = .ok archive ∧
      seedInitialCommit plainPlumbing {}
        { name := "weather", initialFiles := archive.files } = .ok commit ∧
      LawfulTree commit.tree ∧
      createFile plainPlumbing {} (seededRepository "weather" commit) "docs/api.md" "GET /" "Add" ""
        {} = (r', .ok out) ∧
      headTree r' "" = some tree' ∧ LawfulTree tree' := by
  obtain ⟨archive, parsed, each, commit, seeded, r', out, made, plain⟩ : ∃ archive,
      parseSkillArchive (listZip plainPlumbing.toContent) weatherArchive {} = .ok archive ∧
      (∀ file ∈ archive.files, ¬GitNamed file.path) ∧ ∃ commit,
      seedInitialCommit plainPlumbing {}
        { name := "weather", initialFiles := archive.files } = .ok commit ∧ ∃ r' out,
      createFile plainPlumbing {} (seededRepository "weather" commit) "docs/api.md" "GET /" "Add" ""
        {} = (r', .ok out) ∧
      ∀ part ∈ splitPath (trimSpace "docs/api.md"), part ≠ "." ∧ isGitName part = false := by
    decide +kernel
  have names : LawfulTree commit.tree := by
    refine ((committed_names_lawful_iff plainPlumbing).1 (listZip plainPlumbing.toContent)
      weatherArchive {} archive {} _ commit parsed rfl seeded).mpr ?_
    rintro file ⟨before, after, shape, _⟩
    exact each file (by simp [shape])
  have formed := (seedInitialCommit_files (parseSkillArchive_accepted parsed) rfl seeded).1
  obtain ⟨tree', after, lawful⟩ := (committed_names_lawful_iff (δ := Unit) plainPlumbing).2 {}
    _ r' "docs/api.md" "GET /" "Add" "" {} out made fun tree found => by
      cases found
      exact ⟨formed, names⟩
  exact ⟨archive, commit, r', out, tree', parsed, seeded, names, made, after, lawful.mpr plain⟩

/-- A file `.git` comes with a wrapped archive, and `CreateFile` writes into a
directory of that name. -/
theorem git_names_committed :
    ∃ archive commit r' out tree',
      parseSkillArchive (listZip plainPlumbing.toContent)
        [("w/SKILL.md", false, weatherSkill), ("w/.git", false, "gitdir: /tmp")] {} = .ok archive ∧
      seedInitialCommit plainPlumbing {}
        { name := "weather", initialFiles := archive.files } = .ok commit ∧
      fileAt commit.tree [".git"] = some (.Regular, "gitdir: /tmp") ∧
      createFile plainPlumbing {} weatherRepository ".git/config" "[core]" "Add" "" {} =
        (r', .ok out) ∧
      headTree r' "" = some tree' ∧
      fileAt tree' [".git", "config"] = some (.Regular, "[core]") := by
  simp only [exists_and_left]
  refine exists_ok (P := fun archive => archive.files =
      [⟨"SKILL.md", weatherSkill⟩, ⟨".git", "gitdir: /tmp"⟩]) (by decide +kernel) fun _ _ listed => ?_
  rw [listed]
  decide +kernel

end AisphereHub
