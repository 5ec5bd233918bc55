import AisphereHub.Gitengine.File
import AisphereHub.Proof.TreeRefinement

/-! Single-file writes: what happens to the other files of the branch. -/
namespace AisphereHub

open GoStrings

variable {β : Type} {tree : GitTree β}

theorem filter_splitOn_dropWhile (chars : List Char) :
    ((chars.dropWhile (· == '/')).splitOn '/').filter (· ≠ []) =
      (chars.splitOn '/').filter (· ≠ []) := by
  induction chars with
  | nil => rfl
  | cons c chars ih =>
    by_cases slash : c = '/'
    · subst slash
      have parts : ('/' :: chars).splitOn '/' = [] :: chars.splitOn '/' := by
        simpa using List.splitOn_append_cons_self (a := '/') [] chars
      rw [parts, List.dropWhile_cons_of_pos (by simp), ih]
      simp
    · rw [List.dropWhile_cons_of_neg (by simpa using slash)]

theorem filter_splitOn_rdropWhile (chars : List Char) :
    ((chars.rdropWhile (· == '/')).splitOn '/').filter (· ≠ []) =
      (chars.splitOn '/').filter (· ≠ []) := by
  induction chars using List.reverseRecOn with
  | nil => rfl
  | append_singleton chars c ih =>
    by_cases slash : c = '/'
    · subst slash
      rw [List.rdropWhile_concat_pos _ _ _ (by simp), ih, List.splitOn_append_cons_self]
      simp
    · rw [List.rdropWhile_concat_neg _ _ _ (by simpa using slash)]

theorem splitPath_eq (p : String) : splitPath p = (split p '/').filter (· ≠ "") := by
  have named : ∀ parts : List (List Char), (parts.map String.ofList).filter (· ≠ "") =
      (parts.filter (· ≠ [])).map String.ofList := by
    intro parts
    rw [List.filter_map]
    congr 1
    refine List.filter_congr fun part _ => ?_
    have empty : String.ofList part = "" ↔ part = [] := by
      rw [← String.toList_inj, String.toList_ofList]
      rfl
    simp only [Function.comp_apply, ne_eq, empty]
  unfold splitPath split trim
  rw [named, named, String.toList_ofList, filter_splitOn_rdropWhile, filter_splitOn_dropWhile]

theorem splitPath_named (member : part ∈ splitPath p) : part ≠ "" ∧ '/' ∉ part.toList := by
  rw [splitPath_eq, List.mem_filter] at member
  exact ⟨by simpa using member.2, not_mem_of_mem_split member.1⟩

theorem fileAt_below (file : fileAt tree p = some x)
    (below : p <+: q) (other : q ≠ p) : fileAt tree q = none := by
  induction p generalizing tree q with
  | nil => cases file
  | cons name p ih =>
    obtain ⟨rest, rfl⟩ := below
    rw [List.cons_append] at other ⊢
    rw [fileAt_cons] at file ⊢
    cases found : findEntryInSlice tree name with
    | none => simp [found] at file
    | some node =>
      cases node with
      | file mode blob =>
        simp only [found] at file
        split_ifs at file with last
        subst last
        have more : [] ++ rest ≠ [] := fun none => other (by rw [none])
        simp only [more, if_false]
      | dir entries =>
        simp only [found] at file ⊢
        exact ih file (List.prefix_append p rest) fun same => other (by rw [same])

theorem fileAt_overlap (file : fileAt tree p = some x)
    (overlap : PathMap.Overlap p q) (other : q ≠ p) : fileAt tree q = none := by
  rcases overlap with below | above
  · exact fileAt_below file below other
  · by_contra present
    obtain ⟨y, found⟩ := Option.ne_none_iff_exists'.mp present
    rw [fileAt_below found above (Ne.symm other)] at file
    cases file

/-- Every file of the old tree is in the new one with its blob and mode, and the
only new file is the one at the path. -/
def AddsOnly (tree tree' : GitTree β) (path : List String) : Prop :=
  (∀ q x, fileAt tree q = some x → fileAt tree' q = some x) ∧
    ∀ q, fileAt tree q = none ∧ fileAt tree' q ≠ none ↔ q = path

/-- The file at the path has new content and its old mode; every other file is as
it was. -/
def ReplacesOnly (tree tree' : GitTree β) (path : List String) (blob : β) : Prop :=
  (∃ mode old, fileAt tree path = some (mode, old) ∧ fileAt tree' path = some (mode, blob)) ∧
    ∀ q, q ≠ path → fileAt tree' q = fileAt tree q

def RemovesOnly (tree tree' : GitTree β) (path : List String) : Prop :=
  fileAt tree' path = none ∧ ∀ q, q ≠ path → fileAt tree' q = fileAt tree q

variable {P : Plumbing β} {tree' : GitTree β} {content : String} {path : String}

theorem update_replacesOnly_iff (holds : WellFormed tree)
    (planned : FileEdit.apply P (.update content sha) tree path = .ok tree') :
    ReplacesOnly tree tree' (splitPath path) (P.bytes content) ↔
      ∃ old, fileAt tree (splitPath path) = some (.Regular, old) := by
  obtain ⟨_, files⟩ := upsertEntry_files holds (fun _ => splitPath_named)
    (update_apply_eq_ok planned).2
  unfold ReplacesOnly
  rw [files, PathMap.write_self]
  constructor
  · rintro ⟨⟨mode, old, found, kept⟩, _⟩
    obtain ⟨rfl, _⟩ := Prod.mk.inj (Option.some.inj kept)
    exact ⟨old, found⟩
  · rintro ⟨old, found⟩
    refine ⟨⟨.Regular, old, found, rfl⟩, ?_⟩
    intro q other
    by_cases overlap : PathMap.Overlap (splitPath path) q
    · rw [fileAt_overlap found overlap other]
      simp [PathMap.write, other, overlap]
    · exact PathMap.write_apart overlap

/-- `CreateFile` clobbers nothing exactly when no file of the branch lies at the
path, above it or below it. -/
theorem createFile_adds_only_iff (P : Plumbing β) (a : EngineAnswer β) (r r' : Repository β)
    (filePath content message branch : String) (who : Committer) (out : WriteResult)
    (made : createFile P a r filePath content message branch who = (r', .ok out))
    (holds : ∀ tree, headTree r branch = some tree → WellFormed tree) :
    ∃ tree tree', headTree r branch = some tree ∧ headTree r' branch = some tree' ∧
      (AddsOnly tree tree' (splitPath (trimSpace filePath)) ↔
        ∀ q, fileAt tree q ≠ none → ¬PathMap.Overlap (splitPath (trimSpace filePath)) q) := by
  obtain ⟨tree, tree', before, after, _, planned⟩ := editFile_eq_ok made
  obtain ⟨_, files⟩ := upsertEntry_files (holds tree before) (fun _ => splitPath_named)
    (create_apply_eq_ok planned)
  refine ⟨tree, tree', before, after, ?_⟩
  rw [AddsOnly, files]
  exact PathMap.write_frame_iff

theorem weatherTree_wellFormed : WellFormed weatherTree := by
  have leaf : ∀ name (mode : FileMode) (blob : String), name ≠ "" → '/' ∉ name.toList →
      WellFormed [(name, .file mode blob)] := by
    intro name mode blob nonempty free
    exact .mk _ (by simp) (by simp [nonempty, free]) (by simp)
  refine .mk _ (by decide) ?_ ?_
  · intro entry member
    simp only [weatherTree, List.mem_cons, List.not_mem_nil, or_false] at member
    rcases member with rfl | rfl | rfl <;> decide
  · intro name entries member
    simp only [weatherTree, List.mem_cons, Prod.mk.injEq, GitNode.dir.injEq, List.not_mem_nil,
      or_false, reduceCtorEq, and_false, false_or] at member
    rcases member with ⟨_, rfl⟩ | ⟨_, rfl⟩
    · exact leaf "run" .Executable "curl" (by decide) (by decide)
    · exact leaf "usage.md" .Regular "Ask." (by decide) (by decide)

theorem weatherRepository_head {tree}
    (found : headTree weatherRepository "" = some tree) : WellFormed tree := by
  cases found
  exact weatherTree_wellFormed

theorem forall_file_iff (holds : WellFormed tree) {property : List String → Prop} :
    (∀ q, fileAt tree q ≠ none → property q) ↔ ∀ file ∈ treeFiles tree, property file.1 := by
  constructor
  · rintro each ⟨q, x⟩ member
    exact each q (by simp [(fileAt_eq_some_iff holds).mpr member])
  · intro each q present
    obtain ⟨x, found⟩ := Option.ne_none_iff_exists'.mp present
    exact each (q, x) ((fileAt_eq_some_iff holds).mp found)

theorem createFile_beside_usage :
    ∃ r' out tree tree',
      createFile plainPlumbing {} weatherRepository "docs/api.md" "GET /" "Add" "" {} =
        (r', .ok out) ∧
      headTree weatherRepository "" = some tree ∧ headTree r' "" = some tree' ∧
      AddsOnly tree tree' ["docs", "api.md"] := by
  obtain ⟨tree, tree', before, after, frame⟩ := createFile_adds_only_iff plainPlumbing {}
    weatherRepository _ "docs/api.md" "GET /" "Add" "" {} _ rfl (fun _ => weatherRepository_head)
  refine ⟨_, _, tree, tree', rfl, before, after, frame.mpr ?_⟩
  cases before
  rw [forall_file_iff weatherTree_wellFormed]
  decide

/-- The existence check looks for a component with an empty name, the insertion
drops it. -/
theorem createFile_doubled_slash_overwrites :
    ∃ r' out tree tree',
      createFile plainPlumbing {} weatherRepository "docs//usage.md" "GET /" "Add" "" {} =
        (r', .ok out) ∧
      headTree weatherRepository "" = some tree ∧ headTree r' "" = some tree' ∧
      fileAt tree ["docs", "usage.md"] = some (.Regular, "Ask.") ∧
      fileAt tree' ["docs", "usage.md"] = some (.Regular, "GET /") :=
  ⟨_, _, _, _, rfl, rfl, rfl, rfl, rfl⟩

/-- `UpdateFile` touches one file exactly when its path names a regular file, and
`DeleteFile` exactly when no file lies below its path. -/
theorem updateFile_deleteFile_touch_one_iff (P : Plumbing β) (a : EngineAnswer β)
    (r r' : Repository β) (filePath message sha branch : String) (who : Committer)
    (out : WriteResult) (holds : ∀ tree, headTree r branch = some tree → WellFormed tree) :
    (∀ content, updateFile P a r filePath content message sha branch who = (r', .ok out) →
      ∃ tree tree', headTree r branch = some tree ∧ headTree r' branch = some tree' ∧
        (ReplacesOnly tree tree' (splitPath (trimSpace filePath)) (P.bytes content) ↔
          ∃ old, fileAt tree (splitPath (trimSpace filePath)) = some (.Regular, old))) ∧
    (deleteFile P a r filePath message sha branch who = (r', .ok out) →
      ∃ tree tree', headTree r branch = some tree ∧ headTree r' branch = some tree' ∧
        (RemovesOnly tree tree' (splitPath (trimSpace filePath)) ↔
          ∀ q, splitPath (trimSpace filePath) <+: q → q ≠ splitPath (trimSpace filePath) →
            fileAt tree q = none)) := by
  constructor
  · intro content made
    obtain ⟨tree, tree', before, after, _, planned⟩ := editFile_eq_ok made
    exact ⟨tree, tree', before, after, update_replacesOnly_iff (holds tree before) planned⟩
  · intro made
    obtain ⟨tree, tree', before, after, _, planned⟩ := editFile_eq_ok made
    obtain ⟨_, files⟩ := removeEntry_files (holds tree before) (delete_apply_eq_ok planned).2
    refine ⟨tree, tree', before, after, ?_⟩
    have gone : ∀ p, PathMap.erase (fileAt tree) p p = none := by simp [PathMap.erase]
    rw [RemovesOnly, files, and_iff_right (gone _)]
    exact PathMap.erase_frame_iff

theorem updateFile_deleteFile_regular :
    ∃ r₁ r₂ out₁ out₂ tree tree₁ tree₂,
      updateFile plainPlumbing {} weatherRepository "docs/usage.md" "Ask again." "Edit" "" "" {} =
        (r₁, .ok out₁) ∧
      deleteFile plainPlumbing {} weatherRepository "bin/run" "Drop" "" "" {} = (r₂, .ok out₂) ∧
      headTree weatherRepository "" = some tree ∧
      headTree r₁ "" = some tree₁ ∧ headTree r₂ "" = some tree₂ ∧
      ReplacesOnly tree tree₁ ["docs", "usage.md"] "Ask again." ∧
      RemovesOnly tree tree₂ ["bin", "run"] := by
  obtain ⟨tree, tree₁, before, after₁, replaced⟩ := (updateFile_deleteFile_touch_one_iff
    plainPlumbing {} weatherRepository _ "docs/usage.md" "Edit" "" "" {} _
    (fun _ => weatherRepository_head)).1 "Ask again." rfl
  obtain ⟨_, tree₂, same, after₂, removed⟩ := (updateFile_deleteFile_touch_one_iff
    plainPlumbing {} weatherRepository _ "bin/run" "Drop" "" "" {} _
    (fun _ => weatherRepository_head)).2 rfl
  cases before
  cases same
  refine ⟨_, _, _, _, _, tree₁, tree₂, rfl, rfl, rfl, after₁, after₂,
    replaced.mpr ⟨"Ask.", rfl⟩, removed.mpr ?_⟩
  intro q below other
  exact fileAt_below (x := (.Executable, "curl")) rfl below other

/-- An executable file loses its mode, and a directory goes with all its files. -/
theorem updateFile_drops_mode_deleteFile_drops_directory :
    ∃ r₁ r₂ out₁ out₂ tree tree₁ tree₂,
      updateFile plainPlumbing {} weatherRepository "bin/run" "wget" "Edit" "" "" {} =
        (r₁, .ok out₁) ∧
      deleteFile plainPlumbing {} weatherRepository "docs" "Drop" "" "" {} = (r₂, .ok out₂) ∧
      headTree weatherRepository "" = some tree ∧
      headTree r₁ "" = some tree₁ ∧ headTree r₂ "" = some tree₂ ∧
      fileAt tree ["bin", "run"] = some (.Executable, "curl") ∧
      fileAt tree₁ ["bin", "run"] = some (.Regular, "wget") ∧
      fileAt tree ["docs", "usage.md"] = some (.Regular, "Ask.") ∧
      fileAt tree₂ ["docs", "usage.md"] = none :=
  ⟨_, _, _, _, _, _, _, rfl, rfl, rfl, rfl, rfl, rfl, rfl, rfl, rfl⟩

end AisphereHub
