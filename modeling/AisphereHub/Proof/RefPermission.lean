import AisphereHub.Biz.FileUsecase

/-! The permission a file write is checked for, against the one a push of its ref needs. -/
namespace AisphereHub

open GoStrings

variable {β : Type}

def SkillPermission.rank : SkillPermission → Nat
  | .edit => 0
  | .publish => 1
  | .manage => 2

instance : LE SkillPermission := ⟨fun x y => x.rank ≤ y.rank⟩

instance (x y : SkillPermission) : Decidable (x ≤ y) := inferInstanceAs (Decidable (_ ≤ _))

def hookDefaultBranch (configured : String) : String :=
  if trimSpace configured = "" then "main" else trimSpace configured

def movedRef (branch : String) : String := refPath (branchReferenceName (defaultBranch branch))

theorem writePermissionFor_branchRef (branch : String) : writePermissionFor (branchRef branch) =
      if trimSpace branch ∈ ["", "main", "refs/heads/main"] then .publish else .edit := by
  have solid : Trimmed "refs/heads/".toList := by
    constructor
    · intro c first
      obtain rfl : 'r' = c := by simpa using first
      decide
    · intro c last
      obtain rfl : '/' = c := by simpa using last
      decide
  have again := trimSpace_trimSpace branch
  unfold branchRef
  generalize trimSpace branch = name at again ⊢
  by_cases empty : name = ""
  · subst empty
    rfl
  rw [if_neg empty]
  by_cases full : hasPrefix name "refs/" = true
  · rw [if_pos full]
    obtain ⟨rest, rfl⟩ := hasPrefix_iff.mp full
    have other : ∀ s : String, hasPrefix s "refs/" = false → "refs/" ++ rest ≠ s := by
      rintro s outside rfl
      rw [full] at outside
      cases outside
    simp only [writePermissionFor, again, empty, other "HEAD" (by decide), other "main" (by decide),
      List.mem_cons, List.not_mem_nil, false_or, or_false]
  · rw [if_neg full]
    have kept := trimSpace_append solid (by decide) again
    have other : ∀ s : String, hasPrefix s "refs/heads/" = false → "refs/heads/" ++ name ≠ s := by
      rintro s outside rfl
      rw [hasPrefix_iff.mpr ⟨name, rfl⟩] at outside
      cases outside
    have main : "refs/heads/" ++ name = "refs/heads/main" ↔ name = "main" := by
      rw [show "refs/heads/main" = "refs/heads/" ++ "main" from rfl, String.append_right_inj]
    have notFull : name ≠ "refs/heads/main" := by
      rintro rfl
      exact full (by decide)
    simp only [writePermissionFor, kept, other "" (by decide), other "HEAD" (by decide),
      other "main" (by decide), main, empty, notFull, List.mem_cons, List.not_mem_nil, false_or,
      or_false]

/-- The write moves one ref, and what was checked covers a fast-forward of it by
push. -/
def Covered (P : Plumbing β) (configured branch : String) (r r' : Repository β) : Prop :=
  ∃ head commit, r.lookup (movedRef branch) = some head ∧
    r'.lookup (movedRef branch) = some commit ∧
    (∀ k, k ≠ movedRef branch → r'.lookup k = r.lookup k) ∧
    requiredPermissionForRefUpdate (hookDefaultBranch configured) (movedRef branch)
      (P.commitHash head) (P.commitHash commit) true ≤ writePermissionFor (branchRef branch)

/-- The branch names no tag, and the default branch only where the usecase asks for
`publish`. -/
def PushLike (configured branch : String) : Prop :=
  hasPrefix (movedRef branch) "refs/tags/" = false ∧
    (movedRef branch = "refs/heads/" ++ trimPrefix (hookDefaultBranch configured) "refs/heads/" →
      trimSpace branch ∈ ["", "main", "refs/heads/main"])

instance (configured branch : String) : Decidable (PushLike configured branch) :=
  inferInstanceAs (Decidable (_ ∧ _))

theorem trimSpace_hookDefaultBranch (configured : String) :
    trimSpace (hookDefaultBranch configured) = hookDefaultBranch configured := by
  unfold hookDefaultBranch
  split_ifs
  · rfl
  · exact trimSpace_trimSpace configured

theorem fileWrite_covered_iff {r' : Repository β} (configured : String)
    (made : fileWrite P (some require) a r principal edit verb path message branch = (r', .ok out)) :
    require (fileCheckRequest principal r.name (branchRef branch)) = .ok () ∧
      (Covered P configured branch r r' ↔ PushLike configured branch) := by
  unfold fileWrite requireFilePermission at made
  cases asked : require (fileCheckRequest principal r.name (branchRef branch)) with
  | error e => simp [asked] at made
  | ok u =>
    simp only [asked] at made
    rcases editFile_effect made with ⟨_, _, e, failed⟩ | ⟨head, tree, edited, _⟩
    · cases failed
    · have moved : ∀ k, r'.lookup k = if k = movedRef branch then _ else _ := edited.moved
      have covered : Covered P configured branch r r' ↔
          requiredPermissionForRefUpdate (hookDefaultBranch configured) (movedRef branch)
            (P.commitHash head) (P.commitHash (editCommit P a
              (if message = "" then verb ++ path else message) (resolveCommitter principal) head
              tree)) true ≤ writePermissionFor (branchRef branch) := by
        constructor
        · rintro ⟨head', commit', before, after, _, covers⟩
          rw [show r.lookup (movedRef branch) = some head from edited.found] at before
          rw [moved, if_pos rfl] at after
          cases before
          cases after
          exact covers
        · intro covers
          refine ⟨head, _, edited.found, by rw [moved, if_pos rfl], fun k other => ?_, covers⟩
          rw [moved, if_neg other]
      rw [covered, writePermissionFor_branchRef, requiredPermissionForRefUpdate, PushLike]
      simp only [P.commitHash_nonzero, trimSpace_hookDefaultBranch, Bool.false_and, Bool.false_or,
        Bool.not_true, Bool.and_false, Bool.false_eq_true, if_false]
      by_cases tag : hasPrefix (movedRef branch) "refs/tags/" = true
      · simp only [tag, Bool.true_eq_false, false_and, iff_false]
        split_ifs <;> decide
      · rw [if_neg tag]
        simp only [tag, Bool.not_eq_true] at tag ⊢
        split_ifs with isDefault publish publish
        · simp only [publish, implies_true, and_self, iff_true]
          decide
        · simp only [publish, isDefault, true_implies, and_false, iff_false]
          decide
        · simp only [isDefault, false_implies, and_self, iff_true]
          decide
        · simp only [isDefault, false_implies, and_self, iff_true]
          decide

/-- A file write that succeeds was allowed what `git push` asks for, exactly when its
branch names no tag and resolves to the configured default branch only under a
spelling that the usecase publishes. -/
theorem file_write_permission_covers_push_iff (P : Plumbing β) (a : EngineAnswer β)
    (require : AuthzCheckRequest → Except HubError Unit) (r r' : Repository β)
    (principal : FilePrincipal) (configured path message branch : String) (out : WriteResult) :
    (∀ content, fileCreate P (some require) a r principal path content message branch =
        (r', .ok out) →
      require (fileCheckRequest principal r.name (branchRef branch)) = .ok () ∧
        (Covered P configured branch r r' ↔ PushLike configured branch)) ∧
    (∀ content sha, fileUpdate P (some require) a r principal path content message sha branch =
        (r', .ok out) →
      require (fileCheckRequest principal r.name (branchRef branch)) = .ok () ∧
        (Covered P configured branch r r' ↔ PushLike configured branch)) ∧
    ∀ sha, fileDelete P (some require) a r principal path message sha branch = (r', .ok out) →
      require (fileCheckRequest principal r.name (branchRef branch)) = .ok () ∧
        (Covered P configured branch r r' ↔ PushLike configured branch) :=
  ⟨fun _ made => fileWrite_covered_iff configured made,
    fun _ _ made => fileWrite_covered_iff configured made,
    fun _ made => fileWrite_covered_iff configured made⟩

theorem main_write_covers_push :
    ∃ r' out, fileCreate plainPlumbing (some fun _ => .ok ()) {} weatherRepository {} "notes.md" "x"
        "" " main" = (r', .ok out) ∧
      Covered plainPlumbing "" " main" weatherRepository r' := by
  refine ⟨_, _, rfl, ?_⟩
  refine (((file_write_permission_covers_push_iff plainPlumbing {} (fun _ => .ok ())
    weatherRepository _ {} "" "notes.md" "" " main" _).1 "x" rfl).2).mpr ?_
  decide +kernel

def editOnly (request : AuthzCheckRequest) : Except HubError Unit :=
  if request.permission = .edit then .ok () else .error ⟨.PERMISSION_DENIED, ""⟩

/-- A dot segment leads to the default branch past the check for `publish`. -/
theorem dotted_branch_moves_main_with_edit :
    ∃ r' out head commit,
      fileCreate plainPlumbing (some editOnly) {} weatherRepository {} "notes.md" "x" ""
        "x/../main" = (r', .ok out) ∧
      weatherRepository.lookup skillDefaultRef = some head ∧
      r'.lookup skillDefaultRef = some commit ∧
      fileAt head.tree ["notes.md"] = none ∧ fileAt commit.tree ["notes.md"] = some (.Regular, "x") ∧
      requiredPermissionForRefUpdate (hookDefaultBranch "") skillDefaultRef
        (plainPlumbing.commitHash head) (plainPlumbing.commitHash commit) true = .publish :=
  ⟨_, _, _, _, rfl, rfl, rfl, rfl, rfl, rfl⟩

end AisphereHub
