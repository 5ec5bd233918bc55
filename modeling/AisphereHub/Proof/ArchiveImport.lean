import Mathlib.Data.List.Pairwise
import AisphereHub.Gitengine.Engine
import AisphereHub.Proof.ArchiveListing
import AisphereHub.Proof.FileFrame

/-! The files of an archive against the tree of the commit that imports it. -/
namespace AisphereHub

open GoStrings GoPath

variable {β δ : Type} {P : Plumbing β} {a : EngineAnswer β} {files : List (SkillArchiveFile β)}
  {archive : SkillArchive β} {commit : Commit β}

def SkillArchiveFile.entry (file : SkillArchiveFile β) : List String × FileMode × β :=
  (split file.path '/', .Regular, file.content)

theorem splitPath_archivePath (listed : ArchivePath p) : splitPath p = split p '/' := by
  rw [splitPath_eq, List.filter_eq_self]
  intro part member
  simpa using (listed.plain part member).1

theorem writeFiles_files (holds : WellFormed root)
    (listed : ∀ file ∈ files, ArchivePath file.path) (done : writeFiles P root files = .ok tree) :
    WellFormed tree ∧
      fileAt tree = PathMap.writeAll (fileAt root) (files.map SkillArchiveFile.entry) := by
  induction files generalizing root with
  | nil =>
    cases done
    exact ⟨holds, rfl⟩
  | cons file files ih =>
    unfold writeFiles at done
    cases first : upsertFileInTree P.refuses root file.path file.content .Regular with
    | error e => simp [first] at done
    | ok next =>
      simp only [first] at done
      unfold upsertFileInTree at first
      obtain ⟨nextHolds, written⟩ := upsertEntry_files holds (fun _ => splitPath_named) first
      obtain ⟨treeHolds, rest⟩ := ih nextHolds
        (fun other member => listed other (by simp [member])) done
      rw [splitPath_archivePath (listed file (by simp))] at written
      refine ⟨treeHolds, ?_⟩
      rw [rest, written]
      rfl

theorem seedInitialCommit_eq_ok (some : skill.initialFiles ≠ [])
    (seeded : seedInitialCommit P a skill = .ok commit) :
    writeFiles P [] skill.initialFiles = .ok commit.tree := by
  unfold seedInitialCommit at seeded
  simp only [List.isEmpty_iff, some, if_false] at seeded
  split at seeded
  · cases seeded
  split at seeded
  · cases seeded
  rename_i tree written
  have built : writeFiles P [] skill.initialFiles = .ok tree := by
    unfold writeInitialTree at written
    split at written
    · cases written
    · cases shape : skill.initialFiles with
      | nil => exact absurd shape some
      | cons file rest => simpa only [shape] using written
  repeat' split at seeded
  all_goals cases seeded
  exact built

theorem seedInitialCommit_files (accepted : Accepted P.toContent archive)
    (same : skill.initialFiles = archive.files)
    (seeded : seedInitialCommit P a skill = .ok commit) :
    WellFormed commit.tree ∧ fileAt commit.tree =
      PathMap.writeAll (fun _ => none) (archive.files.map SkillArchiveFile.entry) := by
  have some : skill.initialFiles ≠ [] := by
    obtain ⟨file, member, _⟩ := accepted.described
    rw [same]
    exact List.ne_nil_of_mem member
  have written := seedInitialCommit_eq_ok some seeded
  rw [same] at written
  have result := writeFiles_files wellFormed_nil accepted.listed written
  rwa [show fileAt ([] : GitTree β) = fun _ => none from funext fileAt_empty] at result

theorem entries_nodup (distinct : (paths files).Nodup) :
    ((files.map SkillArchiveFile.entry).map Prod.fst).Nodup := by
  have shape : (files.map SkillArchiveFile.entry).map Prod.fst =
      (paths files).map fun p => split p '/' := by
    simp [paths, SkillArchiveFile.entry, Function.comp_def]
  rw [shape]
  exact distinct.map fun _ _ => split_injective

theorem entries_apart_iff (distinct : (paths files).Nodup) :
    ((files.map SkillArchiveFile.entry).Pairwise fun x y => ¬PathMap.Overlap x.1 y.1) ↔
      ∀ file ∈ files, ∀ other ∈ files, hasPrefix other.path (file.path ++ "/") = false := by
  have sep : String.ofList ['/'] = "/" := rfl
  constructor
  · intro apart file member other member'
    by_contra below
    have proper : split file.path '/' <+: split other.path '/' :=
      split_prefix_iff.mpr (.inr (by simpa [sep] using below))
    have differ : file.entry ≠ other.entry := by
      intro same
      have equal : file.path = other.path := split_injective (congrArg Prod.fst same)
      obtain ⟨rest, shape⟩ := hasPrefix_iff.mp (by simpa using below)
      have lengths := congrArg String.length shape
      simp only [equal, String.length_append] at lengths
      have slash : "/".length = 1 := rfl
      omega
    have : Std.Symm fun x y : List String × FileMode × β => ¬PathMap.Overlap x.1 y.1 :=
      ⟨fun _ _ apart overlap => apart overlap.symm⟩
    exact apart.forall (List.mem_map_of_mem member) (List.mem_map_of_mem member') differ
      (.inl proper)
  · intro free
    refine (entries_nodup distinct).of_map.pairwise_of_forall_ne ?_
    intro x inFiles y inFiles' differ overlap
    obtain ⟨file, member, rfl⟩ := List.mem_map.mp inFiles
    obtain ⟨other, member', rfl⟩ := List.mem_map.mp inFiles'
    have distinctPaths : file.path ≠ other.path := by
      intro same
      have equal : file = other := List.inj_on_of_nodup_map distinct member member' same
      exact differ (by rw [equal])
    rcases overlap with below | above
    · rcases split_prefix_iff.mp below with same | below
      · exact distinctPaths same.symm
      · simp [sep, free file member other member'] at below
    · rcases split_prefix_iff.mp above with same | above
      · exact distinctPaths same
      · simp [sep, free other member' file member] at above

/-- The import keeps exactly the listed files when no listed path is a directory
that another one lies in. -/
theorem seedInitialCommit_keeps_files_iff (P : Plumbing β) (Z : ZipFormat P.toContent δ) (data : δ)
    (limits : SkillArchiveLimits) (archive : SkillArchive β) (a : EngineAnswer β)
    (skill : GitSkill β) (commit : Commit β)
    (parsed : parseSkillArchive Z data limits = .ok archive)
    (imported : skill.initialFiles = archive.files)
    (seeded : seedInitialCommit P a skill = .ok commit) :
    (∀ q mode blob, fileAt commit.tree q = some (mode, blob) ↔
      ∃ file ∈ archive.files, q = split file.path '/' ∧ mode = .Regular ∧ blob = file.content) ↔
      ∀ file ∈ archive.files, ∀ other ∈ archive.files,
        hasPrefix other.path (file.path ++ "/") = false := by
  have accepted := parseSkillArchive_accepted parsed
  obtain ⟨_, files⟩ := seedInitialCommit_files accepted imported seeded
  rw [← entries_apart_iff accepted.distinct,
    ← PathMap.writeAll_exact_iff (entries_nodup accepted.distinct), files]
  have listed : ∀ q mode blob, (q, mode, blob) ∈ archive.files.map SkillArchiveFile.entry ↔
      ∃ file ∈ archive.files, q = split file.path '/' ∧ mode = .Regular ∧ blob = file.content := by
    intro q mode blob
    simp only [List.mem_map, SkillArchiveFile.entry, Prod.mk.injEq]
    constructor
    · rintro ⟨file, member, rfl, rfl, rfl⟩
      exact ⟨file, member, rfl, rfl, rfl⟩
    · rintro ⟨file, member, rfl, rfl, rfl⟩
      exact ⟨file, member, rfl, rfl, rfl⟩
  simp only [← listed, Prod.forall]

def weatherArchive : List (String × Bool × String) :=
  [("weather/SKILL.md", false, weatherSkill), ("weather/docs/usage.md", false, "Ask.")]

def weatherFiles : List (SkillArchiveFile String) :=
  [⟨"SKILL.md", weatherSkill⟩, ⟨"docs/usage.md", "Ask."⟩]

theorem weatherArchive_parses :
    ∃ archive, parseSkillArchive (listZip plainPlumbing.toContent) weatherArchive {} = .ok archive ∧
      archive.name = "weather" ∧ archive.files = weatherFiles := by
  decide +kernel

theorem import_keeps_weather_files :
    ∃ archive commit,
      parseSkillArchive (listZip plainPlumbing.toContent) weatherArchive {} = .ok archive ∧
      seedInitialCommit plainPlumbing {}
        { name := "weather", initialFiles := archive.files } = .ok commit ∧
      paths archive.files = ["SKILL.md", "docs/usage.md"] ∧
      ∀ q mode blob, fileAt commit.tree q = some (mode, blob) ↔
        ∃ file ∈ archive.files, q = split file.path '/' ∧ mode = .Regular ∧ blob = file.content := by
  obtain ⟨archive, parsed, _, listed⟩ := weatherArchive_parses
  obtain ⟨commit, seeded⟩ : ∃ commit, seedInitialCommit plainPlumbing {}
      { name := "weather", initialFiles := archive.files } = .ok commit := by
    rw [listed]
    decide +kernel
  refine ⟨archive, commit, parsed, seeded, by rw [listed]; rfl, ?_⟩
  refine (seedInitialCommit_keeps_files_iff plainPlumbing (listZip plainPlumbing.toContent)
    weatherArchive {} archive {} _ commit parsed rfl seeded).mpr ?_
  rw [listed]
  decide +kernel

/-- A file and a directory of one name: the insertion below the directory takes the
file away. -/
theorem import_loses_file_above_directory :
    ∃ archive commit,
      parseSkillArchive (listZip plainPlumbing.toContent)
        [("SKILL.md", false, weatherSkill), ("docs", false, "index"),
          ("docs/usage.md", false, "Ask.")] {} = .ok archive ∧
      seedInitialCommit plainPlumbing {}
        { name := "weather", initialFiles := archive.files } = .ok commit ∧
      ⟨"docs", "index"⟩ ∈ archive.files ∧ fileAt commit.tree ["docs"] = none := by
  simp only [exists_and_left]
  decide +kernel

end AisphereHub
