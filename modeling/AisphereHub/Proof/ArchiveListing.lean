import AisphereHub.Biz.SkillArchive

/-! The paths that the parser of an archive lists. -/
namespace AisphereHub

open GoStrings GoPath

/-- What normalisation and the ignored names leave of a path, also once a wrapper
is stripped from it. -/
structure ArchivePath (p : String) : Prop where
  plain : ∀ part ∈ split p '/', Plain part
  noColon : ':' ∉ p.toList
  noBackslash : '\\' ∉ p.toList
  notGitDir : hasPrefix p ".git/" = false
  notInGitDir : contains p "/.git/" = false
  notStore : p ≠ ".DS_Store"
  notInStore : hasSuffix p "/.DS_Store" = false
  size : p.utf8ByteSize ≤ 65535

theorem normalizeArchiveFilePath_eq_ok : normalizeArchiveFilePath raw = .ok p ↔
      ∃ slashed, slashed = replaceChar (trimSpace raw) '\\' '/' ∧ slashed ≠ "" ∧
        hasPrefix slashed "/" = false ∧ contains slashed ":" = false ∧ p = clean slashed ∧
        p ≠ "." ∧ p ≠ ".." ∧ hasPrefix p "../" = false ∧
        p ≠ ".git" ∧ hasPrefix p ".git/" = false ∧ contains p "/.git/" = false := by
  unfold normalizeArchiveFilePath
  simp only [exists_eq_left]
  generalize replaceChar (trimSpace raw) '\\' '/' = slashed
  split_ifs with first second third
  · simp only [false_iff]
    rintro ⟨nonempty, relative, colon, _⟩
    simp_all
  · simp only [false_iff]
    rintro ⟨_, _, _, rfl, dot, up, out, _⟩
    simp_all
  · simp only [false_iff]
    rintro ⟨_, _, _, rfl, _, _, _, git, gitDir, inGit⟩
    simp_all
  · simp only [not_or, Bool.not_eq_true] at first second third
    simp only [Except.ok.injEq]
    constructor
    · rintro rfl
      exact ⟨first.1, first.2.1, first.2.2, rfl, second.1, second.2.1, second.2.2, third.1,
        third.2.1, third.2.2⟩
    · rintro ⟨_, _, _, rfl, _⟩
      rfl

theorem normalized_sublist (ok : normalizeArchiveFilePath raw = .ok p) :
    p.toList.Sublist (replaceChar (trimSpace raw) '\\' '/').toList := by
  obtain ⟨slashed, shape, _, relative, _, cleaned, dot, _⟩ := normalizeArchiveFilePath_eq_ok.mp ok
  rw [← shape, cleaned]
  exact clean_sublist relative (cleaned ▸ dot)

theorem archivePath_of_normalized (ok : normalizeArchiveFilePath raw = .ok p)
    (kept : isIgnoredArchiveFile p = false) (size : raw.utf8ByteSize ≤ 65535) : ArchivePath p := by
  have sub := normalized_sublist ok
  obtain ⟨slashed, shape, _, relative, colon, cleaned, dot, up, out, _, gitDir, inGit⟩ :=
    normalizeArchiveFilePath_eq_ok.mp ok
  rw [← shape] at sub
  simp only [isIgnoredArchiveFile, Bool.or_eq_false_iff, beq_eq_false_iff_ne] at kept
  refine ⟨?_, ?_, ?_, gitDir, inGit, kept.1.1, kept.1.2, ?_⟩
  · rcases clean_relative relative with isDot | isUp | isOut | ⟨parts, some, joined, plain⟩
    · exact absurd (cleaned.trans isDot) dot
    · exact absurd (cleaned.trans isUp) up
    · rw [← cleaned, out] at isOut
      cases isOut
    · rw [cleaned, joined, split_join some fun part member => (plain part member).2.2.2]
      exact plain
  · intro member
    have there := contains_char.mpr (sub.subset member)
    rw [show String.ofList [':'] = ":" from rfl, colon] at there
    cases there
  · intro member
    have there := sub.subset member
    rw [shape] at there
    exact not_mem_replaceChar (by decide) there
  · calc p.utf8ByteSize
        ≤ slashed.utf8ByteSize := utf8ByteSize_le_of_sublist sub
      _ = (trimSpace raw).utf8ByteSize := by rw [shape, utf8ByteSize_replaceChar (by decide)]
      _ ≤ raw.utf8ByteSize := utf8ByteSize_le_of_sublist (trimSpace_sublist raw)
      _ ≤ 65535 := size

theorem ArchivePath.stripped (listed : ArchivePath (wrapper ++ "/" ++ p))
    (top : '/' ∉ wrapper.toList) : ArchivePath p := by
  have parts : split (wrapper ++ "/" ++ p) '/' = wrapper :: split p '/' := by
    have both := split_append wrapper p '/'
    rwa [split_of_not_mem top] at both
  have within : ∀ c ∈ p.toList, c ∈ (wrapper ++ "/" ++ p).toList := by
    intro c member
    simp [member]
  refine ⟨?_, ?_, ?_, ?_, ?_, ?_, ?_, ?_⟩
  · exact fun part member => listed.plain part (by simp [parts, member])
  · exact fun member => listed.noColon (within _ member)
  · exact fun member => listed.noBackslash (within _ member)
  · by_contra inside
    obtain ⟨rest, rfl⟩ := hasPrefix_iff.mp (by simpa using inside)
    have there : contains (wrapper ++ "/" ++ (".git/" ++ rest)) "/.git/" = true :=
      contains_iff.mpr ⟨wrapper, rest, by simp [← String.toList_inj]⟩
    rw [listed.notInGitDir] at there
    cases there
  · by_contra inside
    obtain ⟨before, after, rfl⟩ := contains_iff.mp (by simpa using inside)
    have there : contains (wrapper ++ "/" ++ (before ++ "/.git/" ++ after)) "/.git/" = true :=
      contains_iff.mpr ⟨wrapper ++ "/" ++ before, after, by simp [← String.toList_inj]⟩
    rw [listed.notInGitDir] at there
    cases there
  · rintro rfl
    have there : hasSuffix (wrapper ++ "/" ++ ".DS_Store") "/.DS_Store" = true :=
      hasSuffix_iff.mpr ⟨wrapper, by simp [← String.toList_inj]⟩
    rw [listed.notInStore] at there
    cases there
  · by_contra inside
    obtain ⟨start, rfl⟩ := hasSuffix_iff.mp (by simpa using inside)
    have there : hasSuffix (wrapper ++ "/" ++ (start ++ "/.DS_Store")) "/.DS_Store" = true :=
      hasSuffix_iff.mpr ⟨wrapper ++ "/" ++ start, by simp [← String.toList_inj]⟩
    rw [listed.notInStore] at there
    cases there
  · have whole := listed.size
    rw [String.utf8ByteSize_append] at whole
    omega

variable {β δ : Type} {C : Content β} {limits : SkillArchiveLimits}
  {files out : List (SkillArchiveFile β)}

def paths (files : List (SkillArchiveFile β)) : List String := files.map SkillArchiveFile.path

theorem paths_append_nodup (distinct : (paths files).Nodup)
    (fresh : file.path ∉ paths files) : (paths (files ++ [file])).Nodup := by
  rw [paths, List.map_append, List.nodup_append]
  refine ⟨distinct, by simp, ?_⟩
  rintro p old other new rfl
  exact fresh ((by simpa using new : p = file.path) ▸ old)

theorem parseEntry_eq_ok
    (parsed : parseEntry C limits (files, total) entry = .ok (out, total')) : out = files ∨
      ∃ p content, normalizeArchiveFilePath entry.name = .ok p ∧
        isIgnoredArchiveFile p = false ∧ p ∉ paths files ∧ out = files ++ [⟨p, content⟩] := by
  unfold parseEntry at parsed
  by_cases dir : entry.isDir = true
  · rw [if_pos dir] at parsed
    cases parsed
    exact .inl rfl
  rw [if_neg dir] at parsed
  by_cases link : entry.symlink = true
  · rw [if_pos link] at parsed
    cases parsed
  rw [if_neg link] at parsed
  cases normalized : normalizeArchiveFilePath entry.name with
  | error cause => simp [normalized] at parsed
  | ok p =>
    simp only [normalized] at parsed
    by_cases ignored : isIgnoredArchiveFile p = true
    · rw [if_pos ignored] at parsed
      cases parsed
      exact .inl rfl
    rw [if_neg ignored] at parsed
    by_cases seen : p ∈ files.map SkillArchiveFile.path
    · rw [if_pos seen] at parsed
      cases parsed
    cases read : readZipFile C entry limits.maxFileBytes with
    | error e =>
      simp only [read] at parsed
      split_ifs at parsed
    | ok content =>
      simp only [read] at parsed
      split_ifs at parsed
      cases parsed
      exact .inr ⟨p, content, rfl, by simpa using ignored, seen, rfl⟩

theorem parseEntries_eq_ok
    (parsed : parseEntries C limits (files, total) entries = .ok (out, total'))
    (distinct : (paths files).Nodup) :
    (paths out).Nodup ∧ ∀ file ∈ out, file ∈ files ∨ isIgnoredArchiveFile file.path = false ∧
      ∃ entry ∈ entries, normalizeArchiveFilePath entry.name = .ok file.path := by
  induction entries generalizing files total with
  | nil =>
    cases parsed
    exact ⟨distinct, fun file member => .inl member⟩
  | cons entry entries ih =>
    unfold parseEntries at parsed
    cases first : parseEntry C limits (files, total) entry with
    | error e => simp [first] at parsed
    | ok state =>
      obtain ⟨next, sum⟩ := state
      simp only [first] at parsed
      rcases parseEntry_eq_ok first with rfl | ⟨p, content, normalized, kept, fresh, rfl⟩
      · obtain ⟨unique, each⟩ := ih parsed distinct
        refine ⟨unique, fun file member => ?_⟩
        rcases each file member with old | ⟨kept, entry, listed, normalized⟩
        · exact .inl old
        · exact .inr ⟨kept, entry, by simp [listed], normalized⟩
      · obtain ⟨unique, each⟩ := ih parsed (paths_append_nodup distinct fresh)
        refine ⟨unique, fun file member => ?_⟩
        rcases each file member with old | ⟨kept, entry, listed, normalized⟩
        · rcases List.mem_append.mp old with old | new
          · exact .inl old
          · obtain rfl := List.mem_singleton.mp new
            exact .inr ⟨kept, entry, by simp, normalized⟩
        · exact .inr ⟨kept, entry, by simp [listed], normalized⟩

theorem archiveWrapper_eq_ok
    (ok : archiveWrapper wrapper files = .ok found) (top : '/' ∉ wrapper.toList) :
    '/' ∉ found.toList := by
  induction files generalizing wrapper with
  | nil =>
    cases ok
    exact top
  | cons file files ih =>
    unfold archiveWrapper at ok
    split at ok
    · rename_i first base shape
      have free : '/' ∉ first.toList := not_mem_of_mem_split (s := file.path) (by simp [shape])
      split_ifs at ok
      · exact ih ok top
      · exact ih ok free
    · exact ih ok top

theorem stripWrapper_cons
    (ok : stripWrapper C start normalized skillMD (file :: files) = .ok (out, found)) :
    ∃ p, file.path = start ++ p ∧
      (stripWrapper C start normalized skillMD files = .ok (out, found) ∨
        p ∉ paths normalized ∧ stripWrapper C start (normalized ++ [⟨p, file.content⟩])
          (if p = "SKILL.md" then C.text file.content else skillMD) files = .ok (out, found)) := by
  unfold stripWrapper at ok
  by_cases outside : hasPrefix file.path start = false
  · rw [if_pos outside] at ok
    cases ok
  rw [if_neg outside] at ok
  obtain ⟨p, shape⟩ := hasPrefix_iff.mp (by simpa using outside)
  rw [shape, trimPrefix_append] at ok
  refine ⟨p, shape, ?_⟩
  by_cases nothing : p = ""
  · rw [if_pos nothing] at ok
    exact .inl ok
  rw [if_neg nothing] at ok
  by_cases seen : p ∈ normalized.map SkillArchiveFile.path
  · rw [if_pos seen] at ok
    cases ok
  rw [if_neg seen] at ok
  exact .inr ⟨seen, ok⟩

theorem stripWrapper_eq_ok
    (ok : stripWrapper C start normalized skillMD files = .ok (out, found))
    (distinct : (paths normalized).Nodup) : (paths out).Nodup ∧ normalized ⊆ out ∧
      (∀ file ∈ out, file ∈ normalized ∨ ∃ raw ∈ files, raw.path = start ++ file.path) ∧
      trimSpace found ≠ "" ∧
      (found = skillMD ∨ ∃ file ∈ out, file.path = "SKILL.md" ∧ C.text file.content = found) := by
  induction files generalizing normalized skillMD with
  | nil =>
    unfold stripWrapper at ok
    split_ifs at ok with empty
    cases ok
    exact ⟨distinct, fun _ member => member, fun file member => .inl member, empty, .inl rfl⟩
  | cons file files ih =>
    obtain ⟨p, shape, ok | ⟨seen, ok⟩⟩ := stripWrapper_cons ok
    · obtain ⟨unique, kept, each, nonempty, origin⟩ := ih ok distinct
      refine ⟨unique, kept, fun file member => ?_, nonempty, origin⟩
      rcases each file member with old | ⟨raw, listed, shape⟩
      · exact .inl old
      · exact .inr ⟨raw, by simp [listed], shape⟩
    obtain ⟨unique, kept, each, nonempty, origin⟩ := ih ok (paths_append_nodup distinct seen)
    refine ⟨unique, fun _ member => kept (by simp [member]), fun other member => ?_, nonempty, ?_⟩
    · rcases each other member with old | ⟨raw, listed, shape⟩
      · rcases List.mem_append.mp old with old | new
        · exact .inl old
        · obtain rfl := List.mem_singleton.mp new
          exact .inr ⟨file, by simp, shape⟩
      · exact .inr ⟨raw, by simp [listed], shape⟩
    · rcases origin with same | late
      · split_ifs at same with named
        · exact .inr ⟨⟨p, file.content⟩, kept (by simp), named, same.symm⟩
        · exact .inl same
      · exact .inr late

structure Accepted (C : Content β) (archive : SkillArchive β) : Prop where
  listed : ∀ file ∈ archive.files, ArchivePath file.path
  distinct : (paths archive.files).Nodup
  described : ∃ file ∈ archive.files, file.path = "SKILL.md" ∧
    parseSkillMetadataDocument C.yaml (C.text file.content) =
      .ok (archive.name, archive.displayName, archive.description)
  stated : trimSpace archive.description ≠ ""

theorem normalizeSkillArchiveRoot_eq_ok
    (ok : normalizeSkillArchiveRoot C files = .ok (out, skillMD))
    (distinct : (paths files).Nodup) (listed : ∀ file ∈ files, ArchivePath file.path) :
    (paths out).Nodup ∧ (∀ file ∈ out, ArchivePath file.path) ∧
      ∃ file ∈ out, file.path = "SKILL.md" ∧ C.text file.content = skillMD := by
  unfold normalizeSkillArchiveRoot at ok
  cases root : files.find? (·.path == "SKILL.md") with
  | some file =>
    simp only [root, Except.ok.injEq, Prod.mk.injEq] at ok
    obtain ⟨rfl, rfl⟩ := ok
    have named : file.path = "SKILL.md" := by simpa using List.find?_some root
    exact ⟨distinct, listed, file, List.mem_of_find?_eq_some root, named, rfl⟩
  | none =>
    simp only [root] at ok
    cases found : archiveWrapper "" files with
    | error e => simp [found] at ok
    | ok wrapper =>
      simp only [found] at ok
      split_ifs at ok with none
      have top := archiveWrapper_eq_ok found (by simp)
      obtain ⟨unique, _, each, nonempty, origin⟩ := stripWrapper_eq_ok ok (by simp [paths])
      refine ⟨unique, fun file member => ?_, ?_⟩
      · rcases each file member with old | ⟨raw, inFiles, shape⟩
        · cases old
        · exact (shape ▸ listed raw inFiles).stripped top
      · rcases origin with rfl | late
        · exact absurd rfl nonempty
        · exact late

theorem parseSkillArchive_eq_ok {Z : ZipFormat C δ}
    (parsed : parseSkillArchive Z data limits = .ok archive) :
    ∃ entries files total skillMD, Z.read data = some entries ∧
      parseEntries C (normalizeSkillArchiveLimits limits) ([], 0) entries = .ok (files, total) ∧
      normalizeSkillArchiveRoot C files = .ok (archive.files, skillMD) ∧
      parseSkillMetadataDocument C.yaml skillMD =
        .ok (archive.name, archive.displayName, archive.description) ∧
      trimSpace archive.description ≠ "" := by
  unfold parseSkillArchive at parsed
  by_cases empty : Z.length data = 0
  · rw [if_pos empty] at parsed
    cases parsed
  rw [if_neg empty] at parsed
  by_cases large : (Z.length data : Int) > (normalizeSkillArchiveLimits limits).maxArchiveBytes
  · rw [if_pos large] at parsed
    cases parsed
  rw [if_neg large] at parsed
  cases opened : Z.read data with
  | none => simp [opened] at parsed
  | some entries =>
    simp only [opened] at parsed
    cases read : parseEntries C (normalizeSkillArchiveLimits limits) ([], 0) entries with
    | error e => simp [read] at parsed
    | ok state =>
      obtain ⟨files, total⟩ := state
      simp only [read] at parsed
      cases rooted : normalizeSkillArchiveRoot C files with
      | error e => simp [rooted] at parsed
      | ok root =>
        obtain ⟨files', skillMD⟩ := root
        simp only [rooted] at parsed
        cases document : parseSkillMetadataDocument C.yaml skillMD with
        | error cause => simp [document] at parsed
        | ok metadata =>
          simp only [document] at parsed
          split_ifs at parsed with blank
          cases parsed
          exact ⟨entries, files, total, skillMD, rfl, read, rooted, document, blank⟩

theorem parseSkillArchive_accepted {Z : ZipFormat C δ}
    (parsed : parseSkillArchive Z data limits = .ok archive) : Accepted C archive := by
  obtain ⟨entries, files, total, skillMD, opened, read, rooted, document, stated⟩ :=
    parseSkillArchive_eq_ok parsed
  obtain ⟨distinct, each⟩ := parseEntries_eq_ok read (by simp [paths])
  have listed : ∀ file ∈ files, ArchivePath file.path := by
    intro file member
    rcases each file member with old | ⟨kept, entry, inZip, normalized⟩
    · cases old
    · exact archivePath_of_normalized normalized kept
        (Z.read_names data entries opened entry inZip)
  obtain ⟨unique, stripped, file, member, named, rfl⟩ :=
    normalizeSkillArchiveRoot_eq_ok rooted distinct listed
  exact ⟨stripped, unique, ⟨file, member, named, document⟩, stated⟩

end AisphereHub
