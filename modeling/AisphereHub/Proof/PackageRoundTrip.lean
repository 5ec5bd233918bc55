import AisphereHub.Gitengine.Pack
import AisphereHub.Proof.ArchiveImport

/-! An imported archive against the package of its commit: which paths the packer and
the parser both keep. -/
namespace AisphereHub

open GoStrings GoPath

variable {β δ : Type} {tree : GitTree β}

/-- The packer keeps the path, and the parser reads it back as it is. -/
structure Repackable (p : String) : Prop where
  noDots : contains p ".." = false
  trimmed : trimSpace p = p
  notGit : p ≠ ".git"
  notMac : hasPrefix p "__MACOSX/" = false

section Paths

variable {p : String}

theorem ArchivePath.clean (listed : ArchivePath p) : GoPath.clean p = p := by
  have same := clean_join (split_ne_nil p '/') listed.plain
  rwa [join_split] at same

theorem ArchivePath.nonempty (listed : ArchivePath p) : p ≠ "" := by
  rintro rfl
  exact (listed.plain "" (by decide)).1 rfl

theorem ArchivePath.relative (listed : ArchivePath p) : hasPrefix p "/" = false := by
  by_contra rooted
  obtain ⟨rest, shape⟩ := hasPrefix_slash (by simpa using rooted)
  exact (listed.plain "" (by simp [shape])).1 rfl

theorem ArchivePath.notDot (listed : ArchivePath p) : p ≠ "." := by
  rintro rfl
  exact (listed.plain "." (by decide)).2.1 rfl

theorem ArchivePath.notUp (listed : ArchivePath p) : p ≠ ".." ∧ hasPrefix p "../" = false := by
  constructor
  · rintro rfl
    exact (listed.plain ".." (by decide)).2.2.1 rfl
  · by_contra out
    obtain ⟨rest, rfl⟩ := hasPrefix_iff.mp (by simpa using out)
    have parts : split ("../" ++ rest) '/' = split ".." '/' ++ split rest '/' :=
      split_append ".." rest '/'
    have first : ".." ∈ split ".." '/' := by decide
    exact (listed.plain ".." (by simp [parts, first])).2.2.1 rfl

theorem ArchivePath.noSlashEnd (listed : ArchivePath p) : hasSuffix p "/" = false := by
  by_contra ends
  obtain ⟨start, rfl⟩ := hasSuffix_iff.mp (by simpa using ends)
  have parts : split (start ++ "/" ++ "") '/' = split start '/' ++ split "" '/' :=
    split_append start "" '/'
  rw [String.append_empty] at parts
  have last : "" ∈ split "" '/' := by decide
  exact (listed.plain "" (by simp [parts, last])).1 rfl

theorem ArchivePath.packSkips (listed : ArchivePath p) : packSkips p = contains p ".." := by
  simp [AisphereHub.packSkips, listed.clean, listed.notDot, listed.relative]

theorem ArchivePath.normalized_iff (listed : ArchivePath p) (noDots : contains p ".." = false) :
    normalizeArchiveFilePath p = .ok p ∧ isIgnoredArchiveFile p = false ↔ Repackable p := by
  have noBackslash : ∀ s : String, s.toList.Sublist p.toList → replaceChar s '\\' '/' = s :=
    fun s sub => replaceChar_of_not_mem '/' fun member => listed.noBackslash (sub.subset member)
  constructor
  · rintro ⟨normalized, kept⟩
    have sub := normalized_sublist normalized
    rw [noBackslash _ (trimSpace_sublist p)] at sub
    have trimmed : trimSpace p = p := by
      refine trimSpace_eq_self_of_length (Nat.le_antisymm ?_ ?_)
      · simpa only [String.length_toList] using (trimSpace_sublist p).length_le
      · simpa only [String.length_toList] using sub.length_le
    obtain ⟨_, _, _, _, _, _, _, _, _, notGit, _⟩ := normalizeArchiveFilePath_eq_ok.mp normalized
    simp only [isIgnoredArchiveFile, Bool.or_eq_false_iff] at kept
    exact ⟨noDots, trimmed, notGit, kept.2⟩
  · intro ready
    constructor
    · refine normalizeArchiveFilePath_eq_ok.mpr ⟨p, ?_, listed.nonempty, listed.relative, ?_,
        listed.clean.symm, listed.notDot, listed.notUp.1, listed.notUp.2, ready.notGit,
        listed.notGitDir, listed.notInGitDir⟩
      · rw [ready.trimmed, noBackslash p (List.Sublist.refl _)]
      · by_contra colon
        exact listed.noColon (contains_char.mp (by simpa using colon))
    · simp [isIgnoredArchiveFile, listed.notStore, listed.notInStore, ready.notMac]

end Paths

theorem packFiles_spec
    (files : ∀ name ∈ names, ∃ mode blob, findEntry tree name = some (.file mode blob)) :
    ∃ out, packFiles tree names = .ok out ∧ (out.map Prod.fst).Sublist names ∧
      ∀ name link blob, (name, link, blob) ∈ out ↔ name ∈ names ∧ packSkips name = false ∧
        ∃ mode, findEntry tree name = some (.file mode blob) ∧ link = (mode == .Symlink) := by
  induction names with
  | nil => exact ⟨[], rfl, .slnil, by simp⟩
  | cons name names ih =>
    obtain ⟨out, packed, sub, each⟩ := ih fun other member => files other (by simp [member])
    by_cases skips : packSkips name = true
    · refine ⟨out, by rw [packFiles, if_pos skips, packed], sub.cons name, ?_⟩
      intro other link blob
      rw [each, List.mem_cons]
      constructor
      · rintro ⟨member, rest⟩
        exact ⟨.inr member, rest⟩
      · rintro ⟨rfl | member, keeps, rest⟩
        · rw [skips] at keeps
          cases keeps
        · exact ⟨member, keeps, rest⟩
    · obtain ⟨mode, blob, found⟩ := files name (by simp)
      refine ⟨(name, mode == .Symlink, blob) :: out, ?_, sub.cons_cons name, ?_⟩
      · simp only [packFiles, skips, found, packed, if_false, Bool.false_eq_true]
      · intro other link content
        rw [List.mem_cons, each, List.mem_cons]
        constructor
        · rintro (same | ⟨member, rest⟩)
          · obtain ⟨rfl, rfl, rfl⟩ := by simpa using same
            exact ⟨.inl rfl, by simpa using skips, mode, found, rfl⟩
          · exact ⟨.inr member, rest⟩
        · rintro ⟨rfl | member, keeps, mode', found', rfl⟩
          · rw [found] at found'
            cases found'
            exact .inl rfl
          · exact .inr ⟨member, keeps, mode', found', rfl⟩

variable {P : Plumbing β} {files : List (SkillArchiveFile β)}

def SkillArchiveFile.packed (file : SkillArchiveFile β) : String × Bool × β :=
  (file.path, false, file.content)

def Holds (tree : GitTree β) (files : List (SkillArchiveFile β)) : Prop :=
  ∀ q x, fileAt tree q = some x ↔ (q, x) ∈ files.map SkillArchiveFile.entry

theorem packNames_perm (holds : WellFormed tree) (exact : Holds tree files)
    (distinct : (paths files).Nodup) : (packNames tree).Perm (paths files) := by
  have listing : (treeFiles tree).Perm (files.map SkillArchiveFile.entry) := by
    refine (List.perm_ext_iff_of_nodup (treeFiles_nodup holds).of_map
      (entries_nodup distinct).of_map).mpr ?_
    rintro ⟨q, x⟩
    rw [← fileAt_eq_some_iff holds, exact]
  have whole : (treeFiles tree).filter (fun file => file.2.1 ≠ .Submodule) = treeFiles tree := by
    rw [List.filter_eq_self]
    intro file member
    obtain ⟨source, _, rfl⟩ := List.mem_map.mp (listing.mem_iff.mp member)
    rfl
  have named : (files.map SkillArchiveFile.entry).map (fun file => joinPath file.1) = paths files := by
    simp [paths, SkillArchiveFile.entry, joinPath, Function.comp_def, join_split]
  unfold packNames
  rw [whole, ← named]
  exact (GoSort.sliceStable_perm _).trans (listing.map _)

theorem findEntry_listed (exact : Holds tree files)
    (member : file ∈ files) : findEntry tree file.path = some (.file .Regular file.content) := by
  have there := (exact (split file.path '/') (.Regular, file.content)).mpr
    (List.mem_map_of_mem member)
  unfold fileAt at there
  split at there
  · rename_i found
    cases there
    exact found
  · cases there

theorem packFiles_listed (holds : WellFormed tree) (exact : Holds tree files)
    (distinct : (paths files).Nodup) (listed : ∀ file ∈ files, ArchivePath file.path) :
    ∃ sorted : List (SkillArchiveFile β),
      packFiles tree (packNames tree) = .ok (sorted.map SkillArchiveFile.packed) ∧
      sorted.Perm (files.filter fun file => !contains file.path "..") := by
  have perm := packNames_perm holds exact distinct
  have named : ∀ name, name ∈ packNames tree ↔ ∃ file ∈ files, file.path = name := by
    intro name
    rw [perm.mem_iff]
    simp [paths]
  have leads : ∀ name ∈ packNames tree, ∃ mode blob,
      findEntry tree name = some (.file mode blob) := by
    intro name member
    obtain ⟨file, inFiles, rfl⟩ := (named name).mp member
    exact ⟨_, _, findEntry_listed exact inFiles⟩
  obtain ⟨out, packed, sub, each⟩ := packFiles_spec leads
  have written : ∀ e, e ∈ out ↔ ∃ file ∈ files, contains file.path ".." = false ∧ e = file.packed := by
    rintro ⟨name, link, blob⟩
    rw [each, named]
    constructor
    · rintro ⟨⟨file, member, rfl⟩, keeps, mode, found, rfl⟩
      rw [(listed file member).packSkips] at keeps
      rw [findEntry_listed exact member] at found
      cases found
      exact ⟨file, member, keeps, rfl⟩
    · rintro ⟨file, member, noDots, same⟩
      obtain ⟨rfl, rfl, rfl⟩ : name = file.path ∧ link = false ∧ blob = file.content := by
        simpa [SkillArchiveFile.packed] using same
      refine ⟨⟨file, member, rfl⟩, ?_, .Regular, findEntry_listed exact member, rfl⟩
      rw [(listed file member).packSkips]
      exact noDots
  have back : (out.map fun e => (⟨e.1, e.2.2⟩ : SkillArchiveFile β)).map SkillArchiveFile.packed =
      out := by
    rw [List.map_map]
    refine (List.map_congr_left fun e member => ?_).trans (List.map_id out)
    obtain ⟨file, _, _, rfl⟩ := (written e).mp member
    rfl
  refine ⟨out.map fun e => ⟨e.1, e.2.2⟩, by rw [back, packed], ?_⟩
  have unique : (out.map Prod.fst).Nodup := (perm.nodup_iff.mpr distinct).sublist sub
  refine (List.perm_ext_iff_of_nodup ?_ (distinct.of_map.filter _)).mpr ?_
  · refine List.Nodup.of_map SkillArchiveFile.path ?_
    rwa [List.map_map]
  · intro file
    rw [List.mem_map, List.mem_filter]
    constructor
    · rintro ⟨e, member, rfl⟩
      obtain ⟨source, inFiles, noDots, rfl⟩ := (written e).mp member
      exact ⟨inFiles, by simpa [SkillArchiveFile.packed] using noDots⟩
    · rintro ⟨member, noDots⟩
      exact ⟨file.packed, (written _).mpr ⟨file, member, by simpa using noDots, rfl⟩, rfl⟩

section Bulk

variable {C : Content β} {bounds : SkillArchiveLimits} {out : List (SkillArchiveFile β)}

/-- The characters of the paths and one more for each file: no stage of the parser
adds any. -/
def bulk (files : List (SkillArchiveFile β)) : Nat := (files.map fun file => file.path.length + 1).sum

def entryBulk (entries : List (ZipEntry β)) : Nat :=
  (entries.map fun entry => entry.name.length + 1).sum

theorem bulk_append (files : List (SkillArchiveFile β)) (file : SkillArchiveFile β) :
    bulk (files ++ [file]) = bulk files + (file.path.length + 1) := by
  simp [bulk]

theorem normalized_length (ok : normalizeArchiveFilePath raw = .ok p) :
    p.length ≤ raw.length := by
  have sub := (normalized_sublist ok).length_le
  have trimmed := (trimSpace_sublist raw).length_le
  simp only [String.length_toList, length_replaceChar] at sub trimmed
  exact sub.trans trimmed

theorem normalized_of_length (ok : normalizeArchiveFilePath raw = .ok p)
    (slashed : '\\' ∉ raw.toList) (long : p.length = raw.length) : p = raw := by
  have sub := normalized_sublist ok
  have lengths := sub.length_le
  have trimmed := (trimSpace_sublist raw).length_le
  simp only [String.length_toList, length_replaceChar] at lengths trimmed
  rw [trimSpace_eq_self_of_length (by omega), replaceChar_of_not_mem '/' slashed] at sub
  rw [← String.toList_inj]
  exact sub.eq_of_length (by simpa only [String.length_toList] using long)

theorem parseEntries_bulk
    (parsed : parseEntries C bounds (files, total) entries = .ok (out, total'))
    (slashed : ∀ entry ∈ entries, '\\' ∉ entry.name.toList) :
    bulk out ≤ bulk files + entryBulk entries ∧
      (bulk out = bulk files + entryBulk entries → ∀ entry ∈ entries,
        normalizeArchiveFilePath entry.name = .ok entry.name ∧
          isIgnoredArchiveFile entry.name = false) := by
  induction entries generalizing files total with
  | nil =>
    cases parsed
    exact ⟨Nat.le_refl _, by simp⟩
  | cons entry entries ih =>
    have split : entryBulk (entry :: entries) = entry.name.length + 1 + entryBulk entries := by
      simp [entryBulk]
    unfold parseEntries at parsed
    cases first : parseEntry C bounds (files, total) entry with
    | error e => simp [first] at parsed
    | ok state =>
      obtain ⟨next, sum⟩ := state
      simp only [first] at parsed
      obtain ⟨less, fixed⟩ := ih parsed fun other member => slashed other (by simp [member])
      rcases parseEntry_eq_ok first with rfl | ⟨p, content, normalized, kept, _, rfl⟩
      · exact ⟨by omega, fun same => by omega⟩
      · have short := normalized_length normalized
        rw [bulk_append] at less fixed
        refine ⟨by simp only at less; omega, fun same => ?_⟩
        have long : p.length = entry.name.length := by simp only at less; omega
        obtain rfl := normalized_of_length normalized (slashed entry (by simp)) long
        intro other member
        rcases List.mem_cons.mp member with rfl | member
        · exact ⟨normalized, kept⟩
        · exact fixed (by simp only; omega) other member

theorem stripWrapper_bulk
    (ok : stripWrapper C start normalized skillMD files = .ok (out, found)) :
    bulk out ≤ bulk normalized + bulk files := by
  induction files generalizing normalized skillMD with
  | nil =>
    unfold stripWrapper at ok
    split_ifs at ok
    cases ok
    exact Nat.le_add_right _ _
  | cons file files ih =>
    have split : bulk (file :: files) = file.path.length + 1 + bulk files := by simp [bulk]
    obtain ⟨p, shape, ok | ⟨_, ok⟩⟩ := stripWrapper_cons ok
    · have rest := ih ok
      omega
    · have short := congrArg String.length shape
      have rest := ih ok
      rw [String.length_append] at short
      rw [bulk_append] at rest
      simp only at rest
      omega

theorem normalizeSkillArchiveRoot_bulk
    (ok : normalizeSkillArchiveRoot C files = .ok (out, skillMD)) : bulk out ≤ bulk files := by
  unfold normalizeSkillArchiveRoot at ok
  split at ok
  · cases ok
    exact Nat.le_refl _
  · split at ok
    · cases ok
    · split_ifs at ok
      have less := stripWrapper_bulk ok
      simpa [bulk] using less

end Bulk

section Reparse

variable {C : Content β}

/-- The limits are large enough for a zip of this length with these files, and far
enough from the end of `int64`. -/
structure Admits (C : Content β) (bounds : SkillArchiveLimits) (length : Nat)
    (files : List (SkillArchiveFile β)) : Prop where
  archive : (length : Int) ≤ bounds.maxArchiveBytes
  count : (files.length : Int) ≤ bounds.maxFiles
  each : ∀ file ∈ files, (C.len file.content : Int) ≤ bounds.maxFileBytes
  total : ((files.map fun file => C.len file.content).sum : Int) ≤ bounds.maxUnpackedBytes
  fileBound : bounds.maxFileBytes + 1 < 2 ^ 63
  totalBound : bounds.maxUnpackedBytes < 2 ^ 63

theorem Admits.perm (admits : Admits C bounds length files)
    (perm : other.Perm files) : Admits C bounds length other where
  archive := admits.archive
  count := by rw [perm.length_eq]; exact admits.count
  each file member := admits.each file (perm.mem_iff.mp member)
  total := by rw [(perm.map _).sum_eq]; exact admits.total
  fileBound := admits.fileBound
  totalBound := admits.totalBound

theorem int64_eq (low : 0 ≤ n) (high : n < 2 ^ 63) : int64 n = n :=
  Int.bmod_eq_of_le (by omega) (by omega)

theorem parseEntry_packed
    (fixed : normalizeArchiveFilePath file.path = .ok file.path ∧
      isIgnoredArchiveFile file.path = false)
    (ends : hasSuffix file.path "/" = false) (fresh : file.path ∉ paths done)
    (admits : Admits C bounds length (done ++ file :: todo)) :
    parseEntry C bounds (done, ((done.map fun file => C.len file.content).sum : Nat))
      (.packed C file.path false file.content) =
      .ok (done ++ [file], (((done ++ [file]).map fun file => C.len file.content).sum : Nat)) := by
  have size := admits.each file (by simp)
  have count := admits.count
  have total := admits.total
  have totalBound := admits.totalBound
  have fileBound := admits.fileBound
  simp only [List.length_append, List.length_cons, List.map_append, List.map_cons,
    List.sum_append, List.sum_cons] at count total
  simp only [List.map_append, List.sum_append, List.map_singleton, List.sum_singleton]
  generalize (done.map fun file => C.len file.content).sum = sum at total ⊢
  have length : int64 (C.len file.content : Int) = C.len file.content :=
    int64_eq (by omega) (by omega)
  have sums : int64 ((sum : Int) + C.len file.content) = sum + C.len file.content :=
    int64_eq (by omega) (by omega)
  have seen : file.path ∉ done.map SkillArchiveFile.path := fresh
  have limit : int64 (bounds.maxFileBytes + 1) = bounds.maxFileBytes + 1 :=
    int64_eq (by omega) fileBound
  have whole : readZipFile C (.packed C file.path false file.content) bounds.maxFileBytes =
      .ok file.content := by
    have room : ¬bounds.maxFileBytes + 1 ≤ 0 := by omega
    simp [readZipFile, ZipEntry.packed, limit, room, Int.not_lt.mpr size]
  unfold parseEntry
  rw [whole]
  simp only [ZipEntry.packed, fixed.1, length, sums, ends]
  rw [if_neg Bool.false_ne_true, if_neg Bool.false_ne_true, if_neg (by simp [fixed.2]), if_neg seen,
    if_neg (by omega), if_neg (by omega), if_neg (by omega), if_neg (by omega)]
  simp

theorem parseEntries_packed
    (fixed : ∀ file ∈ todo, normalizeArchiveFilePath file.path = .ok file.path ∧
      isIgnoredArchiveFile file.path = false)
    (ends : ∀ file ∈ todo, hasSuffix file.path "/" = false)
    (distinct : (paths (done ++ todo)).Nodup) (admits : Admits C bounds length (done ++ todo)) :
    ∃ total, parseEntries C bounds (done, ((done.map fun file => C.len file.content).sum : Nat))
      (todo.map fun file => .packed C file.path false file.content) = .ok (done ++ todo, total) := by
  induction todo generalizing done with
  | nil => exact ⟨_, by rw [List.append_nil]; rfl⟩
  | cons file todo ih =>
    have shape : done ++ file :: todo = done ++ [file] ++ todo := by simp
    have fresh : file.path ∉ paths done := by
      rw [paths, List.map_append, List.nodup_append] at distinct
      exact fun old => distinct.2.2 _ old _ (by simp) rfl
    have first := parseEntry_packed (fixed file (by simp)) (ends file (by simp)) fresh admits
    rw [shape] at distinct admits ⊢
    obtain ⟨sum, rest⟩ := ih (fun other member => fixed other (by simp [member]))
      (fun other member => ends other (by simp [member])) distinct admits
    refine ⟨sum, ?_⟩
    rw [List.map_cons, parseEntries, first]
    exact rest

end Reparse

variable {Z : ZipFormat P.toContent δ} {b : EngineAnswer β} {ref : String} {commit : Commit β}
  {archive : SkillArchive β}

/-- The package of a commit has the files of an archive, and parses to the archive
again, up to the order of the files. -/
def RoundTrips (Z : ZipFormat P.toContent δ) (b : EngineAnswer β) (ref : String)
    (limits : SkillArchiveLimits) (archive : SkillArchive β) : Prop :=
  ∃ package entries again, buildSkillPackage P Z b ref = .ok package ∧
    Z.read package.zip = some entries ∧
    (entries.map fun entry => (entry.name, entry.content)).Perm
      (archive.files.map fun file => (file.path, file.content)) ∧
    parseSkillArchive Z package.zip limits = .ok again ∧ again.name = archive.name ∧
    again.displayName = archive.displayName ∧ again.description = archive.description ∧
    again.files.Perm archive.files

theorem buildSkillPackage_listed (accepted : Accepted P.toContent archive)
    (holds : WellFormed commit.tree) (exact : Holds commit.tree archive.files)
    (healthy : b.fault = fun _ => none)
    (resolved : b.revParse ((if ref = "" then "HEAD" else ref) ++ "^\x7bcommit\x7d") = some commit) :
    ∃ (sorted : List (SkillArchiveFile β)) (zip : δ),
      sorted.Perm (archive.files.filter fun file => !contains file.path "..") ∧
      buildSkillPackage P Z b ref = .ok ⟨Z.sha256 zip, Z.md5 zip, Z.length zip, zip⟩ ∧
      0 < Z.length zip ∧ Z.read zip =
        some (sorted.map fun file => .packed P.toContent file.path false file.content) := by
  obtain ⟨sorted, packed, perm⟩ :=
    packFiles_listed holds exact accepted.distinct accepted.listed
  have listed : ∀ file ∈ sorted, ArchivePath file.path := by
    intro file member
    exact accepted.listed file (List.mem_filter.mp (perm.mem_iff.mp member)).1
  obtain ⟨zip, written⟩ := Z.write_ok (sorted.map SkillArchiveFile.packed) (by
    intro e member
    obtain ⟨file, inSorted, rfl⟩ := List.mem_map.mp member
    exact (listed file inSorted).size)
  refine ⟨sorted, zip, perm, ?_, Z.write_nonempty _ _ written, ?_⟩
  · simp only [buildSkillPackage, EngineAnswer.check, healthy, resolved, packed, written]
  · rw [Z.read_write _ _ written, List.map_map]
    · rfl
    · intro e member
      obtain ⟨file, inSorted, rfl⟩ := List.mem_map.mp member
      exact (listed file inSorted).noSlashEnd

theorem root_find
    (distinct : (paths files).Nodup) (member : file ∈ files) (named : file.path = "SKILL.md") :
    files.find? (·.path == "SKILL.md") = some file := by
  cases found : files.find? (·.path == "SKILL.md") with
  | none => exact absurd named (by simpa using List.find?_eq_none.mp found file member)
  | some other =>
    have same : other.path = "SKILL.md" := by simpa using List.find?_some found
    rw [List.inj_on_of_nodup_map distinct (List.mem_of_find?_eq_some found) member
      (same.trans named.symm)]

theorem parseSkillArchive_packed (accepted : Accepted P.toContent archive)
    (perm : sorted.Perm archive.files) (ready : ∀ file ∈ archive.files, Repackable file.path)
    (nonempty : 0 < Z.length zip) (read : Z.read zip =
      some (sorted.map fun file => .packed P.toContent file.path false file.content))
    (admits : Admits P.toContent (normalizeSkillArchiveLimits limits) (Z.length zip)
      archive.files) :
    ∃ again, parseSkillArchive Z zip limits = .ok again ∧ again.name = archive.name ∧
      again.displayName = archive.displayName ∧ again.description = archive.description ∧
      again.files = sorted := by
  have distinct : (paths sorted).Nodup :=
    (perm.map SkillArchiveFile.path).nodup_iff.mpr accepted.distinct
  have listed : ∀ file ∈ sorted, ArchivePath file.path :=
    fun file member => accepted.listed file (perm.mem_iff.mp member)
  have fixed : ∀ file ∈ sorted, normalizeArchiveFilePath file.path = .ok file.path ∧
      isIgnoredArchiveFile file.path = false := by
    intro file member
    have repackable := ready file (perm.mem_iff.mp member)
    exact ((listed file member).normalized_iff repackable.noDots).mpr repackable
  obtain ⟨total, parsed⟩ : ∃ total, parseEntries P.toContent (normalizeSkillArchiveLimits limits)
      ([], 0) (sorted.map fun file => .packed P.toContent file.path false file.content) =
      .ok (sorted, total) :=
    parseEntries_packed fixed (fun file member => (listed file member).noSlashEnd) distinct
      (admits.perm perm)
  obtain ⟨file, member, named, document⟩ := accepted.described
  have root : normalizeSkillArchiveRoot P.toContent sorted = .ok (sorted, P.text file.content) := by
    simp only [normalizeSkillArchiveRoot, root_find distinct (perm.mem_iff.mpr member) named]
  refine ⟨⟨archive.name, archive.displayName, archive.description, sorted, sorted.length, total⟩,
    ?_, rfl, rfl, rfl, rfl⟩
  have fits := admits.archive
  unfold parseSkillArchive
  rw [if_neg (by omega), if_neg (by omega)]
  simp only [read, parsed, root, document, accepted.stated, if_false]

theorem entryBulk_packed (C : Content β) (files : List (SkillArchiveFile β)) :
    entryBulk (files.map fun file => .packed C file.path false file.content) = bulk files := by
  simp [entryBulk, bulk, ZipEntry.packed, Function.comp_def]

theorem repackable_of_roundTrips
    {sorted : List (SkillArchiveFile β)} (accepted : Accepted P.toContent archive)
    (perm : sorted.Perm (archive.files.filter fun file => !contains file.path ".."))
    (built : buildSkillPackage P Z b ref = .ok ⟨Z.sha256 zip, Z.md5 zip, Z.length zip, zip⟩)
    (read : Z.read zip =
      some (sorted.map fun file => .packed P.toContent file.path false file.content))
    (round : RoundTrips Z b ref limits archive) : ∀ file ∈ archive.files, Repackable file.path := by
  obtain ⟨package, entries, again, built', read', same, parsed, _, _, _, files⟩ := round
  rw [built] at built'
  cases built'
  rw [read] at read'
  cases read'
  have noDots : ∀ file ∈ archive.files, contains file.path ".." = false := by
    intro file member
    have there := same.mem_iff.mpr
      (List.mem_map_of_mem (f := fun file => (file.path, file.content)) member)
    simp only [List.map_map, List.mem_map, Function.comp_apply, ZipEntry.packed,
      Prod.mk.injEq] at there
    obtain ⟨other, inSorted, path, _⟩ := there
    rw [← path]
    simpa using (List.mem_filter.mp (perm.mem_iff.mp inSorted)).2
  have whole : archive.files.filter (fun file => !contains file.path "..") = archive.files := by
    rw [List.filter_eq_self]
    intro file member
    simp [noDots file member]
  rw [whole] at perm
  obtain ⟨entries, before, total, skillMD, opened, parsing, rooted, _⟩ :=
    parseSkillArchive_eq_ok parsed
  rw [read] at opened
  cases opened
  have slashed : ∀ entry ∈ sorted.map
      (fun file => ZipEntry.packed P.toContent file.path false file.content),
      '\\' ∉ entry.name.toList := by
    intro entry member
    obtain ⟨file, inSorted, rfl⟩ := List.mem_map.mp member
    exact (accepted.listed file (perm.mem_iff.mp inSorted)).noBackslash
  obtain ⟨less, fixed⟩ := parseEntries_bulk parsing slashed
  have rootLess := normalizeSkillArchiveRoot_bulk rooted
  have size : bulk again.files = bulk sorted := ((files.trans perm.symm).map _).sum_eq
  rw [entryBulk_packed] at less fixed
  intro file member
  have start : bulk ([] : List (SkillArchiveFile β)) = 0 := rfl
  have keeps := fixed (by omega) _
    (List.mem_map_of_mem (perm.mem_iff.mpr member))
  exact ((accepted.listed file member).normalized_iff (noDots file member)).mp keeps

/-- The package of an import is the import again exactly when no listed path has two
dots in a row, white space at an end, the name `.git`, or `__MACOSX` on top. -/
theorem package_round_trip_iff (P : Plumbing β) (Z : ZipFormat P.toContent δ) (data : δ)
    (limits limits' : SkillArchiveLimits) (archive : SkillArchive β) (a b : EngineAnswer β)
    (skill : GitSkill β) (commit : Commit β) (ref : String)
    (parsed : parseSkillArchive Z data limits = .ok archive)
    (apart : ∀ file ∈ archive.files, ∀ other ∈ archive.files,
      hasPrefix other.path (file.path ++ "/") = false)
    (imported : skill.initialFiles = archive.files)
    (seeded : seedInitialCommit P a skill = .ok commit)
    (healthy : b.fault = fun _ => none)
    (resolved : b.revParse ((if ref = "" then "HEAD" else ref) ++ "^\x7bcommit\x7d") = some commit)
    (large : ∀ package, buildSkillPackage P Z b ref = .ok package →
      Admits P.toContent (normalizeSkillArchiveLimits limits') (Z.length package.zip)
        archive.files) :
    RoundTrips Z b ref limits' archive ↔ ∀ file ∈ archive.files, Repackable file.path := by
  have accepted := parseSkillArchive_accepted parsed
  obtain ⟨holds, files⟩ := seedInitialCommit_files accepted imported seeded
  have exact : Holds commit.tree archive.files := by
    rw [← entries_apart_iff accepted.distinct,
      ← PathMap.writeAll_exact_iff (entries_nodup accepted.distinct)] at apart
    intro q x
    rw [files]
    exact apart q x
  obtain ⟨sorted, zip, perm, built, nonempty, read⟩ :=
    buildSkillPackage_listed (Z := Z) accepted holds exact healthy resolved
  constructor
  · exact repackable_of_roundTrips accepted perm built read
  · intro ready
    have whole : archive.files.filter (fun file => !contains file.path "..") = archive.files := by
      rw [List.filter_eq_self]
      intro file member
      simp [(ready file member).noDots]
    rw [whole] at perm
    obtain ⟨again, parsing, name, displayName, description, same⟩ :=
      parseSkillArchive_packed accepted perm ready nonempty read (large _ built)
    refine ⟨_, _, again, built, read, ?_, parsing, name, displayName, description, same ▸ perm⟩
    rw [List.map_map]
    exact perm.map _

def resolvesTo (commit : Commit β) : EngineAnswer β := { revParse := fun _ => some commit }

theorem weather_round_trip :
    ∃ archive commit,
      parseSkillArchive (listZip plainPlumbing.toContent) weatherArchive {} = .ok archive ∧
      seedInitialCommit plainPlumbing {}
        { name := "weather", initialFiles := archive.files } = .ok commit ∧
      RoundTrips (listZip plainPlumbing.toContent) (resolvesTo commit) "main" {} archive := by
  obtain ⟨archive, parsed, _, listed⟩ := weatherArchive_parses
  obtain ⟨commit, seeded, built⟩ : ∃ commit, seedInitialCommit plainPlumbing {}
      { name := "weather", initialFiles := archive.files } = .ok commit ∧
      (buildSkillPackage plainPlumbing (listZip plainPlumbing.toContent) (resolvesTo commit)
        "main").map (fun package => package.zip.length) = .ok 2 := by
    rw [listed]
    decide +kernel
  refine ⟨archive, commit, parsed, seeded, ?_⟩
  refine (package_round_trip_iff plainPlumbing (listZip plainPlumbing.toContent) weatherArchive {} {}
    archive {} (resolvesTo commit) _ commit "main" parsed ?_ rfl seeded rfl rfl ?_).mpr ?_
  · rw [listed]
    decide +kernel
  · intro package packed
    rw [packed] at built
    have size : (listZip plainPlumbing.toContent).length package.zip = 3 :=
      congrArg (· + 1) (Except.ok.inj built)
    rw [size, listed]
    exact ⟨by decide +kernel, by decide +kernel, by decide +kernel, by decide +kernel,
      by decide +kernel, by decide +kernel⟩
  · rw [listed]
    intro file member
    simp only [weatherFiles, List.mem_cons, List.not_mem_nil, or_false] at member
    rcases member with rfl | rfl
    · exact ⟨by decide +kernel, by decide +kernel, by decide +kernel, by decide +kernel⟩
    · exact ⟨by decide +kernel, by decide +kernel, by decide +kernel, by decide +kernel⟩

/-- Two dots inside a name pass the import and are left out by the packer. -/
theorem package_leaves_dotted_name_out :
    ∃ archive commit package entries,
      parseSkillArchive (listZip plainPlumbing.toContent)
        [("SKILL.md", false, weatherSkill), ("v1..v2.md", false, "Changes.")] {} = .ok archive ∧
      seedInitialCommit plainPlumbing {}
        { name := "weather", initialFiles := archive.files } = .ok commit ∧
      buildSkillPackage plainPlumbing (listZip plainPlumbing.toContent) (resolvesTo commit) "main" =
        .ok package ∧
      (listZip plainPlumbing.toContent).read package.zip = some entries ∧
      ⟨"v1..v2.md", "Changes."⟩ ∈ archive.files ∧
      entries.map (fun entry => entry.name) = ["SKILL.md"] := by
  simp only [exists_and_left]
  decide +kernel

end AisphereHub
