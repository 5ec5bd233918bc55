import Mathlib.Algebra.Order.Ring.Int
import AisphereHub.Biz.Error
import AisphereHub.Foundation.GoPath
import AisphereHub.Gitengine.Metadata

/-! Import of a skill archive. `ParseSkillArchive` reads the entries of a zip one
after the other, then strips the directory that wraps them all, if there is one,
and reads the metadata of the root `SKILL.md`. The zip format is a parameter. -/
namespace AisphereHub

open GoStrings

structure SkillArchiveLimits where
  maxArchiveBytes : Int := 0
  maxUnpackedBytes : Int := 0
  maxFiles : Int := 0
  maxFileBytes : Int := 0
deriving DecidableEq

/-- One file of a zip: its header, the bytes its reader gives, and whether opening
it fails or reading it past those bytes. -/
structure ZipEntry (β : Type) where
  name : String
  isDir : Bool := false
  symlink : Bool := false
  uncompressedSize : Nat
  content : β
  openFails : Bool := false
  readFails : Bool := false

structure SkillArchiveFile (β : Type) where
  path : String
  content : β
deriving DecidableEq

structure SkillArchive (β : Type) where
  name : String
  displayName : String
  description : String
  files : List (SkillArchiveFile β)
  fileCount : Nat
  unpackedBytes : Int
deriving DecidableEq

def int64 (n : Int) : Int := n.bmod (2 ^ 64)

def defaultMaxArchiveBytes : Int := 50 * 2 ^ 20

def defaultMaxUnpackedBytes : Int := 200 * 2 ^ 20

def defaultMaxArchiveFiles : Int := 2000

def defaultMaxArchiveFile : Int := 50 * 2 ^ 20

def normalizeSkillArchiveLimits (limits : SkillArchiveLimits) : SkillArchiveLimits where
  maxArchiveBytes :=
    if limits.maxArchiveBytes ≤ 0 then defaultMaxArchiveBytes else limits.maxArchiveBytes
  maxUnpackedBytes :=
    if limits.maxUnpackedBytes ≤ 0 then defaultMaxUnpackedBytes else limits.maxUnpackedBytes
  maxFiles := if limits.maxFiles ≤ 0 then defaultMaxArchiveFiles else limits.maxFiles
  maxFileBytes := if limits.maxFileBytes ≤ 0 then defaultMaxArchiveFile else limits.maxFileBytes

def archiveInvalid (message : String) : HubError := ⟨.SKILL_ARCHIVE_INVALID, message⟩

def archiveTooLarge (message : String) : HubError := ⟨.SKILL_ARCHIVE_TOO_LARGE, message⟩

def archiveMissingMeta (message : String) : HubError := ⟨.SKILL_ARCHIVE_SKILL_MD_MISSING, message⟩

def normalizeArchiveFilePath (raw : String) : Except String String :=
  let raw := replaceChar (trimSpace raw) '\\' '/'
  if raw = "" ∨ hasPrefix raw "/" = true ∨ contains raw ":" = true then
    .error ("invalid archive path: " ++ raw)
  else
    let clean := GoPath.clean raw
    if clean = "." ∨ clean = ".." ∨ hasPrefix clean "../" = true then
      .error ("invalid archive path: " ++ raw)
    else if clean = ".git" ∨ hasPrefix clean ".git/" = true ∨ contains clean "/.git/" = true then
      .error (".git paths are not allowed: " ++ clean)
    else .ok clean

def isIgnoredArchiveFile (p : String) : Bool :=
  p == ".DS_Store" || hasSuffix p "/.DS_Store" || hasPrefix p "__MACOSX/"

variable {β δ : Type}

/-- The limited reader stops after `maxBytes + 1` bytes. -/
def readZipFile (C : Content β) (entry : ZipEntry β) (maxBytes : Int) : Except HubError β :=
  if entry.openFails then .error (archiveInvalid ("read file failed: " ++ entry.name))
  else if int64 (maxBytes + 1) ≤ 0 then .ok (C.bytes "")
  else if C.len entry.content > maxBytes then
    .error (archiveTooLarge ("file " ++ entry.name ++ " exceeds " ++ toString maxBytes ++ " bytes"))
  else if entry.readFails then .error (archiveInvalid ("read file failed: " ++ entry.name))
  else .ok entry.content

/-- One turn of the loop over the entries, with the files and the byte count so
far. The paths seen are those of the files. -/
def parseEntry (C : Content β) (limits : SkillArchiveLimits)
    (state : List (SkillArchiveFile β) × Int) (entry : ZipEntry β) :
    Except HubError (List (SkillArchiveFile β) × Int) :=
  if entry.isDir then .ok state
  else if entry.symlink then .error (archiveInvalid ("symlinks are not allowed: " ++ entry.name))
  else
    match normalizeArchiveFilePath entry.name with
    | .error cause => .error (archiveInvalid cause)
    | .ok p =>
      let size := int64 entry.uncompressedSize
      if isIgnoredArchiveFile p then .ok state
      else if p ∈ state.1.map SkillArchiveFile.path then
        .error (archiveInvalid ("duplicate file path: " ++ p))
      else if (state.1.length : Int) + 1 > limits.maxFiles then
        .error (archiveTooLarge ("file count exceeds " ++ toString limits.maxFiles))
      else if size > limits.maxFileBytes then
        .error (archiveTooLarge ("file " ++ p ++ " is " ++ toString size ++ " bytes, max is "
          ++ toString limits.maxFileBytes))
      else if int64 (state.2 + size) > limits.maxUnpackedBytes then
        .error (archiveTooLarge ("unpacked size exceeds " ++ toString limits.maxUnpackedBytes
          ++ " bytes"))
      else
        match readZipFile C entry limits.maxFileBytes with
        | .error e => .error e
        | .ok content =>
          let total := int64 (state.2 + C.len content)
          if total > limits.maxUnpackedBytes then
            .error (archiveTooLarge ("unpacked size exceeds "
              ++ toString limits.maxUnpackedBytes ++ " bytes"))
          else .ok (state.1 ++ [⟨p, content⟩], total)

def parseEntries (C : Content β) (limits : SkillArchiveLimits)
    (state : List (SkillArchiveFile β) × Int) :
    List (ZipEntry β) → Except HubError (List (SkillArchiveFile β) × Int)
  | [] => .ok state
  | entry :: rest =>
    match parseEntry C limits state entry with
    | .error e => .error e
    | .ok state => parseEntries C limits state rest

/-- The directory of the second-level `SKILL.md`; no other one may hold another. -/
def archiveWrapper (wrapper : String) : List (SkillArchiveFile β) → Except HubError String
  | [] => .ok wrapper
  | file :: rest =>
    match split file.path '/' with
    | [top, base] =>
      if base ≠ "SKILL.md" then archiveWrapper wrapper rest
      else if wrapper ≠ "" ∧ wrapper ≠ top then
        .error (archiveInvalid "archive contains multiple top-level SKILL.md files")
      else archiveWrapper top rest
    | _ => archiveWrapper wrapper rest

/-- The loop that strips the wrapper, with the files and the `SKILL.md` so far. -/
def stripWrapper (C : Content β) (start : String) (normalized : List (SkillArchiveFile β))
    (skillMD : String) :
    List (SkillArchiveFile β) → Except HubError (List (SkillArchiveFile β) × String)
  | [] =>
    if trimSpace skillMD = "" then .error (archiveMissingMeta "SKILL.md is required")
    else .ok (normalized, skillMD)
  | file :: rest =>
    if hasPrefix file.path start = false then
      .error (archiveInvalid "all archive files must share the SKILL.md top-level directory")
    else
      let p := trimPrefix file.path start
      if p = "" then stripWrapper C start normalized skillMD rest
      else if p ∈ normalized.map SkillArchiveFile.path then
        .error (archiveInvalid
          ("duplicate file path after stripping top-level directory: " ++ p))
      else
        stripWrapper C start (normalized ++ [{ file with path := p }])
          (if p = "SKILL.md" then C.text file.content else skillMD) rest

def normalizeSkillArchiveRoot (C : Content β) (files : List (SkillArchiveFile β)) :
    Except HubError (List (SkillArchiveFile β) × String) :=
  match files.find? (·.path == "SKILL.md") with
  | some file => .ok (files, C.text file.content)
  | none =>
    match archiveWrapper "" files with
    | .error e => .error e
    | .ok wrapper =>
      if wrapper = "" then
        .error (archiveMissingMeta
          "SKILL.md is required at archive root or inside a single top-level directory")
      else stripWrapper C (wrapper ++ "/") [] "" files

def ZipEntry.packed (C : Content β) (name : String) (symlink : Bool) (content : β) : ZipEntry β :=
  { name := name, isDir := hasSuffix name "/", symlink := symlink,
    uncompressedSize := C.len content, content := content }

/-- The zip library and the digests of its output: `write` packs named contents,
which may be symlinks. A name takes at most 65535 bytes, and what was written is
read back. -/
structure ZipFormat (C : Content β) (δ : Type) where
  length : δ → Nat
  sha256 : δ → String
  md5 : δ → String
  read : δ → Option (List (ZipEntry β))
  write : List (String × Bool × β) → Except String δ
  write_ok : ∀ files, (∀ file ∈ files, file.1.utf8ByteSize ≤ 65535) →
    ∃ data, write files = .ok data
  write_nonempty : ∀ files data, write files = .ok data → 0 < length data
  read_write : ∀ files data, write files = .ok data →
    (∀ file ∈ files, hasSuffix file.1 "/" = false) →
    read data = some (files.map fun file => .packed C file.1 file.2.1 file.2.2)
  read_names : ∀ data entries, read data = some entries →
    ∀ entry ∈ entries, entry.name.utf8ByteSize ≤ 65535

def parseSkillArchive {C : Content β} (Z : ZipFormat C δ) (data : δ) (limits : SkillArchiveLimits) :
    Except HubError (SkillArchive β) :=
  let limits := normalizeSkillArchiveLimits limits
  if Z.length data = 0 then .error (archiveInvalid "zip content is required")
  else if Z.length data > limits.maxArchiveBytes then
    .error (archiveTooLarge ("zip is " ++ toString (Z.length data) ++ " bytes, max is "
      ++ toString limits.maxArchiveBytes))
  else
    match Z.read data with
    | none => .error (archiveInvalid "zip content is not readable")
    | some entries =>
      match parseEntries C limits ([], 0) entries with
      | .error e => .error e
      | .ok (files, total) =>
        match normalizeSkillArchiveRoot C files with
        | .error e => .error e
        | .ok (files, skillMD) =>
          match parseSkillMetadataDocument C.yaml skillMD with
          | .error cause => .error (archiveInvalid cause)
          | .ok (name, displayName, description) =>
            if trimSpace description = "" then
              .error (archiveInvalid "SKILL.md description is required")
            else .ok ⟨name, displayName, description, files, files.length, total⟩

/-- Names that fit, listed with what they hold. -/
def listZip (C : Content β) : ZipFormat C (List (String × Bool × β)) where
  length files := files.length + 1
  sha256 files := join (files.map Prod.fst) ','
  md5 files := join (files.map Prod.fst) ';'
  read files :=
    if files.all (·.1.utf8ByteSize ≤ 65535) then
      some (files.map fun file => .packed C file.1 file.2.1 file.2.2)
    else none
  write files :=
    if files.all (·.1.utf8ByteSize ≤ 65535) then .ok files
    else .error "zip: FileHeader.Name too long"
  write_ok files fit := ⟨files, by simpa using fit⟩
  write_nonempty files data _ := Nat.succ_pos data.length
  read_write files data written _ := by
    split_ifs at written with fit
    cases written
    rw [if_pos fit]
  read_names data entries read := by
    split_ifs at read with fit
    cases read
    intro entry member
    obtain ⟨file, inData, rfl⟩ := List.mem_map.mp member
    simpa [ZipEntry.packed] using List.all_eq_true.mp fit file inData

end AisphereHub
