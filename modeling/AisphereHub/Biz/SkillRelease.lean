import AisphereHub.Biz.Error
import AisphereHub.Foundation.GoStrings

/-! Releases and their versions. The semantic version library is a parameter: it
parses strictly, prints without white space, and compares by a total preorder. -/
namespace AisphereHub

open GoStrings

structure SemVer where
  Version : Type
  strictNewVersion : String → Option Version
  text : Version → String
  compare : Version → Version → Int
  compare_swap : ∀ v w, compare v w < 0 ↔ 0 < compare w v
  compare_trans : ∀ u v w, compare u v ≤ 0 → compare v w ≤ 0 → compare u w ≤ 0
  text_solid : ∀ v, ∀ c ∈ (text v).toList, isSpace c = false

structure SkillRelease where
  tag : String
  commitSHA : String := ""
  treeSHA : String := ""
  manifestSHA256 : String := ""
  releaseNotes : String := ""
  sourceRef : String := ""
  publisherID : String := ""
  publisherName : String := ""
  publisherEmail : String := ""
  createTime : Nat := 0
deriving DecidableEq

structure CreateSkillRelease where
  version : String
  sourceRef : String
  expectedCommitSHA : String
  releaseNotes : String := ""
  actorID : String := ""
  actorName : String := ""
  actorEmail : String := ""
  createTime : Nat := 0
deriving DecidableEq

def SemVer.parseTag (S : SemVer) (tag : String) : Option S.Version :=
  S.strictNewVersion (trimPrefix (trimSpace tag) "v")

def normalizeReleaseVersion (S : SemVer) (version : String) : Option String :=
  (S.parseTag version).map fun parsed => "v" ++ S.text parsed

def isReleaseTag (S : SemVer) (tag : String) : Bool := normalizeReleaseVersion S tag == some tag

theorem parseTag_trimSpace (S : SemVer) (tag : String) : S.parseTag (trimSpace tag) = S.parseTag tag := by
  rw [SemVer.parseTag, trimSpace_trimSpace, SemVer.parseTag]

theorem normalizeReleaseVersion_trimSpace (S : SemVer) (tag : String) :
    normalizeReleaseVersion S (trimSpace tag) = normalizeReleaseVersion S tag := by
  rw [normalizeReleaseVersion, parseTag_trimSpace, normalizeReleaseVersion]

theorem trimSpace_of_isReleaseTag (canonical : isReleaseTag S tag = true) :
    trimSpace tag = tag := by
  obtain ⟨version, _, shape⟩ := Option.map_eq_some_iff.mp (beq_iff_eq.mp canonical)
  have solid : ∀ c ∈ tag.toList, isSpace c = false := by
    intro c member
    rw [← shape, String.toList_append, List.mem_append] at member
    rcases member with letter | digit
    · obtain rfl : c = 'v' := by simpa using letter
      decide
    · exact S.text_solid version c digit
  exact trimSpace_of_solid solid

section Core

def isCoreVersion (s : String) : Bool :=
  s.toList.all (fun c => c.isDigit || c == '.') && (split s '.').length == 3 &&
    (split s '.').all fun part => part != "" && (part.length == 1 || !hasPrefix part "0")

def numberValue (s : String) : Nat :=
  s.toList.foldl (fun value c => 10 * value + (c.toNat - '0'.toNat)) 0

def versionKey (s : String) : Nat × Nat × Nat :=
  match split s '.' with
  | [major, minor, patch] => (numberValue major, numberValue minor, numberValue patch)
  | _ => (0, 0, 0)

def compareKeys (x y : Nat × Nat × Nat) : Int :=
  if x.1 ≠ y.1 then (if x.1 < y.1 then -1 else 1)
  else if x.2.1 ≠ y.2.1 then (if x.2.1 < y.2.1 then -1 else 1)
  else if x.2.2 ≠ y.2.2 then (if x.2.2 < y.2.2 then -1 else 1)
  else 0

theorem compareKeys_neg_iff (x y : Nat × Nat × Nat) : compareKeys x y < 0 ↔
    x.1 < y.1 ∨ x.1 = y.1 ∧ (x.2.1 < y.2.1 ∨ x.2.1 = y.2.1 ∧ x.2.2 < y.2.2) := by
  unfold compareKeys
  split_ifs <;> omega

theorem compareKeys_swap (x y : Nat × Nat × Nat) : compareKeys x y < 0 ↔ 0 < compareKeys y x := by
  unfold compareKeys
  split_ifs <;> omega

theorem compareKeys_trans (first : compareKeys x y ≤ 0)
    (second : compareKeys y z ≤ 0) : compareKeys x z ≤ 0 := by
  rw [← Int.not_lt, ← compareKeys_swap, compareKeys_neg_iff] at *
  omega

theorem isSpace_of_isDigit (digit : c.isDigit = true) : isSpace c = false := by
  have bounds : 48 ≤ c.toNat ∧ c.toNat ≤ 57 := by
    simpa [Char.isDigit, UInt32.le_iff_toNat_le] using digit
  simp only [isSpace, Bool.or_eq_false_iff, Bool.and_eq_false_iff, decide_eq_false_iff_not,
    beq_eq_false_iff_ne]
  omega

def coreSemVer : SemVer where
  Version := { s : String // isCoreVersion s = true }
  strictNewVersion s := if core : isCoreVersion s = true then some ⟨s, core⟩ else none
  text v := v.val
  compare v w := compareKeys (versionKey v.val) (versionKey w.val)
  compare_swap _ _ := compareKeys_swap _ _
  compare_trans _ _ _ := compareKeys_trans
  text_solid v c member := by
    have shape := v.property
    simp only [isCoreVersion, Bool.and_eq_true, List.all_eq_true, Bool.or_eq_true, beq_iff_eq]
      at shape
    rcases shape.1.1 c member with digit | rfl
    · exact isSpace_of_isDigit digit
    · decide

end Core

end AisphereHub
