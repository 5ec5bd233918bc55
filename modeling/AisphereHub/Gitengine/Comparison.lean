import Mathlib.Data.List.Basic

/-! The patch that `CompareRefs` returns: the first megabyte of what `git diff` prints, cut back
to the last place where all of it is valid UTF-8. -/
namespace AisphereHub

def maxComparisonPatchBytes : Nat := 1024 * 1024

/-- `utf8.ValidString`, on the bytes of a text. -/
def validString (bytes : List UInt8) : Bool := bytes.toByteArray.validateUTF8

/-- Where the loop of `CompareRefs` stops that drops the last of the first `n` bytes until they
are valid. -/
def trimInvalid (patch : List UInt8) : Nat → Nat
  | 0 => 0
  | n + 1 => if validString (patch.take (n + 1)) then n + 1 else trimInvalid patch n

def comparisonPatch (patch : List UInt8) : List UInt8 :=
  if maxComparisonPatchBytes < patch.length then
    patch.take (trimInvalid patch maxComparisonPatchBytes)
  else patch

/-- A prefix, whole up to 1 MiB, at most three bytes below it otherwise, after as many passes. -/
def CutTightly (patch : List UInt8) : Prop :=
  comparisonPatch patch <+: patch ∧
    (patch.length ≤ maxComparisonPatchBytes → comparisonPatch patch = patch) ∧
    (maxComparisonPatchBytes < patch.length →
      maxComparisonPatchBytes - 3 ≤ (comparisonPatch patch).length ∧
      maxComparisonPatchBytes - trimInvalid patch maxComparisonPatchBytes ≤ 3)

variable {patch : List UInt8} {n : Nat}

theorem validString_iff :
    validString bytes = true ↔ ∃ chars : List Char, bytes = chars.flatMap String.utf8EncodeChar := by
  rw [validString, ByteArray.validateUTF8_eq_true_iff]
  constructor
  · rintro ⟨chars, encoded⟩
    exact ⟨chars, List.toByteArray_inj.mp encoded⟩
  · rintro ⟨chars, rfl⟩
    exact ⟨chars, rfl⟩

/-- No character is cut off more than three bytes before its end. -/
theorem valid_take_near (chars : List Char) (n : Nat) : ∃ m ≤ n, n ≤ m + 3 ∧
    validString ((chars.flatMap String.utf8EncodeChar).take m) = true := by
  induction chars generalizing n with
  | nil => exact ⟨n, Nat.le_refl n, by omega, validString_iff.mpr ⟨[], by simp⟩⟩
  | cons c chars ih =>
    have size := c.utf8Size_le_four
    have length := String.length_utf8EncodeChar c
    by_cases inside : n < c.utf8Size
    · exact ⟨0, Nat.zero_le n, by omega, validString_iff.mpr ⟨[], by simp⟩⟩
    · obtain ⟨m, le, near, valid⟩ := ih (n - c.utf8Size)
      obtain ⟨first, encoded⟩ := validString_iff.mp valid
      refine ⟨c.utf8Size + m, by omega, by omega, validString_iff.mpr ⟨c :: first, ?_⟩⟩
      rw [List.flatMap_cons, List.flatMap_cons, ← encoded, ← length, List.take_length_add_append]

theorem trimInvalid_le (patch : List UInt8) (n : Nat) : trimInvalid patch n ≤ n := by
  induction n with
  | zero => exact Nat.le_refl 0
  | succ n ih =>
    rw [trimInvalid]
    split_ifs
    · exact Nat.le_refl _
    · exact Nat.le_succ_of_le ih

theorem le_trimInvalid (le : m ≤ n) (valid : validString (patch.take m) = true) :
    m ≤ trimInvalid patch n := by
  induction n with
  | zero => exact le
  | succ n ih =>
    rw [trimInvalid]
    split_ifs with whole
    · exact le
    · refine ih (Nat.le_of_lt_succ (Nat.lt_of_le_of_ne le ?_))
      rintro rfl
      exact whole valid

theorem valid_trimInvalid (patch : List UInt8) (n : Nat) :
    validString (patch.take (trimInvalid patch n)) = true := by
  induction n with
  | zero => exact validString_iff.mpr ⟨[], by simp [trimInvalid]⟩
  | succ n ih =>
    rw [trimInvalid]
    split_ifs with whole
    · exact whole
    · exact ih

theorem valid_prefix_near (valid : validString patch = true) (n : Nat) :
    ∃ m ≤ n, n ≤ m + 3 ∧ validString (patch.take m) = true := by
  obtain ⟨chars, rfl⟩ := validString_iff.mp valid
  exact valid_take_near chars n

/-- A patch is cut tightly exactly if it is not cut, or is valid UTF-8 up to a place within three
bytes of the limit; one that is valid as a whole is so. -/
theorem cut_tightly_iff (patch : List UInt8) :
    (CutTightly patch ↔ patch.length ≤ maxComparisonPatchBytes ∨
      ∃ m ≤ maxComparisonPatchBytes, maxComparisonPatchBytes ≤ m + 3 ∧
        validString (patch.take m) = true) ∧
    (validString patch = true → CutTightly patch) := by
  have exact : CutTightly patch ↔ patch.length ≤ maxComparisonPatchBytes ∨
      ∃ m ≤ maxComparisonPatchBytes, maxComparisonPatchBytes ≤ m + 3 ∧
        validString (patch.take m) = true := by
    have below := trimInvalid_le patch maxComparisonPatchBytes
    by_cases long : maxComparisonPatchBytes < patch.length
    · rw [CutTightly, comparisonPatch, if_pos long, List.length_take]
      constructor
      · rintro ⟨_, _, tight⟩
        exact .inr ⟨_, below, by omega, valid_trimInvalid patch maxComparisonPatchBytes⟩
      · rintro (fits | ⟨m, le, near, valid⟩)
        · omega
        · have reached := le_trimInvalid le valid
          exact ⟨List.take_prefix _ _, fun fits => by omega, fun _ => by omega⟩
    · rw [CutTightly, comparisonPatch, if_neg long]
      exact iff_of_true ⟨List.prefix_refl _, fun _ => rfl, fun more => absurd more long⟩
        (.inl (Nat.not_lt.mp long))
  exact ⟨exact, fun valid => exact.mpr (.inr (valid_prefix_near valid _))⟩

theorem long_patch_cut_tightly : CutTightly (List.replicate 2000000 97) :=
  (cut_tightly_iff _).2 (validString_iff.mpr ⟨List.replicate 2000000 'a', by
    rw [List.flatMap_replicate]
    exact (List.flatten_replicate_singleton).symm⟩)

/-- What follows whole characters in valid UTF-8 is valid. -/
theorem valid_of_append (chars : List Char) (rest : List UInt8)
    (valid : validString (chars.flatMap String.utf8EncodeChar ++ rest) = true) :
    validString rest = true := by
  induction chars with
  | nil => exact valid
  | cons c chars ih =>
    obtain ⟨all, encoded⟩ := validString_iff.mp valid
    rw [List.flatMap_cons, List.append_assoc] at encoded
    cases all with
    | nil => exact absurd (List.append_eq_nil_iff.mp encoded).1 String.utf8EncodeChar_ne_nil
    | cons d all =>
      rw [List.flatMap_cons] at encoded
      -- the decoder reads one character off the common text
      have decoded := congrArg (fun bytes => bytes.toByteArray.utf8DecodeChar? 0) encoded
      simp only [List.toByteArray_append, ByteArray.utf8DecodeChar?_utf8EncodeChar_append,
        Option.some.injEq] at decoded
      subst decoded
      exact ih (validString_iff.mpr ⟨all, List.append_cancel_left encoded⟩)

/-- The loop goes back to a byte that begins no character, however far it is. -/
theorem trimInvalid_le_of_stuck (chars : List Char) (never : ¬b.IsUTF8FirstByte)
    (rest : List UInt8) (n : Nat) :
    trimInvalid (chars.flatMap String.utf8EncodeChar ++ b :: rest) n ≤
      (chars.flatMap String.utf8EncodeChar).length := by
  induction n with
  | zero => exact Nat.zero_le _
  | succ n ih =>
    rw [trimInvalid]
    split_ifs with valid
    · by_contra past
      obtain ⟨k, eq⟩ := Nat.exists_eq_add_of_lt (Nat.not_le.mp past)
      rw [eq, List.take_append, List.take_of_length_le (by omega),
        show (chars.flatMap String.utf8EncodeChar).length + k + 1 -
          (chars.flatMap String.utf8EncodeChar).length = k + 1 by omega, List.take_succ_cons] at valid
      have first := (ByteArray.validateUTF8_eq_true_iff.mp
        (valid_of_append chars _ valid)).isUTF8FirstByte_getElem_zero
      exact never (by simpa using first)
    · exact ih

def latinHeader : String :=
  "diff --git a/price.txt b/price.txt\nindex e69de29..8f1c2ab 100644\n--- a/price.txt\n" ++
    "+++ b/price.txt\n@@ -0,0 +1 @@\n+"

/-- A file in Latin-1 that begins with a pound sign: only the header of its diff is left. -/
theorem latin_patch_lost : ¬CutTightly (latinHeader.toList.flatMap String.utf8EncodeChar ++
    163 :: List.replicate 2000000 97) := by
  rintro ⟨_, _, tight⟩
  have never : ¬(163 : UInt8).IsUTF8FirstByte := by
    decide
  have short : (latinHeader.toList.flatMap String.utf8EncodeChar).length ≤ 200 := by
    decide +kernel
  have stuck := trimInvalid_le_of_stuck latinHeader.toList never (List.replicate 2000000 97)
    maxComparisonPatchBytes
  have passes := (tight (by
    rw [List.length_append, List.length_cons, List.length_replicate, maxComparisonPatchBytes]
    omega)).2
  rw [maxComparisonPatchBytes] at passes stuck
  omega

end AisphereHub
