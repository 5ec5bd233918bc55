import AisphereHub.Foundation.GoStrings
import Mathlib.Algebra.Ring.Int.Defs

/-! Decimal numbers as Go's `strconv.Atoi` reads them and `%d` prints them, for a 64-bit `int`. -/
namespace GoStrconv

open GoStrings

variable {n : Int} {s : String} {c : Char}

def maxInt64 : Int := 2 ^ 63 - 1

def minInt64 : Int := -2 ^ 63

/-- Arithmetic on `int` wraps around. -/
def wrapInt64 (n : Int) : Int := (n - minInt64) % 2 ^ 64 + minInt64

def parseDigits (digits : List Char) : Option Nat :=
  if digits ≠ [] ∧ digits.all Char.isDigit then some (Nat.ofDigitChars 10 digits 0) else none

def inInt64 (n : Int) : Option Int := if minInt64 ≤ n ∧ n ≤ maxInt64 then some n else none

/-- `strconv.Atoi`: a sign may come before the digits, and nothing else. -/
def atoi (s : String) : Option Int :=
  match s.toList with
  | '-' :: digits => (parseDigits digits).bind fun n => inInt64 (-n)
  | '+' :: digits => (parseDigits digits).bind fun n => inInt64 n
  | digits => (parseDigits digits).bind fun n => inInt64 n

theorem wrapInt64_of_range (low : minInt64 ≤ n) (high : n ≤ maxInt64) : wrapInt64 n = n := by
  unfold wrapInt64
  unfold minInt64 maxInt64 at *
  omega

theorem atoi_range (read : atoi s = some n) : minInt64 ≤ n ∧ n ≤ maxInt64 := by
  have ranged : ∀ {value : Option Nat} {f : Nat → Int},
      (value.bind fun m => inInt64 (f m)) = some n → minInt64 ≤ n ∧ n ≤ maxInt64 := by
    intro value f found
    obtain ⟨m, _, kept⟩ := Option.bind_eq_some_iff.mp found
    unfold inInt64 at kept
    split_ifs at kept with range
    cases kept
    exact range
  unfold atoi at read
  split at read
  · exact ranged read
  · exact ranged read
  · exact ranged read

theorem parseDigits_toDigits (n : Nat) : parseDigits (Nat.toDigits 10 n) = some n := by
  have digits : (Nat.toDigits 10 n).all Char.isDigit = true := by
    rw [List.all_eq_true]
    exact fun c member => Nat.isDigit_of_mem_toDigits (by decide) (by decide) member
  rw [parseDigits, if_pos ⟨Nat.toDigits_ne_nil, digits⟩, Nat.ofDigitChars_ten_toDigits]

theorem toList_toString_nat (n : Nat) : (toString n).toList = Nat.toDigits 10 n := by
  rw [Nat.toString_eq_ofList_toDigits, String.toList_ofList]

/-- What `%d` prints: digits, after a minus sign if the number is negative. -/
theorem toList_toString (n : Int) : (toString n).toList =
    if 0 ≤ n then Nat.toDigits 10 n.toNat else '-' :: Nat.toDigits 10 n.natAbs := by
  cases n with
  | ofNat n =>
    exact toList_toString_nat n
  | negSucc n =>
    have shape : toString (Int.negSucc n) = "-" ++ toString (n + 1) := rfl
    rw [shape, String.toList_append, toList_toString_nat]
    rfl

theorem atoi_of_digits (text : s.toList = digits)
    (digital : ∀ c ∈ digits, c.isDigit = true) :
    atoi s = (parseDigits digits).bind fun n => inInt64 n := by
  unfold atoi
  rw [text]
  split
  · exact absurd (digital '-' List.mem_cons_self) (by decide)
  · exact absurd (digital '+' List.mem_cons_self) (by decide)
  · rfl

theorem atoi_toString (low : minInt64 ≤ n) (high : n ≤ maxInt64) : atoi (toString n) = some n := by
  have text := toList_toString n
  split_ifs at text with sign
  · rw [atoi_of_digits text fun c member => Nat.isDigit_of_mem_toDigits (by decide) (by decide) member,
      parseDigits_toDigits, Option.bind_some, Int.toNat_of_nonneg sign, inInt64, if_pos ⟨low, high⟩]
  · have back : -(n.natAbs : Int) = n := by omega
    have signed : atoi (toString n) =
        (parseDigits (Nat.toDigits 10 n.natAbs)).bind fun m => inInt64 (-m) := by
      unfold atoi
      rw [text]
      rfl
    rw [signed, parseDigits_toDigits, Option.bind_some, back, inInt64, if_pos ⟨low, high⟩]

theorem atoi_nonneg (unsigned : '-' ∉ s.toList) (read : atoi s = some n) : 0 ≤ n := by
  have natural : ∀ {value : Option Nat}, (value.bind fun m => inInt64 m) = some n → 0 ≤ n := by
    intro value found
    obtain ⟨m, _, kept⟩ := Option.bind_eq_some_iff.mp found
    unfold inInt64 at kept
    split_ifs at kept
    cases kept
    exact Int.natCast_nonneg m
  unfold atoi at read
  split at read
  · rename_i digits shape
    exact absurd (shape ▸ List.mem_cons_self) unsigned
  · exact natural read
  · exact natural read

theorem mem_toString (member : c ∈ (toString n).toList) : c.isDigit = true ∨ c = '-' ∧ n < 0 := by
  rw [toList_toString] at member
  have digital : ∀ m : Nat, ∀ d ∈ Nat.toDigits 10 m, d.isDigit = true :=
    fun m d inside => Nat.isDigit_of_mem_toDigits (by decide) (by decide) inside
  split_ifs at member with sign
  · exact .inl (digital _ c member)
  · rcases List.mem_cons.mp member with rfl | member
    · exact .inr ⟨rfl, by omega⟩
    · exact .inl (digital _ c member)

theorem toString_inj (same : toString m = toString n) : m = n := by
  have digits : ∀ {a b : Nat}, Nat.toDigits 10 a = Nat.toDigits 10 b → a = b := by
    intro a b equal
    have read := congrArg parseDigits equal
    rwa [parseDigits_toDigits, parseDigits_toDigits, Option.some.injEq] at read
  have sign : 0 ≤ m ↔ 0 ≤ n := by
    have minus : ∀ {i j : Int}, toString i = toString j → 0 ≤ i → 0 ≤ j := by
      intro i j equal nonneg
      by_contra negative
      have mark : '-' ∈ (toString i).toList := by
        rw [equal, toList_toString, if_neg negative]
        exact List.mem_cons_self
      rcases mem_toString mark with digit | ⟨_, below⟩
      · cases digit
      · exact absurd nonneg (by omega)
    exact ⟨minus same, minus same.symm⟩
  have texts := congrArg String.toList same
  simp only [toList_toString, sign] at texts
  split_ifs at texts with nonneg
  · have := digits texts
    omega
  · have := digits (List.cons.inj texts).2
    omega

theorem toString_ne_nil (n : Int) : (toString n).toList ≠ [] := by
  rw [toList_toString]
  split_ifs
  · exact Nat.toDigits_ne_nil
  · exact List.cons_ne_nil _ _

theorem isSpace_of_mem_toString (member : c ∈ (toString n).toList) : isSpace c = false := by
  rcases mem_toString member with digit | ⟨rfl, _⟩
  · have range : 48 ≤ c.toNat ∧ c.toNat ≤ 57 := by
      simpa [Char.isDigit, Char.le_def, UInt32.le_iff_toNat_le] using digit
    simp only [isSpace, Bool.or_eq_false_iff, Bool.and_eq_false_iff, decide_eq_false_iff_not,
      beq_eq_false_iff_ne]
    omega
  · decide

theorem not_mem_toString (other : c.isDigit = false) (mark : c ≠ '-') :
    c ∉ (toString n).toList := by
  intro member
  rcases mem_toString member with digit | ⟨rfl, _⟩
  · exact absurd digit (by simp [other])
  · exact mark rfl

theorem no_sign_of_nonneg (nonneg : 0 ≤ n) : '-' ∉ (toString n).toList := by
  intro member
  rcases mem_toString member with digit | ⟨_, negative⟩
  · exact absurd digit (by decide)
  · omega

end GoStrconv
