import Mathlib.Data.List.Basic

/-! JSON values, and what Go's `encoding/json` and `fmt` make of them. A document keeps its
members as they are written; a map keeps its entries in the order of their keys. -/
namespace GoJson

/-- A number as it is written: `mantissa * 10 ^ exponent`. -/
structure Decimal where
  mantissa : Int
  exponent : Int := 0
deriving DecidableEq

inductive Json (ν : Type) where
  | null
  | bool (b : Bool)
  | num (n : ν)
  | str (s : String)
  | arr (items : List (Json ν))
  | obj (members : List (String × Json ν))
deriving Repr

namespace Json

variable {ν : Type} [DecidableEq ν]

mutual

def deepEqual : Json ν → Json ν → Bool
  | .null, .null => true
  | .bool a, .bool b => a == b
  | .num a, .num b => decide (a = b)
  | .str a, .str b => a == b
  | .arr a, .arr b => deepEqualItems a b
  | .obj a, .obj b => deepEqualMembers a b
  | _, _ => false

def deepEqualItems : List (Json ν) → List (Json ν) → Bool
  | [], [] => true
  | a :: as, b :: bs => deepEqual a b && deepEqualItems as bs
  | _, _ => false

def deepEqualMembers : List (String × Json ν) → List (String × Json ν) → Bool
  | [], [] => true
  | (j, a) :: as, (k, b) :: bs => j == k && deepEqual a b && deepEqualMembers as bs
  | _, _ => false

end

mutual

theorem deepEqual_iff (a b : Json ν) : deepEqual a b = true ↔ a = b := by
  cases a with
  | arr items =>
    cases b with
    | arr others => simp only [deepEqual, deepEqualItems_iff items others, arr.injEq]
    | _ => simp [deepEqual]
  | obj members =>
    cases b with
    | obj others => simp only [deepEqual, deepEqualMembers_iff members others, obj.injEq]
    | _ => simp [deepEqual]
  | _ => cases b <;> simp [deepEqual]

theorem deepEqualItems_iff (as bs : List (Json ν)) : deepEqualItems as bs = true ↔ as = bs := by
  cases as with
  | nil => cases bs <;> simp [deepEqualItems]
  | cons a as =>
    cases bs with
    | nil => simp [deepEqualItems]
    | cons b bs => simp [deepEqualItems, deepEqual_iff a b, deepEqualItems_iff as bs]

theorem deepEqualMembers_iff (as bs : List (String × Json ν)) :
    deepEqualMembers as bs = true ↔ as = bs := by
  cases as with
  | nil => cases bs <;> simp [deepEqualMembers]
  | cons a as =>
    obtain ⟨j, a⟩ := a
    cases bs with
    | nil => simp [deepEqualMembers]
    | cons b bs =>
      obtain ⟨k, b⟩ := b
      simp [deepEqualMembers, deepEqual_iff a b, deepEqualMembers_iff as bs]

end

instance : DecidableEq (Json ν) := fun a b => decidable_of_iff (deepEqual a b = true) (deepEqual_iff a b)

end Json

/-- `m[k] = v`. -/
def assign {α : Type} : List (String × α) → String → α → List (String × α)
  | [], k, v => [(k, v)]
  | (j, w) :: rest, k, v =>
    if k < j then (k, v) :: (j, w) :: rest
    else if k = j then (k, v) :: rest
    else (j, w) :: assign rest k v

theorem lookup_cons {α : Type} (m : List (String × α)) (j k : String) (v : α) :
    ((k, v) :: m).lookup j = if j = k then some v else m.lookup j := by
  by_cases same : j = k
  · simp [same]
  · rw [List.lookup_cons, beq_false_of_ne same, if_neg same]

theorem lookup_assign (m : List (String × α)) (j k : String) (v : α) :
    (assign m k v).lookup j = if j = k then some v else m.lookup j := by
  induction m with
  | nil => exact lookup_cons [] j k v
  | cons entry rest ih =>
    obtain ⟨i, w⟩ := entry
    unfold assign
    by_cases before : k < i
    · rw [if_pos before]
      exact lookup_cons _ j k v
    rw [if_neg before]
    by_cases same : k = i
    · rw [if_pos same, lookup_cons, lookup_cons, ← same]
      split_ifs <;> rfl
    · rw [if_neg same, lookup_cons, lookup_cons, ih]
      by_cases first : j = i
      · rw [if_pos first, if_pos first, if_neg (fun second => same (second.symm.trans first))]
      · rw [if_neg first, if_neg first]

/-- `float64`: how a number is read, unless it is out of range, and how `%v` prints it. -/
structure Floats (φ : Type) where
  read : Decimal → Option φ
  print : φ → String

variable {φ : Type} (F : Floats φ)

mutual

/-- `json.Unmarshal` into an `any`. Of two members of one name the later one stays. -/
def unmarshal : Json Decimal → Option (Json φ)
  | .null => some .null
  | .bool b => some (.bool b)
  | .num n => (F.read n).map .num
  | .str s => some (.str s)
  | .arr items => (unmarshalItems items).map .arr
  | .obj members => (unmarshalMembers members []).map .obj

def unmarshalItems : List (Json Decimal) → Option (List (Json φ))
  | [] => some []
  | item :: rest =>
    (unmarshal item).bind fun value => (unmarshalItems rest).map fun values => value :: values

def unmarshalMembers : List (String × Json Decimal) → List (String × Json φ) →
    Option (List (String × Json φ))
  | [], m => some m
  | (name, member) :: rest, m =>
    (unmarshal member).bind fun value => unmarshalMembers rest (assign m name value)

end

/-- `json.Unmarshal` into a `map[string]any`; `null` leaves the map nil. -/
def unmarshalMap : Json Decimal → Option (List (String × Json φ))
  | .null => some []
  | .obj members => unmarshalMembers F members []
  | _ => none

/-- A name that no member has is not a key of the map. -/
theorem lookup_unmarshalMembers (absent : name ∉ members.map Prod.fst)
    (decoded : unmarshalMembers F members m = some out) : out.lookup name = m.lookup name := by
  induction members generalizing m with
  | nil =>
    cases decoded
    rfl
  | cons member rest ih =>
    rw [List.map_cons, List.mem_cons, not_or] at absent
    obtain ⟨value', _, decoded⟩ := Option.bind_eq_some_iff.mp decoded
    rw [ih absent.2 decoded, lookup_assign, if_neg absent.1]

mutual

/-- `fmt.Sprint`. -/
def sprint : Json φ → String
  | .null => "<nil>"
  | .bool b => if b then "true" else "false"
  | .num n => F.print n
  | .str s => s
  | .arr items => "[" ++ " ".intercalate (sprintItems items) ++ "]"
  | .obj members => "map[" ++ " ".intercalate (sprintMembers members) ++ "]"

def sprintItems : List (Json φ) → List String
  | [] => []
  | item :: rest => sprint item :: sprintItems rest

def sprintMembers : List (String × Json φ) → List String
  | [] => []
  | (name, value) :: rest => (name ++ ":" ++ sprint value) :: sprintMembers rest

end

/-- A `json.RawMessage`: nil, the value it spells, or a text that is no JSON. -/
inductive RawMessage where
  | nil
  | value (json : Json Decimal)
  | malformed (cause : String)
deriving DecidableEq

def RawMessage.marshal : RawMessage → Except String (Json Decimal)
  | .nil => .ok .null
  | .value json => .ok json
  | .malformed cause =>
    .error ("json: error calling MarshalJSON for type json.RawMessage: " ++ cause)

def marshalPointer {α : Type} (encode : α → Json Decimal) : Option α → Json Decimal
  | none => .null
  | some x => encode x

def marshalSlice {α : Type} (encode : α → Json Decimal) : Option (List α) → Json Decimal
  | none => .null
  | some items => .arr (items.map encode)

def marshalMap : Option (List (String × String)) → Json Decimal
  | none => .null
  | some entries =>
    .obj ((entries.foldl (fun m entry => assign m entry.1 entry.2) []).map fun entry =>
      (entry.1, .str entry.2))

def marshalInt (n : Int) : Json Decimal := .num ⟨n, 0⟩

end GoJson
