import AisphereHub.Foundation.GoMarshal
import Mathlib.Data.List.Forall2

/-! How `encoding/json` reads a document into typed variables. A field takes every member
whose name folds to its own, one after the other, each into what the one before left. -/
namespace GoJson

/-- `foldName` on the runes that fold to ASCII: besides the letters these are the long s and
the Kelvin sign. -/
def foldRune (c : Char) : Char :=
  if c = '\u017f' then 'S' else if c = '\u212a' then 'K' else c.toUpper

def foldName (name : String) : List Char := name.toList.map foldRune

/-- The field a member goes to: the one of its name, or one whose name folds to the same. -/
def fieldOf (fields : List String) (key : String) : Option String :=
  if key ∈ fields then some key else fields.find? fun field => foldName field = foldName key

/-- A reader: what a value makes of the variable it is read into. -/
abbrev Into (α : Type) := Json Decimal → α → Option α

def intoString : Into String
  | .str s, _ => some s
  | .null, current => some current
  | _, _ => none

def intoBool : Into Bool
  | .bool b, _ => some b
  | .null, current => some current
  | _, _ => none

/-- A number that is written without fraction and exponent, in the range of `int64`. -/
def intoInt64 : Into Int
  | .num n, _ =>
    if n.exponent = 0 ∧ -2 ^ 63 ≤ n.mantissa ∧ n.mantissa < 2 ^ 63 then some n.mantissa else none
  | .null, current => some current
  | _, _ => none

/-- The members of a `map[string]string`, added to the map; a `null` member is the empty
string. -/
def intoStringMembers : List (String × Json Decimal) → List (String × String) →
    Option (List (String × String))
  | [], m => some m
  | (name, value) :: rest, m =>
    (intoString value "").bind fun text => intoStringMembers rest (assign m name text)

def intoStringMap : Into (List (String × String))
  | .obj members, current => intoStringMembers members current
  | .null, _ => some []
  | _, _ => none

/-- A slice: the cells it has used so far and how many of them are in it. -/
structure Slice (α : Type) where
  cells : List α := []
  len : Nat := 0
deriving DecidableEq

def Slice.values {α : Type} (s : Slice α) : List α := s.cells.take s.len

section Containers

variable {α : Type}

/-- The items of an array, each read into the cell of its place. -/
def intoCells (element : Into α) (zero : α) : List (Json Decimal) → List α → Option (List α)
  | [], cells => some cells
  | item :: rest, [] =>
    (element item zero).bind fun value => (intoCells element zero rest []).map (value :: ·)
  | item :: rest, cell :: cells =>
    (element item cell).bind fun value => (intoCells element zero rest cells).map (value :: ·)

/-- Cells that are in use keep what they hold; an empty array gives a new slice. -/
def intoSlice (element : Into α) (zero : α) : Into (Slice α)
  | .arr [], _ => some {}
  | .arr items, current =>
    (intoCells element zero items current.cells).map fun cells => ⟨cells, items.length⟩
  | .null, _ => some {}
  | _, _ => none

def intoPointer (target : Into α) (zero : α) : Into (Option α)
  | .null, _ => some none
  | json, current => (target json (current.getD zero)).map some

def intoMembers (fields : List String) (set : String → Into α) :
    List (String × Json Decimal) → α → Option α
  | [], current => some current
  | (key, value) :: rest, current =>
    match fieldOf fields key with
    | none => intoMembers fields set rest current
    | some field => (set field value current).bind (intoMembers fields set rest)

def intoStruct (fields : List String) (set : String → Into α) : Into α
  | .obj members, current => intoMembers fields set members current
  | .null, current => some current
  | _, _ => none

end Containers

theorem toUpper_cases (c : Char) : c.toUpper = c ∨ c.toUpper.toNat + 32 = c.toNat := by
  unfold Char.toUpper
  split_ifs with small
  · have low : 97 ≤ c.val.toNat := small.1
    have high : c.val.toNat ≤ 122 := small.2
    right
    show (c.val + ('A'.val - 'a'.val)).toNat + 32 = c.val.toNat
    have step : ('A'.val - 'a'.val : UInt32).toNat = 2 ^ 32 - 32 := by decide
    rw [UInt32.toNat_add, step]
    omega
  · exact .inl rfl

theorem eq_of_foldRune (lower : Char) (folds : foldRune c = upper) (notS : upper ≠ 'S')
    (notK : upper ≠ 'K') (pair : lower.toNat = upper.toNat + 32) : c = upper ∨ c = lower := by
  unfold foldRune at folds
  split_ifs at folds
  · exact absurd folds.symm notS
  · exact absurd folds.symm notK
  · rcases toUpper_cases c with same | shifted
    · exact .inl (same.symm.trans folds)
    · right
      rw [folds, ← pair] at shifted
      exact (Char.toNat_inj.mp shifted).symm

section Fields

variable {α β : Type} {fields : List String} {set : String → Into α}

/-- What the member of a name does to a field: it is read into the field of its name and
leaves the others. -/
def FieldStep (name field : String) (read : Into β) (json : Json Decimal) (before after : β) : Prop :=
  if name = field then read json before = some after else after = before

/-- A part of a struct, and the reader of the field that holds it. -/
def FieldOf (set : String → Into α) (field : String) (get : α → β) (read : Into β) : Prop :=
  ∀ name json x y, set name json x = some y → FieldStep name field read json (get x) (get y)

variable {field : String} {get : α → β} {read : Into β} {x y : α}

theorem FieldOf.own (part : FieldOf set field get read)
    (done : set field json x = some y) : read json (get x) = some (get y) := by
  have step := part field json x y done
  rwa [FieldStep, if_pos rfl] at step

theorem FieldOf.other (part : FieldOf set field get read)
    (different : name ≠ field) (done : set name json x = some y) : get y = get x := by
  have step := part name json x y done
  rwa [FieldStep, if_neg different] at step

theorem fieldOf_mem (goes : fieldOf fields key = some field) :
    field ∈ fields ∧ foldName field = foldName key := by
  unfold fieldOf at goes
  split_ifs at goes with here
  · cases goes
    exact ⟨here, rfl⟩
  · exact ⟨List.mem_of_find?_eq_some goes, by simpa using List.find?_some goes⟩

theorem fieldOf_self (member : field ∈ fields) : fieldOf fields field = some field :=
  if_pos member

/-- No key but the field's own name goes to the field. -/
def OnlySpelling (field : String) (members : List (String × Json Decimal)) : Prop :=
  ∀ key ∈ members.map Prod.fst, foldName key = foldName field → key = field

def Plain (fields : List String) (members : List (String × Json Decimal)) : Prop :=
  ∀ field ∈ fields, OnlySpelling field members

variable {members : List (String × Json Decimal)}

theorem intoMembers_untouched (part : FieldOf set field get read)
    (absent : ∀ key ∈ members.map Prod.fst, fieldOf fields key ≠ some field)
    (done : intoMembers fields set members x = some y) : get y = get x := by
  induction members generalizing x with
  | nil =>
    cases done
    rfl
  | cons entry rest ih =>
    rw [List.map_cons, List.forall_mem_cons] at absent
    unfold intoMembers at done
    split at done
    · exact ih absent.2 done
    · rename_i name goes
      obtain ⟨z, first, done⟩ := Option.bind_eq_some_iff.mp done
      have elsewhere : name ≠ field := by
        rintro rfl
        exact absent.1 goes
      rw [ih absent.2 done, part.other elsewhere first]

theorem intoMembers_append (front back : List (String × Json Decimal)) (x : α) :
    intoMembers fields set (front ++ back) x =
      (intoMembers fields set front x).bind (intoMembers fields set back) := by
  induction front generalizing x with
  | nil => rfl
  | cons entry rest ih =>
    rw [List.cons_append, intoMembers, intoMembers]
    split
    · exact ih x
    · rw [Option.bind_assoc]
      exact congrArg _ (funext ih)

/-- Whatever other spellings there are, the member of a field's own name is read into it. -/
theorem intoMembers_reads (part : FieldOf set field get read) (member : field ∈ fields) (found : members.lookup field = some value)
    (done : intoMembers fields set members x = some y) :
    ∃ front back z u, members = front ++ (field, value) :: back ∧
      intoMembers fields set front x = some z ∧ read value (get z) = some (get u) ∧
      intoMembers fields set back u = some y := by
  obtain ⟨front, back, rfl, _⟩ := List.lookup_eq_some_iff.mp found
  rw [intoMembers_append] at done
  obtain ⟨z, before, done⟩ := Option.bind_eq_some_iff.mp done
  unfold intoMembers at done
  rw [fieldOf_self member] at done
  obtain ⟨u, own, after⟩ := Option.bind_eq_some_iff.mp done
  exact ⟨front, back, z, u, rfl, before, part.own own, after⟩

/-- A field with one spelling is read from the member of its name or left alone. -/
theorem intoMembers_field (part : FieldOf set field get read) (member : field ∈ fields)
    (only : OnlySpelling field members) (ordered : Ordered members)
    (done : intoMembers fields set members x = some y) : match members.lookup field with
    | none => get y = get x
    | some value => read value (get x) = some (get y) := by
  have spelled : ∀ key ∈ members.map Prod.fst, fieldOf fields key = some field → key = field := by
    intro key inside goes
    exact only key inside (fieldOf_mem goes).2.symm
  cases found : members.lookup field with
  | none =>
    refine intoMembers_untouched part (fun key inside goes => ?_) done
    exact lookup_eq_none.mp found (spelled key inside goes ▸ inside)
  | some value =>
    obtain ⟨front, back, z, u, rfl, before, own, after⟩ := intoMembers_reads part member found done
    simp only [Ordered, List.map_append, List.map_cons, List.pairwise_append, List.pairwise_cons]
      at ordered
    rw [← intoMembers_untouched part (fun key inside goes => ?_) before,
      intoMembers_untouched part (fun key inside goes => ?_) after]
    · exact own
    · have same := spelled key (by simp [inside]) goes
      exact lt_irrefl _ (same ▸ ordered.2.1.1 key inside)
    · have same := spelled key (by simp [inside]) goes
      exact lt_irrefl _ (same ▸ ordered.2.2 key inside field (by simp))

/-- A field whose own name comes after its other spellings is read last from the member of
its name. -/
theorem intoMembers_last (part : FieldOf set field get read) (member : field ∈ fields)
    (last : ∀ key, foldName key = foldName field → key ≤ field)
    (ordered : Ordered members) (found : members.lookup field = some value)
    (done : intoMembers fields set members x = some y) :
    ∃ current, read value current = some (get y) := by
  obtain ⟨front, back, z, u, rfl, _, own, after⟩ := intoMembers_reads part member found done
  simp only [Ordered, List.map_append, List.map_cons, List.pairwise_append, List.pairwise_cons]
    at ordered
  refine ⟨get z, ?_⟩
  rw [intoMembers_untouched part (fun key inside goes => ?_) after]
  · exact own
  · exact absurd (last key (fieldOf_mem goes).2.symm) (not_le.mpr (ordered.2.1.1 key inside))

theorem intoCells_nil {cells : List α} :
    intoCells element zero items [] = some cells ↔
      List.Forall₂ (fun item cell => element item zero = some cell) items cells := by
  induction items generalizing cells with
  | nil =>
    rw [intoCells, List.forall₂_nil_left_iff, Option.some.injEq, eq_comm]
  | cons item rest ih =>
    rw [intoCells, Option.bind_eq_some_iff, List.forall₂_cons_left_iff]
    constructor
    · rintro ⟨value, first, mapped⟩
      obtain ⟨values, others, rfl⟩ := Option.map_eq_some_iff.mp mapped
      exact ⟨value, values, first, ih.mp others, rfl⟩
    · rintro ⟨value, values, first, others, rfl⟩
      exact ⟨value, first, Option.map_eq_some_iff.mpr ⟨values, ih.mpr others, rfl⟩⟩

theorem intoSlice_values {s : Slice α}
    (done : intoSlice element zero (.arr items) {} = some s) :
    List.Forall₂ (fun item cell => element item zero = some cell) items s.values := by
  cases items with
  | nil =>
    cases done
    exact List.Forall₂.nil
  | cons item rest =>
    obtain ⟨cells, read, rfl⟩ := Option.map_eq_some_iff.mp done
    have each := intoCells_nil.mp read
    rwa [Slice.values, each.length_eq, List.take_length]

end Fields

end GoJson
