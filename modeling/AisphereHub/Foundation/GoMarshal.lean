import AisphereHub.Foundation.GoJson
import Mathlib.Algebra.Ring.Int.Defs
import Mathlib.Data.String.Basic

/-! How `encoding/json` writes an untyped value, and what is read back. A map is written in
the order of its keys, so what it is read into has the same entries in the same order. -/
namespace GoJson

inductive Number (φ : Type) where
  | float (x : φ)
  | int (n : Int)
deriving DecidableEq

/-- `float64` with its conversion to `int64`, its comparison with zero and how it is written.
What is written is read back, and a converted number is its own conversion. -/
structure FloatCodec (φ : Type) extends Floats φ where
  encode : φ → Decimal
  int64 : φ → Int
  positive : φ → Bool
  ofInt : Int → φ
  read_encode : ∀ x, read (encode x) = some x
  read_int64 : ∀ x, read ⟨int64 x, 0⟩ = some (ofInt (int64 x))
  int64_ofInt : ∀ x, int64 (ofInt (int64 x)) = int64 x
  positive_ofInt : ∀ x, positive (ofInt (int64 x)) = true ↔ 0 < int64 x
  int64_range : ∀ x, -2 ^ 63 ≤ int64 x ∧ int64 x < 2 ^ 63

def FloatCodec.numbers {φ : Type} (F : FloatCodec φ) : Floats (Number φ) where
  read n := (F.read n).map .float
  print
    | .float x => F.print x
    | .int n => toString n

section Marshal

variable {φ : Type} (F : FloatCodec φ)

def marshalNumber : Number φ → Decimal
  | .float x => F.encode x
  | .int n => ⟨n, 0⟩

mutual

def marshalAny : Json (Number φ) → Json Decimal
  | .null => .null
  | .bool b => .bool b
  | .num n => .num (marshalNumber F n)
  | .str s => .str s
  | .arr items => .arr (marshalItems items)
  | .obj members => .obj (marshalMembers members)

def marshalItems : List (Json (Number φ)) → List (Json Decimal)
  | [] => []
  | item :: rest => marshalAny item :: marshalItems rest

def marshalMembers : List (String × Json (Number φ)) → List (String × Json Decimal)
  | [] => []
  | (name, value) :: rest => (name, marshalAny value) :: marshalMembers rest

end

end Marshal

section Maps

variable {α β : Type} {m n : List (String × α)} {j k : String} {v : α}

def Ordered (m : List (String × α)) : Prop := (m.map Prod.fst).Pairwise (· < ·)

theorem ordered_nil : Ordered ([] : List (String × α)) := List.Pairwise.nil

theorem ordered_cons :
    Ordered (entry :: m) ↔ (∀ j ∈ m.map Prod.fst, entry.1 < j) ∧ Ordered m := by
  rw [Ordered, List.map_cons, List.pairwise_cons, Ordered]

theorem mem_keys_assign : j ∈ (assign m k v).map Prod.fst ↔ j = k ∨ j ∈ m.map Prod.fst := by
  induction m with
  | nil => simp [assign]
  | cons entry rest ih =>
    unfold assign
    split_ifs with before same
    · simp
    · simp [same]
    · rw [List.map_cons, List.mem_cons, ih, List.map_cons, List.mem_cons]
      exact or_left_comm

theorem ordered_assign (ordered : Ordered m) (k : String) (v : α) : Ordered (assign m k v) := by
  induction m with
  | nil => exact ordered_cons.mpr ⟨by simp, ordered_nil⟩
  | cons entry rest ih =>
    obtain ⟨above, later⟩ := ordered_cons.mp ordered
    unfold assign
    split_ifs with before same
    · refine ordered_cons.mpr ⟨?_, ordered⟩
      intro j member
      rcases List.mem_cons.mp member with rfl | member
      · exact before
      · exact before.trans (above j member)
    · exact ordered_cons.mpr ⟨same ▸ above, later⟩
    · refine ordered_cons.mpr ⟨?_, ih later⟩
      intro j member
      rcases mem_keys_assign.mp member with rfl | member
      · exact lt_of_le_of_ne (not_lt.mp before) (Ne.symm same)
      · exact above j member

theorem ordered_filter (keep : String × α → Bool) (ordered : Ordered m) : Ordered (m.filter keep) :=
  List.Pairwise.sublist (List.filter_sublist.map Prod.fst) ordered

theorem assign_last (above : ∀ j ∈ m.map Prod.fst, j < k) : assign m k v = m ++ [(k, v)] := by
  induction m with
  | nil => rfl
  | cons entry rest ih =>
    obtain ⟨i, w⟩ := entry
    have below : i < k := above i (by simp)
    unfold assign
    rw [if_neg (not_lt.mpr below.le), if_neg below.ne', List.cons_append,
      ih fun j member => above j (List.mem_cons_of_mem i member)]

theorem lookup_eq_none : m.lookup k = none ↔ k ∉ m.map Prod.fst := by
  induction m with
  | nil => simp
  | cons entry rest ih =>
    rw [lookup_cons, List.map_cons, List.mem_cons, not_or, ← ih]
    split_ifs with here
    · simp [here]
    · simp [here]

theorem lookup_assignAll {entries : List (String × α)} (absent : k ∉ entries.map Prod.fst) :
    (entries.foldl (fun m entry => assign m entry.1 entry.2) m).lookup k = m.lookup k := by
  induction entries generalizing m with
  | nil => rfl
  | cons entry rest ih =>
    rw [List.map_cons, List.mem_cons, not_or] at absent
    rw [List.foldl_cons, ih absent.2, lookup_assign, if_neg absent.1]

theorem mem_of_lookup (found : m.lookup k = some v) : (k, v) ∈ m := by
  obtain ⟨front, back, rfl, _⟩ := List.lookup_eq_some_iff.mp found
  simp

theorem lookup_of_mem (ordered : Ordered m) (member : (k, v) ∈ m) : m.lookup k = some v := by
  induction m with
  | nil => cases member
  | cons entry rest ih =>
    obtain ⟨above, later⟩ := ordered_cons.mp ordered
    rw [lookup_cons]
    rcases List.mem_cons.mp member with same | member
    · cases same
      rw [if_pos rfl]
    · have before := above k (List.mem_map.mpr ⟨(k, v), member, rfl⟩)
      rw [if_neg before.ne', ih later member]

theorem ordered_ext (left : Ordered m) (right : Ordered n) (same : ∀ k, m.lookup k = n.lookup k) :
    m = n := by
  have distinct {l : List (String × α)} (ordered : Ordered l) : l.Nodup := by
    refine (List.pairwise_map.mp ordered).imp ?_
    rintro first _ before rfl
    exact lt_irrefl _ before
  have members : ∀ entry, entry ∈ m ↔ entry ∈ n := fun entry =>
    ⟨fun member => mem_of_lookup ((same _).symm.trans (lookup_of_mem left member)),
      fun member => mem_of_lookup ((same _).trans (lookup_of_mem right member))⟩
  refine ((List.perm_ext_iff_of_nodup (distinct left) (distinct right)).mpr members).eq_of_pairwise
    ?_ (List.pairwise_map.mp left) (List.pairwise_map.mp right)
  intro first second _ _ before after
  exact absurd (before.trans after) (lt_irrefl _)

theorem assign_same (ordered : Ordered m) (found : m.lookup k = some v) : assign m k v = m := by
  refine ordered_ext (ordered_assign ordered k v) ordered ?_
  intro j
  rw [lookup_assign]
  split_ifs with here
  · rw [here, found]
  · rfl

theorem lookup_filter_key (keep : String → Bool) :
    (m.filter fun entry => keep entry.1).lookup k = if keep k then m.lookup k else none := by
  induction m with
  | nil => simp
  | cons entry rest ih =>
    obtain ⟨i, w⟩ := entry
    rw [List.filter_cons, lookup_cons]
    by_cases kept : keep i = true
    · simp only [kept, if_true]
      rw [lookup_cons, ih]
      split_ifs <;> simp_all
    · simp only [kept, if_false, Bool.false_eq_true]
      rw [ih]
      split_ifs <;> simp_all

end Maps

section Numbers

variable {ν μ : Type}

mutual

/-- Maps are in order at every level and numbers meet a condition. -/
def SoundValue (P : ν → Prop) : Json ν → Prop
  | .num n => P n
  | .arr items => SoundItems P items
  | .obj members => Ordered members ∧ SoundMembers P members
  | _ => True

def SoundItems (P : ν → Prop) : List (Json ν) → Prop
  | [] => True
  | item :: rest => SoundValue P item ∧ SoundItems P rest

def SoundMembers (P : ν → Prop) : List (String × Json ν) → Prop
  | [] => True
  | (_, value) :: rest => SoundValue P value ∧ SoundMembers P rest

end

mutual

def mapNumbers (f : ν → μ) : Json ν → Json μ
  | .null => .null
  | .bool b => .bool b
  | .num n => .num (f n)
  | .str s => .str s
  | .arr items => .arr (mapItems f items)
  | .obj members => .obj (mapMembers f members)

def mapItems (f : ν → μ) : List (Json ν) → List (Json μ)
  | [] => []
  | item :: rest => mapNumbers f item :: mapItems f rest

def mapMembers (f : ν → μ) : List (String × Json ν) → List (String × Json μ)
  | [] => []
  | (name, value) :: rest => (name, mapNumbers f value) :: mapMembers f rest

end

variable {P Q : ν → Prop} {f : ν → μ}

theorem soundItems_iff : SoundItems P items ↔ ∀ item ∈ items, SoundValue P item := by
  induction items with
  | nil => simp [SoundItems]
  | cons item rest ih => rw [SoundItems, ih, List.forall_mem_cons]

variable {members : List (String × Json ν)}

theorem soundMembers_iff : SoundMembers P members ↔ ∀ entry ∈ members, SoundValue P entry.2 := by
  induction members with
  | nil => simp [SoundMembers]
  | cons entry rest ih =>
    rw [SoundMembers, ih, List.forall_mem_cons]

theorem soundMembers_assign (sound : SoundMembers P members)
    (fine : SoundValue P value) (name : String) : SoundMembers P (assign members name value) := by
  induction members with
  | nil => exact ⟨fine, trivial⟩
  | cons entry rest ih =>
    unfold assign
    split_ifs
    · exact ⟨fine, sound⟩
    · exact ⟨fine, sound.2⟩
    · exact ⟨sound.1, ih sound.2⟩

theorem soundMembers_assign_str (sound : SoundMembers P members) (name text : String)
    : SoundMembers P (assign members name (.str text)) :=
  soundMembers_assign sound (by simp [SoundValue]) name

theorem sound_of_lookup (sound : SoundMembers P members)
    (found : members.lookup name = some value) : SoundValue P value :=
  soundMembers_iff.mp sound (name, value) (mem_of_lookup found)

theorem mapItems_eq (items : List (Json ν)) : mapItems f items = items.map (mapNumbers f) := by
  induction items with
  | nil => rfl
  | cons item rest ih => rw [mapItems, ih, List.map_cons]

theorem keys_mapMembers (members : List (String × Json ν)) :
    (mapMembers f members).map Prod.fst = members.map Prod.fst := by
  induction members with
  | nil => rfl
  | cons entry rest ih =>
    rw [mapMembers, List.map_cons, List.map_cons, ih]

theorem lookup_mapMembers (members : List (String × Json ν)) (name : String) :
    (mapMembers f members).lookup name = (members.lookup name).map (mapNumbers f) := by
  induction members with
  | nil => rfl
  | cons entry rest ih =>
    rw [mapMembers, lookup_cons, lookup_cons, ih]
    split_ifs <;> rfl

mutual

theorem sound_mono (weaker : ∀ n, P n → Q n) : ∀ json : Json ν, SoundValue P json → SoundValue Q json
  | .null, _ => trivial
  | .bool _, _ => trivial
  | .num n, sound => weaker n sound
  | .str _, _ => trivial
  | .arr items, sound => soundItems_mono weaker items sound
  | .obj members, sound => ⟨sound.1, soundMembers_mono weaker members sound.2⟩

theorem soundItems_mono (weaker : ∀ n, P n → Q n) :
    ∀ items : List (Json ν), SoundItems P items → SoundItems Q items
  | [], _ => trivial
  | item :: rest, sound => ⟨sound_mono weaker item sound.1, soundItems_mono weaker rest sound.2⟩

theorem soundMembers_mono (weaker : ∀ n, P n → Q n) :
    ∀ members : List (String × Json ν), SoundMembers P members → SoundMembers Q members
  | [], _ => trivial
  | (_, value) :: rest, sound =>
    ⟨sound_mono weaker value sound.1, soundMembers_mono weaker rest sound.2⟩

end

mutual

variable {g : ν → ν}

theorem mapNumbers_id (same : ∀ n, P n → g n = n) :
    ∀ json : Json ν, SoundValue P json → mapNumbers g json = json
  | .null, _ => rfl
  | .bool _, _ => rfl
  | .num n, sound => congrArg Json.num (same n sound)
  | .str _, _ => rfl
  | .arr items, sound => congrArg Json.arr (mapItems_id same items sound)
  | .obj members, sound => congrArg Json.obj (mapMembers_id same members sound.2)

theorem mapItems_id (same : ∀ n, P n → g n = n) :
    ∀ items : List (Json ν), SoundItems P items → mapItems g items = items
  | [], _ => rfl
  | item :: rest, sound => by
      rw [mapItems, mapNumbers_id same item sound.1, mapItems_id same rest sound.2]

theorem mapMembers_id (same : ∀ n, P n → g n = n) :
    ∀ members : List (String × Json ν), SoundMembers P members → mapMembers g members = members
  | [], _ => rfl
  | (name, value) :: rest, sound => by
      rw [mapMembers, mapNumbers_id same value sound.1, mapMembers_id same rest sound.2]

end

end Numbers

section RoundTrip

variable {φ : Type} {F : FloatCodec φ}

/-- What is read is sound, and its numbers are floats. -/
def Number.isFloat : Number φ → Prop
  | .float _ => True
  | .int _ => False

/-- A number that is read back as itself, or as the float of an integer. -/
def Number.Readable (F : FloatCodec φ) : Number φ → Prop
  | .float _ => True
  | .int n => F.read ⟨n, 0⟩ = some (F.ofInt n)

def Number.reread (F : FloatCodec φ) : Number φ → Number φ
  | .float x => .float x
  | .int n => .float (F.ofInt n)

theorem reread_of_isFloat (n : Number φ) (float : n.isFloat) : n.reread F = n := by
  cases n with
  | float x => rfl
  | int k => cases float

theorem readable_of_isFloat (n : Number φ) (float : n.isFloat) : n.Readable F := by
  cases n with
  | float x => trivial
  | int k => cases float

theorem read_marshalNumber (readable : n.Readable F) :
    F.numbers.read (marshalNumber F n) = some (n.reread F) := by
  cases n with
  | float x => simp [FloatCodec.numbers, marshalNumber, F.read_encode, Number.reread]
  | int k =>
    have read : F.read ⟨k, 0⟩ = some (F.ofInt k) := readable
    simp [FloatCodec.numbers, marshalNumber, read, Number.reread]

mutual

theorem unmarshal_sound : ∀ {json} {value},
    unmarshal F.numbers json = some value → SoundValue Number.isFloat value
  | .null, _, decoded => by cases decoded; trivial
  | .bool _, _, decoded => by cases decoded; trivial
  | .num n, _, decoded => by
      obtain ⟨x, read, rfl⟩ := Option.map_eq_some_iff.mp decoded
      obtain ⟨y, _, rfl⟩ := Option.map_eq_some_iff.mp read
      trivial
  | .str _, _, decoded => by cases decoded; trivial
  | .arr items, _, decoded => by
      obtain ⟨values, read, rfl⟩ := Option.map_eq_some_iff.mp decoded
      exact unmarshalItems_sound read
  | .obj members, _, decoded => by
      obtain ⟨values, read, rfl⟩ := Option.map_eq_some_iff.mp decoded
      exact unmarshalMembers_sound ordered_nil trivial read

theorem unmarshalItems_sound : ∀ {items} {values},
    unmarshalItems F.numbers items = some values → SoundItems Number.isFloat values
  | [], _, decoded => by cases decoded; trivial
  | item :: rest, _, decoded => by
      obtain ⟨value, first, decoded⟩ := Option.bind_eq_some_iff.mp decoded
      obtain ⟨values, others, rfl⟩ := Option.map_eq_some_iff.mp decoded
      exact ⟨unmarshal_sound first, unmarshalItems_sound others⟩

theorem unmarshalMembers_sound : ∀ {members}
    {m out}, Ordered m → SoundMembers Number.isFloat m →
    unmarshalMembers F.numbers members m = some out →
    Ordered out ∧ SoundMembers Number.isFloat out
  | [], _, _, ordered, sound, decoded => by
      cases decoded
      exact ⟨ordered, sound⟩
  | (name, member) :: rest, _, _, ordered, sound, decoded => by
      obtain ⟨value, first, decoded⟩ := Option.bind_eq_some_iff.mp decoded
      exact unmarshalMembers_sound (ordered_assign ordered name value)
        (soundMembers_assign sound (unmarshal_sound first) name) decoded

end

mutual

theorem unmarshal_marshalAny : ∀ json : Json (Number φ), SoundValue (Number.Readable F) json →
    unmarshal F.numbers (marshalAny F json) = some (mapNumbers (Number.reread F) json)
  | .null, _ => rfl
  | .bool _, _ => rfl
  | .num n, sound => by
      rw [marshalAny, unmarshal, read_marshalNumber sound]
      rfl
  | .str _, _ => rfl
  | .arr items, sound => by
      rw [marshalAny, unmarshal, unmarshalItems_marshalItems items sound]
      rfl
  | .obj members, sound => by
      rw [marshalAny, unmarshal, unmarshalMembers_marshalMembers members [] sound.1 sound.2]
      rfl

theorem unmarshalItems_marshalItems : ∀ items : List (Json (Number φ)),
    SoundItems (Number.Readable F) items →
    unmarshalItems F.numbers (marshalItems F items) = some (mapItems (Number.reread F) items)
  | [], _ => rfl
  | item :: rest, sound => by
      rw [marshalItems, unmarshalItems, unmarshal_marshalAny item sound.1,
        unmarshalItems_marshalItems rest sound.2]
      rfl

/-- The members come in the order of their names, so each goes to the end of the map. -/
theorem unmarshalMembers_marshalMembers : ∀ (members m : List (String × Json (Number φ))),
    Ordered (m ++ members) → SoundMembers (Number.Readable F) members →
    unmarshalMembers F.numbers (marshalMembers F members) m =
      some (m ++ mapMembers (Number.reread F) members)
  | [], m, _, _ => by rw [marshalMembers, unmarshalMembers, mapMembers, List.append_nil]
  | (name, value) :: rest, m, ordered, sound => by
      have last : ∀ j ∈ m.map Prod.fst, j < name := by
        rw [Ordered, List.map_append, List.pairwise_append] at ordered
        exact fun j member => ordered.2.2 j member name (by simp)
      rw [marshalMembers, unmarshalMembers, unmarshal_marshalAny value sound.1, Option.bind_some,
        assign_last last, unmarshalMembers_marshalMembers rest _ _ sound.2, mapMembers,
        List.append_assoc, List.singleton_append]
      rw [Ordered] at ordered ⊢
      simpa using ordered

end

theorem marshalItems_eq (items : List (Json (Number φ))) :
    marshalItems F items = items.map (marshalAny F) := by
  induction items with
  | nil => rfl
  | cons item rest ih => rw [marshalItems, ih, List.map_cons]

theorem keys_marshalMembers (members : List (String × Json (Number φ))) :
    (marshalMembers F members).map Prod.fst = members.map Prod.fst := by
  induction members with
  | nil => rfl
  | cons entry rest ih =>
    rw [marshalMembers, List.map_cons, List.map_cons, ih]

theorem lookup_marshalMembers (members : List (String × Json (Number φ))) (name : String) :
    (marshalMembers F members).lookup name = (members.lookup name).map (marshalAny F) := by
  induction members with
  | nil => rfl
  | cons entry rest ih =>
    rw [marshalMembers, lookup_cons, lookup_cons, ih]
    split_ifs <;> rfl

theorem ordered_marshalMembers :
    Ordered (marshalMembers F members) ↔ Ordered members := by
  rw [Ordered, keys_marshalMembers, Ordered]

end RoundTrip

end GoJson
