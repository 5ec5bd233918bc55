import Mathlib.Data.List.DropRight
import Mathlib.Data.List.Infix

/-! The part of Go's `strings` package the modelled code calls. -/
namespace GoStrings

variable {part : String} {chars : List Char}

def isSpace (c : Char) : Bool :=
  let n := c.toNat
  (9 ≤ n && n ≤ 13) || n == 0x20 || n == 0x85 || n == 0xA0 || n == 0x1680 ||
    (0x2000 ≤ n && n ≤ 0x200A) || n == 0x2028 || n == 0x2029 || n == 0x202F ||
    n == 0x205F || n == 0x3000

def trimSpace (s : String) : String :=
  String.ofList ((s.toList.dropWhile isSpace).reverse.dropWhile isSpace).reverse

def hasPrefix (s start : String) : Bool :=
  start.toList.isPrefixOf s.toList

def hasSuffix (s tail : String) : Bool :=
  tail.toList.isSuffixOf s.toList

def contains (s sub : String) : Bool :=
  decide (sub.toList <:+: s.toList)

def trimPrefix (s start : String) : String :=
  if hasPrefix s start then String.ofList (s.toList.drop start.toList.length) else s

def trimSuffix (s tail : String) : String :=
  if hasSuffix s tail then String.ofList (s.toList.take (s.toList.length - tail.toList.length)) else s

def trim (s : String) (cut : Char) : String :=
  String.ofList ((s.toList.dropWhile (· == cut)).rdropWhile (· == cut))

def trimLeft (s : String) (cut : Char) : String :=
  String.ofList (s.toList.dropWhile (· == cut))

def trimRight (s : String) (cut : Char) : String :=
  String.ofList (s.toList.rdropWhile (· == cut))

def replaceChar (s : String) (old new : Char) : String :=
  String.ofList (s.toList.map fun c => if c = old then new else c)

def split (s : String) (sep : Char) : List String :=
  (s.toList.splitOn sep).map String.ofList

def join (parts : List String) (sep : Char) : String :=
  String.ofList ([sep].intercalate (parts.map String.toList))

def fields (s : String) : List String :=
  ((s.toList.splitOnP isSpace).filter (· ≠ [])).map String.ofList

/-- `strings.ToLower`, as far as it gives ASCII letters: besides the capital ones that
is the dotted capital I and the Kelvin sign. -/
def toLower (s : String) : String :=
  String.ofList (s.toList.map fun c =>
    if c = '\u0130' then 'i' else if c = '\u212a' then 'k' else c.toLower)

variable {s t : String} {c : Char}

theorem hasPrefix_iff : hasPrefix s t = true ↔ ∃ rest, s = t ++ rest := by
  simp only [hasPrefix, List.isPrefixOf_iff_prefix]
  constructor
  · rintro ⟨rest, shape⟩
    refine ⟨String.ofList rest, ?_⟩
    rw [← String.toList_inj, String.toList_append, String.toList_ofList, shape]
  · rintro ⟨rest, rfl⟩
    exact ⟨rest.toList, by rw [String.toList_append]⟩

theorem contains_iff : contains s t = true ↔ ∃ before after, s = before ++ t ++ after := by
  simp only [contains, decide_eq_true_eq]
  constructor
  · rintro ⟨before, after, shape⟩
    refine ⟨String.ofList before, String.ofList after, ?_⟩
    rw [← String.toList_inj]
    simpa using shape.symm
  · rintro ⟨before, after, rfl⟩
    exact ⟨before.toList, after.toList, by simp⟩

theorem trimPrefix_append (start rest : String) : trimPrefix (start ++ rest) start = rest := by
  have starts : hasPrefix (start ++ rest) start = true := hasPrefix_iff.mpr ⟨rest, rfl⟩
  simp only [trimPrefix, starts, if_true, String.toList_append, List.drop_left,
    String.ofList_toList]

theorem split_ne_nil (s : String) (c : Char) : split s c ≠ [] := by
  simp [split, List.splitOn_ne_nil]

theorem join_split (s : String) (c : Char) : join (split s c) c = s := by
  simp [join, split, Function.comp_def, List.intercalate_splitOn]

theorem split_join (some : parts ≠ [])
    (free : ∀ part ∈ parts, c ∉ part.toList) : split (join parts c) c = parts := by
  have chars : ∀ l ∈ parts.map String.toList, c ∉ l := by simpa using free
  simp only [split, join, String.toList_ofList]
  rw [List.splitOn_intercalate c chars (by simpa using some)]
  simp [Function.comp_def]

theorem join_singleton (part : String) (c : Char) : join [part] c = part := by
  simp [join]

theorem join_cons (first second : String) (rest : List String) (c : Char) :
    join (first :: second :: rest) c = first ++ String.ofList [c] ++ join (second :: rest) c := by
  rw [← String.toList_inj]
  simp [join, List.intercalate_cons_cons]

theorem join_append (some : first ≠ []) (more : second ≠ [])
    (c : Char) : join (first ++ second) c = join first c ++ String.ofList [c] ++ join second c := by
  induction first with
  | nil => exact absurd rfl some
  | cons part first ih =>
    cases first with
    | nil =>
      cases second with
      | nil => exact absurd rfl more
      | cons next second => rw [List.singleton_append, join_cons, join_singleton]
    | cons next first =>
      rw [List.cons_append, List.cons_append, join_cons, ← List.cons_append, ih (by simp),
        join_cons]
      simp only [String.append_assoc]

theorem not_mem_of_mem_split (member : part ∈ split s c) : c ∉ part.toList := by
  simp only [split, List.mem_map] at member
  obtain ⟨chars, member, rfl⟩ := member
  rw [String.toList_ofList]
  generalize s.toList = text at member
  induction text generalizing chars with
  | nil =>
    simp only [List.splitOn_nil, List.mem_singleton] at member
    simp [member]
  | cons head text ih =>
    rw [List.splitOn_cons_eq_if_modifyHead] at member
    split_ifs at member with sep
    · rcases List.mem_cons.mp member with rfl | member
      · simp
      · exact ih chars member
    · cases parts : text.splitOn c with
      | nil => exact absurd parts (List.splitOn_ne_nil c text)
      | cons first rest =>
        rw [parts, List.modifyHead_cons] at member
        rcases List.mem_cons.mp member with rfl | member
        · have before := ih first (by simp [parts])
          simp only [beq_iff_eq] at sep
          simp [before, Ne.symm sep]
        · exact ih chars (by simp [parts, member])

theorem infix_join (member : part ∈ parts) (c : Char) :
    part.toList <:+: (join parts c).toList := by
  induction parts with
  | nil => cases member
  | cons first parts ih =>
    cases parts with
    | nil =>
      obtain rfl := List.mem_singleton.mp member
      rw [join_singleton]
    | cons next parts =>
      rw [join_cons, String.toList_append]
      rcases List.mem_cons.mp member with rfl | member
      · rw [String.toList_append, List.append_assoc]
        exact (List.prefix_append _ _).isInfix
      · exact (ih member).trans (List.suffix_append _ _).isInfix

theorem contains_of_mem_split (member : part ∈ split s c) : contains s part = true := by
  have found := infix_join member c
  rw [join_split] at found
  exact decide_eq_true found

theorem split_of_not_mem (free : c ∉ s.toList) : split s c = [s] := by
  simp [split, List.splitOn_eq_singleton free]

theorem split_append (first rest : String) (c : Char) :
    split (first ++ String.ofList [c] ++ rest) c = split first c ++ split rest c := by
  simp [split, List.splitOn_append_cons_self]

theorem split_injective (same : split s c = split other c) : s = other := by
  rw [← join_split s c, same, join_split]

/-- The parts of one string lead those of another when the string does, up to a
separator. -/
theorem split_prefix_iff : split s c <+: split t c ↔
    t = s ∨ hasPrefix t (s ++ String.ofList [c]) = true := by
  rw [hasPrefix_iff]
  constructor
  · rintro ⟨rest, parts⟩
    cases rest with
    | nil => exact .inl (split_injective (by simpa using parts.symm))
    | cons next rest =>
      refine .inr ⟨join (next :: rest) c, ?_⟩
      rw [← join_split t c, ← parts, join_append (split_ne_nil s c) (by simp), join_split]
  · rintro (rfl | ⟨rest, rfl⟩)
    · exact List.prefix_refl _
    · rw [split_append]
      exact List.prefix_append _ _

theorem hasSuffix_iff : hasSuffix s t = true ↔ ∃ start, s = start ++ t := by
  simp only [hasSuffix, List.isSuffixOf_iff_suffix]
  constructor
  · rintro ⟨start, shape⟩
    refine ⟨String.ofList start, ?_⟩
    rw [← String.toList_inj, String.toList_append, String.toList_ofList, shape]
  · rintro ⟨start, rfl⟩
    exact ⟨start.toList, by rw [String.toList_append]⟩

theorem trimSuffix_append (start tail : String) : trimSuffix (start ++ tail) tail = start := by
  have ends : hasSuffix (start ++ tail) tail = true := hasSuffix_iff.mpr ⟨start, rfl⟩
  simp only [trimSuffix, ends, if_true, String.toList_append, List.length_append,
    Nat.add_sub_cancel_right, List.take_left, String.ofList_toList]

theorem contains_char : contains s (String.ofList [c]) = true ↔ c ∈ s.toList := by
  simp only [contains, String.toList_ofList, decide_eq_true_eq, List.singleton_infix_iff]

theorem trimSpace_sublist (s : String) : (trimSpace s).toList.Sublist s.toList := by
  rw [trimSpace, String.toList_ofList]
  have back := (List.dropWhile_sublist isSpace (l := (s.toList.dropWhile isSpace).reverse)).reverse
  rw [List.reverse_reverse] at back
  exact back.trans (List.dropWhile_sublist isSpace)

theorem trimSpace_eq_self_of_length (long : (trimSpace s).length = s.length) : trimSpace s = s :=
  String.toList_inj.mp ((trimSpace_sublist s).eq_of_length (by simpa [String.length_toList] using long))

theorem replaceChar_of_not_mem (new : Char) (free : c ∉ s.toList) : replaceChar s c new = s := by
  have kept : s.toList.map (fun d => if d = c then new else d) = s.toList := by
    refine (List.map_congr_left fun d member => ?_).trans (List.map_id _)
    have other : d ≠ c := by
      rintro rfl
      exact free member
    simp [other]
  rw [replaceChar, kept, String.ofList_toList]

theorem length_replaceChar (s : String) (old new : Char) :
    (replaceChar s old new).length = s.length := by
  rw [replaceChar, String.length_ofList, List.length_map, String.length_toList]

theorem not_mem_replaceChar (other : new ≠ c) : c ∉ (replaceChar s c new).toList := by
  simp only [replaceChar, String.toList_ofList, List.mem_map, not_exists, not_and]
  intro d _
  split_ifs with same
  · exact other
  · exact same

theorem join_sublist (sub : kept.Sublist parts) (c : Char) :
    (join kept c).toList.Sublist (join parts c).toList := by
  induction sub with
  | slnil => exact List.Sublist.refl _
  | @cons kept parts part sub ih =>
    cases parts with
    | nil =>
      obtain rfl := List.sublist_nil.mp sub
      exact List.nil_sublist _
    | cons next parts =>
      rw [join_cons, String.toList_append]
      exact ih.trans (List.sublist_append_right _ _)
  | @cons_cons kept parts part sub ih =>
    cases parts with
    | nil =>
      obtain rfl := List.sublist_nil.mp sub
      exact List.Sublist.refl _
    | cons next parts =>
      rw [join_cons, String.toList_append, String.toList_append]
      cases kept with
      | nil =>
        rw [join_singleton, List.append_assoc]
        exact List.sublist_append_left _ _
      | cons first kept =>
        rw [join_cons, String.toList_append, String.toList_append]
        exact (List.Sublist.refl _).append ih

theorem utf8ByteSize_cons (c : Char) (chars : List Char) :
    (String.ofList (c :: chars)).utf8ByteSize =
      c.utf8Size + (String.ofList chars).utf8ByteSize := by
  simp

theorem utf8ByteSize_le_of_sublist (sub : s.toList.Sublist t.toList) :
    s.utf8ByteSize ≤ t.utf8ByteSize := by
  rw [← String.ofList_toList (s := s), ← String.ofList_toList (s := t)]
  generalize s.toList = front, t.toList = back at sub ⊢
  induction sub with
  | slnil => exact Nat.le_refl _
  | cons c _ ih =>
    rw [utf8ByteSize_cons]
    omega
  | cons_cons c _ ih =>
    rw [utf8ByteSize_cons, utf8ByteSize_cons]
    omega

theorem utf8ByteSize_replaceChar (same : new.utf8Size = c.utf8Size) :
    (replaceChar s c new).utf8ByteSize = s.utf8ByteSize := by
  rw [replaceChar]
  nth_rewrite 2 [← String.ofList_toList (s := s)]
  induction s.toList with
  | nil => rfl
  | cons d chars ih =>
    rw [List.map_cons, utf8ByteSize_cons, utf8ByteSize_cons, ih]
    split_ifs with here
    · rw [here, same]
    · rfl

def Trimmed (chars : List Char) : Prop :=
  (∀ c ∈ chars.head?, isSpace c = false) ∧ ∀ c ∈ chars.getLast?, isSpace c = false

theorem dropWhile_of_head (head : ∀ c ∈ chars.head?, isSpace c = false) :
    chars.dropWhile isSpace = chars := by
  cases chars with
  | nil => rfl
  | cons c chars => simp [head c rfl]

theorem head_dropWhile (chars : List Char) :
    ∀ c ∈ (chars.dropWhile isSpace).head?, isSpace c = false := by
  intro c first
  have stopped := List.head?_dropWhile_not isSpace chars
  rw [Option.mem_def.mp first] at stopped
  simpa using stopped

theorem trimmed_trimSpace (s : String) : Trimmed (trimSpace s).toList := by
  rw [trimSpace, String.toList_ofList]
  constructor
  · intro c first
    rw [List.head?_reverse] at first
    refine head_dropWhile s.toList c ?_
    have suffix := List.dropWhile_suffix isSpace (l := (s.toList.dropWhile isSpace).reverse)
    obtain ⟨before, shape⟩ := suffix
    have last : (s.toList.dropWhile isSpace).reverse.getLast? = some c := by
      rw [← shape, List.getLast?_append, Option.mem_def.mp first]
      rfl
    rwa [List.getLast?_reverse] at last
  · rw [List.getLast?_reverse]
    exact head_dropWhile _

theorem trimSpace_of_trimmed (trimmed : Trimmed s.toList) : trimSpace s = s := by
  obtain ⟨first, last⟩ := trimmed
  have back : s.toList.reverse.dropWhile isSpace = s.toList.reverse :=
    dropWhile_of_head (by rwa [List.head?_reverse])
  rw [trimSpace, dropWhile_of_head first, back, List.reverse_reverse, String.ofList_toList]

theorem trimSpace_of_solid (solid : ∀ c ∈ s.toList, isSpace c = false) : trimSpace s = s :=
  trimSpace_of_trimmed ⟨fun c first => solid c (List.mem_of_mem_head? first),
    fun c last => solid c (List.mem_of_mem_getLast? last)⟩

theorem trimSpace_trimSpace (s : String) : trimSpace (trimSpace s) = trimSpace s :=
  trimSpace_of_trimmed (trimmed_trimSpace s)

theorem trimSpace_append (solid : Trimmed start.toList) (some : start ≠ "")
    (trimmed : trimSpace s = s) : trimSpace (start ++ s) = start ++ s := by
  have ends := trimmed_trimSpace s
  rw [trimmed] at ends
  have nonempty : start.toList ≠ [] := by
    intro none
    exact some (String.toList_inj.mp none)
  refine trimSpace_of_trimmed ⟨?_, ?_⟩
  · rw [String.toList_append, List.head?_append_of_ne_nil _ nonempty]
    exact solid.1
  · intro c last
    cases found : s.toList.getLast? with
    | none => exact solid.2 c (by simpa [found] using last)
    | some d => exact ends.2 c (by simpa [found] using last)

theorem dropWhile_front {inner : List Char} (head : ∀ c ∈ inner.head?, isSpace c = false) :
    (front ++ inner).dropWhile isSpace = front.dropWhile isSpace ++ inner := by
  rw [List.dropWhile_append]
  split_ifs with empty
  · rw [dropWhile_of_head head, List.isEmpty_iff.mp empty, List.nil_append]
  · rfl

/-- Trimming a text with a solid core takes white space off around the core. -/
theorem trimSpace_framed {inner : List Char} (solid : Trimmed inner)
    (some : inner ≠ []) (blank : ∀ c ∈ back, isSpace c = true) :
    trimSpace (String.ofList (front ++ inner ++ back)) =
      String.ofList (front.dropWhile isSpace ++ inner) := by
  have first : ∀ c ∈ (inner ++ back).head?, isSpace c = false := by
    rw [List.head?_append_of_ne_nil _ some]
    exact solid.1
  have last : ∀ c ∈ (inner.reverse ++ (front.dropWhile isSpace).reverse).head?,
      isSpace c = false := by
    rw [List.head?_append_of_ne_nil _ (by simpa using some), List.head?_reverse]
    exact solid.2
  have gone : back.reverse.dropWhile isSpace = [] := by
    rw [List.dropWhile_eq_nil_iff]
    intro c member
    exact blank c (by simpa using member)
  rw [trimSpace, String.toList_ofList, List.append_assoc, dropWhile_front first]
  simp only [List.reverse_append, List.append_assoc]
  rw [dropWhile_front last, gone]
  simp

def Blank (chars : List Char) : Prop := ∀ c ∈ chars, isSpace c = true

theorem Blank.append (left : Blank front) (right : Blank back) :
    Blank (front ++ back) := by
  intro c member
  rcases List.mem_append.mp member with member | member
  · exact left c member
  · exact right c member

theorem dropWhile_of_blank (blank : Blank chars) : chars.dropWhile isSpace = [] :=
  List.dropWhile_eq_nil_iff.mpr blank

theorem trimSpace_of_blank (blank : Blank s.toList) : trimSpace s = "" := by
  rw [trimSpace, dropWhile_of_blank blank]
  rfl

theorem trimSpace_decomposes (s : String) : ∃ front back,
    s.toList = front ++ (trimSpace s).toList ++ back ∧ Blank front ∧ Blank back := by
  refine ⟨s.toList.takeWhile isSpace,
    ((s.toList.dropWhile isSpace).reverse.takeWhile isSpace).reverse, ?_,
    fun c => List.mem_takeWhile_imp, fun c member => ?_⟩
  · rw [trimSpace, String.toList_ofList, List.append_assoc, ← List.reverse_append,
      List.takeWhile_append_dropWhile, List.reverse_reverse, List.takeWhile_append_dropWhile]
  · exact List.mem_takeWhile_imp (List.mem_reverse.mp member)

theorem trimSpace_head (start : s.toList = c :: chars) (solid : isSpace c = false)
    : ∃ front back, (trimSpace s).toList = c :: front ∧ chars = front ++ back ∧ Blank back := by
  obtain ⟨before, after, shape, left, right⟩ := trimSpace_decomposes s
  rw [start] at shape
  have blankSolid : ∀ d ∈ before ++ after, d ≠ c := by
    rintro d member rfl
    have space := left.append right d member
    rw [solid] at space
    cases space
  cases before with
  | cons d before =>
    rw [List.cons_append, List.cons_append, List.cons.injEq] at shape
    exact absurd shape.1.symm (blankSolid d (by simp))
  | nil =>
    rw [List.nil_append] at shape
    cases core : (trimSpace s).toList with
    | nil =>
      rw [core, List.nil_append] at shape
      exact absurd rfl (blankSolid c (by simp [← shape]))
    | cons d front =>
      rw [core, List.cons_append, List.cons.injEq] at shape
      exact ⟨front, after, by rw [shape.1], shape.2, right⟩

theorem trimSpace_surrounded (left : Blank front) (right : Blank back)
    (s : String) : trimSpace (String.ofList (front ++ s.toList ++ back)) = trimSpace s := by
  obtain ⟨first, last, shape, blankFirst, blankLast⟩ := trimSpace_decomposes s
  generalize core : trimSpace s = inner at shape
  by_cases empty : inner.toList = []
  · have none : inner = "" := String.toList_inj.mp empty
    rw [none, trimSpace_of_blank]
    rw [String.toList_ofList, shape, empty]
    exact (left.append (by simpa using blankFirst.append blankLast)).append right
  · have whole : front ++ s.toList ++ back = (front ++ first) ++ inner.toList ++ (last ++ back) := by
      simp [shape]
    rw [whole, trimSpace_framed (core ▸ trimmed_trimSpace s) empty (blankLast.append right),
      dropWhile_of_blank (left.append blankFirst), List.nil_append, String.ofList_toList]

/-- Where two texts meet, the last part of one and the first of the other become one. -/
theorem split_append_seam
    (left : split s c = init ++ [last]) (right : split t c = first :: rest) :
    split (s ++ t) c = init ++ (last ++ first) :: rest := by
  have seam : ∀ init, join (init ++ (last ++ first) :: rest) c =
      join (init ++ [last]) c ++ join (first :: rest) c := by
    have meet : join ((last ++ first) :: rest) c = last ++ join (first :: rest) c := by
      cases rest with
      | nil => simp only [join_singleton]
      | cons next rest => simp only [join_cons, String.append_assoc]
    intro init
    cases init with
    | nil => rw [List.nil_append, List.nil_append, join_singleton, meet]
    | cons part init =>
      rw [join_append (by simp) (by simp), join_append (by simp) (by simp), meet, join_singleton]
      simp only [String.append_assoc]
  have whole := seam init
  rw [← left, ← right, join_split, join_split] at whole
  rw [← whole, split_join (by simp)]
  intro part member
  have partLeft : ∀ part ∈ init ++ [last], c ∉ part.toList :=
    fun part member => not_mem_of_mem_split (left ▸ member)
  have partRight : ∀ part ∈ first :: rest, c ∉ part.toList :=
    fun part member => not_mem_of_mem_split (right ▸ member)
  rcases List.mem_append.mp member with early | late
  · exact partLeft part (by simp [early])
  · rcases List.mem_cons.mp late with rfl | late
    · rw [String.toList_append, List.mem_append, not_or]
      exact ⟨partLeft last (by simp), partRight first (by simp)⟩
    · exact partRight part (by simp [late])

theorem length_split (s : String) (c : Char) : (split s c).length = s.toList.count c + 1 := by
  rw [split, List.length_map]
  induction s.toList with
  | nil => rfl
  | cons head chars ih =>
    rw [List.splitOn_cons_eq_if_modifyHead, List.count_cons]
    split_ifs
    · rw [List.length_cons, ih]
    · rw [List.length_modifyHead, ih]

theorem count_trimSpace (solid : isSpace c = false) :
    (trimSpace s).toList.count c = s.toList.count c := by
  obtain ⟨front, back, shape, left, right⟩ := trimSpace_decomposes s
  have none {chars : List Char} (blank : Blank chars) : chars.count c = 0 := by
    refine List.count_eq_zero_of_not_mem fun member => ?_
    rw [blank c member] at solid
    cases solid
  rw [shape, List.count_append, List.count_append, none left, none right]
  omega

theorem mem_trimSpace (solid : isSpace c = false) : c ∈ (trimSpace s).toList ↔ c ∈ s.toList := by
  rw [← List.count_pos_iff, count_trimSpace solid, List.count_pos_iff]

section Records

variable {α : Type} {read : String → Option α} {sep mark : Char} {n : Nat} {first rest : List Char}

theorem count_le_of_mem_split (member : record ∈ split s sep) (mark : Char) :
    record.toList.count mark ≤ s.toList.count mark := by
  have found := contains_of_mem_split member
  rw [contains, decide_eq_true_eq] at found
  exact found.sublist.count_le mark

theorem filterMap_split_eq_nil (reads : ∀ record, (read record).isSome = true ↔
    record.toList.count mark = n) (few : s.toList.count mark < n) :
    (split s sep).filterMap read = [] := by
  rw [List.filterMap_eq_nil_iff]
  intro record member
  have less := count_le_of_mem_split member mark
  rw [← Option.not_isSome_iff_eq_none, reads]
  omega

/-- A separator between the marks leaves no record with all of them. -/
theorem no_record_read (reads : ∀ record, (read record).isSome = true ↔
    record.toList.count mark = n) (few : first.count mark < n) (fewer : rest.count mark < n) :
    (split (String.ofList (first ++ sep :: rest)) sep).filterMap read = [] := by
  rw [split, String.toList_ofList, List.splitOn_append_cons_self, List.map_append,
    List.filterMap_append, List.append_eq_nil_iff]
  have front : (split (String.ofList first) sep).filterMap read = [] :=
    filterMap_split_eq_nil reads (by rwa [String.toList_ofList])
  have back : (split (String.ofList rest) sep).filterMap read = [] :=
    filterMap_split_eq_nil reads (by rwa [String.toList_ofList])
  exact ⟨by simpa [split] using front, by simpa [split] using back⟩

/-- All marks before the first separator make one record. -/
theorem one_record_read (reads : ∀ record, (read record).isSome = true ↔
    record.toList.count mark = n) (free : sep ∉ first) (all : first.count mark = n)
    (more : rest.count mark < n) :
    ∃ x, (split (String.ofList (first ++ sep :: rest)) sep).filterMap read = [x] := by
  obtain ⟨x, found⟩ := Option.isSome_iff_exists.mp
    ((reads (String.ofList first)).mpr (by rwa [String.toList_ofList]))
  have back : (split (String.ofList rest) sep).filterMap read = [] :=
    filterMap_split_eq_nil reads (by rwa [String.toList_ofList])
  rw [split, String.toList_ofList] at back
  rw [split, String.toList_ofList, List.splitOn_append_cons_self, List.splitOn_eq_singleton free,
    List.map_append, List.filterMap_append, back]
  simp [found]

end Records

def lowerRune (c : Char) : Char :=
  if c = '\u0130' then 'i' else if c = '\u212a' then 'k' else c.toLower

theorem toLower_cases (c : Char) : c.toLower = c ∨
    (65 ≤ c.toNat ∧ c.toNat ≤ 90) ∧ c.toLower.toNat = c.toNat + 32 := by
  unfold Char.toLower
  split_ifs with capital
  · have low : 65 ≤ c.val.toNat := capital.1
    have high : c.val.toNat ≤ 90 := capital.2
    refine .inr ⟨⟨low, high⟩, ?_⟩
    show (c.val + 32).toNat = c.val.toNat + 32
    have step : (32 : UInt32).toNat = 32 := rfl
    rw [UInt32.toNat_add]
    omega
  · exact .inl rfl

/-- A letter is lowered once, and white space never is. -/
theorem lowerRune_spec (c : Char) :
    lowerRune (lowerRune c) = lowerRune c ∧ isSpace (lowerRune c) = isSpace c := by
  by_cases dotted : c = '\u0130'
  · subst dotted
    decide
  by_cases kelvin : c = '\u212a'
  · subst kelvin
    decide
  have plain : lowerRune c = c.toLower := by rw [lowerRune, if_neg dotted, if_neg kelvin]
  rcases toLower_cases c with same | ⟨capital, lowered⟩
  · rw [plain, same]
    exact ⟨plain.trans same, rfl⟩
  have ascii : c.toLower.toNat < 128 := by omega
  have plainAgain : lowerRune c.toLower = c.toLower.toLower := by
    rw [lowerRune, if_neg, if_neg]
    · intro sign
      rw [sign] at ascii
      exact absurd ascii (by decide)
    · intro sign
      rw [sign] at ascii
      exact absurd ascii (by decide)
  rcases toLower_cases c.toLower with same | ⟨again, _⟩
  · rw [plain, plainAgain, same]
    simp only [isSpace, lowered]
    rw [Bool.eq_iff_iff]
    simp
    omega
  · omega

theorem toLower_toLower (s : String) : toLower (toLower s) = toLower s := by
  change String.ofList ((String.ofList (s.toList.map lowerRune)).toList.map lowerRune) = _
  rw [String.toList_ofList, List.map_map]
  exact congrArg String.ofList (List.map_congr_left fun c _ => (lowerRune_spec c).1)

theorem trimSpace_toLower (trimmed : Trimmed s.toList) : trimSpace (toLower s) = toLower s := by
  apply trimSpace_of_trimmed
  change Trimmed (String.ofList (s.toList.map lowerRune)).toList
  rw [String.toList_ofList]
  constructor
  · intro c first
    rw [List.head?_map] at first
    obtain ⟨d, head, rfl⟩ := Option.map_eq_some_iff.mp first
    rw [(lowerRune_spec d).2, trimmed.1 d head]
  · intro c last
    rw [List.getLast?_map] at last
    obtain ⟨d, tail, rfl⟩ := Option.map_eq_some_iff.mp last
    rw [(lowerRune_spec d).2, trimmed.2 d tail]

theorem toLower_trimSpace_again (text : String) :
    toLower (trimSpace (toLower (trimSpace text))) = toLower (trimSpace text) := by
  rw [trimSpace_toLower (trimmed_trimSpace text), toLower_toLower]

/-- The other ways to read a text of two parts: a part of it between two separators changes
sides. -/
theorem separated_iff : a ++ c :: b = a' ++ c :: b' ↔
    a = a' ∧ b = b' ∨ (∃ m, a' = a ++ c :: m ∧ b = m ++ c :: b') ∨
      ∃ m, a = a' ++ c :: m ∧ b' = m ++ c :: b := by
  constructor
  · intro same
    obtain ⟨middle, rfl, rest⟩ | ⟨middle, rfl, rest⟩ := List.append_eq_append_iff.mp same
    · cases middle with
      | nil => exact .inl ⟨by simp, by simpa using rest⟩
      | cons d middle =>
        obtain ⟨rfl, rfl⟩ := List.cons.inj rest
        exact .inr (.inl ⟨middle, rfl, rfl⟩)
    · cases middle with
      | nil => exact .inl ⟨by simp, by simpa using rest.symm⟩
      | cons d middle =>
        obtain ⟨rfl, rfl⟩ := List.cons.inj rest
        exact .inr (.inr ⟨middle, rfl, rfl⟩)
  · rintro (⟨rfl, rfl⟩ | ⟨m, rfl, rfl⟩ | ⟨m, rfl, rfl⟩) <;> simp

end GoStrings
