import AisphereHub.Foundation.GoStrings

/-! `path.Clean` on slash-separated names. The components are pushed on a stack:
empty and `.` components are dropped and `..` cancels the component below it. A
name whose components are all plain is left as it is. -/
namespace GoPath

open GoStrings

variable {stack : List String} {parts : List String} {p : String}

/-- The stack holds the components read so far, the last one on top. -/
def cleanStep (rooted : Bool) (stack : List String) (part : String) : List String :=
  if part = "" ∨ part = "." then stack
  else if part = ".." then
    match stack with
    | [] => if rooted then [] else [".."]
    | top :: rest => if top = ".." then ".." :: stack else rest
  else part :: stack

def clean (p : String) : String :=
  let rooted := hasPrefix p "/"
  let body := join ((split p '/').foldl (cleanStep rooted) []).reverse '/'
  if rooted then "/" ++ body else if body = "" then "." else body

/-- A component that names an entry of a directory. -/
def Plain (part : String) : Prop :=
  part ≠ "" ∧ part ≠ "." ∧ part ≠ ".." ∧ '/' ∉ part.toList

/-- Plain components over the `..` components that lead out of the directory. -/
structure Stacked (stack : List String) : Prop where
  shape : ∃ inner outer, stack = inner ++ outer ∧ (∀ part ∈ inner, Plain part) ∧
    ∀ part ∈ outer, part = ".."

theorem cleanStep_plain (plain : Plain part)
    : cleanStep rooted stack part = part :: stack := by
  obtain ⟨nonempty, notDot, notUp, _⟩ := plain
  simp [cleanStep, nonempty, notDot, notUp]

theorem foldl_plain (plain : ∀ part ∈ parts, Plain part) (stack : List String)
    : parts.foldl (cleanStep rooted) stack = parts.reverse ++ stack := by
  induction parts generalizing stack with
  | nil => rfl
  | cons part parts ih =>
    rw [List.foldl_cons, cleanStep_plain (plain part (by simp)),
      ih (fun other member => plain other (by simp [member]))]
    simp

theorem Stacked.step (holds : Stacked stack) (free : '/' ∉ part.toList)
    : Stacked (cleanStep false stack part) := by
  obtain ⟨inner, outer, rfl, plain, ups⟩ := holds.shape
  by_cases skip : part = "" ∨ part = "."
  · unfold cleanStep
    rwa [if_pos skip]
  by_cases up : part = ".."
  · unfold cleanStep
    rw [if_neg skip, if_pos up]
    cases inner with
    | nil =>
      cases outer with
      | nil => exact ⟨[], [".."], rfl, by simp, by simp⟩
      | cons top rest =>
        have same : top = ".." := ups top (by simp)
        subst same
        refine ⟨[], ".." :: ".." :: rest, rfl, by simp, ?_⟩
        intro part member
        rcases List.mem_cons.mp member with rfl | member
        · rfl
        · exact ups part member
    | cons top rest =>
      have notUp : top ≠ ".." := (plain top (by simp)).2.2.1
      simp only [List.cons_append, notUp, if_false]
      exact ⟨rest, outer, rfl, fun part member => plain part (by simp [member]), ups⟩
  · unfold cleanStep
    rw [if_neg skip, if_neg up]
    refine ⟨part :: inner, outer, rfl, ?_, ups⟩
    intro other member
    rcases List.mem_cons.mp member with rfl | member
    · exact ⟨fun empty => skip (.inl empty), fun dot => skip (.inr dot), up, free⟩
    · exact plain other member

theorem Stacked.run (free : ∀ part ∈ parts, '/' ∉ part.toList) (holds : Stacked stack) :
    Stacked (parts.foldl (cleanStep false) stack) := by
  induction parts generalizing stack with
  | nil => exact holds
  | cons part parts ih =>
    exact ih (fun other member => free other (by simp [member]))
      (holds.step (free part (by simp)))

theorem hasPrefix_slash (rooted : hasPrefix p "/" = true) : ∃ rest, split p '/' = "" :: rest := by
  obtain ⟨rest, rfl⟩ := hasPrefix_iff.mp rooted
  refine ⟨split rest '/', ?_⟩
  have parts := split_append "" rest '/'
  simpa [split_of_not_mem] using parts

/-- A relative name of plain components is clean. -/
theorem clean_join (some : parts ≠ []) (plain : ∀ part ∈ parts, Plain part)
    : clean (join parts '/') = join parts '/' := by
  have back : split (join parts '/') '/' = parts :=
    split_join some fun part member => (plain part member).2.2.2
  have relative : hasPrefix (join parts '/') "/" = false := by
    by_contra rooted
    obtain ⟨rest, shape⟩ := hasPrefix_slash (by simpa using rooted)
    rw [back] at shape
    exact (plain "" (by simp [shape])).1 rfl
  have nonempty : join parts '/' ≠ "" := by
    intro empty
    have shape : parts = [""] := by
      rw [← back, empty]
      rfl
    exact (plain "" (by simp [shape])).1 rfl
  simp only [clean, relative, back, foldl_plain plain, List.append_nil, List.reverse_reverse,
    nonempty, if_false, Bool.false_eq_true]

/-- Cleaning a relative name gives `.`, or plain components that may stand under
leading `..` components. -/
theorem clean_relative (relative : hasPrefix p "/" = false) :
    clean p = "." ∨ clean p = ".." ∨ hasPrefix (clean p) "../" = true ∨
      ∃ parts, parts ≠ [] ∧ clean p = join parts '/' ∧ ∀ part ∈ parts, Plain part := by
  have stacked : Stacked ((split p '/').foldl (cleanStep false) []) :=
    Stacked.run (fun _ member => not_mem_of_mem_split member) ⟨[], [], rfl, by simp, by simp⟩
  obtain ⟨inner, outer, shape, plain, ups⟩ := stacked.shape
  have body : clean p = if join (outer.reverse ++ inner.reverse) '/' = "" then "."
      else join (outer.reverse ++ inner.reverse) '/' := by
    simp only [clean, relative, shape, List.reverse_append, if_false, Bool.false_eq_true]
  rw [body]
  split_ifs with empty
  · exact .inl rfl
  · refine .inr ?_
    cases tops : outer.reverse with
    | nil =>
      refine .inr (.inr ⟨inner.reverse, ?_, by simp, by simpa using plain⟩)
      intro none
      rw [tops, none] at empty
      exact empty rfl
    | cons top more =>
      have same : top = ".." := ups top (by simpa using (by simp [tops] : top ∈ outer.reverse))
      subst same
      cases rest : more ++ inner.reverse with
      | nil => exact .inl (by rw [List.cons_append, rest, join_singleton])
      | cons next others =>
        refine .inr (.inl (hasPrefix_iff.mpr ⟨join (next :: others) '/', ?_⟩))
        rw [List.cons_append, rest, join_cons]
        rfl

theorem cleanStep_sublist (sub : stack.reverse.Sublist seen)
    (part : String) : (cleanStep false stack part).reverse.Sublist (seen ++ [part]) := by
  have kept : stack.reverse.Sublist (seen ++ [part]) := sub.trans (List.sublist_append_left _ _)
  have pushed : (part :: stack).reverse.Sublist (seen ++ [part]) := by
    rw [List.reverse_cons]
    exact sub.append (List.Sublist.refl _)
  unfold cleanStep
  by_cases skip : part = "" ∨ part = "."
  · rwa [if_pos skip]
  by_cases up : part = ".."
  · subst up
    rw [if_neg skip, if_pos rfl]
    cases stack with
    | nil => exact pushed
    | cons top rest =>
      dsimp only
      split_ifs
      · exact pushed
      · rw [List.reverse_cons] at kept
        exact (List.sublist_append_left _ _).trans kept
  · rwa [if_neg skip, if_neg up]

theorem foldl_sublist (sub : stack.reverse.Sublist seen) (parts : List String) :
    (parts.foldl (cleanStep false) stack).reverse.Sublist (seen ++ parts) := by
  induction parts generalizing stack seen with
  | nil => simpa using sub
  | cons part parts ih =>
    have step := ih (cleanStep_sublist sub part)
    rwa [List.append_assoc] at step

theorem clean_sublist (relative : hasPrefix p "/" = false) (some : clean p ≠ ".") :
    (clean p).toList.Sublist p.toList := by
  have start : ([] : List String).reverse.Sublist [] := List.Sublist.refl []
  have sub := join_sublist (foldl_sublist start (split p '/')) '/'
  rw [List.nil_append, join_split] at sub
  simp only [clean, relative, Bool.false_eq_true, if_false] at some ⊢
  split_ifs at some ⊢ with empty
  · exact absurd rfl some
  · exact sub

/-- How far relative components lead up, and what they then go down through. -/
def ups (parts : List String) : Nat := (parts.foldl (cleanStep false) []).count ".."

def downs (parts : List String) : List String :=
  ((parts.foldl (cleanStep false) []).filter (· ≠ "..")).reverse

/-- Read from a directory below the root, components leave as much of it as they do not climb. -/
theorem foldl_rooted (flat : ".." ∉ base) (parts : List String) :
    parts.foldl (cleanStep true) base = (downs parts).reverse ++ base.drop (ups parts) := by
  have shape : ∃ inner k, parts.foldl (cleanStep false) [] = inner ++ List.replicate k ".." ∧
      ".." ∉ inner ∧ parts.foldl (cleanStep true) base = inner ++ base.drop k := by
    induction parts using List.reverseRecOn with
    | nil => exact ⟨[], 0, rfl, by simp, rfl⟩
    | append_singleton parts part ih =>
      obtain ⟨inner, k, relative, free, rooted⟩ := ih
      simp only [List.foldl_append, List.foldl_cons, List.foldl_nil, relative, rooted]
      by_cases skip : part = "" ∨ part = "."
      · exact ⟨inner, k, by simp [cleanStep, skip], free, by simp [cleanStep, skip]⟩
      by_cases up : part = ".."
      · simp only [cleanStep, if_neg skip, if_pos up]
        cases inner with
        | nil =>
          refine ⟨[], k + 1, ?_, free, ?_⟩
          · cases k <;> simp [List.replicate_succ]
          · rw [List.nil_append, List.nil_append, ← List.tail_drop]
            cases rest : base.drop k with
            | nil => rfl
            | cons top rest' =>
              have other : top ≠ ".." := by
                rintro rfl
                exact flat (List.mem_of_mem_drop (by rw [rest]; simp))
              simp [other]
        | cons top inner =>
          obtain ⟨other, free⟩ : ".." ≠ top ∧ ".." ∉ inner := by simpa using free
          exact ⟨inner, k, by simp [Ne.symm other], free, by simp [Ne.symm other]⟩
      · refine ⟨part :: inner, k, by simp [cleanStep, skip, up], ?_, by simp [cleanStep, skip, up]⟩
        simp [Ne.symm up, free]
  obtain ⟨inner, k, relative, free, rooted⟩ := shape
  have names : inner.filter (· ≠ "..") = inner :=
    List.filter_eq_self.mpr fun part member => by
      simpa using fun same : part = ".." => free (same ▸ member)
  have climbed : ups parts = k := by
    simp [ups, relative, List.count_eq_zero_of_not_mem free]
  have kept : downs parts = inner.reverse := by
    rw [downs, relative, List.filter_append, names, List.filter_replicate_of_neg (by simp),
      List.append_nil]
  rw [rooted, climbed, kept, List.reverse_reverse]

/-- They stay below the directory if what they climb of it they go down again. -/
theorem prefix_foldl_rooted (flat : ".." ∉ base) (parts : List String) :
    base <+: (parts.foldl (cleanStep true) base.reverse).reverse ↔
      base.drop (base.length - ups parts) <+: downs parts := by
  rw [foldl_rooted (by simpa using flat), List.reverse_append, List.reverse_reverse,
    List.drop_reverse, List.reverse_reverse]
  conv_lhs => arg 1; rw [← List.take_append_drop (base.length - ups parts) base]
  exact List.prefix_append_right_inj _

end GoPath
