import Mathlib.Data.List.Infix
import Mathlib.Data.List.Nodup

/-! Files by path. A path is a list of names, and the files of a directory tree
are a partial function on paths. No file lies below another one, so writing at a
path takes away what overlaps it: the files above the path and below it. -/
namespace PathMap

variable {ν β : Type} {p q : List ν}

/-- One path is the other one or leads to it. -/
def Overlap (p q : List ν) : Prop := p <+: q ∨ q <+: p

theorem Overlap.symm (overlap : Overlap p q) : Overlap q p := Or.symm overlap

theorem Overlap.refl (p : List ν) : Overlap p p := .inl (List.prefix_refl p)

theorem overlap_cons (name : ν) : Overlap (name :: p) (name :: q) ↔ Overlap p q := by
  simp [Overlap]

theorem not_overlap_cons (other : first ≠ second) :
    ¬Overlap (first :: p) (second :: q) := by
  rintro (below | above)
  · exact other (List.cons_prefix_cons.mp below).1
  · exact other (List.cons_prefix_cons.mp above).1.symm

variable [DecidableEq ν]

instance (p q : List ν) : Decidable (Overlap p q) :=
  inferInstanceAs (Decidable (_ ∨ _))

def write (files : List ν → Option β) (p : List ν) (b : β) : List ν → Option β :=
  fun q => if q = p then some b else if Overlap p q then none else files q

/-- The file at the path goes, or all files of the directory there. -/
def erase (files : List ν → Option β) (p : List ν) : List ν → Option β :=
  fun q => if p <+: q then none else files q

def writeAll (files : List ν → Option β) (list : List (List ν × β)) : List ν → Option β :=
  list.foldl (fun files entry => write files entry.1 entry.2) files

variable {files : List ν → Option β} {b : β}

theorem write_self : write files p b p = some b := by
  simp [write]

theorem write_apart (apart : ¬Overlap p q) : write files p b q = files q := by
  have other : q ≠ p := by
    rintro rfl
    exact apart (.refl q)
  simp [write, other, apart]

/-- A write loses no file and adds the one at its path exactly when no file
overlaps the path. -/
theorem write_frame_iff : ((∀ q x, files q = some x → write files p b q = some x) ∧
      ∀ q, files q = none ∧ write files p b q ≠ none ↔ q = p) ↔
      ∀ q, files q ≠ none → ¬Overlap p q := by
  constructor
  · rintro ⟨kept, added⟩ q present overlap
    obtain ⟨x, found⟩ := Option.ne_none_iff_exists'.mp present
    by_cases same : q = p
    · exact present (same ▸ ((added p).mpr rfl).1)
    · have lost : write files p b q = none := by simp [write, same, overlap]
      rw [kept q x found] at lost
      cases lost
  · intro apart
    refine ⟨?_, ?_⟩
    · intro q x found
      rw [write_apart (apart q (by simp [found])), found]
    · intro q
      constructor
      · rintro ⟨absent, present⟩
        by_contra other
        by_cases overlap : Overlap p q
        · exact present (by simp [write, other, overlap])
        · exact present (by rw [write_apart overlap, absent])
      · rintro rfl
        refine ⟨?_, by simp [write_self]⟩
        by_contra present
        exact apart q present (.refl q)

/-- An erasure takes away the file at its path only, exactly when no file lies
further below. -/
theorem erase_frame_iff :
    (∀ q, q ≠ p → erase files p q = files q) ↔ ∀ q, p <+: q → q ≠ p → files q = none := by
  constructor
  · intro kept q below other
    rw [← kept q other]
    simp [erase, below]
  · intro empty q other
    by_cases below : p <+: q
    · simp [erase, below, empty q below other]
    · simp [erase, below]

/-- A file of the result is one of the list that nothing after it overlaps. -/
theorem writeAll_eq_some : writeAll (fun _ => none) list q = some b ↔
      ∃ before after, list = before ++ (q, b) :: after ∧ ∀ e ∈ after, ¬Overlap e.1 q := by
  induction list using List.reverseRecOn with
  | nil => simp [writeAll]
  | append_singleton list entry ih =>
    have last : writeAll (fun _ => none) (list ++ [entry]) =
        write (writeAll (fun _ => none) list) entry.1 entry.2 := by simp [writeAll]
    rw [last]
    constructor
    · intro found
      by_cases same : q = entry.1
      · subst same
        rw [write_self, Option.some.injEq] at found
        subst found
        exact ⟨list, [], rfl, by simp⟩
      · by_cases overlap : Overlap entry.1 q
        · simp [write, same, overlap] at found
        · rw [write_apart overlap, ih] at found
          obtain ⟨before, after, rfl, apart⟩ := found
          refine ⟨before, after ++ [entry], by simp, ?_⟩
          intro e member
          rcases List.mem_append.mp member with member | member
          · exact apart e member
          · rwa [List.mem_singleton.mp member]
    · rintro ⟨before, after, shape, apart⟩
      cases after using List.reverseRecOn with
      | nil =>
        obtain ⟨rfl, last⟩ := List.append_inj' shape rfl
        obtain rfl := List.singleton_inj.mp last
        exact write_self
      | append_singleton after last _ =>
        rw [← List.cons_append, ← List.append_assoc] at shape
        obtain ⟨rfl, same⟩ := List.append_inj' shape rfl
        obtain rfl := List.singleton_inj.mp same
        rw [write_apart (apart entry (by simp)), ih]
        exact ⟨before, after, rfl, fun e member => apart e (by simp [member])⟩

/-- Writing a list of files stores exactly the list, when its paths differ and no
two of them overlap. -/
theorem writeAll_exact_iff {list : List (List ν × β)} (distinct : (list.map Prod.fst).Nodup) :
    (∀ q b, writeAll (fun _ => none) list q = some b ↔ (q, b) ∈ list) ↔
      list.Pairwise fun first second => ¬Overlap first.1 second.1 := by
  constructor
  · intro exact
    rw [List.pairwise_iff_forall_sublist]
    intro first second sub overlap
    have member : (first.1, first.2) ∈ list := sub.subset (by simp)
    obtain ⟨before, after, rfl, apart⟩ := writeAll_eq_some.mp ((exact first.1 first.2).mpr member)
    refine apart second ?_ overlap.symm
    simp only [List.map_append, List.map_cons] at distinct
    have fresh : first.1 ∉ before.map Prod.fst := by
      intro early
      exact (List.nodup_append.mp distinct).2.2 first.1 early first.1 (by simp) rfl
    rcases List.sublist_append_iff.mp sub with ⟨front, back, shape, inFront, inBack⟩
    cases front with
    | cons head rest =>
      have same : head = first := by
        simpa using (congrArg List.head? shape).symm
      subst same
      exact absurd (List.mem_map_of_mem (inFront.subset (by simp))) fresh
    | nil =>
      subst shape
      exact (List.cons_sublist_cons.mp inBack).subset (by simp)
  · intro apart q b
    rw [writeAll_eq_some]
    constructor
    · rintro ⟨before, after, rfl, _⟩
      simp
    · intro member
      obtain ⟨before, after, rfl⟩ := List.append_of_mem member
      refine ⟨before, after, rfl, ?_⟩
      intro e later overlap
      have pair := (List.pairwise_append.mp apart).2.1
      exact (List.pairwise_cons.mp pair).1 e later overlap.symm

end PathMap
