import Mathlib.Data.List.Perm.Basic

/-! `sort.SliceStable` as the insertion sort it runs on up to twenty elements: from
left to right, each element moves left past the neighbours it is less than. Longer
slices are sorted in such blocks that are then merged. Whatever the comparison, the
result of the insertion sort is a permutation; that it is in order, and that the
merges agree with it, needs a comparison that is a total preorder. -/
namespace GoSort

variable {α : Type}

/-- The sorted part is held from right to left, so that the neighbour to move past
comes first. -/
def sink (less : α → α → Bool) (x : α) : List α → List α
  | [] => [x]
  | y :: rest => if less x y then y :: sink less x rest else x :: y :: rest

def sliceStable (less : α → α → Bool) (list : List α) : List α :=
  (list.foldl (fun sorted x => sink less x sorted) []).reverse

variable {less : α → α → Bool}

theorem sink_perm (x : α) (sorted : List α) : (sink less x sorted).Perm (x :: sorted) := by
  induction sorted with
  | nil => exact .refl _
  | cons y rest ih =>
    unfold sink
    split_ifs with moves
    · exact (ih.cons y).trans (.swap x y rest)
    · exact .refl _

theorem foldl_sink_perm (less : α → α → Bool) (list sorted : List α) :
    (list.foldl (fun sorted x => sink less x sorted) sorted).Perm (list ++ sorted) := by
  induction list generalizing sorted with
  | nil => exact .refl _
  | cons x list ih =>
    refine (ih (sink less x sorted)).trans ?_
    refine ((sink_perm x sorted).append_left list).trans ?_
    exact List.perm_middle

theorem sliceStable_perm (list : List α) : (sliceStable less list).Perm list := by
  refine (List.reverse_perm _).trans ?_
  simpa using foldl_sink_perm less list []

theorem mem_sliceStable : x ∈ sliceStable less list ↔ x ∈ list :=
  (sliceStable_perm list).mem_iff

structure TotalPreorderOn (le : α → α → Prop) (list : List α) : Prop where
  total : ∀ x ∈ list, ∀ y ∈ list, le x y ∨ le y x
  trans : ∀ x ∈ list, ∀ y ∈ list, ∀ z ∈ list, le x y → le y z → le x z

theorem TotalPreorderOn.of_subset {other : List α}
    (order : TotalPreorderOn le list) (sub : other ⊆ list) : TotalPreorderOn le other where
  total x inX y inY := order.total x (sub inX) y (sub inY)
  trans x inX y inY z inZ := order.trans x (sub inX) y (sub inY) z (sub inZ)

theorem sink_sorted
    (order : TotalPreorderOn (fun x y => less y x = false) (x :: sorted))
    (pairs : sorted.Pairwise fun y z => less y z = false) :
    (sink less x sorted).Pairwise fun y z => less y z = false := by
  induction sorted with
  | nil => exact List.pairwise_singleton _ x
  | cons y rest ih =>
    obtain ⟨first, later⟩ := List.pairwise_cons.mp pairs
    unfold sink
    split_ifs with moves
    · have below : x :: rest ⊆ x :: y :: rest := by
        intro z member
        rcases List.mem_cons.mp member with rfl | member
        · simp
        · simp [member]
      refine List.pairwise_cons.mpr ⟨fun z member => ?_, ih (order.of_subset below) later⟩
      rcases List.mem_cons.mp ((sink_perm x rest).mem_iff.mp member) with rfl | member
      · rcases order.total z (by simp) y (by simp) with before | after
        · exact before
        · rw [moves] at after
          cases after
      · exact first z member
    · have stays : less x y = false := by simpa using moves
      refine List.pairwise_cons.mpr ⟨fun z member => ?_, pairs⟩
      rcases List.mem_cons.mp member with rfl | member
      · exact stays
      · exact order.trans z (by simp [member]) y (by simp) x (by simp) (first z member) stays

/-- Sorted by a total preorder, no element is less than any before it. -/
theorem sliceStable_sorted
    (order : TotalPreorderOn (fun x y => less y x = false) list) :
    (sliceStable less list).Pairwise fun x y => less y x = false := by
  have sorted : ∀ (list sorted : List α),
      TotalPreorderOn (fun x y => less y x = false) (list ++ sorted) →
      (sorted.Pairwise fun y z => less y z = false) →
      (list.foldl (fun sorted x => sink less x sorted) sorted).Pairwise
        fun y z => less y z = false := by
    intro list
    induction list with
    | nil => exact fun _ _ pairs => pairs
    | cons x list ih =>
      intro sorted order pairs
      refine ih _ (order.of_subset ?_) (sink_sorted (order.of_subset ?_) pairs)
      · exact (((sink_perm x sorted).append_left list).trans List.perm_middle).subset
      · intro y member
        rcases List.mem_cons.mp member with rfl | member
        · simp
        · simp [member]
  unfold sliceStable
  rw [List.pairwise_reverse]
  exact sorted list [] (by simpa using order) .nil

/-- What is assumed of a stable sort. Where the comparison is a total preorder the
result is determined; elsewhere only a permutation is promised. -/
structure StableSort (α : Type) where
  run : (α → α → Bool) → List α → List α
  perm : ∀ less list, (run less list).Perm list
  correct : ∀ less list, TotalPreorderOn (fun x y => less y x = false) list →
    run less list = sliceStable less list

def insertionSort (α : Type) : StableSort α where
  run := sliceStable
  perm _ := sliceStable_perm
  correct _ _ _ := rfl

end GoSort
