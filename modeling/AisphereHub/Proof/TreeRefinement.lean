import AisphereHub.Gitengine.Tree

/-! The edits of a tree as edits of its files: an insertion is a write at its path
and a removal an erasure, whatever the levels between do to siblings, order and
empty directories. -/
namespace AisphereHub

open Keyed
open GoStrings (split)

variable {β : Type} {refuses : GitTree β → Option String} {tree tree' : GitTree β} {name : String}
  {parts : List String}

theorem storeTree_eq_ok (stored : storeTree refuses tree = .ok out) : out = tree := by
  unfold storeTree at stored
  split at stored <;> cases stored
  rfl

theorem WellFormed.unique (holds : WellFormed tree) : (tree.map Prod.fst).Nodup := by
  cases holds with
  | mk _ unique _ _ => exact unique

theorem WellFormed.named (holds : WellFormed tree)
    (member : entry ∈ tree) : entry.1 ≠ "" ∧ '/' ∉ entry.1.toList := by
  cases holds with
  | mk _ _ named _ => exact named entry member

theorem find_eq_some (unique : (tree.map Prod.fst).Nodup) :
    findEntryInSlice tree name = some node ↔ (name, node) ∈ tree := by
  simp only [findEntryInSlice, Option.map_eq_some_iff, lookup_eq_some_iff unique]
  constructor
  · rintro ⟨entry, ⟨member, rfl⟩, rfl⟩
    exact member
  · exact fun member => ⟨(name, node), ⟨member, rfl⟩, rfl⟩

theorem WellFormed.child (holds : WellFormed tree)
    (found : findEntryInSlice tree name = some (.dir entries)) : WellFormed entries := by
  have member := (find_eq_some holds.unique).mp found
  cases holds with
  | mk _ _ _ below => exact below name entries member

theorem wellFormed_nil : WellFormed ([] : GitTree β) :=
  .mk [] (by simp) (by simp) (by simp)

theorem WellFormed.childTree (holds : WellFormed tree) (name : String) :
    WellFormed (childTree tree name) := by
  unfold AisphereHub.childTree
  split
  · exact holds.child ‹_›
  · exact wellFormed_nil

theorem unique_replaceOrAppend (unique : (tree.map Prod.fst).Nodup)
    (neu : String × GitNode β) : ((replaceOrAppend tree neu).map Prod.fst).Nodup := by
  refine ((GoSort.sliceStable_perm _).map Prod.fst).nodup_iff.mpr ?_
  split_ifs with present
  · rwa [map_key_replace]
  · exact nodup_concat.mpr ⟨unique, Option.not_isSome_iff_eq_none.mp present⟩

theorem mem_replaceOrAppend :
    entry ∈ replaceOrAppend tree neu ↔ entry = neu ∨ entry ∈ tree ∧ entry.1 ≠ neu.1 := by
  unfold replaceOrAppend sortTreeEntries
  rw [GoSort.mem_sliceStable]
  split_ifs with present
  · simp only [amend, List.mem_map]
    constructor
    · rintro ⟨old, member, rfl⟩
      split_ifs with same
      · exact .inl rfl
      · exact .inr ⟨member, same⟩
    · rintro (rfl | ⟨member, other⟩)
      · obtain ⟨old, found⟩ := Option.isSome_iff_exists.mp present
        exact ⟨old, mem_of_lookup found, by rw [if_pos (key_of_lookup found)]⟩
      · exact ⟨entry, member, by rw [if_neg other]⟩
  · have absent := lookup_eq_none_iff.mp (Option.not_isSome_iff_eq_none.mp present)
    simp only [List.mem_append, List.mem_singleton]
    constructor
    · rintro (member | same)
      · exact .inr ⟨member, absent entry member⟩
      · exact .inl same
    · rintro (same | ⟨member, _⟩)
      · exact .inr same
      · exact .inl member

theorem find_replaceOrAppend (unique : (tree.map Prod.fst).Nodup) (name k : String)
    (node : GitNode β) : findEntryInSlice (replaceOrAppend tree (name, node)) k =
      if k = name then some node else findEntryInSlice tree k := by
  ext found
  rw [find_eq_some (unique_replaceOrAppend unique _), mem_replaceOrAppend]
  split_ifs with same
  · subst same
    simp [eq_comm]
  · rw [find_eq_some unique]
    simp [same]

theorem find_replaceOrAppend_self (tree : GitTree β) (name : String) (node : GitNode β) :
    findEntryInSlice (replaceOrAppend tree (name, node)) name = some node := by
  unfold findEntryInSlice
  cases found : lookup Prod.fst (replaceOrAppend tree (name, node)) name with
  | none =>
    have absent := lookup_eq_none_iff.mp found (name, node)
      (mem_replaceOrAppend.mpr (.inl rfl))
    exact absurd rfl absent
  | some entry =>
    rcases mem_replaceOrAppend.mp (mem_of_lookup found) with rfl | ⟨_, other⟩
    · rfl
    · exact absurd (key_of_lookup found) other

theorem find_removeEntryByName (name k : String) :
    findEntryInSlice (removeEntryByName tree name) k =
      if k = name then none else findEntryInSlice tree k := by
  unfold findEntryInSlice removeEntryByName
  rw [lookup_remove]
  split_ifs <;> rfl

theorem WellFormed.replaceOrAppend (holds : WellFormed tree)
    (named : name ≠ "" ∧ '/' ∉ name.toList)
    (below : ∀ entries, node = .dir entries → WellFormed entries) :
    WellFormed (replaceOrAppend tree (name, node)) := by
  refine .mk _ (unique_replaceOrAppend holds.unique _) ?_ ?_
  · intro entry member
    rcases mem_replaceOrAppend.mp member with rfl | ⟨old, _⟩
    · exact named
    · exact holds.named old
  · intro child entries member
    rcases mem_replaceOrAppend.mp member with same | ⟨old, _⟩
    · exact below entries (Prod.mk.inj same).2.symm
    · exact holds.child ((find_eq_some holds.unique).mpr old)

theorem WellFormed.removeEntryByName (holds : WellFormed tree) (name : String) :
    WellFormed (removeEntryByName tree name) := by
  have sub : (AisphereHub.removeEntryByName tree name).Sublist tree := List.filter_sublist
  refine .mk _ (holds.unique.sublist (sub.map Prod.fst)) ?_ ?_
  · exact fun entry member => holds.named (sub.subset member)
  · intro child entries member
    exact holds.child ((find_eq_some holds.unique).mpr (sub.subset member))

theorem fileAt_nil (tree : GitTree β) : fileAt tree [] = none := rfl

theorem fileAt_cons (tree : GitTree β) (name : String) (rest : List String) :
    fileAt tree (name :: rest) = match findEntryInSlice tree name with
      | none => none
      | some (.file mode blob) => if rest = [] then some (mode, blob) else none
      | some (.dir entries) => fileAt entries rest := by
  cases rest with
  | nil | cons next rest =>
    simp only [fileAt, nodeAt]
    cases findEntryInSlice tree name with
    | none => rfl
    | some node => cases node <;> rfl

theorem fileAt_empty (path : List String) : fileAt ([] : GitTree β) path = none := by
  cases path with
  | nil => rfl
  | cons name rest => rw [fileAt_cons]; rfl

/-- What a path finds below a directory is what it finds in its subtree, but for
a file in the directory's place. -/
theorem fileAt_childTree (tree : GitTree β) (name next : String) (rest : List String) :
    fileAt (childTree tree name) (next :: rest) = fileAt tree (name :: next :: rest) := by
  rw [fileAt_cons tree]
  unfold childTree
  cases found : findEntryInSlice tree name with
  | none => exact fileAt_empty _
  | some node =>
    cases node with
    | file mode blob => simp [fileAt_empty]
    | dir entries => rfl

/-- An insertion by its levels: the entry itself, then the directories above it. -/
@[elab_as_elim] theorem upsertEntry_induction {motive : GitTree β → List String → GitTree β → Prop}
    (here : ∀ tree name, motive tree [name] (replaceOrAppend tree (name, leaf)))
    (above : ∀ tree name next parts child, motive (childTree tree name) (next :: parts) child →
      motive tree (name :: next :: parts) (replaceOrAppend tree (name, .dir child)))
    (done : upsertEntry refuses tree parts leaf = .ok tree') : motive tree parts tree' := by
  induction parts generalizing tree tree' with
  | nil => cases done
  | cons name parts ih =>
    cases parts with
    | nil =>
      obtain rfl := storeTree_eq_ok done
      exact here tree name
    | cons next parts =>
      simp only [upsertEntry] at done
      split at done
      · cases done
      · rename_i child inner
        obtain rfl := storeTree_eq_ok done
        exact above tree name next parts child (ih inner)

theorem upsertEntry_files (holds : WellFormed tree)
    (named : ∀ part ∈ parts, part ≠ "" ∧ '/' ∉ part.toList)
    (done : upsertEntry refuses tree parts (.file mode blob) = .ok tree') :
    WellFormed tree' ∧ fileAt tree' = PathMap.write (fileAt tree) parts (mode, blob) := by
  revert holds named
  refine upsertEntry_induction ?_ ?_ done
  · intro tree name holds named
    refine ⟨holds.replaceOrAppend (named name (by simp)) (by simp), ?_⟩
    funext path
    cases path with
    | nil => simp [PathMap.write, PathMap.Overlap, fileAt_nil]
    | cons first rest =>
      rw [fileAt_cons, find_replaceOrAppend holds.unique]
      by_cases same : first = name
      · subst same
        by_cases last : rest = []
        · simp [last, PathMap.write]
        · simp [last, PathMap.write, PathMap.Overlap]
      · rw [PathMap.write_apart (PathMap.not_overlap_cons (Ne.symm same)), fileAt_cons]
        simp [same]
  · intro tree name next parts child ih holds named
    obtain ⟨childHolds, files⟩ := ih (holds.childTree name)
      fun part member => named part (by simp [member])
    refine ⟨holds.replaceOrAppend (named name (by simp)) (by simpa using childHolds), ?_⟩
    funext path
    cases path with
    | nil => simp [PathMap.write, PathMap.Overlap, fileAt_nil]
    | cons first rest =>
      rw [fileAt_cons, find_replaceOrAppend holds.unique]
      by_cases same : first = name
      · subst same
        simp only [if_true, files]
        cases rest with
        | nil => simp [PathMap.write, PathMap.Overlap]
        | cons second rest =>
          simp only [PathMap.write, PathMap.overlap_cons, List.cons.injEq, true_and,
            fileAt_childTree]
      · rw [PathMap.write_apart (PathMap.not_overlap_cons (Ne.symm same)), fileAt_cons]
        simp [same]

/-- Below a directory a removal goes on in the subtree, and takes the directory
itself away when nothing is left in it. -/
theorem removeEntry_cons (holds : WellFormed tree)
    (done : removeEntry refuses tree (name :: next :: parts) = .ok tree') :
    ∃ entries child, findEntryInSlice tree name = some (.dir entries) ∧
      removeEntry refuses entries (next :: parts) = .ok child ∧
      (WellFormed child → WellFormed tree') ∧ ∀ k, findEntryInSlice tree' k =
        if k = name then (if child = [] then none else some (.dir child))
        else findEntryInSlice tree k := by
  simp only [removeEntry] at done
  split at done
  · rename_i entries found
    have member := (find_eq_some holds.unique).mp found
    refine ⟨entries, ?_⟩
    split at done
    · cases done
    · rename_i inner
      obtain rfl := storeTree_eq_ok done
      refine ⟨[], found, inner, fun _ => holds.removeEntryByName name, ?_⟩
      intro k
      rw [find_removeEntryByName]
      simp
    · rename_i first others inner
      obtain rfl := storeTree_eq_ok done
      refine ⟨first :: others, found, inner, ?_, ?_⟩
      · intro childHolds
        exact holds.replaceOrAppend (holds.named member) (by simpa using childHolds)
      · intro k
        rw [find_replaceOrAppend holds.unique]
        simp
  · cases done

theorem removeEntry_files (holds : WellFormed tree)
    (done : removeEntry refuses tree parts = .ok tree') :
    WellFormed tree' ∧ fileAt tree' = PathMap.erase (fileAt tree) parts := by
  induction parts generalizing tree tree' with
  | nil => cases done
  | cons name parts ih =>
    cases parts with
    | nil =>
      obtain rfl := storeTree_eq_ok done
      refine ⟨holds.removeEntryByName name, ?_⟩
      funext path
      cases path with
      | nil => simp [PathMap.erase, fileAt_nil]
      | cons first rest =>
        rw [fileAt_cons, find_removeEntryByName]
        by_cases same : first = name
        · simp [same, PathMap.erase]
        · have apart : ¬[name] <+: first :: rest := by simp [Ne.symm same]
          simp only [PathMap.erase, apart, if_false, same]
          rw [fileAt_cons]
    | cons next parts =>
      obtain ⟨entries, child, found, inner, keeps, find⟩ := removeEntry_cons holds done
      obtain ⟨childHolds, files⟩ := ih (holds.child found) inner
      refine ⟨keeps childHolds, ?_⟩
      funext path
      cases path with
      | nil => simp [PathMap.erase, fileAt_nil]
      | cons first rest =>
        rw [fileAt_cons, find]
        by_cases same : first = name
        · subst same
          have below : PathMap.erase (fileAt tree) (first :: next :: parts) (first :: rest) =
              fileAt child rest := by
            rw [files]
            simp only [PathMap.erase, List.cons_prefix_cons, true_and, fileAt_cons tree, found]
          rw [below]
          by_cases empty : child = []
          · simp [empty, fileAt_empty]
          · simp [empty]
        · have apart : ¬name :: next :: parts <+: first :: rest := by
            simp [Ne.symm same]
          simp only [PathMap.erase, apart, if_false, same]
          rw [fileAt_cons]

theorem mem_treeFiles : (path, x) ∈ treeFiles tree ↔
      ∃ name node rest, (name, node) ∈ tree ∧ (rest, x) ∈ node.files ∧ path = name :: rest := by
  induction tree with
  | nil => simp [treeFiles]
  | cons entry tree ih =>
    obtain ⟨name, node⟩ := entry
    rw [treeFiles, List.mem_append, ih, List.mem_map]
    constructor
    · rintro (⟨⟨rest, y⟩, member, same⟩ | ⟨name', node', rest, member, inner, shape⟩)
      · obtain ⟨rfl, rfl⟩ := Prod.mk.inj same
        exact ⟨name, node, rest, by simp, member, rfl⟩
      · exact ⟨name', node', rest, by simp [member], inner, shape⟩
    · rintro ⟨name', node', rest, member, inner, rfl⟩
      rcases List.mem_cons.mp member with same | member
      · obtain ⟨rfl, rfl⟩ := Prod.mk.inj same
        exact .inl ⟨(rest, x), inner, rfl⟩
      · exact .inr ⟨name', node', rest, member, inner, rfl⟩

theorem fileAt_eq_some_iff (holds : WellFormed tree) :
    fileAt tree path = some x ↔ (path, x) ∈ treeFiles tree := by
  induction path generalizing tree with
  | nil => simp [fileAt_nil, mem_treeFiles]
  | cons name rest ih =>
    rw [fileAt_cons, mem_treeFiles]
    constructor
    · intro found
      cases entry : findEntryInSlice tree name with
      | none => simp [entry] at found
      | some node =>
        refine ⟨name, node, rest, (find_eq_some holds.unique).mp entry, ?_, rfl⟩
        cases node with
        | file mode blob => simpa [entry, GitNode.files, eq_comm] using found
        | dir entries =>
          simp only [entry] at found
          exact (ih (holds.child entry)).mp found
    · rintro ⟨first, node, below, member, inner, shape⟩
      obtain ⟨rfl, rfl⟩ := List.cons.inj shape
      have entry := (find_eq_some holds.unique).mpr member
      rw [entry]
      cases node with
      | file mode blob => simpa [GitNode.files, eq_comm] using inner
      | dir entries => exact (ih (holds.child entry)).mpr inner

theorem treeFiles_nodup_of_nodes (unique : (tree.map Prod.fst).Nodup)
    (each : ∀ entry ∈ tree, (entry.2.files.map Prod.fst).Nodup) :
    ((treeFiles tree).map Prod.fst).Nodup := by
  induction tree with
  | nil => simp [treeFiles]
  | cons entry tree ih =>
    obtain ⟨name, node⟩ := entry
    rw [List.map_cons, List.nodup_cons] at unique
    have here : ((node.files.map Prod.fst).map (name :: ·)).Nodup :=
      (each (name, node) (by simp)).map fun _ _ same => (List.cons.inj same).2
    have rest := ih unique.2 fun entry member => each entry (by simp [member])
    rw [treeFiles, List.map_append, List.map_map, List.nodup_append]
    refine ⟨by simpa [Function.comp_def] using here, rest, ?_⟩
    rintro path mine other theirs rfl
    obtain ⟨file, _, rfl⟩ := List.mem_map.mp mine
    obtain ⟨⟨listed, x⟩, member, same⟩ := List.mem_map.mp theirs
    obtain ⟨name', node', below, inTree, _, rfl⟩ := mem_treeFiles.mp member
    obtain ⟨rfl, _⟩ := List.cons.inj same
    exact unique.1 (List.mem_map.mpr ⟨(name', node'), inTree, rfl⟩)

theorem treeFiles_nodup (holds : WellFormed tree) : ((treeFiles tree).map Prod.fst).Nodup := by
  induction holds with
  | mk tree unique _ _ ih =>
    refine treeFiles_nodup_of_nodes unique ?_
    rintro ⟨name, node⟩ member
    cases node with
    | file mode blob => simp [GitNode.files]
    | dir entries => exact ih name entries member

section Canonical

/-- Distinct names in git's order, at every level. -/
inductive Canonical : GitTree β → Prop where
  | mk (tree : GitTree β) (unique : (tree.map Prod.fst).Nodup)
      (sorted : tree.Pairwise fun a b => treeEntryLess b a = false)
      (inside : ∀ name entries, (name, .dir entries) ∈ tree → Canonical entries) : Canonical tree

/-- The calls of the recursion on a tree and a path. Each one that succeeds stores the tree it
returns, whatever becomes of the calls above it. -/
def treeCalls : GitTree β → List String → List (GitTree β × List String)
  | tree, name :: next :: rest =>
    (tree, name :: next :: rest) :: treeCalls (childTree tree name) (next :: rest)
  | tree, parts => [(tree, parts)]

theorem treeEntryLess_preorder (list : List (String × GitNode β)) :
    GoSort.TotalPreorderOn (fun a b => treeEntryLess b a = false) list where
  total a _ b _ := by
    simp only [treeEntryLess, decide_eq_false_iff_not, String.not_lt]
    exact String.le_total _ _
  trans a _ b _ c _ := by
    simp only [treeEntryLess, decide_eq_false_iff_not, String.not_lt]
    exact String.le_trans

theorem Canonical.unique (holds : Canonical tree) : (tree.map Prod.fst).Nodup := by
  cases holds with
  | mk _ unique _ _ => exact unique

theorem Canonical.child (holds : Canonical tree) (member : (name, .dir entries) ∈ tree) :
    Canonical entries := by
  cases holds with
  | mk _ _ _ inside => exact inside name entries member

theorem Canonical.childTree (holds : Canonical tree) (name : String) :
    Canonical (childTree tree name) := by
  unfold AisphereHub.childTree
  split
  · exact holds.child ((find_eq_some holds.unique).mp ‹_›)
  · exact .mk [] (by simp) (by simp) (by simp)

theorem Canonical.replaceOrAppend (holds : Canonical tree)
    (inside : ∀ entries, node = .dir entries → Canonical entries) :
    Canonical (replaceOrAppend tree (name, node)) := by
  refine .mk _ (unique_replaceOrAppend holds.unique _)
    (GoSort.sliceStable_sorted (treeEntryLess_preorder _)) ?_
  intro child entries member
  rcases mem_replaceOrAppend.mp member with same | ⟨old, _⟩
  · exact inside entries (Prod.mk.inj same).2.symm
  · exact holds.child old

theorem Canonical.removeEntryByName (holds : Canonical tree) (name : String) :
    Canonical (removeEntryByName tree name) := by
  have sub : (AisphereHub.removeEntryByName tree name).Sublist tree := List.filter_sublist
  cases holds with
  | mk _ unique sorted inside =>
    exact .mk _ (unique.sublist (sub.map Prod.fst)) (sorted.sublist sub)
      fun child entries member => inside child entries (sub.subset member)

theorem Canonical.upsert (holds : Canonical tree)
    (inside : ∀ entries, leaf = .dir entries → Canonical entries)
    (done : upsertEntry refuses tree parts leaf = .ok tree') : Canonical tree' := by
  revert holds
  refine upsertEntry_induction ?_ ?_ done
  · exact fun tree name holds => holds.replaceOrAppend inside
  · intro tree name next parts child ih holds
    exact holds.replaceOrAppend (by simpa using ih (holds.childTree name))

theorem Canonical.remove (holds : Canonical tree)
    (done : removeEntry refuses tree parts = .ok tree') : Canonical tree' := by
  induction parts generalizing tree tree' with
  | nil => cases done
  | cons name parts ih =>
    cases parts with
    | nil =>
      obtain rfl := storeTree_eq_ok done
      exact holds.removeEntryByName name
    | cons next parts =>
      simp only [removeEntry] at done
      split at done
      · rename_i entries found
        have canonical := holds.child ((find_eq_some holds.unique).mp found)
        split at done
        · cases done
        · obtain rfl := storeTree_eq_ok done
          exact holds.removeEntryByName name
        · rename_i inner
          obtain rfl := storeTree_eq_ok done
          exact holds.replaceOrAppend (by simpa using ih canonical inner)
      · cases done

theorem Canonical.treeCalls (holds : Canonical tree)
    (member : call ∈ treeCalls tree parts) : Canonical call.1 := by
  induction tree, parts using treeCalls.induct with
  | case1 tree name next rest ih =>
    rcases List.mem_cons.mp member with rfl | below
    · exact holds
    · exact ih (holds.childTree name) below
  | case2 tree parts single =>
    rw [AisphereHub.treeCalls.eq_2 tree parts single, List.mem_singleton] at member
    rw [member]
    exact holds

/-- Every tree that an insertion or a removal stores below a canonical root is canonical, also
those of an edit that fails further up. -/
theorem stored_trees_canonical (refuses : GitTree β → Option String) (tree stored : GitTree β)
    (parts : List String) (leaf : GitNode β) (call : GitTree β × List String)
    (holds : Canonical tree) (inside : ∀ entries, leaf = .dir entries → Canonical entries)
    (made : call ∈ treeCalls tree parts)
    (done : upsertEntry refuses call.1 call.2 leaf = .ok stored ∨
      removeEntry refuses call.1 call.2 = .ok stored) : Canonical stored := by
  rcases done with inserted | removed
  · exact (holds.treeCalls made).upsert inside inserted
  · exact (holds.treeCalls made).remove removed

theorem src_becomes_directory : ∃ stored,
    upsertEntry (fun _ => none) [("src", .file .Regular ()), ("src.go", .file .Regular ())]
      ["src", "main.go"] (.file .Regular ()) = .ok stored ∧ Canonical stored := by
  have start : Canonical [("src", .file .Regular ()), ("src.go", .file .Regular ())] :=
    .mk _ (by decide) (by decide) (by simp)
  exact ⟨_, rfl, stored_trees_canonical (fun _ => none) _ _ ["src", "main.go"] (.file .Regular ())
    (_, ["src", "main.go"]) start (by simp) List.mem_cons_self (.inl rfl)⟩

end Canonical

end AisphereHub
