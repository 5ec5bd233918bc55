import Mathlib.Data.List.Induction
import Mathlib.Data.List.Nodup

/-! Tables with a primary key. `lookup` is the row a key names, `select` that row
under a filter such as a soft-delete mark, `amend` a change of the row in place,
`update` such a change under a guard on the row, `remove` its deletion;
inserting is appending. `index` is the map that a program builds of listed rows. -/
namespace Keyed

variable {κ ρ : Type} [DecidableEq κ] {live : ρ → Bool}

def lookup (key : ρ → κ) (table : List ρ) (k : κ) : Option ρ :=
  table.find? fun r => key r = k

def select (key : ρ → κ) (live : ρ → Bool) (table : List ρ) (k : κ) : Option ρ :=
  (lookup key table k).filter live

def amend (key : ρ → κ) (table : List ρ) (k : κ) (f : ρ → ρ) : List ρ :=
  table.map fun r => if key r = k then f r else r

def remove (key : ρ → κ) (table : List ρ) (k : κ) : List ρ :=
  table.filter fun r => key r ≠ k

/-- The guarded update of one row: the new table and the row as it now stands,
or nothing when no row matched. -/
def update (key : ρ → κ) (table : List ρ) (k : κ) (guard : ρ → Bool) (f : ρ → ρ) :
    Option (List ρ × ρ) :=
  match lookup key table k with
  | none => none
  | some r => if guard r then some (amend key table k f, f r) else none

variable {key : ρ → κ} {table : List ρ} {j k : κ} {r : ρ} {f : ρ → ρ}

theorem key_of_lookup (found : lookup key table k = some r) : key r = k := by
  simpa using List.find?_some found

theorem mem_of_lookup (found : lookup key table k = some r) : r ∈ table :=
  List.mem_of_find?_eq_some found

theorem lookup_cons (r : ρ) (table : List ρ) (k : κ) :
    lookup key (r :: table) k = if key r = k then some r else lookup key table k := by
  by_cases h : key r = k <;> simp [lookup, h]

theorem lookup_eq_none_iff : lookup key table k = none ↔ ∀ r ∈ table, key r ≠ k := by
  simp [lookup]

theorem lookup_eq_some_iff (unique : (table.map key).Nodup) :
    lookup key table k = some r ↔ r ∈ table ∧ key r = k := by
  constructor
  · exact fun found => ⟨mem_of_lookup found, key_of_lookup found⟩
  · rintro ⟨member, rfl⟩
    have present : (lookup key table (key r)).isSome = true := by
      simp only [lookup, List.find?_isSome, decide_eq_true_eq]
      exact ⟨r, member, rfl⟩
    obtain ⟨other, found⟩ := Option.isSome_iff_exists.mp present
    rw [found, List.inj_on_of_nodup_map unique (mem_of_lookup found) member (key_of_lookup found)]

theorem lookup_append (r : ρ) (table : List ρ) (k : κ) : lookup key (table ++ [r]) k =
      (lookup key table k).or (if key r = k then some r else none) := by
  simp only [lookup, List.find?_append, List.find?_singleton, decide_eq_true_eq]

theorem lookup_extended (front : table <+: longer)
    (found : lookup key table k = some r) : lookup key longer k = some r := by
  obtain ⟨rest, rfl⟩ := front
  unfold lookup at found ⊢
  rw [List.find?_append, found, Option.some_or]

theorem lookup_amend (keep : ∀ r, key (f r) = key r) (table : List ρ) (j k : κ) :
    lookup key (amend key table k f) j =
      if j = k then (lookup key table k).map f else lookup key table j := by
  induction table with
  | nil => simp [lookup, amend]
  | cons r rest ih =>
    have head : lookup key (amend key (r :: rest) k f) j =
        if key r = j then some (if key r = k then f r else r)
        else lookup key (amend key rest k f) j := by
      simp only [amend, List.map_cons, lookup_cons]
      split_ifs <;> simp_all
    rw [head, ih, lookup_cons, lookup_cons]
    split_ifs <;> simp_all

theorem lookup_amend_self (f : ρ → ρ) (keep : ∀ r, key (f r) = key r)
    (found : lookup key table k = some r) : lookup key (amend key table k f) k = some (f r) := by
  simp [lookup_amend keep, found]

theorem map_key_amend (keep : ∀ r, key (f r) = key r) (table : List ρ) (k : κ) :
    (amend key table k f).map key = table.map key := by
  rw [amend, List.map_map]
  apply List.map_congr_left
  intro r _
  simp only [Function.comp_apply]
  split_ifs
  · exact keep r
  · rfl

/-- Replacing the row of a key, as a change that keeps the key of every row. -/
theorem amend_replace (r : ρ) (table : List ρ) : amend key table (key r) (fun _ => r) =
    amend key table (key r) fun x => if key x = key r then r else x := by
  apply List.map_congr_left
  intro x _
  split_ifs with same
  · exact (if_pos same).symm
  · rfl

theorem key_replace (r x : ρ) : key (if key x = key r then r else x) = key x := by
  split_ifs with same
  · exact same.symm
  · rfl

theorem map_key_replace (r : ρ) (table : List ρ) :
    (amend key table (key r) fun _ => r).map key = table.map key := by
  rw [amend_replace, map_key_amend (key_replace r)]

theorem lookup_replace (found : lookup key table (key r) = some old) (j : κ) :
    lookup key (amend key table (key r) fun _ => r) j =
      if key r = j then some r else lookup key table j := by
  rw [amend_replace, lookup_amend (key_replace r), found, Option.map_some,
    if_pos (key_of_lookup found)]
  simp only [eq_comm]

theorem mem_amend (member : x ∈ amend key table k f) :
    x ∈ table ∧ key x ≠ k ∨ ∃ r ∈ table, key r = k ∧ x = f r := by
  obtain ⟨r, among, rfl⟩ := List.mem_map.mp member
  split_ifs with same
  · exact .inr ⟨r, among, same, rfl⟩
  · exact .inl ⟨among, same⟩

theorem mem_amend_of_ne (member : r ∈ table) (other : key r ≠ k) : r ∈ amend key table k f :=
  List.mem_map.mpr ⟨r, member, if_neg other⟩

theorem nodup_amend (unique : (table.map key).Nodup) (k : κ) (keep : ∀ r, key (f r) = key r) :
    ((amend key table k f).map key).Nodup := by
  rw [map_key_amend keep]
  exact unique

theorem mem_keys_iff : k ∈ table.map key ↔ (lookup key table k).isSome = true := by
  simp [lookup]

theorem nodup_concat : ((table ++ [r]).map key).Nodup ↔
    (table.map key).Nodup ∧ lookup key table (key r) = none := by
  rw [List.map_append, List.map_singleton, List.nodup_append_comm, List.singleton_append,
    List.nodup_cons, and_comm, mem_keys_iff, Option.not_isSome_iff_eq_none]

/-- A change in place adds no key and loses none. -/
theorem isSome_lookup_amend (key : ρ → κ) (f : ρ → ρ) (keep : ∀ r, key (f r) = key r)
    (table : List ρ) (j k : κ) :
    (lookup key (amend key table k f) j).isSome = (lookup key table j).isSome := by
  rw [lookup_amend keep]
  split_ifs with same
  · rw [same, Option.isSome_map]
  · rfl

theorem select_eq_some :
    select key live table k = some r ↔ lookup key table k = some r ∧ live r = true := by
  simp [select, Option.filter_eq_some_iff]

theorem key_of_select (found : select key live table k = some r) : key r = k :=
  key_of_lookup (select_eq_some.mp found).1

theorem mem_of_select (found : select key live table k = some r) : r ∈ table :=
  mem_of_lookup (select_eq_some.mp found).1

theorem select_append (free : lookup key table (key r) = none) (passes : live r = true) (j : κ) :
    select key live (table ++ [r]) j = if j = key r then some r else select key live table j := by
  unfold select
  rw [lookup_append]
  by_cases same : j = key r
  · subst same
    simp [free, passes]
  · simp [same, Ne.symm same]

theorem select_amend (f : ρ → ρ) (keep : ∀ r, key (f r) = key r)
    (keepLive : ∀ r, live (f r) = live r) (table : List ρ) (j k : κ) :
    select key live (amend key table k f) j =
      if j = k then (select key live table k).map f else select key live table j := by
  unfold select
  rw [lookup_amend keep]
  split_ifs with same
  · cases lookup key table k with
    | none => rfl
    | some r =>
      simp only [Option.map_some, Option.filter_some, keepLive]
      split_ifs <;> rfl
  · rfl

theorem select_amend_self (keep : ∀ r, key (f r) = key r)
    (keepLive : ∀ r, live (f r) = live r) (found : select key live table k = some r) :
    select key live (amend key table k f) k = some (f r) := by
  rw [select_amend f keep keepLive, if_pos rfl, found, Option.map_some]

theorem update_eq_some {guard} : update key table k guard f = some out ↔
      ∃ r, lookup key table k = some r ∧ guard r = true ∧ out = (amend key table k f, f r) := by
  unfold update
  cases lookup key table k with
  | none => simp
  | some r =>
    by_cases pass : guard r = true
    · simp only [pass, if_true, Option.some.injEq, exists_eq_left', true_and]
      exact eq_comm
    · simp [pass]

theorem lookup_remove (table : List ρ) (j k : κ) :
    lookup key (remove key table k) j = if j = k then none else lookup key table j := by
  simp only [lookup, remove, List.find?_filter]
  split_ifs with same
  · simp [same]
  · refine congrFun (congrArg _ (funext fun r => ?_)) table
    by_cases here : key r = j
    · simp [here, same]
    · simp [here]

theorem lookup_reset (table : List ρ) (own : ∀ r ∈ row, key r = k) (j : κ) :
    lookup key (remove key table k ++ row.toList) j =
      if j = k then row else lookup key table j := by
  cases row with
  | none =>
    rw [Option.toList_none, List.append_nil, lookup_remove]
  | some row =>
    rw [Option.toList_some, lookup_append, lookup_remove, own row rfl]
    by_cases same : j = k
    · simp [same]
    · simp [same, Ne.symm same]

theorem mem_amend_iff (unique : (table.map key).Nodup) (member : r ∈ table) :
    x ∈ amend key table (key r) f ↔ x = f r ∨ x ∈ table ∧ x ≠ r := by
  have only : ∀ y ∈ table, key y = key r ↔ y = r := by
    intro y among
    exact ⟨List.inj_on_of_nodup_map unique among member, fun same => same ▸ rfl⟩
  simp only [amend, List.mem_map]
  constructor
  · rintro ⟨y, among, rfl⟩
    by_cases same : y = r
    · rw [if_pos ((only y among).mpr same), same]
      exact .inl rfl
    · rw [if_neg (same ∘ (only y among).mp)]
      exact .inr ⟨among, same⟩
  · rintro (rfl | ⟨among, other⟩)
    · exact ⟨r, member, if_pos rfl⟩
    · exact ⟨x, among, if_neg (other ∘ (only x among).mp)⟩

section Index

def index (key : ρ → κ) (rows : List ρ) : List (κ × ρ) :=
  rows.foldl (fun m r => m.filter (fun entry => entry.1 ≠ key r) ++ [(key r, r)]) []

theorem index_append (rows : List ρ) (last : ρ) : index key (rows ++ [last]) =
    (index key rows).filter (fun entry => entry.1 ≠ key last) ++ [(key last, last)] := by
  rw [index, List.foldl_append, List.foldl_cons, List.foldl_nil]
  rfl

theorem mem_index (member : entry ∈ index key rows) :
    entry.2 ∈ rows ∧ entry.1 = key entry.2 := by
  induction rows using List.reverseRecOn with
  | nil => cases member
  | append_singleton rows last ih =>
    rw [index_append, List.mem_append] at member
    rcases member with old | new
    · obtain ⟨among, named⟩ := ih (List.mem_filter.mp old).1
      exact ⟨List.mem_append_left _ among, named⟩
    · cases List.mem_singleton.mp new
      exact ⟨List.mem_append_right _ (List.mem_singleton_self _), rfl⟩

variable [BEq κ] [LawfulBEq κ]

theorem lookup_index_eq_none (missing : (index key rows).lookup k = none) :
    ∀ r ∈ rows, key r ≠ k := by
  induction rows using List.reverseRecOn with
  | nil => simp
  | append_singleton rows last ih =>
    rw [index_append, List.lookup_append, Option.or_eq_none_iff] at missing
    have other : key last ≠ k := by
      intro same
      simp [same] at missing
    intro r member
    rcases List.mem_append.mp member with old | new
    · refine ih ?_ r old
      rw [List.lookup_eq_none_iff] at missing ⊢
      intro entry among
      by_cases same : entry.1 = key last
      · rw [same]
        simpa using Ne.symm other
      · exact missing.1 entry (List.mem_filter.mpr ⟨among, by simpa using same⟩)
    · rw [List.mem_singleton] at new
      rwa [new]

end Index

section Put

/-- A row under a new key goes to the end; one under a known key takes the place of the row
there or is dropped. -/
def put (key : ρ → κ) (replaces : ρ → Bool) (table : List ρ) (r : ρ) : List ρ :=
  if (lookup key table (key r)).isSome then
    if replaces r then amend key table (key r) fun _ => r else table
  else table ++ [r]

variable {replaces : ρ → Bool} {rows others : List ρ}

theorem map_key_put : (put key replaces table r).map key =
    if key r ∈ table.map key then table.map key else table.map key ++ [key r] := by
  unfold put
  simp only [mem_keys_iff]
  split_ifs
  · exact map_key_replace r table
  · rfl
  · exact List.map_append

theorem lookup_put (k : κ) : lookup key (put key replaces table r) k =
    if key r = k then if replaces r then some r else (lookup key table k).or (some r)
    else lookup key table k := by
  unfold put
  cases found : lookup key table (key r) with
  | none =>
    rw [if_neg (by simp), lookup_append]
    split_ifs with same replaced
    · rw [← same, found, Option.none_or]
    · rfl
    · rw [Option.or_none]
  | some old =>
    rw [if_pos Option.isSome_some]
    cases replaces r with
    | true => exact lookup_replace found k
    | false =>
      simp only [Bool.false_eq_true, if_false]
      split_ifs with same
      · rw [← same, found, Option.some_or]
      · rfl

theorem nodup_putAll (rows : List ρ) (unique : (table.map key).Nodup) :
    ((rows.foldl (put key replaces) table).map key).Nodup := by
  induction rows generalizing table with
  | nil => exact unique
  | cons r rows ih =>
    refine ih ?_
    rw [map_key_put]
    split_ifs with known
    · exact unique
    · simpa using unique.concat known

theorem map_key_putAll (rows : List ρ) : (rows.foldl (put key replaces) table).map key =
    table.map key ++ ((rows.map key).filter (· ∉ table.map key)).eraseDups := by
  induction rows generalizing table with
  | nil => simp
  | cons r rows ih =>
    rw [List.foldl_cons, ih, map_key_put, List.map_cons]
    split_ifs with known
    · rw [List.filter_cons_of_neg (by simpa using known)]
    · rw [List.filter_cons_of_pos (by simpa using known), List.eraseDups_cons, List.filter_filter,
        List.append_assoc, List.singleton_append]
      refine congrArg (fun ks => table.map key ++ key r :: List.eraseDups ks) (List.filter_congr ?_)
      intro k _
      rw [Bool.eq_iff_iff]
      simp [not_or, and_comm]

/-- Of the rows of a key the last one that replaces stays, else the first one. -/
theorem lookup_putAll (rows : List ρ) (k : κ) :
    lookup key (rows.foldl (put key replaces) table) k =
      ((rows.filter fun r => key r = k).filter replaces).getLast?.or
        ((lookup key table k).or (rows.filter fun r => key r = k).head?) := by
  induction rows using List.reverseRecOn with
  | nil => simp
  | append_singleton rows r ih =>
    rw [List.foldl_append, List.foldl_cons, List.foldl_nil, lookup_put, ih]
    split_ifs with same replaced
    · simp [same, replaced]
    · simp [same, replaced]
    · simp [same]

theorem filterMap_lookup (unique : (table.map key).Nodup) :
    (table.map key).filterMap (lookup key table) = table := by
  have each : ∀ r ∈ table, (lookup key table ∘ key) r = some r :=
    fun r member => (lookup_eq_some_iff unique).mpr ⟨member, rfl⟩
  rw [List.filterMap_map, List.filterMap_congr each, List.filterMap_some]

/-- A table is given by its keys in their order and what they look up. -/
theorem eq_of_lookup (unique : (table.map key).Nodup)
    (keys : table.map key = other.map key)
    (same : ∀ k, lookup key table k = lookup key other k) : table = other := by
  rw [← filterMap_lookup unique, keys, funext same]
  exact filterMap_lookup (keys ▸ unique)

theorem eraseDups_of_nodup {ks : List κ} (unique : ks.Nodup) : ks.eraseDups = ks := by
  induction ks with
  | nil => rfl
  | cons k rest ih =>
    obtain ⟨fresh, unique⟩ := List.nodup_cons.mp unique
    have kept : rest.filter (fun j => !j == k) = rest := by
      refine List.filter_eq_self.mpr fun j member => ?_
      simpa using fun same : j = k => fresh (same ▸ member)
    rw [List.eraseDups_cons, kept, ih unique]

/-- Rows over a table: the new ones are added, and a row of a known key takes its place. -/
def override (key : ρ → κ) (table rows : List ρ) : List ρ := rows.foldl (put key fun _ => true) table

theorem map_key_override (unique : (rows.map key).Nodup) :
    (override key table rows).map key =
      table.map key ++ (rows.map key).filter (· ∉ table.map key) := by
  rw [override, map_key_putAll, eraseDups_of_nodup (unique.filter _)]

theorem putAll_nil (unique : (rows.map key).Nodup) :
    rows.foldl (put key replaces) [] = rows := by
  induction rows using List.reverseRecOn with
  | nil => rfl
  | append_singleton rows r ih =>
    obtain ⟨unique, fresh⟩ := nodup_concat.mp unique
    rw [List.foldl_append, List.foldl_cons, List.foldl_nil, ih unique, put, fresh]
    rfl

theorem lookup_override (rows : List ρ) (k : κ) : lookup key (override key table rows) k =
    (rows.filter fun r => key r = k).getLast?.or (lookup key table k) := by
  rw [override, lookup_putAll, List.filter_true]
  cases rows.filter fun r => key r = k using List.reverseRecOn with
  | nil | append_singleton => simp

theorem lookup_override_of_nodup (unique : (rows.map key).Nodup) (k : κ) :
    lookup key (override key table rows) k = (lookup key rows k).or (lookup key table k) := by
  have self : lookup key (override key [] rows) k = _ := lookup_override rows k
  rw [override, putAll_nil unique] at self
  rw [lookup_override, self]
  simp [lookup]

theorem override_assoc (first : (table.map key).Nodup) (second : (rows.map key).Nodup)
    (third : (others.map key).Nodup) : override key (override key table rows) others =
      override key table (override key rows others) := by
  have inner : ((override key rows others).map key).Nodup := nodup_putAll others second
  refine eq_of_lookup (nodup_putAll _ (nodup_putAll _ first)) ?_ fun k => ?_
  · rw [map_key_override third, map_key_override second, map_key_override inner,
      map_key_override third, List.append_assoc, List.filter_append, List.filter_filter]
    refine congrArg (fun ks => table.map key ++ (_ ++ ks)) (List.filter_congr fun k _ => ?_)
    by_cases known : k ∈ table.map key <;> simp only [List.mem_append, List.mem_filter, known] <;> simp
  · rw [lookup_override_of_nodup third, lookup_override_of_nodup second,
      lookup_override_of_nodup inner, lookup_override_of_nodup third, Option.or_assoc]

end Put

end Keyed
