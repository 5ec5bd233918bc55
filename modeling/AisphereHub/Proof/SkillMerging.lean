import AisphereHub.Biz.Sandbox
import AisphereHub.Server.AgentRun

/-! Skills that are merged by name: the ones of a sandbox, inline over those of its template,
and the ones of a run, direct over those of its SkillSets. -/
namespace AisphereHub

open Keyed
open GoStrings (trimSpace)

section Sandbox

open SandboxSkillRef (name)

def namedSkills (refs : List SandboxSkillRef) : List SandboxSkillRef := refs.filter fun s => s.name ≠ ""

/-- The lists a merge returns. -/
def MergedSkills (refs : List SandboxSkillRef) : Prop := (refs.map name).Nodup ∧ ∀ s ∈ refs, s.name ≠ ""

theorem mergeSandboxSkills_eq (template inline : List SandboxSkillRef) :
    mergeSandboxSkills template inline =
      override name ((namedSkills template).foldl (put name fun _ => false) []) (namedSkills inline) := by
  have addTemplate : addTemplateSkill =
      fun out s => if s.name ≠ "" then put name (fun _ => false) out s else out := by
    funext out s
    simp only [addTemplateSkill, put, mem_keys_iff]
    split_ifs <;> simp_all
  have addInline : addInlineSkill =
      fun out s => if s.name ≠ "" then put name (fun _ => true) out s else out := by
    funext out s
    simp only [addInlineSkill, put, mem_keys_iff, amend]
    split_ifs <;> simp_all
  unfold mergeSandboxSkills override namedSkills
  simp only [addTemplate, addInline, List.foldl_filter, decide_eq_true_eq]

theorem MergedSkills.named_eq (merged : MergedSkills refs) : namedSkills refs = refs :=
  List.filter_eq_self.mpr fun s member => by simpa using merged.2 s member

theorem merge_eq_override (first : MergedSkills a) (second : MergedSkills b) :
    mergeSandboxSkills a b = override name a b := by
  rw [mergeSandboxSkills_eq, first.named_eq, second.named_eq, putAll_nil first.1]

theorem merge_names (template inline : List SandboxSkillRef) :
    (mergeSandboxSkills template inline).map name = ((namedSkills template).map name).eraseDups ++
      (((namedSkills inline).map name).filter (· ∉ (namedSkills template).map name)).eraseDups := by
  rw [mergeSandboxSkills_eq, override, map_key_putAll, map_key_putAll]
  simp only [List.map_nil, List.not_mem_nil, not_false_eq_true, decide_true, List.filter_true,
    List.nil_append, List.mem_eraseDups]

theorem merged_merge (template inline : List SandboxSkillRef) :
    MergedSkills (mergeSandboxSkills template inline) := by
  refine ⟨?_, fun s member => ?_⟩
  · rw [mergeSandboxSkills_eq]
    exact nodup_putAll _ (nodup_putAll _ List.nodup_nil)
  · have among := List.mem_map_of_mem (f := name) member
    simp only [merge_names, namedSkills, List.mem_append, List.mem_eraseDups, List.mem_filter,
      List.mem_map] at among
    rcases among with ⟨r, ⟨_, some⟩, same⟩ | ⟨⟨r, ⟨_, some⟩, same⟩, _⟩
    all_goals simpa [same] using some

theorem lookup_merge (template inline : List SandboxSkillRef) (some : n ≠ "") :
    lookup name (mergeSandboxSkills template inline) n =
      (inline.filter fun s => s.name = n).getLast?.or (template.filter fun s => s.name = n).head? := by
  have listed : ∀ refs : List SandboxSkillRef,
      ((namedSkills refs).filter fun s => s.name = n) = refs.filter fun s => s.name = n := by
    intro refs
    rw [namedSkills, List.filter_filter]
    refine List.filter_congr fun s _ => ?_
    by_cases same : s.name = n <;> simp [same, some]
  rw [mergeSandboxSkills_eq, lookup_override, lookup_putAll, listed, listed, List.filter_false]
  rfl

/-- A merge has each name once, those of the template first, with the last inline reference or
else the first one of the template; and over merged lists it is a monoid. -/
theorem skill_merge_overrides :
    (∀ template inline, MergedSkills (mergeSandboxSkills template inline) ∧
      (mergeSandboxSkills template inline).map name = ((namedSkills template).map name).eraseDups ++
        (((namedSkills inline).map name).filter (· ∉ (namedSkills template).map name)).eraseDups ∧
      ∀ n, n ≠ "" → lookup name (mergeSandboxSkills template inline) n =
        (inline.filter fun s => s.name = n).getLast?.or
          (template.filter fun s => s.name = n).head?) ∧
    (∀ a b c, MergedSkills a → MergedSkills b → MergedSkills c →
      mergeSandboxSkills (mergeSandboxSkills a b) c =
        mergeSandboxSkills a (mergeSandboxSkills b c)) ∧
    ∀ a, MergedSkills a → mergeSandboxSkills [] a = a ∧ mergeSandboxSkills a [] = a := by
  refine ⟨fun template inline => ?_, fun a b c first second third => ?_, fun a merged => ?_⟩
  · exact ⟨merged_merge template inline, merge_names template inline,
      fun n some => lookup_merge template inline some⟩
  · rw [merge_eq_override (merged_merge a b) third, merge_eq_override first second,
      merge_eq_override first (merged_merge b c), merge_eq_override second third]
    exact override_assoc first.1 second.1 third.1
  · have empty : MergedSkills [] := by simp [MergedSkills]
    rw [merge_eq_override empty merged, merge_eq_override merged empty]
    exact ⟨putAll_nil merged.1, rfl⟩

end Sandbox

section Run

/-- The name an entry is filed under. -/
def SkillSnapshotEntry.key (e : SkillSnapshotEntry) : String := trimSpace e.name

/-- What an entry pins its skill to, as two entries of one name are compared. -/
def SkillSnapshotEntry.pin (e : SkillSnapshotEntry) : String × String × String :=
  (trimSpace e.version, trimSpace e.revision, trimSpace e.source)

def SkillSnapshotEntry.direct (e : SkillSnapshotEntry) : Bool := e.viaSkillSet.isNone

open SkillSnapshotEntry (key pin direct)

def Agreeing (entries : List SkillSnapshotEntry) : Prop :=
  ∀ a ∈ entries, ∀ b ∈ entries, a.key = b.key → a.pin = b.pin

variable {entries out out' : List SkillSnapshotEntry} {entry : SkillSnapshotEntry}

theorem append_eq_ok : appendResolvedSkillSnapshot out entry = .ok out' ↔
    (∀ e, lookup key out entry.key = some e → e.pin = entry.pin) ∧
      put key direct out entry = out' := by
  unfold put
  cases found : lookup key out entry.key with
  | none =>
    unfold key at found
    simp [appendResolvedSkillSnapshot, found]
  | some e =>
    unfold key at found
    simp only [appendResolvedSkillSnapshot, found, pin, Prod.mk.injEq, Option.some.injEq, forall_eq',
      Option.isSome_some, if_true]
    by_cases same : trimSpace e.version = trimSpace entry.version ∧
      trimSpace e.revision = trimSpace entry.revision ∧ trimSpace e.source = trimSpace entry.source
    · have flip : entry.direct = !entry.viaSkillSet.isSome := by simp [direct]
      rw [if_neg (by simp [same]), and_iff_right same, flip]
      cases entry.viaSkillSet.isSome <;> exact ⟨Except.ok.inj, congrArg _⟩
    · rw [if_pos (by simpa only [not_and_or] using same), iff_false_right (same ·.1)]
      simp

theorem agreeing_concat : Agreeing (entries ++ [entry]) ↔
    Agreeing entries ∧ ∀ a ∈ entries, a.key = entry.key → a.pin = entry.pin := by
  simp only [Agreeing, List.forall_mem_append, List.forall_mem_singleton]
  constructor
  · exact fun all => ⟨fun a among => (all.1 a among).1, fun a among => (all.1 a among).2⟩
  · exact fun all => ⟨fun a among => ⟨all.1 a among, all.2 a among⟩,
      fun b among same => (all.2 b among same.symm).symm, fun _ => trivial⟩

theorem mem_of_kept (kept : lookup key (entries.foldl (put key direct) []) name = some e) :
    e ∈ entries ∧ e.key = name := by
  rw [lookup_putAll] at kept
  have member : e ∈ entries.filter fun e => e.key = name := by
    rcases Option.or_eq_some_iff.mp kept with last | ⟨_, first⟩
    · exact (List.mem_filter.mp (List.mem_of_getLast? last)).1
    · exact List.mem_of_head? first
  simpa using member

theorem exists_kept (listed : entry ∈ entries) :
    ∃ e, lookup key (entries.foldl (put key direct) []) entry.key = some e := by
  rw [← Option.isSome_iff_exists, ← mem_keys_iff, map_key_putAll]
  simpa using ⟨entry, listed, rfl⟩

/-- The fold fails exactly at a conflict: the entry that is kept for a name speaks for all
entries of that name before it. -/
theorem fold_eq_ok : appendResolvedSkillSnapshots [] entries = .ok out ↔
    Agreeing entries ∧ entries.foldl (put key direct) [] = out := by
  induction entries using List.reverseRecOn generalizing out with
  | nil => simp [appendResolvedSkillSnapshots, Agreeing, pure, Except.pure]
  | append_singleton entries last ih =>
    rw [appendResolvedSkillSnapshots, List.foldlM_append, bind_eq_ok]
    unfold appendResolvedSkillSnapshots at ih
    simp only [List.foldlM_cons, List.foldlM_nil, bind_pure, ih, append_eq_ok, List.foldl_append,
      List.foldl_cons, List.foldl_nil, agreeing_concat]
    constructor
    · rintro ⟨_, ⟨agree, rfl⟩, pins, rfl⟩
      refine ⟨⟨agree, fun a among same => ?_⟩, rfl⟩
      obtain ⟨e, found⟩ := exists_kept among
      obtain ⟨member, named⟩ := mem_of_kept found
      exact (agree a among e member named.symm).trans (pins e (same ▸ found))
    · rintro ⟨⟨agree, pins⟩, rfl⟩
      refine ⟨_, ⟨agree, rfl⟩, fun e found => ?_, rfl⟩
      obtain ⟨member, named⟩ := mem_of_kept found
      exact pins e member named

theorem pin_kept_iff (agree : Agreeing entries) :
    (lookup key (entries.foldl (put key direct) []) name).map pin = some p ↔
      ∃ e ∈ entries, e.key = name ∧ e.pin = p := by
  rw [Option.map_eq_some_iff]
  constructor
  · rintro ⟨e, kept, rfl⟩
    obtain ⟨member, named⟩ := mem_of_kept kept
    exact ⟨e, member, named, rfl⟩
  · rintro ⟨e, member, rfl, rfl⟩
    obtain ⟨kept, found⟩ := exists_kept member
    obtain ⟨among, named⟩ := mem_of_kept found
    exact ⟨kept, found, agree kept among e member named⟩

/-- The fold fails exactly where two entries of one name are pinned differently; otherwise it
keeps, for each name in order of first occurrence, the last direct entry or else the first one
of a SkillSet, and no permutation changes what the names are pinned to. -/
theorem resolved_skills_conflict_free (entries : List SkillSnapshotEntry) :
    ((∃ e, appendResolvedSkillSnapshots [] entries = .error e) ↔
      ∃ a ∈ entries, ∃ b ∈ entries, a.key = b.key ∧ a.pin ≠ b.pin) ∧
    ∀ out, appendResolvedSkillSnapshots [] entries = .ok out →
      out.map key = (entries.map key).eraseDups ∧
      (∀ name, lookup key out name =
        ((entries.filter fun e => e.key = name).filter direct).getLast?.or
          (entries.filter fun e => e.key = name).head?) ∧
      ∀ other, other.Perm entries → ∃ out', appendResolvedSkillSnapshots [] other = .ok out' ∧
        ∀ name, (lookup key out' name).map pin = (lookup key out name).map pin := by
  refine ⟨?_, fun out done => ?_⟩
  · have refused : (∃ e, appendResolvedSkillSnapshots [] entries = .error e) ↔
        ¬∃ out, appendResolvedSkillSnapshots [] entries = .ok out := by
      cases appendResolvedSkillSnapshots [] entries <;> simp
    rw [refused]
    simp [fold_eq_ok, Agreeing]
  · obtain ⟨agree, rfl⟩ := fold_eq_ok.mp done
    refine ⟨by simp [map_key_putAll], fun name => lookup_putAll entries name, fun other perm => ?_⟩
    have agree' : Agreeing other := fun a among b member =>
      agree a (perm.mem_iff.mp among) b (perm.mem_iff.mp member)
    refine ⟨_, fold_eq_ok.mpr ⟨agree', rfl⟩, fun name => Option.ext fun p => ?_⟩
    rw [pin_kept_iff agree', pin_kept_iff agree]
    simp only [perm.mem_iff]

end Run

end AisphereHub
