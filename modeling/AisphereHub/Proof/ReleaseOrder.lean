import AisphereHub.Gitengine.Release
import AisphereHub.Service.SkillReleaseVersions

/-! The order of the version list. The tags are sorted before the ones that are no
versions are left out, by a comparison that is a total preorder only on some sets
of tags. -/
namespace AisphereHub

open GoStrings GoSort

variable {S : SemVer} {A : TagAnswer} {tags : List String}

theorem compareStrings_le : compareStrings left right ≤ 0 ↔ left ≤ right := by
  unfold compareStrings
  by_cases same : left = right
  · simp [same]
  · by_cases less : left < right
    · simp [same, less, String.not_lt.mp (String.lt_asymm less)]
    · have other : ¬left ≤ right := fun le =>
        same (String.le_antisymm le (String.not_lt.mp less))
      simp [same, less, other]

def NotAfter (S : SemVer) (x y : String) : Prop := compareReleaseTags S y x ≤ 0

theorem releaseBefore_eq_false : releaseBefore S y x = false ↔ NotAfter S x.tag y.tag := by
  simp [releaseBefore, NotAfter]

theorem notAfter_versions (first : S.parseTag x = some v)
    (second : S.parseTag y = some w) : NotAfter S x y ↔ S.compare w v ≤ 0 := by
  simp [NotAfter, compareReleaseTags, first, second]

theorem notAfter_text (text : S.parseTag x = none ∨ S.parseTag y = none) :
    NotAfter S x y ↔ y ≤ x := by
  unfold NotAfter compareReleaseTags
  rcases text with text | text
  · cases parsed : S.parseTag y <;> simp [text, compareStrings_le]
  · simp [text, compareStrings_le]

/-- No tag that is not a version stands, as text, between two versions in the wrong
order: below one of them and above the other, which does not precede it. -/
def Consistent (S : SemVer) (tags : List String) : Prop :=
  ∀ a ∈ tags, ∀ b ∈ tags, ∀ x ∈ tags, ∀ v w, S.parseTag a = some v → S.parseTag b = some w →
    S.parseTag x = none → S.compare v w ≤ 0 → ¬(b < x ∧ x < a)

theorem notAfter_total (S : SemVer) (x y : String) : NotAfter S x y ∨ NotAfter S y x := by
  cases first : S.parseTag x with
  | none =>
    rw [notAfter_text (.inl first), notAfter_text (.inr first)]
    exact String.le_total y x
  | some v =>
    cases second : S.parseTag y with
    | none =>
      rw [notAfter_text (.inr second), notAfter_text (.inl second)]
      exact String.le_total y x
    | some w =>
      rw [notAfter_versions first second, notAfter_versions second first]
      have swap := S.compare_swap v w
      omega

theorem text_lt (version : S.parseTag x = some v)
    (text : S.parseTag y = none) : (x ≤ y → x < y) ∧ (y ≤ x → y < x) := by
  have differ : x ≠ y := by
    rintro rfl
    rw [version] at text
    cases text
  constructor
  · exact fun le => Decidable.byContradiction fun not =>
      differ (String.le_antisymm le (String.not_lt.mp not))
  · exact fun le => Decidable.byContradiction fun not =>
      differ (String.le_antisymm (String.not_lt.mp not) le)

theorem notAfter_trans (consistent : Consistent S tags) (inX : x ∈ tags)
    (inY : y ∈ tags) (inZ : z ∈ tags) (first : NotAfter S x y) (second : NotAfter S y z) :
    NotAfter S x z := by
  cases isY : S.parseTag y with
  | none =>
    rw [notAfter_text (.inr isY)] at first
    rw [notAfter_text (.inl isY)] at second
    have text := String.le_trans second first
    cases isX : S.parseTag x with
    | none => exact (notAfter_text (.inl isX)).mpr text
    | some v =>
      cases isZ : S.parseTag z with
      | none => exact (notAfter_text (.inr isZ)).mpr text
      | some u =>
        rw [notAfter_versions isX isZ]
        by_contra above
        have below := (S.compare_swap v u).mpr (by omega)
        exact consistent x inX z inZ y inY v u isX isZ isY (by omega)
          ⟨(text_lt isZ isY).1 second, (text_lt isX isY).2 first⟩
  | some w =>
    cases isX : S.parseTag x with
    | none =>
      rw [notAfter_text (.inl isX)] at first ⊢
      cases isZ : S.parseTag z with
      | none =>
        rw [notAfter_text (.inr isZ)] at second
        exact String.le_trans second first
      | some u =>
        rw [notAfter_versions isY isZ] at second
        refine String.not_lt.mp fun above => ?_
        exact consistent z inZ y inY x inX u w isZ isY isX second
          ⟨(text_lt isY isX).1 first, above⟩
    | some v =>
      rw [notAfter_versions isX isY] at first
      cases isZ : S.parseTag z with
      | none =>
        rw [notAfter_text (.inr isZ)] at second ⊢
        refine String.not_lt.mp fun above => ?_
        exact consistent y inY x inX z inZ w v isY isX isZ first
          ⟨above, (text_lt isY isZ).2 second⟩
      | some u =>
        rw [notAfter_versions isY isZ] at second
        rw [notAfter_versions isX isZ]
        exact S.compare_trans u w v second first

theorem totalPreorder_iff : TotalPreorderOn (NotAfter S) tags ↔ Consistent S tags := by
  constructor
  · rintro order a inA b inB x inX v w isA isB isX le ⟨above, below⟩
    have level : NotAfter S b a := (notAfter_versions isB isA).mpr le
    have under : NotAfter S x b :=
      (notAfter_text (.inl isX)).mpr (String.not_lt.mp (String.lt_asymm above))
    have cycle := (notAfter_text (.inl isX)).mp (order.trans x inX b inB a inA under level)
    exact String.not_lt.mpr cycle below
  · intro consistent
    exact ⟨fun x _ y _ => notAfter_total S x y,
      fun x inX y inY z inZ => notAfter_trans consistent inX inY inZ⟩

theorem releaseBefore_totalPreorder_iff :
    TotalPreorderOn (fun x y => releaseBefore S y x = false) releases ↔
      Consistent S (releases.map SkillRelease.tag) := by
  rw [← totalPreorder_iff]
  constructor
  · rintro ⟨_, trans⟩
    refine ⟨fun x _ y _ => notAfter_total S x y, ?_⟩
    simp only [releaseBefore_eq_false] at trans
    simp only [List.forall_mem_map]
    exact trans
  · rintro ⟨_, trans⟩
    constructor
    · intro x _ y _
      simp only [releaseBefore_eq_false]
      exact notAfter_total S x.tag y.tag
    · intro x inX y inY z inZ
      simp only [releaseBefore_eq_false]
      exact trans x.tag (List.mem_map_of_mem inX) y.tag (List.mem_map_of_mem inY) z.tag
        (List.mem_map_of_mem inZ)

theorem annotate_frame (release : SkillRelease) (A : TagAnswer) (raw : String) :
    (release.annotate A raw).tag = release.tag ∧
      (release.annotate A raw).commitSHA = release.commitSHA := by
  unfold SkillRelease.annotate
  repeat' split
  all_goals exact ⟨rfl, rfl⟩

theorem releaseForTag_eq_ok (read : releaseForTag S A tag = .ok release) :
    normalizeReleaseVersion S tag = none ∧ release = { tag := trimSpace tag } ∨
      ∃ sha raw, ∃ base : SkillRelease,
        A.commit ("refs/tags/" ++ trimSpace tag ++ "^\x7bcommit\x7d") = some sha ∧
        A.tagRecord ("refs/tags/" ++ trimSpace tag) = .ok raw ∧ base.tag = trimSpace tag ∧
        base.commitSHA = trimSpace sha ∧ release = base.annotate A raw := by
  unfold releaseForTag at read
  dsimp only at read
  split at read
  · cases read
  split at read
  · rename_i text
    cases read
    exact .inl ⟨normalizeReleaseVersion_trimSpace S tag ▸ text, rfl⟩
  split at read
  · cases read
  rename_i sha found
  repeat' split at read
  all_goals cases read
  rename_i raw printed
  exact .inr ⟨sha, raw, _, found, printed, rfl, rfl, rfl⟩

theorem releasesForTags_eq_ok (reads : ∀ tag ∈ tags, (releaseForTag S A tag).isOk = true) :
    ∃ out, releasesForTags S A tags = .ok out ∧ out.map SkillRelease.tag = tags.map trimSpace := by
  induction tags with
  | nil => exact ⟨[], rfl, rfl⟩
  | cons tag tags ih =>
    obtain ⟨out, read, names⟩ := ih fun other member => reads other (by simp [member])
    cases first : releaseForTag S A tag with
    | error e =>
      have ok := reads tag (by simp)
      rw [first] at ok
      cases ok
    | ok release =>
      refine ⟨release :: out, by simp only [releasesForTags, first, read], ?_⟩
      have named : release.tag = trimSpace tag := by
        rcases releaseForTag_eq_ok first with ⟨_, rfl⟩ | ⟨_, raw, base, _, _, named, _, rfl⟩
        · rfl
        · exact (annotate_frame base A raw).1.trans named
      rw [List.map_cons, List.map_cons, names, named]

def NotBelow (S : SemVer) (x y : String) : Prop :=
  ∀ v w, S.parseTag x = some v → S.parseTag y = some w → 0 ≤ S.compare v w

/-- The canonical tags, each once, from the highest version down. -/
structure VersionList (S : SemVer) (tags : List String) (out : List SkillRelease) : Prop where
  exact : ∀ tag, tag ∈ out.map SkillRelease.tag ↔ tag ∈ tags ∧ isReleaseTag S tag = true
  once : (out.map SkillRelease.tag).Nodup
  ordered : (out.map SkillRelease.tag).Pairwise (NotBelow S)

def Flat (S : SemVer) (tags : List String) : Prop :=
  ∀ a ∈ tags, ∀ b ∈ tags, isReleaseTag S a = true → isReleaseTag S b = true →
    ∀ v w, S.parseTag a = some v → S.parseTag b = some w → S.compare v w ≤ 0

section Listing

variable {out : List SkillRelease}

theorem filter_exact
    (known : ∀ tag ∈ tags, (A.commit ("refs/tags/" ++ trimSpace tag ++
      "^\x7bcommit\x7d")).isSome = true → trimSpace tag ∈ tags)
    (reads : ∀ tag ∈ tags, (releaseForTag S A tag).isOk = true)
    (names : (out.map SkillRelease.tag).Perm (tags.map trimSpace)) (tag : String) :
    tag ∈ (filterSkillReleaseVersions S out).map SkillRelease.tag ↔
      tag ∈ tags ∧ isReleaseTag S tag = true := by
  rw [filterSkillReleaseVersions, mem_keepReleaseVersions, names.mem_iff]
  simp only [List.not_mem_nil, not_false_eq_true, and_true]
  refine and_congr_left fun canonical => ?_
  constructor
  · intro member
    obtain ⟨raw, inTags, rfl⟩ := List.mem_map.mp member
    cases read : releaseForTag S A raw with
    | error e =>
      have ok := reads raw inTags
      rw [read] at ok
      cases ok
    | ok release =>
      rcases releaseForTag_eq_ok read with ⟨none, _⟩ | ⟨sha, _, _, found, _⟩
      · rw [← normalizeReleaseVersion_trimSpace, beq_iff_eq.mp canonical] at none
        cases none
      · exact known raw inTags (by simp [found])
  · intro member
    exact List.mem_map.mpr ⟨tag, member, trimSpace_of_isReleaseTag canonical⟩

theorem Consistent.of_subset (consistent : Consistent S tags)
    (sub : other ⊆ tags) : Consistent S other :=
  fun a inA b inB x inX => consistent a (sub inA) b (sub inB) x (sub inX)

theorem sorted_ordered (sort : StableSort SkillRelease)
    (consistent : Consistent S (out.map SkillRelease.tag)) :
    ((filterSkillReleaseVersions S (sort.run (releaseBefore S) out)).map SkillRelease.tag).Pairwise
      (NotBelow S) := by
  have order := releaseBefore_totalPreorder_iff.mpr consistent
  have sorted := sliceStable_sorted order
  rw [← sort.correct _ _ order] at sorted
  refine List.pairwise_map.mpr ((sorted.sublist keepReleaseVersions_sublist).imp ?_)
  intro x y before v w isX isY
  rw [releaseBefore_eq_false, notAfter_versions isX isY] at before
  have swap := S.compare_swap v w
  omega

open Classical in
/-- A stable sort that, where the comparison is no total preorder, puts one tag first. -/
noncomputable def contrarySort (first : String) : StableSort SkillRelease where
  run less list :=
    if TotalPreorderOn (fun x y => less y x = false) list then sliceStable less list
    else list.filter (·.tag == first) ++ list.filter (!·.tag == first)
  perm less list := by
    split_ifs
    · exact sliceStable_perm list
    · exact List.filter_append_perm _ list
  correct less list order := if_pos order

theorem contrarySort_head (canonical : isReleaseTag S first = true)
    (member : first ∈ out.map SkillRelease.tag)
    (inconsistent : ¬Consistent S (out.map SkillRelease.tag)) :
    ∃ x rest, filterSkillReleaseVersions S ((contrarySort first).run (releaseBefore S) out) =
      x :: rest ∧ x.tag = first := by
  have unordered : ¬TotalPreorderOn (fun x y => releaseBefore S y x = false) out :=
    fun order => inconsistent (releaseBefore_totalPreorder_iff.mp order)
  obtain ⟨y, inOut, tag⟩ := List.mem_map.mp member
  have some : out.filter (·.tag == first) ≠ [] :=
    List.ne_nil_of_mem (List.mem_filter.mpr ⟨inOut, by simp [tag]⟩)
  obtain ⟨x, rest, shape⟩ := List.exists_cons_of_ne_nil some
  have named : x.tag = first := by
    have inFilter : x ∈ out.filter (·.tag == first) := by simp [shape]
    simpa using (List.mem_filter.mp inFilter).2
  have shown : filterSkillReleaseVersions S ((contrarySort first).run (releaseBefore S) out) =
      x :: keepReleaseVersions S [x.tag] (rest ++ out.filter (!·.tag == first)) := by
    simp only [contrarySort, if_neg unordered, filterSkillReleaseVersions]
    rw [shape, List.cons_append, keepReleaseVersions_cons, if_pos ⟨named ▸ canonical, by simp⟩]
  exact ⟨x, _, shown, named⟩

end Listing

/-- Of a stable sort only what holds for total preorders is assumed. Then the version
list is right for every enumeration of the tags exactly when no tag that is not a
version stands between two versions in the wrong order, or no two versions differ in
precedence. -/
theorem release_list_iff (S : SemVer) (A : TagAnswer) (tags : List String)
    (opened : A.openFault = none) (listed : A.tagsFault = none)
    (known : ∀ tag ∈ tags, (A.commit ("refs/tags/" ++ trimSpace tag ++
      "^\x7bcommit\x7d")).isSome = true → trimSpace tag ∈ tags)
    (reads : ∀ tag ∈ tags, (releaseForTag S A tag).isOk = true) :
    (∀ (sort : StableSort SkillRelease) (enumeration : List String), enumeration.Perm tags →
      ∃ out, listReleases S sort A enumeration = .ok out ∧
        VersionList S tags (filterSkillReleaseVersions S out)) ↔
      Consistent S (tags.map trimSpace) ∨ Flat S tags := by
  constructor
  · intro right
    by_contra neither
    obtain ⟨inconsistent, uneven⟩ := not_or.mp neither
    simp only [Flat, not_forall] at uneven
    obtain ⟨a, inA, b, inB, aCanonical, bCanonical, v, w, isA, isB, above⟩ := uneven
    obtain ⟨read, done, names⟩ := releasesForTags_eq_ok reads
    obtain ⟨out, ok, exact_, _, ordered⟩ := right (contrarySort b) tags (.refl _)
    simp only [listReleases, opened, listed, done, Except.ok.injEq] at ok
    subst ok
    have first : b ∈ read.map SkillRelease.tag := by
      rw [names]
      exact List.mem_map.mpr ⟨b, inB, trimSpace_of_isReleaseTag bCanonical⟩
    obtain ⟨x, rest, shape, named⟩ := contrarySort_head bCanonical first (names ▸ inconsistent)
    rw [shape] at exact_ ordered
    have shown := (exact_ a).mpr ⟨inA, aCanonical⟩
    rw [List.map_cons, named] at shown ordered
    rcases List.mem_cons.mp shown with rfl | later
    · rw [isA, Option.some.injEq] at isB
      subst isB
      have swap := S.compare_swap v v
      omega
    · have order := (List.pairwise_cons.mp ordered).1 a later w v isB isA
      have swap := S.compare_swap w v
      omega
  · intro condition sort enumeration perm
    have readsAll : ∀ tag ∈ enumeration, (releaseForTag S A tag).isOk = true :=
      fun tag member => reads tag (perm.mem_iff.mp member)
    obtain ⟨read, done, names⟩ := releasesForTags_eq_ok readsAll
    have sortedNames : ((sort.run (releaseBefore S) read).map SkillRelease.tag).Perm
        (tags.map trimSpace) :=
      ((sort.perm _ read).map _).trans (names ▸ perm.map trimSpace)
    refine ⟨sort.run (releaseBefore S) read, ?_, ?_⟩
    · simp only [listReleases, opened, listed, done]
    · have all := filter_exact known reads sortedNames
      refine ⟨all, keepReleaseVersions_nodup, ?_⟩
      rcases condition with consistent | flat
      · refine sorted_ordered sort (consistent.of_subset ?_)
        rw [names]
        exact (perm.map trimSpace).subset
      · refine List.pairwise_of_forall_mem_list fun x inX y inY v w isX isY => ?_
        obtain ⟨xTag, xCanonical⟩ := (all x).mp inX
        obtain ⟨yTag, yCanonical⟩ := (all y).mp inY
        have level := flat y yTag x xTag yCanonical xCanonical w v isY isX
        have swap := S.compare_swap v w
        omega

theorem operational_tag_in_order :
    ∃ out, listReleases coreSemVer (insertionSort SkillRelease)
        (oneCommit ["v1.9.0", "backup", "v1.10.0"]) ["v1.9.0", "v1.10.0", "backup"] = .ok out ∧
      VersionList coreSemVer ["v1.9.0", "backup", "v1.10.0"]
        (filterSkillReleaseVersions coreSemVer out) := by
  refine (release_list_iff coreSemVer (oneCommit ["v1.9.0", "backup", "v1.10.0"]) _ rfl rfl
    (by decide +kernel) (by decide +kernel)).mpr (.inl ?_) (insertionSort SkillRelease) _ (by decide)
  have low : ∀ b ∈ (["v1.9.0", "backup", "v1.10.0"] : List String).map trimSpace,
      ∀ x ∈ (["v1.9.0", "backup", "v1.10.0"] : List String).map trimSpace,
      (coreSemVer.parseTag b).isSome = true → (coreSemVer.parseTag x).isNone = true → ¬b < x := by
    decide +kernel
  intro a _ b inB x inX v w _ isB isX _ between
  exact low b inB x inX (by simp [isB]) (by simp [isX]) between.1

/-- As text, `v1.5x` stands between `v1.10.0` and `v1.9.0`. Enumerated in this order,
no neighbours change places. -/
theorem operational_tag_breaks_order :
    ∃ out, listReleases coreSemVer (insertionSort SkillRelease)
        (oneCommit ["v1.9.0", "v1.5x", "v1.10.0"]) ["v1.9.0", "v1.5x", "v1.10.0"] = .ok out ∧
      (filterSkillReleaseVersions coreSemVer out).map SkillRelease.tag = ["v1.9.0", "v1.10.0"] ∧
      ¬VersionList coreSemVer ["v1.9.0", "v1.5x", "v1.10.0"]
        (filterSkillReleaseVersions coreSemVer out) := by
  obtain ⟨out, done, shown⟩ := map_eq_ok
    (by decide +kernel : (listReleases coreSemVer (insertionSort SkillRelease)
      (oneCommit ["v1.9.0", "v1.5x", "v1.10.0"]) ["v1.9.0", "v1.5x", "v1.10.0"]).map
      (fun out => (filterSkillReleaseVersions coreSemVer out).map SkillRelease.tag) =
      .ok ["v1.9.0", "v1.10.0"])
  refine ⟨out, done, shown, fun right => ?_⟩
  have ordered := right.ordered
  rw [shown] at ordered
  have pair := (List.pairwise_cons.mp ordered).1 "v1.10.0" (by simp) ⟨"1.9.0", by decide⟩
    ⟨"1.10.0", by decide⟩ rfl rfl
  exact absurd pair (by decide +kernel)

end AisphereHub
