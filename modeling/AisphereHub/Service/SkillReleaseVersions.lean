import AisphereHub.Biz.SkillRelease
import Mathlib.Data.List.Nodup

/-! The versions of a skill that the service shows: of all tags the canonical ones,
each once. -/
namespace AisphereHub

def keepReleaseVersions (S : SemVer) (seen : List String) : List SkillRelease → List SkillRelease
  | [] => []
  | item :: rest =>
    match normalizeReleaseVersion S item.tag with
    | none => keepReleaseVersions S seen rest
    | some canonical =>
      if item.tag ≠ canonical then keepReleaseVersions S seen rest
      else if canonical ∈ seen then keepReleaseVersions S seen rest
      else item :: keepReleaseVersions S (canonical :: seen) rest

def filterSkillReleaseVersions (S : SemVer) (items : List SkillRelease) : List SkillRelease :=
  keepReleaseVersions S [] items

variable {S : SemVer} {seen : List String} {items : List SkillRelease}

theorem keepReleaseVersions_cons (item : SkillRelease) :
    keepReleaseVersions S seen (item :: items) =
      if isReleaseTag S item.tag = true ∧ item.tag ∉ seen then
        item :: keepReleaseVersions S (item.tag :: seen) items
      else keepReleaseVersions S seen items := by
  rw [keepReleaseVersions]
  unfold isReleaseTag
  cases parsed : normalizeReleaseVersion S item.tag with
  | none => simp
  | some canonical =>
    by_cases same : item.tag = canonical
    · subst same
      by_cases old : item.tag ∈ seen
      · simp [old]
      · simp [old]
    · simp [same, Ne.symm same]

theorem keepReleaseVersions_sublist : (keepReleaseVersions S seen items).Sublist items := by
  induction items generalizing seen with
  | nil => exact .slnil
  | cons item items ih =>
    rw [keepReleaseVersions_cons]
    split_ifs
    · exact ih.cons_cons item
    · exact ih.cons item

theorem mem_keepReleaseVersions :
    tag ∈ (keepReleaseVersions S seen items).map SkillRelease.tag ↔
      tag ∈ items.map SkillRelease.tag ∧ isReleaseTag S tag = true ∧ tag ∉ seen := by
  induction items generalizing seen with
  | nil => simp [keepReleaseVersions]
  | cons item items ih =>
    rw [keepReleaseVersions_cons]
    by_cases kept : isReleaseTag S item.tag = true ∧ item.tag ∉ seen
    · rw [if_pos kept, List.map_cons, List.mem_cons, ih, List.map_cons, List.mem_cons,
        List.mem_cons, not_or]
      constructor
      · rintro (rfl | ⟨member, canonical, _, fresh⟩)
        · exact ⟨.inl rfl, kept⟩
        · exact ⟨.inr member, canonical, fresh⟩
      · rintro ⟨same | member, canonical, fresh⟩
        · exact .inl same
        · by_cases same : tag = item.tag
          · exact .inl same
          · exact .inr ⟨member, canonical, same, fresh⟩
    · rw [if_neg kept, ih, List.map_cons, List.mem_cons]
      constructor
      · rintro ⟨member, rest⟩
        exact ⟨.inr member, rest⟩
      · rintro ⟨rfl | member, rest⟩
        · exact absurd rest kept
        · exact ⟨member, rest⟩

theorem keepReleaseVersions_nodup :
    ((keepReleaseVersions S seen items).map SkillRelease.tag).Nodup := by
  induction items generalizing seen with
  | nil => simp [keepReleaseVersions]
  | cons item items ih =>
    rw [keepReleaseVersions_cons]
    split_ifs
    · rw [List.map_cons, List.nodup_cons]
      refine ⟨fun member => ?_, ih⟩
      exact (mem_keepReleaseVersions.mp member).2.2 (by simp)
    · exact ih

end AisphereHub
