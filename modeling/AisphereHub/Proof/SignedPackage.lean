import AisphereHub.Biz.SkillPack
import Mathlib.Data.Set.Defs

/-! What a signed package URL grants. The parameters are joined by `|` as they stand, so the text of
an issued URL is signed for every other way to cut it into three parts. -/
namespace AisphereHub
namespace PackageSigner

open GoStrings GoStrconv

variable {name ref rt : String}

theorem packagePayload_inj : packagePayload name ref rt exp = packagePayload n r t e ↔
    join [name, ref, rt] '|' = join [n, r, t] '|' ∧ exp = e := by
  have digits : ∀ n : Int, '|' ∉ (toString n).toList :=
    fun n => not_mem_toString (by decide) (by decide)
  have shape (name ref rt : String) (exp : Int) : (packagePayload name ref rt exp).toList =
      (join [name, ref, rt] '|').toList ++ '|' :: (toString exp).toList := by
    simp [packagePayload, join_cons, join_singleton]
  constructor
  · intro same
    rw [← String.toList_inj, shape, shape] at same
    obtain ⟨first, last⟩ | ⟨_, _, inside⟩ | ⟨_, _, inside⟩ := separated_iff.mp same
    · exact ⟨String.toList_inj.mp first, toString_inj (String.toList_inj.mp last)⟩
    · exact absurd (inside ▸ by simp) (digits exp)
    · exact absurd (inside ▸ by simp) (digits e)
  · rintro ⟨same, rfl⟩
    rw [← String.toList_inj, shape, shape, same]

theorem download_eq_ok {s : PackageSigner}
    (keyed : s.secret ≠ "") : s.download now p = .ok () ↔
      (p.name ≠ "" ∧ p.ref ≠ "" ∧ p.rt ≠ "" ∧ p.exp ≠ "" ∧ p.sig ≠ "") ∧
      ∃ exp, atoi p.exp = some exp ∧ unix now ≤ exp ∧
        s.sign (packagePayload p.name p.ref p.rt exp) = p.sig := by
  simp only [download, verifyDownloadURL, if_neg keyed]
  split_ifs with missing
  · tauto
  · cases atoi p.exp with
    | none => simp
    | some exp =>
      simp only [Option.some.injEq, exists_eq_left']
      split_ifs with late other
      · simp [Int.not_le.mpr late]
      · simp [other]
      · rw [not_not] at other
        exact ⟨fun _ => ⟨by tauto, Int.not_lt.mp late, other⟩, fun _ => rfl⟩

theorem ne_empty_of_atoi (read : atoi text = some exp) : text ≠ "" := by
  rintro rfl
  rw [show atoi "" = none by decide] at read
  cases read

/-- Among holders of issued signatures, requests are served exactly for the parameters of URLs that
have not expired, if and only if every such URL was issued for parameters that are present, and each
way to cut its text into three parts that are present was issued too. -/
theorem downloads_iff_issued (s : PackageSigner) (keyed : s.secret ≠ "")
    (injective : Function.Injective s.sign) (visible : ∀ payload, s.sign payload ≠ "")
    (issued : Set PackageURL)
    (built : ∀ u ∈ issued, ∃ now, u = s.buildDownloadURL now u.name u.ref u.rt)
    (ranged : ∀ u ∈ issued, minInt64 ≤ u.exp ∧ u.exp ≤ maxInt64) (now : Int) :
    (∀ p : PackageParameters, (∃ u ∈ issued, u.sig = p.sig) →
      (s.download now p = .ok () ↔ ∃ u ∈ issued, u.name = p.name ∧ u.ref = p.ref ∧ u.rt = p.rt ∧
        atoi p.exp = some u.exp ∧ u.sig = p.sig ∧ unix now ≤ u.exp)) ↔
      ∀ u ∈ issued, unix now ≤ u.exp → (u.name ≠ "" ∧ u.ref ≠ "" ∧ u.rt ≠ "") ∧
        ∀ name ref rt, name ≠ "" → ref ≠ "" → rt ≠ "" →
          join [name, ref, rt] '|' = join [u.name, u.ref, u.rt] '|' →
          ∃ v ∈ issued, v.name = name ∧ v.ref = ref ∧ v.rt = rt ∧ v.exp = u.exp := by
  have signed : ∀ u ∈ issued, u.sig = s.sign (packagePayload u.name u.ref u.rt u.exp) := by
    intro u member
    obtain ⟨_, shape⟩ := built u member
    rw [shape]
    rfl
  simp only [download_eq_ok keyed]
  constructor
  · intro exact u member fresh
    have read := atoi_toString (ranged u member).1 (ranged u member).2
    obtain ⟨⟨name, ref, rt, _⟩, _⟩ := (exact ⟨u.name, u.ref, u.rt, toString u.exp, u.sig⟩
      ⟨u, member, rfl⟩).mpr ⟨u, member, rfl, rfl, rfl, read, rfl, fresh⟩
    refine ⟨⟨name, ref, rt⟩, fun name ref rt named refers runs same => ?_⟩
    obtain ⟨v, issued, name, ref, rt, again, _⟩ := (exact ⟨name, ref, rt, toString u.exp, u.sig⟩
      ⟨u, member, rfl⟩).mp ⟨⟨named, refers, runs, ne_empty_of_atoi read, signed u member ▸ visible _⟩,
        u.exp, read, fresh, by rw [signed u member, packagePayload_inj.mpr ⟨same, rfl⟩]⟩
    exact ⟨v, issued, name, ref, rt, Option.some.inj (again.symm.trans read)⟩
  · rintro whole p ⟨u, member, same⟩
    constructor
    · rintro ⟨⟨named, refers, runs, _⟩, exp, read, fresh, sealed⟩
      rw [← same, signed u member] at sealed
      obtain ⟨cut, rfl⟩ := packagePayload_inj.mp (injective sealed)
      obtain ⟨v, issued, name, ref, rt, exp⟩ :=
        (whole u member fresh).2 p.name p.ref p.rt named refers runs cut
      refine ⟨v, issued, name, ref, rt, exp ▸ read, ?_, exp ▸ fresh⟩
      rw [signed v issued, name, ref, rt, exp, ← same, signed u member, sealed]
    · rintro ⟨v, issued, name, ref, rt, read, mark, fresh⟩
      obtain ⟨⟨named, refers, runs⟩, _⟩ := whole v issued fresh
      have sealed := signed v issued
      rw [← name, ← ref, ← rt, ← mark]
      exact ⟨⟨named, refers, runs, ne_empty_of_atoi read, sealed ▸ visible _⟩, v.exp, read, fresh,
        sealed.symm⟩

/-- Parameters without `|` can be cut out of their text in one way only. -/
theorem cut_plain (plainName : '|' ∉ n.toList) (plainRef : '|' ∉ r.toList) (plainRt : '|' ∉ t.toList)
    (same : join [name, ref, rt] '|' = join [n, r, t] '|') : name = n ∧ ref = r ∧ rt = t := by
  have free : ∀ part ∈ [n, r, t], '|' ∉ part.toList := by simp [plainName, plainRef, plainRt]
  -- as many separators as the text has are between the parameters
  have marks : ∀ part ∈ [name, ref, rt], '|' ∉ part.toList := by
    have count := congrArg (fun text => text.toList.count '|') same
    simp only [List.forall_mem_cons, ← List.count_eq_zero] at free ⊢
    simp only [join_cons, join_singleton, String.toList_append, String.toList_ofList,
      List.count_append] at count
    exact ⟨by omega, by omega, by omega, nofun⟩
  have parts := congrArg (split · '|') same
  rw [split_join (by simp) marks, split_join (by simp) free] at parts
  simpa using parts

def marking : PackageSigner := newSkillPackageService (fun _ payload => "#" ++ payload) "k" 0

theorem marking_injective : Function.Injective marking.sign := by
  intro first second same
  simpa [sign, marking, newSkillPackageService] using same

theorem issued_url_served :
    marking.download 0 ⟨"skill", "v1.0.0", "rt", "600", "#skill|v1.0.0|rt|600"⟩ = .ok () := by
  refine ((downloads_iff_issued marking (by decide) marking_injective (fun payload => ?_)
    {marking.buildDownloadURL 0 "skill" "v1.0.0" "rt"} ?_ ?_ 0).mpr ?_ _ ⟨_, rfl, by decide⟩).mpr
      ⟨_, rfl, by decide⟩
  · simp [sign, marking, newSkillPackageService]
  · rintro u rfl
    exact ⟨0, rfl⟩
  · rintro u rfl
    decide
  · rintro u rfl _
    refine ⟨by decide, fun name ref rt _ _ _ same => ?_⟩
    obtain ⟨rfl, rfl, rfl⟩ := cut_plain (by decide) (by decide) (by decide) same
    exact ⟨_, rfl, rfl, rfl, rfl, rfl⟩

/-- A URL for a runtime `x|y` also serves the version `v1.0.0|x` to a runtime `y`. -/
theorem shifted_parameters_served : Function.Injective marking.sign ∧
    marking.download 0 ⟨"skill", "v1.0.0|x", "y", "600",
      (marking.buildDownloadURL 0 "skill" "v1.0.0" "x|y").sig⟩ = .ok () ∧
    ¬∃ u ∈ ({marking.buildDownloadURL 0 "skill" "v1.0.0" "x|y"} : Set PackageURL),
      u.name = "skill" ∧ u.ref = "v1.0.0|x" ∧ u.rt = "y" := by
  refine ⟨marking_injective, by decide, ?_⟩
  rintro ⟨u, rfl, _, ref, _⟩
  exact absurd ref (by decide)

end PackageSigner
end AisphereHub
