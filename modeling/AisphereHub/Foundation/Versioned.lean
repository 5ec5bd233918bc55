import AisphereHub.Foundation.Keyed
import AisphereHub.Foundation.Transition

/-! Tables whose rows carry a version. `Advances` is what a run of writes may do
when every write that changes a row's content moves its version up: rows may
leave the filter, no row enters it, and a row that kept its version kept its
content. -/
namespace Versioned

variable {κ ρ α : Type} [DecidableEq κ]
  (key : ρ → κ) (live : ρ → Bool) (version : ρ → Int) (content : ρ → α)

def Advances (before after : List ρ) : Prop :=
  ∀ k r', Keyed.select key live after k = some r' →
    ∃ r, Keyed.select key live before k = some r ∧
      (version r < version r' ∨ (version r' = version r ∧ content r' = content r))

variable {key live version content}

theorem Advances.refl (table : List ρ) : Advances key live version content table table := by
  intro k r found
  exact ⟨r, found, .inr ⟨rfl, rfl⟩⟩

theorem Advances.trans
    (front : Advances key live version content first second)
    (back : Advances key live version content second third) :
    Advances key live version content first third := by
  intro k r'' found''
  obtain ⟨r', found', moved'⟩ := back k r'' found''
  obtain ⟨r, found, moved⟩ := front k r' found'
  refine ⟨r, found, ?_⟩
  rcases moved with up | ⟨sameVersion, sameContent⟩
  · rcases moved' with up' | ⟨sameVersion', _⟩
    · exact .inl (Int.lt_trans up up')
    · exact .inl (sameVersion' ▸ up)
  · rcases moved' with up' | ⟨sameVersion', sameContent'⟩
    · exact .inl (sameVersion ▸ up')
    · exact .inr ⟨sameVersion'.trans sameVersion, sameContent'.trans sameContent⟩

theorem advances_amend
    (keep : ∀ r, key (f r) = key r) (keepLive : ∀ r, live (f r) = live r)
    (moved : ∀ r, version r < version (f r) ∨
      (version (f r) = version r ∧ content (f r) = content r)) :
    Advances key live version content table (Keyed.amend key table k f) := by
  intro j r' found
  rw [Keyed.select_amend f keep keepLive] at found
  split_ifs at found with same
  · obtain ⟨r, selected, rfl⟩ := Option.map_eq_some_iff.mp found
    exact ⟨r, same ▸ selected, moved r⟩
  · exact ⟨r', found, .inr ⟨rfl, rfl⟩⟩

theorem advances_amend_dead
    (keep : ∀ r, key (f r) = key r) (dead : ∀ r, live (f r) = false) :
    Advances key live version content table (Keyed.amend key table k f) := by
  intro j r' found
  rw [Keyed.select, Keyed.lookup_amend keep] at found
  split_ifs at found with same
  · obtain ⟨held, alive⟩ := Option.filter_eq_some_iff.mp found
    obtain ⟨r, _, rfl⟩ := Option.map_eq_some_iff.mp held
    simp [dead] at alive
  · exact ⟨r', found, .inr ⟨rfl, rfl⟩⟩

theorem advances_run {step}
    (each : ∀ table write table', step table write = some table' →
      Advances key live version content table table') {writes : List ι}
    (ran : Transition.run step before writes = some after) :
    Advances key live version content before after := by
  refine Transition.run_invariant (I := Advances key live version content before) ?_
    (Advances.refl before) ran
  intro table write table' reached taken
  exact reached.trans (each table write table' taken)

theorem Advances.content_eq
    (advances : Advances key live version content before after)
    (found : Keyed.select key live before k = some r)
    (found' : Keyed.select key live after k = some r') (same : version r' = version r) :
    content r' = content r := by
  obtain ⟨origin, selected, moved⟩ := advances k r' found'
  obtain rfl : r = origin := Option.some.inj (found.symm.trans selected)
  rcases moved with up | ⟨_, sameContent⟩
  · exact absurd same (Int.ne_of_gt up)
  · exact sameContent

theorem Advances.version_le (advances : Advances key live version content before after)
    (found : Keyed.select key live before k = some r)
    (found' : Keyed.select key live after k = some r') : version r ≤ version r' := by
  obtain ⟨origin, selected, moved⟩ := advances k r' found'
  obtain rfl : r = origin := Option.some.inj (found.symm.trans selected)
  omega

end Versioned
