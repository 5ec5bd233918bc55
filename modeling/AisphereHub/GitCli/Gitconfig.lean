import AisphereHub.Biz.Error
import Mathlib.Data.List.Induction
import Mathlib.Data.List.TakeWhile
import Mathlib.Tactic.Conv

/-! The global git configuration that `git aisphere install` writes. Setting a key that has
one value replaces the value where it stands, so the empty helper that the first command
writes, which would reset the helpers listed before it, is the entry that the second command
overwrites. -/
namespace AisphereHub

abbrev GitConfig := List (String × String)

def GitConfig.values (cfg : GitConfig) (key : String) : List String :=
  (cfg.filter (·.1 == key)).map (·.2)

/-- `git config --global key value`. -/
def gitConfig (cfg : GitConfig) (args : String × String) : Except String GitConfig :=
  if (cfg.values args.1).length = 0 then .ok (cfg ++ [args])
  else if (cfg.values args.1).length = 1 then
    .ok (cfg.map fun e => if e.1 = args.1 then args else e)
  else .error ("git config --global " ++ args.1 ++ " " ++ args.2 ++
      ": exit status 5 (error: cannot overwrite multiple values with a single value)")

def helperKey (gitEndpoint : String) : String := "credential." ++ gitEndpoint ++ ".helper"

def useHttpPathKey (gitEndpoint : String) : String := "credential." ++ gitEndpoint ++ ".useHttpPath"

def install (cfg : GitConfig) (gitEndpoint : String) : Except String GitConfig := do
  let cleared ← gitConfig cfg (helperKey gitEndpoint, "")
  let set ← gitConfig cleared (helperKey gitEndpoint, "aisphere")
  gitConfig set (useHttpPathKey gitEndpoint, "true")

/-- The helpers that a list of values names, an empty value resetting the ones before it. -/
def helpersOf (values : List String) : List String :=
  values.foldl (fun helpers value => if value = "" then [] else helpers ++ [value]) []

def GitConfig.applying (cfg : GitConfig) (applies : String → Bool) : List String :=
  (cfg.filter fun e => applies e.1).map (·.2)

/-- The helpers git asks, in order: those under the keys that apply. -/
def effectiveHelpers (applies : String → Bool) (cfg : GitConfig) : List String :=
  helpersOf (cfg.applying applies)

/-- The entries in front of the first one of a key. -/
def GitConfig.above (cfg : GitConfig) (key : String) : GitConfig :=
  cfg.takeWhile fun e => decide (e.1 ≠ key)

/-- The entries behind the first one of a key. -/
def GitConfig.below (cfg : GitConfig) (key : String) : GitConfig :=
  (cfg.dropWhile fun e => decide (e.1 ≠ key)).drop 1

variable {cfg cfg' rest : GitConfig} {args : String × String} {applies : String → Bool}
variable {key value gitEndpoint : String}

theorem values_eq_nil : cfg.values key = [] ↔ ∀ e ∈ cfg, e.1 ≠ key := by
  simp [GitConfig.values, List.filter_eq_nil_iff]

theorem ne_of_mem_above (member : e ∈ cfg.above key) : e.1 ≠ key := by
  simpa using List.mem_takeWhile_imp member

theorem split_at_key (cfg : GitConfig) (key : String) :
    cfg = cfg.above key ∧ cfg.below key = [] ∨
      ∃ value, cfg = cfg.above key ++ (key, value) :: cfg.below key := by
  have whole : cfg.above key ++ cfg.dropWhile (fun e => decide (e.1 ≠ key)) = cfg :=
    List.takeWhile_append_dropWhile
  unfold GitConfig.below
  cases back : cfg.dropWhile (fun e => decide (e.1 ≠ key)) with
  | nil =>
    rw [back, List.append_nil] at whole
    exact .inl ⟨whole.symm, rfl⟩
  | cons e rest =>
    have stopped := List.head?_dropWhile_not (fun e => decide (e.1 ≠ key)) cfg
    rw [back] at stopped
    have own : e.1 = key := by simpa using stopped
    rw [back] at whole
    subst own
    exact .inr ⟨e.2, whole.symm⟩

theorem replace_of_absent (absent : ∀ e ∈ cfg, e.1 ≠ args.1) :
    cfg.map (fun e => if e.1 = args.1 then args else e) = cfg := by
  rw [List.map_congr_left fun e member => if_neg (absent e member), List.map_id']

/-- What one command does: it sets the one entry of its key where it stands, or at the end. -/
theorem gitConfig_eq_ok (set : gitConfig cfg args = .ok cfg') :
    cfg' = cfg.above args.1 ++ args :: cfg.below args.1 ∧ ∀ e ∈ cfg.below args.1, e.1 ≠ args.1 := by
  have front : (cfg.above args.1).values args.1 = [] :=
    values_eq_nil.mpr fun _ => ne_of_mem_above
  unfold gitConfig at set
  rcases split_at_key cfg args.1 with ⟨whole, last⟩ | ⟨value, whole⟩
  · rw [whole, front] at set
    cases set
    rw [← whole, last]
    exact ⟨rfl, by simp⟩
  · have counted : cfg.values args.1 = value :: (cfg.below args.1).values args.1 := by
      conv_lhs => rw [whole]
      simpa [GitConfig.values] using front
    rw [counted, if_neg (by simp)] at set
    split at set
    next one =>
      have later : ∀ e ∈ cfg.below args.1, e.1 ≠ args.1 := values_eq_nil.mp (by simpa using one)
      cases set
      refine ⟨?_, later⟩
      conv_lhs => rw [whole, List.map_append, List.map_cons, if_pos rfl,
        replace_of_absent fun _ => ne_of_mem_above, replace_of_absent later]
    next => cases set

theorem gitConfig_values (set : gitConfig cfg args = .ok cfg') : cfg'.values args.1 = [args.2] := by
  obtain ⟨rfl, later⟩ := gitConfig_eq_ok set
  have front : (cfg.above args.1).values args.1 = [] :=
    values_eq_nil.mpr fun _ => ne_of_mem_above
  have back := values_eq_nil.mpr later
  simp only [GitConfig.values, List.map_eq_nil_iff] at front back
  simp [GitConfig.values, front, back]

/-- Entries of other keys stay as they were, and in their order. -/
theorem gitConfig_applying (applies : String → Bool) (set : gitConfig cfg args = .ok cfg')
    (other : applies args.1 = false) :
    cfg'.applying applies = cfg.applying applies := by
  obtain ⟨rfl, _⟩ := gitConfig_eq_ok set
  rcases split_at_key cfg args.1 with ⟨whole, last⟩ | ⟨value, whole⟩
  · rw [last, ← whole]
    simp [GitConfig.applying, other]
  · conv_rhs => rw [whole]
    simp [GitConfig.applying, other]

theorem gitConfig_succeeds (args : String × String) (few : (cfg.values args.1).length ≤ 1) :
    ∃ cfg', gitConfig cfg args = .ok cfg' := by
  unfold gitConfig
  split_ifs
  · exact ⟨_, rfl⟩
  · exact ⟨_, rfl⟩
  · omega

theorem above_set : GitConfig.above (cfg.above key ++ (key, value) :: rest) key = cfg.above key := by
  conv_lhs => rw [GitConfig.above,
    List.takeWhile_append_of_pos fun e member => decide_eq_true (ne_of_mem_above member)]
  simp

theorem below_set : GitConfig.below (cfg.above key ++ (key, value) :: rest) key = rest := by
  rw [GitConfig.below,
    List.dropWhile_append_of_pos fun e member => decide_eq_true (ne_of_mem_above member)]
  simp

theorem useHttpPathKey_ne (gitEndpoint : String) :
    useHttpPathKey gitEndpoint ≠ helperKey gitEndpoint := by
  simp [useHttpPathKey, helperKey, String.append_right_inj]

theorem helpersOf_append (front back : List String) :
    helpersOf (front ++ back) =
      if "" ∈ back then helpersOf back else helpersOf front ++ back := by
  induction back using List.reverseRecOn with
  | nil => simp
  | append_singleton back value ih =>
    have last (values : List String) : helpersOf (values ++ [value]) =
        if value = "" then [] else helpersOf values ++ [value] := by
      simp only [helpersOf, List.foldl_append, List.foldl_cons, List.foldl_nil]
    rw [← List.append_assoc, last, last, ih]
    by_cases reset : value = ""
    · simp [reset]
    · by_cases earlier : "" ∈ back <;> simp [reset, Ne.symm reset, earlier]

/-- The command overwrites its own reset, so the installed helper stands where the endpoint's
entry stood, between the values that applied before. -/
theorem install_applying (own : applies (helperKey gitEndpoint) = true)
    (plain : applies (useHttpPathKey gitEndpoint) = false)
    (installed : install cfg gitEndpoint = .ok cfg') :
    cfg'.applying applies = (cfg.above (helperKey gitEndpoint)).applying applies ++
      "aisphere" :: (cfg.below (helperKey gitEndpoint)).applying applies := by
  obtain ⟨cleared, first, rest⟩ := bind_eq_ok.mp installed
  obtain ⟨set, second, third⟩ := bind_eq_ok.mp rest
  obtain ⟨rfl, _⟩ := gitConfig_eq_ok first
  rw [gitConfig_applying applies third plain, (gitConfig_eq_ok second).1, above_set, below_set]
  simp [GitConfig.applying, own]

theorem install_again (installed : install cfg gitEndpoint = .ok cfg') :
    ∃ again, install cfg' gitEndpoint = .ok again := by
  obtain ⟨cleared, first, rest⟩ := bind_eq_ok.mp installed
  obtain ⟨set, second, third⟩ := bind_eq_ok.mp rest
  have other := useHttpPathKey_ne gitEndpoint
  have http := gitConfig_values third
  have helper := (gitConfig_applying (· == helperKey gitEndpoint) third
    (by simpa using other)).trans (gitConfig_values second)
  obtain ⟨cleared', first'⟩ := gitConfig_succeeds (helperKey gitEndpoint, "")
    (Nat.le_of_eq (congrArg List.length helper))
  obtain ⟨set', second'⟩ := gitConfig_succeeds (helperKey gitEndpoint, "aisphere")
    (Nat.le_of_eq (congrArg List.length (gitConfig_values first')))
  have kept (cfg₁ cfg₂ : GitConfig) (v : String)
      (step : gitConfig cfg₁ (helperKey gitEndpoint, v) = .ok cfg₂) :
      cfg₂.values (useHttpPathKey gitEndpoint) = cfg₁.values (useHttpPathKey gitEndpoint) :=
    gitConfig_applying (· == useHttpPathKey gitEndpoint) step
      (by simpa using other.symm)
  have single := (kept _ _ _ second').trans ((kept _ _ _ first').trans http)
  obtain ⟨again, third'⟩ := gitConfig_succeeds (useHttpPathKey gitEndpoint, "true")
    (Nat.le_of_eq (congrArg List.length single))
  exact ⟨again, bind_eq_ok.mpr ⟨cleared', first', bind_eq_ok.mpr ⟨set', second', third'⟩⟩⟩

/-- The installed helper is the only one exactly where the values that apply above the
endpoint's entry name no helper and none applies below it, or where a reset below it leaves just
that helper; and installing again succeeds. -/
theorem install_exclusive_iff (cfg cfg' : GitConfig) (gitEndpoint : String)
    (applies : String → Bool) (own : applies (helperKey gitEndpoint) = true)
    (plain : applies (useHttpPathKey gitEndpoint) = false)
    (installed : install cfg gitEndpoint = .ok cfg') :
    (effectiveHelpers applies cfg' = ["aisphere"] ↔
      if "" ∈ (cfg.below (helperKey gitEndpoint)).applying applies then
        effectiveHelpers applies (cfg.below (helperKey gitEndpoint)) = ["aisphere"]
      else effectiveHelpers applies (cfg.above (helperKey gitEndpoint)) = [] ∧
        (cfg.below (helperKey gitEndpoint)).applying applies = []) ∧
    ∃ again, install cfg' gitEndpoint = .ok again := by
  refine ⟨?_, install_again installed⟩
  rw [effectiveHelpers, install_applying own plain installed, List.append_cons, helpersOf_append]
  split_ifs with reset
  · rfl
  · rw [helpersOf_append, if_neg (by simp), effectiveHelpers, List.append_assoc,
      List.append_eq_singleton_iff]
    simp

/-- The helper of every URL is asked too. -/
def everyURL (gitEndpoint key : String) : Bool :=
  key == "credential.helper" || key == helperKey gitEndpoint

theorem install_exclusive_reset : ∃ cfg', install [("credential.helper", "manager"),
      ("credential.helper", ""), (helperKey "https://h/git", "store")] "https://h/git" = .ok cfg' ∧
    effectiveHelpers (everyURL "https://h/git") cfg' = ["aisphere"] ∧
    ∃ again, install cfg' "https://h/git" = .ok again := by
  obtain ⟨cfg', installed⟩ : ∃ cfg', install [("credential.helper", "manager"),
    ("credential.helper", ""), (helperKey "https://h/git", "store")] "https://h/git" = .ok cfg' :=
    ⟨_, rfl⟩
  obtain ⟨exclusive, again⟩ := install_exclusive_iff _ cfg' "https://h/git"
    (everyURL "https://h/git") (by decide) (by decide) installed
  exact ⟨cfg', installed, exclusive.mpr (by decide), again⟩

/-- A helper set for every URL is still asked, and before the installed one. -/
theorem install_keeps_inherited : ∃ cfg', install [("credential.helper", "manager")]
      "https://h/git" = .ok cfg' ∧
    effectiveHelpers (everyURL "https://h/git") cfg' = ["manager", "aisphere"] :=
  ⟨_, rfl, by decide⟩

end AisphereHub
