import AisphereHub.Proof.AgentCalls
import AisphereHub.Proof.AgentPlan

/-! The versions that updates choose. The next version is counted from the latest one alone,
in the series it belongs to, so it is free while the latest one is ahead in its series. -/
namespace AisphereHub

open GoStrconv Transition
open GoStrings

/-- What stays when a version is counted up. -/
inductive Series where
  | number (lead : String)
  | patch (lead major minor : String)
deriving DecidableEq

def Series.label : Series → Int → String
  | .number lead, n => lead ++ toString n
  | .patch lead major minor, n => lead ++ join [major, minor, toString n] '.'

def seriesIn (lead body : String) : Option (Series × Int) :=
  let number := (atoi body).map fun n => (Series.number lead, n)
  match split body '.' with
  | [major, minor, rest] =>
    match atoi ((split rest '-').headD "") with
    | some patch => some (.patch lead major minor, patch)
    | none => number
  | _ => number

def seriesOf (label : String) : Option (Series × Int) :=
  seriesIn (if hasPrefix label "v" then "v" else "") (trimPrefix label "v")

/-- A series that some version without white space around it belongs to. -/
def Series.Wf : Series → Prop
  | .number lead => lead = "" ∨ lead = "v"
  | .patch lead major minor => '.' ∉ major.toList ∧ '.' ∉ minor.toList ∧
      (lead = "v" ∨ lead = "" ∧ ∀ c ∈ major.toList.head?, c ≠ 'v' ∧ isSpace c = false)

def Series.Holds (series : Series) (n : Int) : Prop :=
  minInt64 ≤ n ∧ n ≤ maxInt64 ∧ match series with
    | .number _ => True
    | .patch .. => 0 ≤ n

theorem hasPrefix_v_iff : hasPrefix s "v" = true ↔ s.toList.head? = some 'v' := by
  have letter : "v".toList = ['v'] := rfl
  rw [hasPrefix, List.isPrefixOf_iff_prefix, letter]
  cases s.toList with
  | nil => simp
  | cons c rest =>
    rw [List.cons_prefix_cons, List.head?_cons, Option.some.injEq, eq_comm (a := 'v')]
    simp

variable {latest : String}

theorem nextAgentVersion_eq (now : Nat) (trimmed : trimSpace latest = latest) (filled : latest ≠ "")
    : nextAgentVersion now latest = match seriesOf latest with
      | some (series, n) => series.label (wrapInt64 (n + 1))
      | none => "v" ++ toString now := by
  unfold nextAgentVersion seriesOf
  rw [trimmed, if_neg filled]
  generalize (if hasPrefix latest "v" then "v" else "") = lead
  generalize trimPrefix latest "v" = body
  have number : nextNumber now lead body =
      match (atoi body).map fun n => (Series.number lead, n) with
      | some (series, n) => series.label (wrapInt64 (n + 1))
      | none => "v" ++ toString now := by
    unfold nextNumber
    cases atoi body <;> rfl
  unfold seriesIn
  rcases split body '.' with _ | ⟨major, _ | ⟨minor, _ | ⟨rest, _ | _⟩⟩⟩
  · exact number
  · exact number
  · exact number
  · dsimp only
    cases atoi ((split rest '-').headD "") with
    | none => exact number
    | some patch =>
      simp only [Series.label, join_cons, join_singleton, String.append_assoc]
  · exact number

theorem seriesOf_v (rest : String) : seriesOf ("v" ++ rest) = seriesIn "v" rest := by
  rw [seriesOf, trimPrefix_append, if_pos (hasPrefix_iff.mpr ⟨rest, rfl⟩)]

variable {label : String}

theorem seriesOf_plain (first : ∀ c ∈ label.toList.head?, c ≠ 'v') :
    seriesOf label = seriesIn "" label := by
  have plain : hasPrefix label "v" = false := by
    rw [Bool.eq_false_iff]
    intro starts
    exact first 'v' (hasPrefix_v_iff.mp starts) rfl
  rw [seriesOf, trimPrefix, if_neg (by simp [plain]), if_neg (by simp [plain])]

variable {n : Int}

theorem seriesIn_number (lead : String) (holds : (Series.number lead).Holds n) :
    seriesIn lead (toString n) = some (.number lead, n) := by
  have free : '.' ∉ (toString n).toList := not_mem_toString (by decide) (by decide)
  rw [seriesIn, split_of_not_mem free, atoi_toString holds.1 holds.2.1]
  rfl

theorem seriesIn_patch (whole : '.' ∉ major.toList)
    (part : '.' ∉ minor.toList) (holds : (Series.patch lead major minor).Holds n) :
    seriesIn lead (join [major, minor, toString n] '.') = some (.patch lead major minor, n) := by
  have free : '.' ∉ (toString n).toList := not_mem_toString (by decide) (by decide)
  have parts : split (join [major, minor, toString n] '.') '.' = [major, minor, toString n] := by
    apply split_join (List.cons_ne_nil _ _)
    simp only [List.mem_cons, List.not_mem_nil, or_false, forall_eq_or_imp, forall_eq]
    exact ⟨whole, part, free⟩
  simp only [seriesIn, parts, split_of_not_mem (no_sign_of_nonneg holds.2.2), List.headD_cons,
    atoi_toString holds.1 holds.2.1]

variable {series : Series}

theorem seriesOf_label (wf : series.Wf) (holds : series.Holds n) :
    seriesOf (series.label n) = some (series, n) := by
  cases series with
  | number lead =>
    rcases wf with rfl | rfl
    · rw [Series.label, String.empty_append, seriesOf_plain, seriesIn_number "" holds]
      intro c first same
      subst same
      exact not_mem_toString (by decide) (by decide) (List.mem_of_mem_head? first)
    · rw [Series.label, seriesOf_v, seriesIn_number "v" holds]
  | patch lead major minor =>
    obtain ⟨whole, part, rfl | ⟨rfl, first⟩⟩ := wf
    · rw [Series.label, seriesOf_v, seriesIn_patch whole part holds]
    · rw [Series.label, String.empty_append, seriesOf_plain, seriesIn_patch whole part holds]
      intro c head same
      subst same
      rw [join_cons, String.toList_append, String.toList_append] at head
      cases text : major.toList with
      | nil => simp [text] at head
      | cons d rest =>
        rw [text] at head first
        exact (first 'v' head).1 rfl

theorem seriesIn_cases (found : seriesIn lead body = some (series, n)) :
    (series = .number lead ∧ atoi body = some n) ∨
      ∃ major minor rest, series = .patch lead major minor ∧ split body '.' = [major, minor, rest] ∧
        atoi ((split rest '-').headD "") = some n := by
  have number : ((atoi body).map fun n => (Series.number lead, n)) = some (series, n) →
      series = .number lead ∧ atoi body = some n := by
    intro found
    obtain ⟨m, read, same⟩ := Option.map_eq_some_iff.mp found
    cases same
    exact ⟨rfl, read⟩
  unfold seriesIn at found
  split at found
  · rename_i major minor rest parts
    split at found
    · rename_i patch read
      cases found
      exact .inr ⟨major, minor, rest, rfl, parts, read⟩
    · exact .inl (number found)
  · exact .inl (number found)

theorem headD_split_unsigned (rest : String) : '-' ∉ ((split rest '-').headD "").toList := by
  cases parts : split rest '-' with
  | nil => simp
  | cons first others =>
    apply not_mem_of_mem_split (s := rest)
    rw [parts]
    exact List.mem_cons_self

theorem wf_of_seriesOf (trimmed : Trimmed label.toList) (found : seriesOf label = some (series, n))
    : series.Wf ∧ series.Holds n := by
  rcases seriesIn_cases found with ⟨rfl, read⟩ | ⟨major, minor, rest, rfl, parts, read⟩
  · obtain ⟨low, high⟩ := atoi_range read
    refine ⟨?_, low, high, trivial⟩
    split_ifs
    · exact .inr rfl
    · exact .inl rfl
  · obtain ⟨low, high⟩ := atoi_range read
    have free : ∀ part ∈ [major, minor, rest], '.' ∉ part.toList := by
      rw [← parts]
      exact fun part member => not_mem_of_mem_split member
    refine ⟨⟨free major (by simp), free minor (by simp), ?_⟩, low, high,
      atoi_nonneg (headD_split_unsigned rest) read⟩
    split_ifs with starts
    · exact .inl rfl
    · refine .inr ⟨rfl, ?_⟩
      -- The first character of the version is that of its first part.
      have whole : label = major ++ "." ++ join [minor, rest] '.' := by
        rw [trimPrefix, if_neg starts] at parts
        rw [← join_split label '.', parts, join_cons]
      intro c first
      have head : label.toList.head? = some c := by
        rw [whole, String.toList_append, String.toList_append, List.head?_append, List.head?_append,
          Option.mem_def.mp first]
        rfl
      refine ⟨?_, trimmed.1 c head⟩
      rintro rfl
      exact starts (hasPrefix_v_iff.mpr head)

theorem trimmed_append
    (first : ∀ c ∈ (front ++ back).head?, isSpace c = false) (some : back ≠ [])
    (solid : ∀ c ∈ back, isSpace c = false) : Trimmed (front ++ back) := by
  refine ⟨first, ?_⟩
  intro c last
  rw [List.getLast?_append_of_ne_nil _ some] at last
  exact solid c (List.mem_of_mem_getLast? last)

theorem trimmed_label (wf : series.Wf) (n : Int) : Trimmed (series.label n).toList := by
  have solid : ∀ c ∈ (toString n).toList, isSpace c = false := fun c => isSpace_of_mem_toString
  have v : isSpace 'v' = false := by decide
  cases series with
  | number lead =>
    rw [Series.label, String.toList_append]
    apply trimmed_append _ (toString_ne_nil n) solid
    rcases wf with rfl | rfl
    · exact fun c first => solid c (List.mem_of_mem_head? first)
    · intro c first
      cases first
      exact v
  | patch lead major minor =>
    have shape : lead ++ join [major, minor, toString n] '.' =
        lead ++ major ++ "." ++ minor ++ "." ++ toString n := by
      rw [join_cons, join_cons, join_singleton]
      simp only [String.append_assoc]
    rw [Series.label, shape, String.toList_append]
    apply trimmed_append _ (toString_ne_nil n) solid
    obtain ⟨_, _, rfl | ⟨rfl, start⟩⟩ := wf
    · intro c first
      simp only [String.toList_append] at first
      obtain rfl : 'v' = c := Option.some.inj first
      exact v
    · intro c first
      cases text : major.toList with
      | nil =>
        simp only [String.toList_append, text] at first
        cases first
        decide
      | cons d rest =>
        simp only [String.toList_append, text] at first
        obtain rfl : d = c := Option.some.inj first
        exact (start d (by rw [text]; rfl)).2

def Tops (labels : List String) (label : String) : Prop :=
  ∀ other ∈ labels, ∀ place ∈ seriesOf label, ∀ far ∈ seriesOf other,
    far.1 = place.1 → far.2 ≤ place.2

/-- Where a version is counted up, the number does not wrap around; where the time is taken
instead, it is later than all numbers in use. -/
def Countable (labels : List String) (latest : String) (now : Nat) : Prop :=
  match seriesOf latest with
  | some (_, n) => n < maxInt64
  | none => now ≤ maxInt64 ∧ ∀ other ∈ labels, ∀ far ∈ seriesOf other,
      far.1 = .number "v" → far.2 < now

instance (labels : List String) (label : String) : Decidable (Tops labels label) :=
  inferInstanceAs (Decidable (∀ _ ∈ _, ∀ _ ∈ _, ∀ _ ∈ _, _ → _))

instance (labels : List String) (latest : String) (now : Nat) :
    Decidable (Countable labels latest now) := by
  unfold Countable
  split <;> infer_instance

theorem seriesOf_empty : seriesOf "" = none := by decide +kernel

variable {labels : List String}

theorem next_place (trimmed : trimSpace latest = latest) (filled : latest ≠ "")
    (tops : Tops labels latest) (countable : Countable labels latest now) :
    ∃ series n, seriesOf (nextAgentVersion now latest) = some (series, n) ∧
      trimSpace (nextAgentVersion now latest) = nextAgentVersion now latest ∧
      ∀ other ∈ labels, ∀ far ∈ seriesOf other, far.1 = series → far.2 < n := by
  have solid : Trimmed latest.toList := trimmed ▸ trimmed_trimSpace latest
  have next := nextAgentVersion_eq now trimmed filled
  unfold Countable at countable
  cases place : seriesOf latest with
  | some entry =>
    obtain ⟨series, n⟩ := entry
    rw [place] at next countable
    dsimp only at next countable
    obtain ⟨wf, holds⟩ := wf_of_seriesOf solid place
    have further : series.Holds (n + 1) := by
      obtain ⟨low, high, sign⟩ := holds
      refine ⟨by omega, by omega, ?_⟩
      cases series with
      | number lead => trivial
      | patch lead major minor =>
        omega
    rw [wrapInt64_of_range further.1 further.2.1] at next
    refine ⟨series, n + 1, ?_, ?_, ?_⟩
    · rw [next]
      exact seriesOf_label wf further
    · rw [next]
      exact trimSpace_of_trimmed (trimmed_label wf (n + 1))
    · intro other member far found same
      have behind := tops other member (series, n) place far found same
      omega
  | none =>
    rw [place] at next countable
    obtain ⟨high, behind⟩ := countable
    have wf : (Series.number "v").Wf := .inr rfl
    have holds : (Series.number "v").Holds now :=
      ⟨by unfold minInt64; omega, high, trivial⟩
    have label : nextAgentVersion now latest = (Series.number "v").label now := next
    refine ⟨.number "v", now, ?_, ?_, behind⟩
    · rw [label]
      exact seriesOf_label wf holds
    · rw [label]
      exact trimSpace_of_trimmed (trimmed_label wf now)

theorem Tops.stored (tops : Tops labels label) : Tops (labels ++ [label]) label := by
  intro other member place found far foundFar same
  rcases List.mem_append.mp member with old | new
  · exact tops other old place found far foundFar same
  · cases List.mem_singleton.mp new
    cases found.symm.trans foundFar
    exact le_refl _

def AgentRequest.agentID : AgentRequest → String
  | .create _ request => trimSpace request.id
  | .update _ id _ => trimSpace id

section History

variable {φ : Type} (A : AgentCodec φ) (id : String)

def successfulCall (s : AgentTables) (call : AgentRequest × List AgentAnswer) : Option AgentTables :=
  if call.1.agentID ≠ id then none
  else
    match (agentProgram A).serve s call.1 call.2 with
    | some (s', .returned (.ok _)) => some s'
    | _ => none

/-- A version that is given is ahead in its series, and one that is omitted can be counted. -/
def InSeries (s : AgentTables) (call : AgentRequest × List AgentAnswer) : Prop :=
  match call.1 with
  | .create _ _ => True
  | .update _ _ request =>
    if trimSpace request.version = "" then
      ∀ row ∈ s.catalog.live id, ∀ answer ∈ call.2.head?,
        Countable (s.catalog.labels id) row.latestVersion answer.now
    else Tops (s.catalog.labels id) (trimSpace request.version)

structure Leads (s : AgentTables) (row : AgentRow) : Prop where
  live : s.catalog.live id = some row
  trimmed : trimSpace row.latestVersion = row.latestVersion
  filled : row.latestVersion ≠ ""
  tops : Tops (s.catalog.labels id) row.latestVersion

variable {A id} {s s' : AgentTables}

theorem labels_append (c : AgentCatalog) (agents : List AgentRow)
    (own : version.agentID = id) :
    (AgentCatalog.mk agents (c.versions ++ [version])).labels id = c.labels id ++ [version.version] := by
  simp [AgentCatalog.labels, List.filter_append, own]

theorem leads_created (own : trimSpace request.id = id)
    (none : s.catalog.labels id = [])
    (served : (agentProgram A).serve s (.create caller request) answers =
      some (s', .returned (.ok agent))) : ∃ row, Leads id s' row := by
  obtain ⟨answer, row, version, _, planned, done⟩ := create_served served
  obtain ⟨principal, definition, _, _, _, created, versioned, _⟩ := planCreate_eq_ok planned
  obtain ⟨_, free, _, _, shape⟩ := create_eq_ok.mp done
  have latest : row.latestVersion = chosenVersion request "v1" := by rw [created, createdRow]
  have version : version.version = row.latestVersion := by rw [latest, versioned, versionRow]
  have named : row.agentID = id := by rw [created, createdRow, own]
  have live : row.live = true := by rw [created, createdRow, AgentRow.live, Option.isNone_none]
  have chosen : trimSpace row.latestVersion = row.latestVersion ∧ row.latestVersion ≠ "" := by
    rw [latest, chosenVersion]
    split_ifs with omitted
    · exact ⟨by decide, by decide⟩
    · exact ⟨trimSpace_trimSpace _, omitted⟩
  refine ⟨row, ?_, chosen.1, chosen.2, ?_⟩
  · rw [shape, AgentCatalog.live, Keyed.select_append free live, if_pos named.symm]
  · rw [shape, labels_append _ _ (by rw [versioned, versionRow, own]), none, version]
    exact Tops.stored (by intro other member; cases member)

theorem leads_updated (own : trimSpace name = id)
    (leads : Leads id s row) (inSeries : InSeries id s (.update caller name request, answers))
    (served : (agentProgram A).serve s (.update caller name request) answers =
      some (s', .returned (.ok agent))) : ∃ row, Leads id s' row := by
  rcases update_served served with ⟨_, e, failed⟩ | ⟨answer, u, first, planned, done⟩
  · cases failed
  obtain ⟨principal, definition, _, existing, named, _, _, versioned, _⟩ := planUpdate_eq_ok planned
  rw [own] at existing named versioned
  obtain ⟨stored, found, _, _, _, shape⟩ := update_eq_ok.mp done
  rw [named] at found shape
  cases leads.live.symm.trans existing
  cases leads.live.symm.trans found
  have version : u.version.version =
      chosenVersion request (nextAgentVersion answer.now u.existing.latestVersion) := by
    rw [versioned, versionRow]
  have chosen : trimSpace u.version.version = u.version.version ∧ u.version.version ≠ "" ∧
      Tops (s.catalog.labels id) u.version.version := by
    unfold InSeries at inSeries
    dsimp only at inSeries
    rw [version, chosenVersion]
    split_ifs at inSeries ⊢ with omitted
    · have countable := inSeries u.existing leads.live answer first
      obtain ⟨series, n, place, trimmed, behind⟩ :=
        next_place leads.trimmed leads.filled leads.tops countable
      refine ⟨trimmed, ?_, ?_⟩
      · intro empty
        rw [empty, seriesOf_empty] at place
        cases place
      · intro other member own found far foundFar same
        cases place.symm.trans found
        exact le_of_lt (behind other member far foundFar same)
    · exact ⟨trimSpace_trimSpace _, omitted, inSeries⟩
  have latest : (u.apply u.existing).latestVersion = u.version.version := rfl
  refine ⟨u.apply u.existing, ?_, chosen.1, chosen.2.1, ?_⟩
  · rw [shape, AgentCatalog.live, Keyed.select_amend u.apply (fun _ => rfl) (fun _ => rfl), if_pos rfl]
    exact congrArg (Option.map u.apply) leads.live
  · rw [shape, labels_append _ _ (by rw [versioned, versionRow]), ← latest]
    exact chosen.2.2.stored

theorem leads_step (t : AgentTables) (call : AgentRequest × List AgentAnswer) (t' : AgentTables)
    (inSeries : InSeries id t call)
    (kept : (t.catalog.live id = none ∧ t.catalog.labels id = []) ∨ ∃ row, Leads id t row)
    (taken : successfulCall A id t call = some t') :
    (t'.catalog.live id = none ∧ t'.catalog.labels id = []) ∨ ∃ row, Leads id t' row := by
  obtain ⟨request, answers⟩ := call
  unfold successfulCall at taken
  split_ifs at taken with other
  have own := not_not.mp other
  split at taken
  case h_2 => cases taken
  rename_i agent served
  cases taken
  cases request with
  | create caller request =>
    rcases kept with ⟨_, empty⟩ | ⟨row, leads⟩
    · exact .inr (leads_created own empty served)
    · obtain ⟨_, created, _, _, planned, done⟩ := create_served served
      obtain ⟨_, _, _, _, _, shape, _⟩ := planCreate_eq_ok planned
      have free := (create_eq_ok.mp done).2.1
      have stored := (Keyed.select_eq_some.mp leads.live).1
      have named : created.agentID = id := by
        rw [shape, createdRow]
        exact own
      rw [named] at free
      cases free.symm.trans stored
  | update caller name request =>
    rcases kept with ⟨dead, _⟩ | ⟨row, leads⟩
    · rcases update_served served with ⟨_, e, failed⟩ | ⟨_, u, _, planned, _⟩
      · cases failed
      · obtain ⟨_, _, _, existing, _⟩ := planUpdate_eq_ok planned
        have named : trimSpace name = id := own
        rw [named] at existing
        cases dead.symm.trans existing
    · exact .inr (leads_updated own leads inSeries served)

/-- After every history of an agent in which each given version is ahead in its series, an
update that omits the version chooses a free one, where it can be counted. -/
theorem automatic_version_free (A : AgentCodec φ) (id : String) (start finish : AgentTables)
    (calls : List (AgentRequest × List AgentAnswer)) (absent : start.catalog.live id = none)
    (empty : start.catalog.labels id = [])
    (ran : run (successfulCall A id) start calls = some finish)
    (inSeries : Guarded (successfulCall A id) (InSeries id) start calls)
    (row : AgentRow) (live : finish.catalog.live id = some row) (now : Nat)
    (countable : Countable (finish.catalog.labels id) row.latestVersion now) :
    nextAgentVersion now row.latestVersion ∉ finish.catalog.labels id := by
  rcases run_preserves leads_step (.inl ⟨absent, empty⟩) inSeries ran with
    ⟨dead, _⟩ | ⟨other, leads⟩
  · cases dead.symm.trans live
  · cases leads.live.symm.trans live
    obtain ⟨series, n, place, _, behind⟩ := next_place leads.trimmed leads.filled leads.tops countable
    exact fun member => lt_irrefl _ (behind _ member (series, n) place rfl)

end History

instance (id : String) (s : AgentTables) (call : AgentRequest × List AgentAnswer) :
    Decidable (InSeries id s call) := by
  unfold InSeries
  split
  · infer_instance
  · split_ifs <;> infer_instance

def plainAgents : AgentCodec Int := { tenths with sha256Hex := fun _ => "0123456789abcdef" }

def createScout (version : String) : AgentRequest × List AgentAnswer :=
  (.create { toPrincipal := launcher } { id := "scout", version := version, definition := sampleDefinition [] },
    List.replicate 4 {})

def updateScout (version : String) : AgentRequest × List AgentAnswer :=
  (.update { toPrincipal := launcher } "scout" { version := version, definition := sampleDefinition [] },
    List.replicate 7 { now := 1800000000 })

/-- Numbers, a release with a suffix, free text, and versions in between that are chosen. -/
theorem versions_in_series_free : ∃ finish row,
    run (successfulCall plainAgents "scout") {} [createScout "", updateScout "",
      updateScout "v7", updateScout "v1.2.3-rc", updateScout "", updateScout "stable"] = some finish ∧
    finish.catalog.live "scout" = some row ∧
    finish.catalog.labels "scout" = ["v1", "v2", "v7", "v1.2.3-rc", "v1.2.4", "stable"] ∧
    nextAgentVersion 1800000000 row.latestVersion ∉ finish.catalog.labels "scout" := by
  simp only [exists_and_left]
  refine exists_run (P := fun finish => ∃ row, finish.catalog.live "scout" = some row ∧
      Countable (finish.catalog.labels "scout") row.latestVersion 1800000000 ∧
      finish.catalog.labels "scout" = ["v1", "v2", "v7", "v1.2.3-rc", "v1.2.4", "stable"])
    (by decide +kernel) fun finish ran facts => ?_
  obtain ⟨row, live, countable, labels⟩ := facts
  exact ⟨row, live, labels, automatic_version_free plainAgents "scout" {} finish _ rfl rfl ran
    (by decide +kernel) row live _ countable⟩

/-- A version that goes back behind a stored one makes the next one collide. -/
theorem version_behind_collides : ∃ finish row s',
    run (successfulCall plainAgents "scout") {} [createScout "", updateScout "v3",
      updateScout "v2"] = some finish ∧
    finish.catalog.live "scout" = some row ∧
    nextAgentVersion 1800000000 row.latestVersion ∈ finish.catalog.labels "scout" ∧
    (agentProgram plainAgents).serve finish (updateScout "").1
      (List.replicate 2 { now := 1800000000 }) = some (s', .returned (.error errAgentAlreadyExists)) := by
  obtain ⟨finish, ran, row, live, collides, ⟨s', _⟩, served, rfl⟩ : ∃ finish,
      run (successfulCall plainAgents "scout") {} [createScout "", updateScout "v3",
        updateScout "v2"] = some finish ∧ ∃ row, finish.catalog.live "scout" = some row ∧
      nextAgentVersion 1800000000 row.latestVersion ∈ finish.catalog.labels "scout" ∧
      ∃ out, (agentProgram plainAgents).serve finish (updateScout "").1
        (List.replicate 2 { now := 1800000000 }) = some out ∧
        out.2 = .returned (.error errAgentAlreadyExists) := by
    decide +kernel
  exact ⟨finish, row, s', ran, live, collides, served⟩

end AisphereHub
