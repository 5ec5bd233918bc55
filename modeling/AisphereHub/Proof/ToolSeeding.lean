import AisphereHub.Biz.ToolUsecase

/-! What a start of the hub makes of the tool catalog. A seed is upserted over deleted rows
too, which stay deleted, and over a stored version of its label, which stays as it is. The ids
of renamed seeds are deleted whoever owns them. -/
namespace AisphereHub

open GoJson Transition
open GoStrings (trimSpace)

variable {φ : Type} {C : ToolCodec φ} {id : String} {a : String → ToolAnswer} {h : ToolHub}

structure SameTool (c d : ToolCatalog) (id : String) : Prop where
  rows : d.tools.filter (·.toolID = id) = c.tools.filter (·.toolID = id)
  versions : d.versions.filter (·.toolID = id) = c.versions.filter (·.toolID = id)

theorem SameTool.refl (c : ToolCatalog) (id : String) : SameTool c c id := ⟨rfl, rfl⟩

theorem SameTool.trans (first : SameTool c d id) (second : SameTool d e id)
    : SameTool c e id :=
  ⟨second.rows.trans first.rows, second.versions.trans first.versions⟩

theorem liveTool_eq (rows : List ToolRow) (id : String) :
    liveTool rows id = (rows.filter (·.toolID = id)).find? ToolRow.live := by
  simp [List.find?_filter, liveTool, Bool.decide_and]

theorem findToolVersion_eq (rows : List ToolVersionRow) (id version : String) :
    findToolVersion rows id version =
      (rows.filter (·.toolID = id)).find? fun r => r.version = version := by
  simp [List.find?_filter, findToolVersion, Keyed.lookup, ToolVersionRow.key]

theorem any_toolID (rows : List ToolRow) (id : String) :
    (rows.any fun r => r.toolID = id) = !(rows.filter (·.toolID = id)).isEmpty := by
  rw [Bool.eq_iff_iff]
  simp [List.any_eq_true, List.filter_eq_nil_iff]

theorem SameTool.live (same : SameTool c d id) :
    liveTool d.tools id = liveTool c.tools id := by
  rw [liveTool_eq, liveTool_eq, same.rows]

theorem SameTool.version (same : SameTool c d id) (version : String) :
    findToolVersion d.versions id version = findToolVersion c.versions id version := by
  rw [findToolVersion_eq, findToolVersion_eq, same.versions]

/-- A stored document is the one a seed is encoded as, up to how it is written. -/
def SameDocument (C : ToolCodec φ) (a b : Json Decimal) : Prop :=
  unmarshal C.floats a = unmarshal C.floats b

instance decidableSameDocument [DecidableEq φ] (C : ToolCodec φ) (a b : Json Decimal) :
    Decidable (SameDocument C a b) :=
  inferInstanceAs (Decidable (unmarshal C.floats a = unmarshal C.floats b))

structure SeedFits (s : BuiltinToolSeed) : Prop where
  trimmed : trimSpace s.id = s.id
  id : s.id.length ≤ 128
  displayName : s.displayName.length ≤ 256

theorem builtinToolSeeds_fit : ∀ s ∈ builtinToolSeeds, SeedFits s := by
  have texts : ∀ s ∈ builtinToolSeeds,
      trimSpace s.id = s.id ∧ s.id.length ≤ 128 ∧ s.displayName.length ≤ 256 := by
    decide +kernel
  intro s member
  obtain ⟨trimmed, id, displayName⟩ := texts s member
  exact ⟨trimmed, id, displayName⟩

def seedJSON (s : BuiltinToolSeed) : Json Decimal :=
  match (builtinSeedDefinition s).marshal with
  | .ok json => json
  | .error _ => .null

theorem marshal_seed (s : BuiltinToolSeed) :
    (builtinSeedDefinition s).marshal = .ok (seedJSON s) := rfl

def seedLabel (C : ToolCodec φ) (s : BuiltinToolSeed) : String := builtinSeedVersion C (seedJSON s)

def ToolCodec.Hex (C : ToolCodec φ) : Prop := ∀ json, (C.sha256Hex json).length = 64

theorem seedLabel_length (hex : C.Hex) (s : BuiltinToolSeed) : (seedLabel C s).length = 20 := by
  have digits : (C.sha256Hex (seedJSON s)).toList.length = 64 := by
    exact hex _
  have start : "builtin-".length = 8 := by decide
  simp [seedLabel, builtinSeedVersion, String.length_append, digits, start]

def RowsAccepted (c : ToolCatalog) : Prop := ∀ r ∈ c.tools, r.accepted = true

/-- A seed finds no row, or a live one among those it finds. -/
def Restorable (c : ToolCatalog) (id : String) : Prop :=
  (c.tools.any fun r => r.toolID = id) = true → (liveTool c.tools id).isSome = true

def LabelFree (C : ToolCodec φ) (c : ToolCatalog) (s : BuiltinToolSeed) : Prop :=
  ∀ row, findToolVersion c.versions s.id (seedLabel C s) = some row →
    SameDocument C row.definitionJSON (seedJSON s)

def Seeded (C : ToolCodec φ) (d : ToolCatalog) (s : BuiltinToolSeed) : Prop :=
  ∃ row version, liveTool d.tools s.id = some row ∧
    findToolVersion d.versions s.id row.latestVersion = some version ∧
    SameDocument C version.definitionJSON (seedJSON s)

variable {rows : List ToolRow}

section Upsert

variable {c : ToolCatalog} {s : BuiltinToolSeed} {now : Nat}

def seedRecord (C : ToolCodec φ) (now : Nat) (s : BuiltinToolSeed) : Tool where
  id := s.id
  displayName := s.displayName
  description := s.description
  status := "builtin"
  scope := "system"
  object := "tool:" ++ toolAuthzObjectID s.id
  ownerType := "service"
  ownerID := "aisphere-hub"
  ownerName := "AISphere Hub"
  latestVersion := seedLabel C s
  versions := [(seedLabel C s, {
    version := seedLabel C s
    revision := String.ofList ((C.sha256Hex (seedJSON s)).toList.take 12)
    sha256 := C.sha256Hex (seedJSON s)
    author := "aisphere-hub"
    commitMsg := "builtin tool seed"
    createTime := now
    definition := builtinSeedDefinition s })]

theorem builtinSeedToTool_eq (C : ToolCodec φ) (now : Nat) (s : BuiltinToolSeed) :
    builtinSeedToTool C now s = .ok (seedRecord C now s) := rfl

def seedOver (C : ToolCodec φ) (now : Nat) (s : BuiltinToolSeed) (r : ToolRow) : ToolRow :=
  { r with
    displayName := s.displayName
    description := s.description
    status := "builtin"
    scope := "system"
    ownerType := "service"
    ownerID := "aisphere-hub"
    ownerName := "AISphere Hub"
    latestVersion := seedLabel C s
    updatedAt := now }

def seedRows (C : ToolCodec φ) (now : Nat) (s : BuiltinToolSeed) (rows : List ToolRow) :
    List ToolRow :=
  if rows.any fun r => r.toolID = s.id then
    rows.map fun r => if r.toolID = s.id then seedOver C now s r else r
  else rows ++ [toolBizToModel (seedRecord C now s) now]

theorem seedOver_accepted (hex : C.Hex) (fits : SeedFits s)
    (accepted : r.accepted = true) : (seedOver C now s r).accepted = true := by
  have label := seedLabel_length hex s
  have display := fits.displayName
  simp only [ToolRow.accepted, Bool.and_eq_true, decide_eq_true_eq] at accepted ⊢
  obtain ⟨⟨⟨⟨⟨⟨⟨⟨⟨⟨_, _⟩, id⟩, _⟩, _⟩, _⟩, _⟩, org⟩, project⟩, _⟩, object⟩ := accepted
  simp only [seedOver, label]
  refine ⟨⟨⟨⟨⟨⟨⟨⟨⟨⟨?_, ?_⟩, id⟩, display⟩, ?_⟩, ?_⟩, ?_⟩, org⟩, project⟩, ?_⟩, object⟩ <;> decide

theorem seedNew_accepted (hex : C.Hex) (fits : SeedFits s) :
    (toolBizToModel (seedRecord C now s) now).accepted = true := by
  have label := seedLabel_length hex s
  have display := fits.displayName
  have id := fits.id
  have object : ("tool:" ++ toolAuthzObjectID s.id).length ≤ 256 := by
    have start : "tool:".length = 5 := by decide
    rw [String.length_append, start, toolAuthzObjectID, GoStrings.length_replaceChar]
    omega
  simp only [ToolRow.accepted, Bool.and_eq_true, decide_eq_true_eq]
  simp only [toolBizToModel, seedRecord, label]
  refine ⟨⟨⟨⟨⟨⟨⟨⟨⟨⟨?_, ?_⟩, id⟩, display⟩, ?_⟩, ?_⟩, ?_⟩, ?_⟩, ?_⟩, ?_⟩, object⟩ <;> decide

theorem updateTools_seed (hex : C.Hex) (fits : SeedFits s) (accepted : RowsAccepted c) :
    ToolRepo.updateTools c.tools (fun r => r.toolID = s.id) (seedOver C now s) =
      .ok (c.tools.map fun r => if r.toolID = s.id then seedOver C now s r else r) := by
  have all : (c.tools.all fun r => !decide (r.toolID = s.id) || (seedOver C now s r).accepted) =
      true := by
    rw [List.all_eq_true]
    intro r member
    rw [seedOver_accepted hex fits (accepted r member), Bool.or_true]
  unfold ToolRepo.updateTools
  rw [if_pos all]
  simp only [decide_eq_true_eq]

theorem liveTool_of_unknown
    (unknown : ¬(rows.any fun r => r.toolID = id) = true) : liveTool rows id = none := by
  rw [liveTool, List.find?_eq_none]
  intro r member both
  simp only [Bool.and_eq_true] at both
  exact unknown (List.any_eq_true.mpr ⟨r, member, both.1⟩)

theorem upsertTool_seed (hex : C.Hex) (fits : SeedFits s) (accepted : RowsAccepted c) :
    ToolRepo.upsertTool c.tools (seedRecord C now s) now = .ok (seedRows C now s c.tools) := by
  unfold ToolRepo.upsertTool seedRows
  by_cases found : (c.tools.any fun r => r.toolID = s.id) = true
  · rw [if_pos found]
    exact (if_pos found).trans (updateTools_seed hex fits accepted)
  · have free : liveTool c.tools (toolBizToModel (seedRecord C now s) now).toolID = none :=
      liveTool_of_unknown found
    rw [if_neg found]
    refine (if_neg found).trans ?_
    rw [ToolRepo.insertTool, if_neg (by simp [seedNew_accepted hex fits]), if_neg (by simp [free])]

def seedVersionRow (C : ToolCodec φ) (now : Nat) (s : BuiltinToolSeed) : ToolVersionRow where
  toolID := s.id
  version := seedLabel C s
  revision := String.ofList ((C.sha256Hex (seedJSON s)).toList.take 12)
  sha256 := C.sha256Hex (seedJSON s)
  author := "aisphere-hub"
  commitMsg := "builtin tool seed"
  definitionJSON := seedJSON s
  createdAt := now

theorem writeVersionRows_seed [DecidableEq φ] (hex : C.Hex) (fits : SeedFits s) (rows : List ToolVersionRow) :
    writeVersionRows C now rows (seedRecord C now s) .versionConflictSkip =
      .ok (if (findToolVersion rows s.id (seedLabel C s)).isSome then rows
        else rows ++ [seedVersionRow C now s]) := by
  have label := seedLabel_length hex s
  have digest := hex (seedJSON s)
  have digits : (C.sha256Hex (seedJSON s)).toList.length = 64 := by
    exact digest
  have filled : C.sha256Hex (seedJSON s) ≠ "" := by
    intro empty
    rw [empty] at digest
    revert digest
    decide
  have revision : String.ofList ((C.sha256Hex (seedJSON s)).toList.take 12) ≠ "" := by
    intro empty
    have short := congrArg String.length empty
    rw [String.length_ofList, List.length_take, digits] at short
    revert short
    decide
  have row : ∀ entry ∈ (seedRecord C now s).versions,
      toolVersionRow C now s.id entry.2 (seedJSON s) = .ok (seedVersionRow C now s) := by
    rw [seedRecord, List.forall_mem_singleton]
    unfold toolVersionRow seedVersionRow
    simp only [filled, revision, if_false, false_and]
    split_ifs with zero
    · rfl
    · rfl
  have accepted : (seedVersionRow C now s).accepted = true := by
    have id := fits.id
    simp only [ToolVersionRow.accepted, Bool.and_eq_true, decide_eq_true_eq]
    simp only [seedVersionRow, label, digest, String.length_ofList, List.length_take, digits]
    refine ⟨⟨⟨⟨id, ?_⟩, ?_⟩, ?_⟩, ?_⟩ <;> decide
  unfold writeVersionRows
  simp only [seedRecord, List.forall_mem_singleton, List.foldlM_cons, List.foldlM_nil] at row ⊢
  unfold writeVersionRow
  simp only [marshal_seed, row]
  cases found : findToolVersion rows s.id (seedLabel C s) with
  | none => simp [accepted, pure, Except.pure, bind, Except.bind]
  | some existing => simp [pure, Except.pure, bind, Except.bind]

def seedCatalog (C : ToolCodec φ) (now : Nat) (s : BuiltinToolSeed) (c : ToolCatalog) : ToolCatalog where
  tools := seedRows C now s c.tools
  versions := if (findToolVersion c.versions s.id (seedLabel C s)).isSome then c.versions
    else c.versions ++ [seedVersionRow C now s]

theorem upsertBuiltin_seed [DecidableEq φ] (hex : C.Hex) (fits : SeedFits s)
    (accepted : RowsAccepted c) {a} (works : a.fault = none) (reads : a.readFault = none) :
    ToolRepo.upsertBuiltin C a c (seedRecord C a.now s) =
      (seedCatalog C a.now s c, ToolRepo.get (seedCatalog C a.now s c) s.id "") := by
  unfold ToolRepo.upsertBuiltin ToolRepo.write ToolRepo.transaction
  rw [upsertTool_seed hex fits accepted, writeVersionRows_seed hex fits, works, reads]
  rfl

theorem liveTool_map (keepID : ∀ r, (f r).toolID = r.toolID)
    (keepLive : ∀ r, (f r).live = r.live) (rows : List ToolRow) (id : String) :
    liveTool (rows.map f) id = (liveTool rows id).map f := by
  rw [liveTool, liveTool, List.find?_map]
  congr 2
  funext r
  simp [keepID, keepLive]

theorem toolID_of_live (found : liveTool rows id = some r) : r.toolID = id := by
  have both := List.find?_some found
  simp only [Bool.and_eq_true, decide_eq_true_eq] at both
  exact both.1

theorem liveTool_seedRows (rows : List ToolRow) : liveTool (seedRows C now s rows) s.id =
      if rows.any fun r => r.toolID = s.id then (liveTool rows s.id).map (seedOver C now s)
      else some (toolBizToModel (seedRecord C now s) now) := by
  unfold seedRows
  by_cases found : (rows.any fun r => r.toolID = s.id) = true
  · rw [if_pos found, if_pos found, liveTool_map]
    · cases live : liveTool rows s.id with
      | none => rfl
      | some r => simp [toolID_of_live live]
    · intro r
      split_ifs <;> rfl
    · intro r
      split_ifs <;> rfl
  · have free := liveTool_of_unknown found
    rw [if_neg found, if_neg found]
    rw [liveTool] at free ⊢
    rw [List.find?_append, free]
    simp [toolBizToModel, seedRecord, ToolRow.live]

theorem filter_changed (other : id ≠ k) (chosen : ToolRow → Prop)
    [DecidablePred chosen] (only : ∀ r, chosen r → r.toolID = k) (f : ToolRow → ToolRow)
    (keep : ∀ r, (f r).toolID = r.toolID) (rows : List ToolRow) :
    (rows.map fun r => if chosen r then f r else r).filter (·.toolID = id) =
      rows.filter (·.toolID = id) := by
  induction rows with
  | nil => rfl
  | cons r rest ih =>
    rw [List.map_cons, List.filter_cons, List.filter_cons, ih]
    by_cases change : chosen r
    · have apart : r.toolID ≠ id := fun same => other (same.symm.trans (only r change))
      simp [change, keep, apart]
    · simp [change]

theorem seedCatalog_other (other : id ≠ s.id) : SameTool c (seedCatalog C now s c) id where
  rows := by
    change (seedRows C now s c.tools).filter (·.toolID = id) = _
    unfold seedRows
    by_cases found : (c.tools.any fun r => r.toolID = s.id) = true
    · rw [if_pos found]
      exact filter_changed other _ (fun _ same => same) (seedOver C now s) (fun _ => rfl) c.tools
    · rw [if_neg found]
      simp [toolBizToModel, seedRecord, Ne.symm other]
  versions := by
    unfold seedCatalog
    split_ifs
    · rfl
    · simp [seedVersionRow, Ne.symm other]

theorem seedCatalog_accepted (now : Nat) (hex : C.Hex) (fits : SeedFits s) (accepted : RowsAccepted c) :
    RowsAccepted (seedCatalog C now s c) := by
  intro r member
  simp only [seedCatalog, seedRows] at member
  split_ifs at member
  · obtain ⟨old, stored, rfl⟩ := List.mem_map.mp member
    split_ifs
    · exact seedOver_accepted hex fits (accepted old stored)
    · exact accepted old stored
  · rcases List.mem_append.mp member with stored | new
    · exact accepted r stored
    · rw [List.mem_singleton.mp new]
      exact seedNew_accepted hex fits

theorem get_seedCatalog (C : ToolCodec φ) (now : Nat) (c : ToolCatalog) (fits : SeedFits s) :
    (ToolRepo.get (seedCatalog C now s c) s.id "").isOk = true ↔ Restorable c s.id := by
  have live : liveTool (seedCatalog C now s c).tools s.id = _ := liveTool_seedRows c.tools
  rw [ToolRepo.get, fits.trimmed, live, Restorable]
  by_cases found : (c.tools.any fun r => r.toolID = s.id) = true
  · rw [if_pos found]
    cases liveTool c.tools s.id with
    | none => simp [found, Except.isOk, Except.toBool]
    | some r => simp [ToolRepo.loadVersions, Except.isOk, Except.toBool]
  · simp [ToolRepo.loadVersions, Except.isOk, Except.toBool, found]

theorem seedCatalog_version (C : ToolCodec φ) (now : Nat) (s : BuiltinToolSeed) (c : ToolCatalog) :
    ∃ version, findToolVersion (seedCatalog C now s c).versions s.id (seedLabel C s) = some version ∧
      (SameDocument C version.definitionJSON (seedJSON s) ↔ LabelFree C c s) := by
  unfold seedCatalog LabelFree
  cases found : findToolVersion c.versions s.id (seedLabel C s) with
  | none =>
    refine ⟨seedVersionRow C now s, ?_, ?_⟩
    · rw [findToolVersion] at found ⊢
      simp only [Option.isSome_none, Bool.false_eq_true, if_false]
      rw [Keyed.lookup_append, found]
      simp [ToolVersionRow.key, seedVersionRow]
    · simp [SameDocument, seedVersionRow]
  | some row => exact ⟨row, by simp [found], by simp⟩

/-- Once its upsert succeeds, a seed is as it should be exactly when its label was free or
held the seed. -/
theorem seeded_iff (restorable : Restorable c s.id) :
    Seeded C (seedCatalog C now s c) s ↔ LabelFree C c s := by
  have live : liveTool (seedCatalog C now s c).tools s.id = _ := liveTool_seedRows c.tools
  have latest : ∃ row, liveTool (seedCatalog C now s c).tools s.id = some row ∧
      row.latestVersion = seedLabel C s := by
    rw [live]
    by_cases found : (c.tools.any fun r => r.toolID = s.id) = true
    · obtain ⟨r, stored⟩ := Option.isSome_iff_exists.mp (restorable found)
      rw [if_pos found, stored]
      exact ⟨_, rfl, rfl⟩
    · rw [if_neg found]
      exact ⟨_, rfl, rfl⟩
  obtain ⟨row, stored, label⟩ := latest
  obtain ⟨version, held, free⟩ := seedCatalog_version C now s c
  rw [← free]
  constructor
  · rintro ⟨row', version', stored', held', same⟩
    cases stored.symm.trans stored'
    rw [label] at held'
    cases held.symm.trans held'
    exact same
  · intro same
    exact ⟨row, version, stored, label ▸ held, same⟩

end Upsert

def Working (a : String → ToolAnswer) : Prop :=
  ∀ id, (a id).fault = none ∧ (a id).readFault = none

structure SeedsEffect (C : ToolCodec φ) (seeds : List BuiltinToolSeed) (c : ToolCatalog)
    (out : ToolCatalog × Except HubError Unit) : Prop where
  succeeds : out.2.isOk = true ↔ ∀ s ∈ seeds, Restorable c s.id
  others : ∀ id ∉ seeds.map BuiltinToolSeed.id, SameTool c out.1 id
  seeded : out.2.isOk = true → ∀ s ∈ seeds, (Seeded C out.1 s ↔ LabelFree C c s)

theorem SameTool.restorable (same : SameTool c d id) : Restorable d id ↔ Restorable c id := by
  rw [Restorable, Restorable, any_toolID, any_toolID, same.rows, same.live]

theorem SameTool.seeded (same : SameTool c d s.id) : Seeded C d s ↔ Seeded C c s := by
  simp only [Seeded, same.live, same.version]

section Seeds

variable [DecidableEq φ] (hex : C.Hex) (working : Working a)

include hex working

/-- Seeding stops at the first seed whose tool is deleted, after it was written over. -/
theorem seedTools_cons (rest : List BuiltinToolSeed)
    (fits : SeedFits s) (accepted : RowsAccepted c) : Restorable c s.id ∧
        seedTools C a (s :: rest) c = seedTools C a rest (seedCatalog C (a s.id).now s c) ∨
      ¬Restorable c s.id ∧
        ∃ e, seedTools C a (s :: rest) c = (seedCatalog C (a s.id).now s c, .error e) := by
  rw [← get_seedCatalog C (a s.id).now c fits, seedTools, builtinSeedToTool_eq]
  dsimp only
  rw [upsertBuiltin_seed hex fits accepted (working s.id).1 (working s.id).2]
  cases ToolRepo.get (seedCatalog C (a s.id).now s c) s.id "" with
  | error e => exact .inr ⟨Bool.false_ne_true, _, rfl⟩
  | ok stored => exact .inl ⟨rfl, rfl⟩

variable {seeds : List BuiltinToolSeed}

theorem seedTools_effect (distinct : (seeds.map BuiltinToolSeed.id).Nodup)
    (fit : ∀ s ∈ seeds, SeedFits s) (accepted : RowsAccepted c) :
    SeedsEffect C seeds c (seedTools C a seeds c) := by
  induction seeds generalizing c with
  | nil => exact ⟨by simp [seedTools, Except.isOk, Except.toBool], fun id _ => .refl c id, by simp⟩
  | cons s rest ih =>
    rw [List.map_cons, List.nodup_cons] at distinct
    rw [List.forall_mem_cons] at fit
    have kept : ∀ t ∈ rest, SameTool c (seedCatalog C (a s.id).now s c) t.id := fun t member =>
      seedCatalog_other fun same => distinct.1 (List.mem_map.mpr ⟨t, member, same⟩)
    rcases seedTools_cons hex working rest fit.1 accepted with
      ⟨restorable, same⟩ | ⟨stuck, e, same⟩ <;> rw [same]
    · have later := ih distinct.2 fit.2 (seedCatalog_accepted (a s.id).now hex fit.1 accepted)
      refine ⟨?_, ?_, ?_⟩
      · rw [later.succeeds, List.forall_mem_cons]
        constructor
        · intro all
          exact ⟨restorable, fun t member => (kept t member).restorable.mp (all t member)⟩
        · intro all t member
          exact (kept t member).restorable.mpr (all.2 t member)
      · intro id other
        rw [List.map_cons, List.mem_cons, not_or] at other
        exact (seedCatalog_other other.1).trans (later.others id other.2)
      · intro fine t member
        rcases List.mem_cons.mp member with rfl | member
        · rw [(later.others t.id distinct.1).seeded]
          exact seeded_iff restorable
        · rw [later.seeded fine t member]
          rw [LabelFree, LabelFree, (kept t member).version]
    · refine ⟨?_, ?_, ?_⟩
      · simp [Except.isOk, Except.toBool, stuck]
      · intro id other
        rw [List.map_cons, List.mem_cons, not_or] at other
        exact seedCatalog_other other.1
      · simp [Except.isOk, Except.toBool]

theorem seedTools_eq (distinct : (seeds.map BuiltinToolSeed.id).Nodup)
    (fit : ∀ s ∈ seeds, SeedFits s) (accepted : RowsAccepted c)
    (restorable : ∀ s ∈ seeds, Restorable c s.id) :
    seedTools C a seeds c = (seeds.foldl (fun d s => seedCatalog C (a s.id).now s d) c, .ok ()) := by
  induction seeds generalizing c with
  | nil => rfl
  | cons s rest ih =>
    rw [List.map_cons, List.nodup_cons] at distinct
    rw [List.forall_mem_cons] at fit restorable
    rcases seedTools_cons hex working rest fit.1 accepted with
      ⟨_, same⟩ | ⟨stuck, _⟩
    · rw [same]
      refine ih distinct.2 fit.2 (seedCatalog_accepted (a s.id).now hex fit.1 accepted) ?_
      intro t member
      have other : t.id ≠ s.id := fun same => distinct.1 (List.mem_map.mpr ⟨t, member, same⟩)
      exact (seedCatalog_other other).restorable.mpr (restorable.2 t member)
    · exact absurd restorable.1 stuck

end Seeds

structure DeprecationEffect (ids : List String) (c : ToolCatalog)
    (out : ToolCatalog × Except HubError Unit) : Prop where
  succeeds : out.2 = .ok ()
  gone : ∀ id ∈ ids, liveTool out.1.tools id = none
  others : ∀ id ∉ ids, SameTool c out.1 id

theorem delete_effect {a} (works : a.fault = none) (trimmed : trimSpace id = id) (c : ToolCatalog) :
    liveTool (ToolRepo.delete a c id).1.tools id = none ∧
      (∀ other, other ≠ id → SameTool c (ToolRepo.delete a c id).1 other) ∧
      ∀ e, (ToolRepo.delete a c id).2 = .error e → e.code = .TOOL_NOT_FOUND := by
  unfold ToolRepo.delete
  rw [works, trimmed]
  dsimp only
  split_ifs with missing
  · refine ⟨?_, fun other _ => .refl c other, ?_⟩
    · rw [liveTool, List.find?_eq_none]
      intro r member both
      exact Bool.false_ne_true (missing.symm.trans (List.any_eq_true.mpr ⟨r, member, both⟩))
    · intro e failed
      cases failed
      rfl
  · refine ⟨?_, fun other apart => ⟨?_, rfl⟩, ?_⟩
    · rw [liveTool, List.find?_eq_none]
      intro r member
      obtain ⟨old, _, rfl⟩ := List.mem_map.mp member
      split_ifs with chosen
      · simp [ToolRow.live]
      · exact chosen
    · refine filter_changed apart _ ?_ (fun r => { r with deletedAt := some a.now }) (fun _ => rfl)
        c.tools
      intro r chosen
      simp only [Bool.and_eq_true, decide_eq_true_eq] at chosen
      exact chosen.1
    · intro e failed
      cases failed

theorem deprecateTools_effect (working : Working a) (distinct : ids.Nodup)
    (trimmed : ∀ id ∈ ids, trimSpace id = id) (c : ToolCatalog) :
    DeprecationEffect ids c (deprecateTools a ids c) := by
  induction ids generalizing c with
  | nil => exact ⟨rfl, by simp, fun id _ => .refl c id⟩
  | cons id rest ih =>
    rw [List.nodup_cons] at distinct
    rw [List.forall_mem_cons] at trimmed
    obtain ⟨gone, kept, missing⟩ := delete_effect (working id).1 trimmed.1 c
    have later := ih distinct.2 trimmed.2 (ToolRepo.delete (a id) c id).1
    have same : deprecateTools a (id :: rest) c =
        deprecateTools a rest (ToolRepo.delete (a id) c id).1 := by
      rw [deprecateTools]
      generalize ToolRepo.delete (a id) c id = out at missing ⊢
      obtain ⟨d, result⟩ := out
      cases result with
      | error e => exact if_pos (missing e rfl)
      | ok _ => rfl
    rw [same]
    refine ⟨later.succeeds, ?_, ?_⟩
    · intro other member
      rcases List.mem_cons.mp member with rfl | member
      · rw [(later.others other distinct.1).live]
        exact gone
      · exact later.gone other member
    · intro other apart
      rw [List.mem_cons, not_or] at apart
      exact (kept other apart.1).trans (later.others other apart.2)

theorem deprecateTools_absent (working : Working a)
    (trimmed : ∀ id ∈ ids, trimSpace id = id)
    (absent : ∀ id ∈ ids, liveTool c.tools id = none) : deprecateTools a ids c = (c, .ok ()) := by
  induction ids with
  | nil => rfl
  | cons id rest ih =>
    rw [List.forall_mem_cons] at trimmed absent
    have missing : (c.tools.any fun r => r.toolID = trimSpace id && r.live) = false := by
      rw [trimmed.1, List.any_eq_false]
      exact List.find?_eq_none.mp absent.1
    rw [deprecateTools, ToolRepo.delete, (working id).1]
    rw [if_pos missing]
    exact ih trimmed.2 absent.2

/-- Every live tool but the seeds is as it was. Only `CreateTool` makes such tools. -/
def Untouched (c d : ToolCatalog) : Prop :=
  ∀ id ∉ builtinToolSeeds.map BuiltinToolSeed.id, ∀ row, liveTool c.tools id = some row →
    liveTool d.tools id = some row ∧
      d.versions.filter (·.toolID = id) = c.versions.filter (·.toolID = id)

/-- The catalogs that a start of the hub heals. -/
structure Healable (C : ToolCodec φ) (c : ToolCatalog) : Prop where
  restorable : ∀ s ∈ builtinToolSeeds, Restorable c s.id
  free : ∀ s ∈ builtinToolSeeds, LabelFree C c s
  unclaimed : ∀ id ∈ deprecatedBuiltinToolIDs, liveTool c.tools id = none

structure StartEffect (C : ToolCodec φ) (c : ToolCatalog) (out : ToolCatalog × Except HubError Unit) :
    Prop where
  succeeds : out.2 = .ok () ↔ ∀ s ∈ builtinToolSeeds, Restorable c s.id
  seeded : out.2 = .ok () → ∀ s ∈ builtinToolSeeds, (Seeded C out.1 s ↔ LabelFree C c s)
  gone : out.2 = .ok () → ∀ id ∈ deprecatedBuiltinToolIDs, liveTool out.1.tools id = none
  others : ∀ id ∉ builtinToolSeeds.map BuiltinToolSeed.id, id ∉ deprecatedBuiltinToolIDs →
    SameTool c out.1 id

theorem deprecated_trimmed : ∀ id ∈ deprecatedBuiltinToolIDs, trimSpace id = id := by
  decide +kernel

theorem seedBuiltinTools_effect [DecidableEq φ] (hex : C.Hex) (working : Working a)
    (accepted : RowsAccepted c) : StartEffect C c (seedBuiltinTools C a c) := by
  have first := seedTools_effect hex working (by decide) builtinToolSeeds_fit accepted
  unfold seedBuiltinTools
  generalize seedTools C a builtinToolSeeds c = out at first
  obtain ⟨d, result⟩ := out
  cases result with
  | error e =>
    have stuck : ¬∀ s ∈ builtinToolSeeds, Restorable c s.id := by
      rw [← first.succeeds]
      exact Bool.false_ne_true
    exact {
      succeeds := ⟨fun fine => (nomatch fine), fun all => absurd all stuck⟩
      seeded := fun fine => nomatch fine
      gone := fun fine => nomatch fine
      others := fun id other _ => first.others id other }
  | ok _ =>
    have second := deprecateTools_effect working (by decide)
      deprecated_trimmed d
    have apart : ∀ s ∈ builtinToolSeeds, s.id ∉ deprecatedBuiltinToolIDs := by decide
    refine ⟨⟨fun _ => first.succeeds.mp rfl, fun _ => second.succeeds⟩, ?_, fun _ => second.gone, ?_⟩
    · intro _ s member
      rw [(second.others s.id (apart s member)).seeded]
      exact first.seeded rfl s member
    · intro id other kept
      exact (first.others id other).trans (second.others id kept)

inductive ToolCall where
  | create (principal : CatalogPrincipal) (t : Tool)
  | update (principal : CatalogPrincipal) (t : Tool)
  | delete (principal : CatalogPrincipal) (id : String)
  | seed (a : String → ToolAnswer)

def toolHubStep [DecidableEq φ] (C : ToolCodec φ) (h : ToolHub) : ToolCall × ToolCallAnswer → Option ToolHub
  | (.create principal t, a) => some (createTool C a h principal t).1
  | (.update principal t, a) => some (updateTool C a h principal t).1
  | (.delete principal id, a) => some (deleteTool a h principal id).1
  | (.seed answers, _) => some { h with catalog := (seedBuiltinTools C answers h.catalog).1 }

variable {calls : List (ToolCall × ToolCallAnswer)}

section Reached

variable [DecidableEq φ] {c : ToolCatalog}

theorem insertTool_accepted
    (accepted : ∀ r ∈ rows, r.accepted = true) (inserted : ToolRepo.insertTool rows row = .ok rows')
    : ∀ r ∈ rows', r.accepted = true := by
  unfold ToolRepo.insertTool at inserted
  split_ifs at inserted with refused
  cases inserted
  intro r member
  rcases List.mem_append.mp member with old | new
  · exact accepted r old
  · rw [List.mem_singleton.mp new]
    simpa using refused

theorem updateTools_accepted (accepted : ∀ r ∈ rows, r.accepted = true)
    (updated : ToolRepo.updateTools rows chosen write = .ok rows') :
    ∀ r ∈ rows', r.accepted = true := by
  unfold ToolRepo.updateTools at updated
  split_ifs at updated with checked
  cases updated
  intro r member
  obtain ⟨old, stored, rfl⟩ := List.mem_map.mp member
  have passed := List.all_eq_true.mp checked old stored
  split_ifs with change
  · simpa [change] using passed
  · exact accepted old stored

theorem toolStep_accepted
    (accepted : RowsAccepted c) (taken : toolStep C c call = some d) : RowsAccepted d := by
  obtain ⟨write, a⟩ := call
  cases write <;> obtain rfl := Option.some.inj taken
  case create t =>
    exact write_preserves accepted fun _ _ made => insertTool_accepted accepted made
  case update t =>
    refine write_preserves accepted fun rows _ made => ?_
    unfold ToolRepo.updateTool at made
    dsimp only at made
    split_ifs at made
    exact updateTools_accepted accepted made
  case delete id =>
    unfold ToolRepo.delete
    dsimp only
    split
    · exact accepted
    · split_ifs
      · exact accepted
      · intro r member
        obtain ⟨old, stored, rfl⟩ := List.mem_map.mp member
        split_ifs <;> exact accepted old stored
  case upsertBuiltin t =>
    refine write_preserves accepted fun rows _ made => ?_
    unfold ToolRepo.upsertTool at made
    dsimp only at made
    split_ifs at made
    · exact updateTools_accepted accepted made
    · exact insertTool_accepted accepted made

def Tool.stamped (t : Tool) (principal : CatalogPrincipal) : Tool :=
  { t with
    ownerType := principal.subjectType
    ownerID := principal.subjectID
    ownerName := principal.name
    orgID := principal.orgID
    object := "tool:" ++ toolAuthzObjectID t.id
    status := orDefault t.status "active"
    scope := orDefault t.scope "project" }

/-- The update that `UpdateTool` makes of its request: the fields of the owner are kept. -/
def UpdateOf (t : Tool) (w : ToolWrite) : Prop :=
  ∃ row : ToolRow, w = .update { t with
    ownerType := row.ownerType
    ownerID := row.ownerID
    ownerName := row.ownerName
    orgID := row.orgID
    object := row.objectRef }

def ToolCall.writes (C : ToolCodec φ) : ToolCall → ToolWrite → Prop
  | .create principal t, w => w = .create (t.stamped principal) ∨ w = .delete t.id
  | .update _ t, w => UpdateOf t w
  | .delete _ id, w => w = .delete id
  | .seed _, w => (∃ s ∈ builtinToolSeeds, ∃ now, w = .upsertBuiltin (seedRecord C now s)) ∨
      ∃ id ∈ deprecatedBuiltinToolIDs, w = .delete id

def Reaches (C : ToolCodec φ) (allowed : ToolWrite → Prop) (c d : ToolCatalog) : Prop :=
  ∃ writes, (∀ write ∈ writes, allowed write.1) ∧ run (toolStep C) c writes = some d

section Reaches

variable {allowed : ToolWrite → Prop} {d : ToolCatalog}

theorem Reaches.refl (C : ToolCodec φ) (allowed : ToolWrite → Prop) (c : ToolCatalog) :
    Reaches C allowed c c :=
  ⟨[], List.forall_mem_nil _, rfl⟩

theorem Reaches.trans (first : Reaches C allowed c d)
    (second : Reaches C allowed d e) : Reaches C allowed c e := by
  obtain ⟨writes, all, ran⟩ := first
  obtain ⟨others, rest, next⟩ := second
  exact ⟨writes ++ others, fun write member => (List.mem_append.mp member).elim (all write) (rest write),
    run_append.mpr ⟨d, ran, next⟩⟩

theorem Reaches.preserves {I : ToolCatalog → Prop} (reaches : Reaches C allowed c d)
    (keep : ∀ c write d, allowed write.1 → I c → toolStep C c write = some d → I d) (start : I c) :
    I d := by
  obtain ⟨writes, all, ran⟩ := reaches
  exact run_preserves (fun c write d => keep c write d) start
    (guarded_of_forall (toolStep C) c all) ran

theorem reaches_write (a : ToolAnswer) (may : allowed write)
    (taken : toolStep C c (write, a) = some d) : Reaches C allowed c d := by
  refine ⟨[(write, a)], ?_, run_cons.mpr ⟨d, taken, rfl⟩⟩
  rw [List.forall_mem_singleton]
  exact may

theorem seedTools_reaches (a : String → ToolAnswer)
    (may : ∀ s ∈ seeds, ∀ now, allowed (.upsertBuiltin (seedRecord C now s))) (c : ToolCatalog) :
    Reaches C allowed c (seedTools C a seeds c).1 := by
  induction seeds generalizing c with
  | nil => exact .refl C allowed c
  | cons s rest ih =>
    rw [List.forall_mem_cons] at may
    have next := reaches_write (C := C) (c := c) (a s.id) (may.1 (a s.id).now) rfl
    unfold seedTools
    rw [builtinSeedToTool_eq]
    dsimp only
    generalize ToolRepo.upsertBuiltin C (a s.id) c (seedRecord C (a s.id).now s) = out at next ⊢
    obtain ⟨d, result⟩ := out
    cases result with
    | error e => exact next
    | ok _ => exact next.trans (ih may.2 d)

theorem deprecateTools_reaches (a : String → ToolAnswer)
    (may : ∀ id ∈ ids, allowed (.delete id)) (c : ToolCatalog) :
    Reaches C allowed c (deprecateTools a ids c).1 := by
  induction ids generalizing c with
  | nil => exact .refl C allowed c
  | cons id rest ih =>
    rw [List.forall_mem_cons] at may
    have next := reaches_write (C := C) (c := c) (a id) may.1 rfl
    unfold deprecateTools
    generalize ToolRepo.delete (a id) c id = out at next ⊢
    obtain ⟨d, result⟩ := out
    cases result with
    | error e =>
      dsimp only
      split_ifs
      · exact next.trans (ih may.2 d)
      · exact next
    | ok _ => exact next.trans (ih may.2 d)

end Reaches

theorem seedBuiltinTools_reaches (a : String → ToolAnswer) (c : ToolCatalog) :
    Reaches C (ToolCall.writes C (.seed a)) c (seedBuiltinTools C a c).1 := by
  have first : Reaches C (ToolCall.writes C (.seed a)) c (seedTools C a builtinToolSeeds c).1 :=
    seedTools_reaches a (fun s member now => .inl ⟨s, member, now, rfl⟩) c
  unfold seedBuiltinTools
  generalize seedTools C a builtinToolSeeds c = out at first ⊢
  obtain ⟨d, result⟩ := out
  cases result with
  | error e => exact first
  | ok _ =>
    exact first.trans (deprecateTools_reaches a (fun id member => .inr ⟨id, member, rfl⟩) d)

theorem createTool_reaches (a : ToolCallAnswer) (h : ToolHub) (principal : CatalogPrincipal) (t : Tool) :
    Reaches C (ToolCall.writes C (.create principal t)) h.catalog
      (createTool C a h principal t).1.catalog := by
  unfold createTool
  split
  · exact .refl C _ h.catalog
  dsimp only
  split_ifs
  · exact .refl C _ h.catalog
  split
  · rename_i created
    exact reaches_write _ (.inl rfl) (congrArg (some ∘ Prod.fst) created)
  · rename_i catalog out created
    have made : Reaches C (ToolCall.writes C (.create principal t)) h.catalog catalog :=
      reaches_write _ (.inl rfl) (congrArg (some ∘ Prod.fst) created)
    have undone := made.trans (reaches_write a.compensation (.inr rfl) rfl)
    unfold grantToolOwner
    split
    · exact undone
    split
    · exact undone
    · exact made

theorem toolHubStep_reaches (taken : toolHubStep C h call = some h') :
    Reaches C (call.1.writes C) h.catalog h'.catalog := by
  obtain ⟨call, a⟩ := call
  cases call <;> obtain rfl := Option.some.inj taken
  case create principal t =>
    exact createTool_reaches a h principal t
  case update principal t =>
    unfold updateTool
    split_ifs
    · exact .refl C _ h.catalog
    · split
      · exact .refl C _ h.catalog
      · rename_i existing _
        exact reaches_write a.write ⟨existing.row, rfl⟩ rfl
  case delete principal id =>
    unfold deleteTool
    split
    · exact .refl C _ h.catalog
    · split
      all_goals
        rename_i deleted
        exact reaches_write _ rfl (congrArg (some ∘ Prod.fst) deleted)
  case seed answers =>
    exact seedBuiltinTools_reaches answers h.catalog

theorem reached_invariant {I : ToolCatalog → Prop}
    (keep : ∀ c write d, I c → toolStep C c write = some d → I d) (start : I {})
    (ran : run (toolHubStep C) {} calls = some h) : I h.catalog := by
  refine run_invariant (I := fun h : ToolHub => I h.catalog) ?_ start ran
  intro g call g' before taken
  exact (toolHubStep_reaches taken).preserves (fun c write d _ => keep c write d) before

theorem reached_accepted (ran : run (toolHubStep C) {} calls = some h) : RowsAccepted h.catalog :=
  reached_invariant (fun _ _ _ accepted taken => toolStep_accepted accepted taken)
    (List.forall_mem_nil _) ran

end Reached

/-- In every catalog that is reached, a start of the hub succeeds, brings every seed and
leaves the other tools alone exactly when the catalog is healable. -/
theorem seeding_heals_iff [DecidableEq φ] (C : ToolCodec φ) (hex : C.Hex)
    (calls : List (ToolCall × ToolCallAnswer)) (h : ToolHub) (a : String → ToolAnswer)
    (ran : run (toolHubStep C) {} calls = some h) (working : Working a) :
    ((seedBuiltinTools C a h.catalog).2 = .ok () ∧
        (∀ s ∈ builtinToolSeeds, Seeded C (seedBuiltinTools C a h.catalog).1 s) ∧
        Untouched h.catalog (seedBuiltinTools C a h.catalog).1) ↔ Healable C h.catalog := by
  have start := seedBuiltinTools_effect hex working (reached_accepted ran)
  have foreign : ∀ id ∈ deprecatedBuiltinToolIDs, id ∉ builtinToolSeeds.map BuiltinToolSeed.id := by
    decide
  constructor
  · rintro ⟨fine, healed, untouched⟩
    refine ⟨start.succeeds.mp fine, fun s member => (start.seeded fine s member).mp (healed s member), ?_⟩
    intro id member
    by_contra claimed
    obtain ⟨row, live⟩ := Option.ne_none_iff_exists'.mp claimed
    have still := (untouched id (foreign id member) row live).1
    rw [start.gone fine id member] at still
    cases still
  · intro heals
    have fine := start.succeeds.mpr heals.restorable
    refine ⟨fine, fun s member => (start.seeded fine s member).mpr (heals.free s member), ?_⟩
    intro id other row live
    have kept : id ∉ deprecatedBuiltinToolIDs := by
      intro member
      rw [heals.unclaimed id member] at live
      cases live
    have same := start.others id other kept
    exact ⟨same.live.trans live, same.versions⟩

instance decidableRestorable (c : ToolCatalog) (id : String) : Decidable (Restorable c id) :=
  inferInstanceAs (Decidable (_ = true → _ = true))

instance decidableLabelFree [DecidableEq φ] (C : ToolCodec φ) (c : ToolCatalog) (s : BuiltinToolSeed) :
    Decidable (LabelFree C c s) :=
  decidable_of_iff ((findToolVersion c.versions s.id (seedLabel C s)).all fun row =>
      decide (SameDocument C row.definitionJSON (seedJSON s))) (by
    simp only [LabelFree, Option.all_eq_true, decide_eq_true_eq])

def hexCodec : ToolCodec Int where
  floats := ⟨fun n => if n.exponent = 0 then some n.mantissa else none, fun n => toString n⟩
  sha256Hex _ := String.ofList (List.replicate 64 '0')

theorem hexCodec_hex : hexCodec.Hex := by
  intro json
  rw [hexCodec, String.length_ofList, List.length_replicate]

def adaOfAcme : CatalogPrincipal := { subjectType := "user", subjectID := "ada", orgID := "acme" }

def userTool (id label : String) : Tool where
  id := id
  latestVersion := label
  versions := [(label, { version := label, definition := { runtime := { type := "mcp" } } })]

def freshCatalog : ToolCatalog := builtinToolSeeds.foldl (fun c s => seedCatalog hexCodec 0 s c) {}

theorem first_start : seedBuiltinTools hexCodec (fun _ => {}) {} = (freshCatalog, .ok ()) := by
  have working : Working fun _ => {} := fun _ => ⟨rfl, rfl⟩
  have seeded : seedTools hexCodec (fun _ => {}) builtinToolSeeds {} = (freshCatalog, .ok ()) := by
    apply seedTools_eq hexCodec_hex working (by decide) builtinToolSeeds_fit
    · exact fun r member => nomatch member
    · exact fun s _ found => nomatch found
  rw [seedBuiltinTools, seeded]
  exact deprecateTools_absent working deprecated_trimmed (by decide +kernel)

theorem run_of_fresh (ran : run (toolHubStep hexCodec) { catalog := freshCatalog } calls = some h) :
    run (toolHubStep hexCodec) {} ((.seed fun _ => {}, {}) :: calls) = some h := by
  refine run_cons.mpr ⟨_, ?_, ran⟩
  rw [toolHubStep, first_start]

theorem started_catalog_heals :
    ∃ h, run (toolHubStep hexCodec) {}
        [(.seed fun _ => {}, {}), (.create adaOfAcme (userTool "notes.search" "v1"), {}),
          (.delete adaOfAcme "notes.search", {})] = some h ∧
      (seedBuiltinTools hexCodec (fun _ => {}) h.catalog).2 = .ok () ∧
      (∀ s ∈ builtinToolSeeds, Seeded hexCodec (seedBuiltinTools hexCodec (fun _ => {}) h.catalog).1 s) ∧
      Untouched h.catalog (seedBuiltinTools hexCodec (fun _ => {}) h.catalog).1 := by
  obtain ⟨h, ran, restorable, free, unclaimed⟩ : ∃ h,
      run (toolHubStep hexCodec) { catalog := freshCatalog }
      [(.create adaOfAcme (userTool "notes.search" "v1"), {}),
        (.delete adaOfAcme "notes.search", {})] = some h ∧
      (∀ s ∈ builtinToolSeeds, Restorable h.catalog s.id) ∧
      (∀ s ∈ builtinToolSeeds, LabelFree hexCodec h.catalog s) ∧
      ∀ id ∈ deprecatedBuiltinToolIDs, liveTool h.catalog.tools id = none := by
    decide +kernel
  exact ⟨h, run_of_fresh ran, (seeding_heals_iff hexCodec hexCodec_hex _ h (fun _ => {})
    (run_of_fresh ran) (fun _ => ⟨rfl, rfl⟩)).mpr ⟨restorable, free, unclaimed⟩⟩

/-- A deleted seed stops every later start, a user's tool under a renamed id is deleted, and
a version stored under the label of a seed stays in its place. -/
theorem start_fails_or_harms :
    (∃ h, run (toolHubStep hexCodec) {}
        [(.seed fun _ => {}, {}),
          (.delete adaOfAcme "workspace.read", { check := .denied })] = some h ∧
      (seedBuiltinTools hexCodec (fun _ => {}) h.catalog).2 =
        .error ⟨.TOOL_NOT_FOUND, "seed builtin tool \"workspace.read\": "⟩) ∧
    (∃ h, run (toolHubStep hexCodec) {}
        [(.seed fun _ => {}, {}), (.create adaOfAcme (userTool "git.pull" "v1"), {})] = some h ∧
      (liveTool h.catalog.tools "git.pull").isSome = true ∧
      liveTool (seedBuiltinTools hexCodec (fun _ => {}) h.catalog).1.tools "git.pull" = none) ∧
    ∃ h, run (toolHubStep hexCodec) {}
        [(.create adaOfAcme (userTool "skill.publish" "builtin-000000000000"), {})] = some h ∧
      (∃ done, (seedBuiltinTools hexCodec (fun _ => {}) h.catalog).2 = .ok done) ∧
      ∃ s ∈ builtinToolSeeds, s.id = "skill.publish" ∧
        ¬Seeded hexCodec (seedBuiltinTools hexCodec (fun _ => {}) h.catalog).1 s := by
  have working : Working fun _ => {} := fun _ => ⟨rfl, rfl⟩
  refine ⟨?_, ?_, ?_⟩
  · obtain ⟨h, ran, failed⟩ : ∃ h, run (toolHubStep hexCodec) { catalog := freshCatalog }
        [(.delete adaOfAcme "workspace.read", { check := .denied })] = some h ∧
        (seedBuiltinTools hexCodec (fun _ => {}) h.catalog).2 =
          .error ⟨.TOOL_NOT_FOUND, "seed builtin tool \"workspace.read\": "⟩ := by
      decide +kernel
    exact ⟨h, run_of_fresh ran, failed⟩
  · obtain ⟨h, ran, stored, restorable⟩ : ∃ h,
        run (toolHubStep hexCodec) { catalog := freshCatalog }
          [(.create adaOfAcme (userTool "git.pull" "v1"), {})] = some h ∧
        (liveTool h.catalog.tools "git.pull").isSome = true ∧
        ∀ s ∈ builtinToolSeeds, Restorable h.catalog s.id := by
      decide +kernel
    replace ran := run_of_fresh ran
    have start := seedBuiltinTools_effect hexCodec_hex working (reached_accepted ran)
    exact ⟨h, ran, stored, start.gone (start.succeeds.mpr restorable) "git.pull" (by decide)⟩
  · refine exists_run (P := fun h => (∀ s ∈ builtinToolSeeds,
    Restorable h.catalog s.id) ∧
        ∃ s ∈ builtinToolSeeds, s.id = "skill.publish" ∧ ¬LabelFree hexCodec h.catalog s)
      (by decide +kernel) fun h ran facts => ?_
    obtain ⟨restorable, s, member, named, taken⟩ := facts
    have start := seedBuiltinTools_effect hexCodec_hex working (reached_accepted ran)
    have fine := start.succeeds.mpr restorable
    exact ⟨⟨(), fine⟩, s, member, named, mt (start.seeded fine s member).mp taken⟩

end AisphereHub
