import AisphereHub.Biz.ToolUsecase

/-! When a strict write of a tool succeeds. Its versions are written one after another, and one that
is stored already has to be decoded like the document that is submitted. -/
namespace AisphereHub

open GoJson
open GoStrings (trimSpace)

variable {φ : Type} [DecidableEq φ] {C : ToolCodec φ}

theorem insertTool_eq_ok : ToolRepo.insertTool rows row = .ok rows' ↔
      row.accepted = true ∧ liveTool rows row.toolID = none ∧ rows' = rows ++ [row] := by
  unfold ToolRepo.insertTool
  rw [inserted_eq_ok, Except.ok.injEq, eq_comm (b := rows')]

/-- The row a version is written as: its definition is encoded, its digest is long enough and
its texts fit the columns. -/
structure Writable (C : ToolCodec φ) (now : Nat) (toolID : String) (v : ToolVersion)
    (row : ToolVersionRow) : Prop where
  encoded : v.definition.marshal = .ok row.definitionJSON
  built : toolVersionRow C now toolID v row.definitionJSON = .ok row
  fits : row.accepted = true

/-- The version is new, or its document is decoded like the one that is stored. -/
def Adoptable (C : ToolCodec φ) (rows : List ToolVersionRow) (toolID : String) (v : ToolVersion) :
    Prop :=
  ∀ existing, findToolVersion rows toolID v.version = some existing →
    ∀ json, v.definition.marshal = .ok json →
      jsonSemanticEqual C existing.definitionJSON json = true

section Versions

variable {now : Nat} {toolID : String} {rows rows' : List ToolVersionRow}
  {entry : String × ToolVersion} {row : ToolVersionRow}

theorem writeVersionRow_of_new (writable : Writable C now toolID entry.2 row)
    (free : findToolVersion rows toolID entry.2.version = none) (mode : VersionConflictMode) :
    writeVersionRow C now toolID mode rows entry = .ok (rows ++ [row]) := by
  unfold writeVersionRow
  rw [writable.encoded]
  dsimp only
  rw [writable.built]
  rw [free]
  exact if_pos writable.fits

theorem adoptable_of_written
    (written : writeVersionRow C now toolID .versionConflictStrict rows entry = .ok rows') :
    Adoptable C rows toolID entry.2 := by
  intro existing stored json encoded
  obtain ⟨row, encoded', _, ⟨free, _⟩ | ⟨existing', stored', alike, _⟩⟩ :=
    writeVersionRow_eq_ok written
  · rw [free] at stored
    cases stored
  · obtain rfl := Option.some.inj (stored'.symm.trans stored)
    obtain rfl := Except.ok.inj (encoded'.symm.trans encoded)
    exact alike.resolve_left (by decide)

theorem written_of_adoptable (writable : Writable C now toolID entry.2 row)
    (adoptable : Adoptable C rows toolID entry.2) :
    ∃ rows', writeVersionRow C now toolID .versionConflictStrict rows entry = .ok rows' := by
  cases stored : findToolVersion rows toolID entry.2.version with
  | none => exact ⟨_, writeVersionRow_of_new writable stored _⟩
  | some existing =>
    have equal := adoptable existing stored _ writable.encoded
    unfold writeVersionRow
    rw [writable.encoded]
    dsimp only
    rw [writable.built]
    rw [stored]
    dsimp only
    rw [if_neg (by decide), if_pos equal, if_pos writable.fits]
    split_ifs
    · exact ⟨_, rfl⟩
    · exact ⟨_, rfl⟩

theorem writeVersionRow_other {id}
    (written : writeVersionRow C now toolID mode rows entry = .ok rows')
    (other : (id, version) ≠ (toolID, entry.2.version)) :
    findToolVersion rows' id version = findToolVersion rows id version := by
  obtain ⟨row, _, key, ⟨_, rfl⟩ | ⟨existing, _, _, rfl | rfl⟩⟩ := writeVersionRow_eq_ok written
  · rw [findToolVersion, Keyed.lookup_append, key, if_neg (Ne.symm other), Option.or_none]
    rfl
  · rfl
  · rw [findToolVersion, Keyed.lookup_amend (fun r => rfl : ∀ r : ToolVersionRow,
      (r.stamped row).key = r.key), key, if_neg other]
    rfl

theorem Adoptable.of_keeps (kept : KeepsDefinitions rows rows')
    (adoptable : Adoptable C rows' toolID v) : Adoptable C rows toolID v := by
  intro existing stored json encoded
  obtain ⟨existing', stored', same⟩ := kept toolID v.version existing stored
  rw [← same]
  exact adoptable existing' stored' json encoded

theorem adoptable_of_foldlM {entries : List (String × ToolVersion)}
    (written : entries.foldlM (writeVersionRow C now toolID .versionConflictStrict) rows = .ok rows') :
    ∀ entry ∈ entries, Adoptable C rows toolID entry.2 := by
  induction entries generalizing rows with
  | nil => exact fun entry member => nomatch member
  | cons first rest ih =>
    obtain ⟨middle, pass, written⟩ := bind_eq_ok.mp written
    rw [List.forall_mem_cons]
    exact ⟨adoptable_of_written pass,
      fun entry member => (ih written entry member).of_keeps (writeVersionRow_keeps pass)⟩

theorem foldlM_of_adoptable {entries : List (String × ToolVersion)}
    (writable : ∀ entry ∈ entries, ∃ row, Writable C now toolID entry.2 row)
    (distinct : (entries.map fun entry => entry.2.version).Nodup)
    (adoptable : ∀ entry ∈ entries, Adoptable C rows toolID entry.2) :
    ∃ rows', entries.foldlM (writeVersionRow C now toolID .versionConflictStrict) rows = .ok rows' := by
  induction entries generalizing rows with
  | nil => exact ⟨rows, rfl⟩
  | cons entry rest ih =>
    rw [List.forall_mem_cons] at writable adoptable
    rw [List.map_cons, List.nodup_cons] at distinct
    obtain ⟨row, first⟩ := writable.1
    obtain ⟨middle, pass⟩ := written_of_adoptable first adoptable.1
    have later : ∀ later ∈ rest, Adoptable C middle toolID later.2 := by
      intro later member
      have other : (toolID, later.2.version) ≠ (toolID, entry.2.version) := by
        intro equal
        have label := (Prod.mk.inj equal).2
        exact distinct.1 (label ▸ List.mem_map_of_mem member)
      rw [Adoptable, writeVersionRow_other pass other]
      exact adoptable.2 later member
    obtain ⟨rows', written⟩ := ih writable.2 distinct.2 later
    exact ⟨rows', bind_eq_ok.mpr ⟨middle, pass, written⟩⟩

end Versions

section Create

variable {a : ToolAnswer} {c : ToolCatalog} {t : Tool}

theorem liveTool_append (live : row.live = true) (id : String) :
    liveTool (rows ++ [row]) id =
      (liveTool rows id).or (if row.toolID = id then some row else none) := by
  simp only [liveTool, List.find?_append, List.find?_singleton, Bool.and_eq_true,
    decide_eq_true_eq, live, and_true]

structure Insertable (C : ToolCodec φ) (now : Nat) (t : Tool) : Prop where
  row : (toolBizToModel t now).accepted = true
  versions : ∀ entry ∈ t.versions, ∃ row, Writable C now t.id entry.2 row
  labels : (t.versions.map fun entry => entry.2.version).Nodup
  trimmed : trimSpace t.id = t.id

theorem repoCreate_eq_ok (created : ToolRepo.create C a c t = (d, .ok out)) :
    liveTool c.tools t.id = none ∧ (∀ entry ∈ t.versions, Adoptable C c.versions t.id entry.2) ∧
      ToolRepo.get d t.id "" = .ok out := by
  obtain ⟨e, failed⟩ | ⟨rows, versions, _, made, written, done⟩ :=
    write_cases (C := C) a c t .versionConflictStrict
      (ToolRepo.insertTool c.tools (toolBizToModel t a.now))
  · rw [ToolRepo.create, failed] at created
    cases (Prod.mk.inj created).2
  · rw [ToolRepo.create, done] at created
    obtain ⟨rfl, read⟩ := Prod.mk.inj created
    refine ⟨(insertTool_eq_ok.mp made).2.1, adoptable_of_foldlM written, ?_⟩
    cases fault : a.readFault with
    | none =>
      rw [fault] at read
      exact read
    | some cause =>
      rw [fault] at read
      cases read

/-- A strict write that is otherwise in order succeeds exactly if it can adopt every stored
version that it names. -/
theorem write_ok_iff (works : a.fault = none) (reads : a.readFault = none)
    (writable : ∀ entry ∈ t.versions, ∃ row, Writable C a.now t.id entry.2 row)
    (labels : (t.versions.map fun entry => entry.2.version).Nodup)
    (made : tools = .ok rows) (live : (liveTool rows (trimSpace t.id)).isSome = true) :
    (ToolRepo.write C a c t .versionConflictStrict tools).2.isOk = true ↔
      ∀ entry ∈ t.versions, Adoptable C c.versions t.id entry.2 := by
  constructor
  · intro fine
    obtain ⟨e, failed⟩ | ⟨_, versions, _, _, written, _⟩ :=
      write_cases (C := C) a c t .versionConflictStrict tools
    · rw [failed] at fine
      cases fine
    · exact adoptable_of_foldlM written
  · intro adoptable
    obtain ⟨versions, written⟩ := foldlM_of_adoptable writable labels adoptable
    obtain ⟨row, found⟩ := Option.isSome_iff_exists.mp live
    unfold ToolRepo.write ToolRepo.transaction writeVersionRows
    rw [works, reads, made, written]
    dsimp only [bind, Except.bind, pure, Except.pure]
    rw [ToolRepo.get, found]
    rfl

theorem create_ok_iff (insertable : Insertable C a.now t) (works : a.fault = none)
    (reads : a.readFault = none) : (ToolRepo.create C a c t).2.isOk = true ↔
      liveTool c.tools t.id = none ∧ ∀ entry ∈ t.versions, Adoptable C c.versions t.id entry.2 := by
  have adopts (free : liveTool c.tools t.id = none) := write_ok_iff (c := c) works reads
    insertable.versions insertable.labels (insertTool_eq_ok.mpr ⟨insertable.row, free, rfl⟩) (by
      rw [insertable.trimmed, liveTool_append rfl, free]
      exact congrArg Option.isSome (if_pos rfl))
  constructor
  · intro fine
    obtain ⟨out, result⟩ := exists_of_isOk fine
    have created := repoCreate_eq_ok (Prod.ext rfl result : ToolRepo.create C a c t = (_, .ok out))
    exact ⟨created.1, created.2.1⟩
  · rintro ⟨free, adoptable⟩
    exact (adopts free).mpr adoptable

end Create

end AisphereHub
