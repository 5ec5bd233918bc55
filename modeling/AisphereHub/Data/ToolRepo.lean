import AisphereHub.Biz.Tool
import AisphereHub.Data.Store
import AisphereHub.Foundation.Transition
import Mathlib.Data.List.Sort

/-! The tool repository. A write is one transaction, and the tool is read again once it is
committed. Rows are kept in the order of their primary keys. -/
namespace AisphereHub

open GoJson
open GoStrings (trimSpace)

structure ToolRow where
  toolID : String
  displayName : String
  description : String
  status : String
  scope : String
  ownerType : String
  ownerID : String
  ownerName : String
  orgID : String
  projectID : String
  latestVersion : String
  labelsJSON : Json Decimal
  objectRef : String
  createdAt : Nat
  updatedAt : Nat
  deletedAt : Option Nat := none
deriving DecidableEq

structure ToolVersionRow where
  toolID : String
  version : String
  revision : String
  sha256 : String
  author : String
  commitMsg : String
  definitionJSON : Json Decimal
  createdAt : Nat
deriving DecidableEq

structure ToolCatalog where
  tools : List ToolRow := []
  versions : List ToolVersionRow := []
deriving DecidableEq

structure StoredTool where
  row : ToolRow
  versions : List ToolVersionRow
deriving DecidableEq

structure ToolListOptions where
  limit : Int := 0
  offset : Nat := 0
  query : String := ""
  scope : String := ""
  status : String := ""
  runtimeType : String := ""
deriving DecidableEq

/-- The failures of the database in one call, in its transaction and in the read after it,
and the clock. -/
structure ToolAnswer where
  fault : Option String := none
  readFault : Option String := none
  now : Nat := 0
deriving DecidableEq

def ToolRow.live (r : ToolRow) : Bool := r.deletedAt.isNone

/-- `UNIQUE(tool_id, version)`. -/
def ToolVersionRow.key (r : ToolVersionRow) : String × String := (r.toolID, r.version)

/-- `WHERE tool_id = ? AND deleted_at IS NULL`. -/
def liveTool (rows : List ToolRow) (id : String) : Option ToolRow :=
  rows.find? fun r => r.toolID = id && r.live

def findToolVersion (rows : List ToolVersionRow) (id version : String) : Option ToolVersionRow :=
  Keyed.lookup ToolVersionRow.key rows (id, version)

/-- The checks and the column sizes of `aihub_tools`. -/
def ToolRow.accepted (r : ToolRow) : Bool :=
  r.status ∈ ["active", "disabled", "builtin"] && r.scope ∈ ["system", "project", "private"] &&
    r.toolID.length ≤ 128 && r.displayName.length ≤ 256 && r.ownerType.length ≤ 32 &&
    r.ownerID.length ≤ 128 && r.ownerName.length ≤ 256 && r.orgID.length ≤ 128 &&
    r.projectID.length ≤ 128 && r.latestVersion.length ≤ 64 && r.objectRef.length ≤ 256

def ToolVersionRow.accepted (r : ToolVersionRow) : Bool :=
  r.toolID.length ≤ 128 && r.version.length ≤ 64 && r.revision.length ≤ 128 &&
    r.sha256.length ≤ 64 && r.author.length ≤ 128

def labelsToJSON (labels : Option (List (String × String))) : Json Decimal :=
  if labels.getD [] = [] then .obj [] else marshalMap labels

/-- A field with a column default is left to the database when it is empty. -/
def orDefault (value default : String) : String := if value = "" then default else value

def toolBizToModel (t : Tool) (now : Nat) : ToolRow where
  toolID := t.id
  displayName := t.displayName
  description := t.description
  status := orDefault t.status "active"
  scope := orDefault t.scope "project"
  ownerType := orDefault t.ownerType "user"
  ownerID := t.ownerID
  ownerName := t.ownerName
  orgID := t.orgID
  projectID := t.projectID
  latestVersion := t.latestVersion
  labelsJSON := labelsToJSON t.labels
  objectRef := t.object
  createdAt := now
  updatedAt := now

inductive VersionConflictMode where
  | versionConflictStrict
  | versionConflictSkip
deriving DecidableEq

structure ToolCodec (φ : Type) where
  floats : Floats φ
  sha256Hex : Json Decimal → String

section Writes

variable {φ : Type} [DecidableEq φ] (C : ToolCodec φ)

def jsonSemanticEqual (a b : Json Decimal) : Bool :=
  match unmarshal C.floats a, unmarshal C.floats b with
  | some x, some y => x.deepEqual y
  | _, _ => false

/-- The row for a version. The slice of the digest panics when the caller's is shorter than
twelve characters and it gives no revision. -/
def toolVersionRow (now : Nat) (toolID : String) (v : ToolVersion) (json : Json Decimal) :
    Except HubError ToolVersionRow :=
  let sha := if v.sha256 = "" then C.sha256Hex json else v.sha256
  if v.revision = "" ∧ sha.length < 12 then .error (.plain "slice bounds out of range")
  else .ok {
    toolID := toolID
    version := v.version
    revision := if v.revision = "" then String.ofList (sha.toList.take 12) else v.revision
    sha256 := sha
    author := v.author
    commitMsg := v.commitMsg
    definitionJSON := json
    createdAt := if v.createTime = 0 then now else v.createTime }

def errTooLong : HubError := .plain "value too long for type character varying"

def writeVersionRow (now : Nat) (toolID : String) (mode : VersionConflictMode)
    (rows : List ToolVersionRow) (entry : String × ToolVersion) :
    Except HubError (List ToolVersionRow) :=
  match entry.2.definition.marshal with
  | .error cause =>
    .error (.plain ("tool repo: marshal definition for version \"" ++ entry.1 ++ "\": " ++ cause))
  | .ok json =>
    match toolVersionRow C now toolID entry.2 json with
    | .error e => .error e
    | .ok row =>
      match findToolVersion rows toolID entry.2.version with
      | none => if row.accepted then .ok (rows ++ [row]) else .error errTooLong
      | some existing =>
        if mode = .versionConflictSkip then .ok rows
        else if jsonSemanticEqual C existing.definitionJSON json then
          if existing.sha256 = "" ∨ existing.revision = "" then
            if row.accepted then
              .ok (Keyed.amend ToolVersionRow.key rows row.key fun r =>
                { r with sha256 := row.sha256, revision := row.revision })
            else .error errTooLong
          else .ok rows
        else .error ⟨.TOOL_VERSION_CONFLICT,
          "tool \"" ++ toolID ++ "\" version \"" ++ entry.1 ++ "\""⟩

def writeVersionRows (now : Nat) (rows : List ToolVersionRow) (t : Tool)
    (mode : VersionConflictMode) : Except HubError (List ToolVersionRow) :=
  t.versions.foldlM (writeVersionRow C now t.id mode) rows

namespace ToolRepo

def loadVersions (c : ToolCatalog) (row : ToolRow) (version : String) :
    Except HubError StoredTool :=
  let rows := c.versions.filter fun v =>
    v.toolID = row.toolID && (version = "" || v.version = version)
  if version ≠ "" ∧ rows = [] then
    .error ⟨.TOOL_NOT_FOUND, "version \"" ++ version ++ "\" not found"⟩
  else .ok ⟨row, rows⟩

def get (c : ToolCatalog) (id version : String) : Except HubError StoredTool :=
  match liveTool c.tools (trimSpace id) with
  | none => .error ⟨.TOOL_NOT_FOUND, ""⟩
  | some row => loadVersions c row version

/-- `LIKE`: `%` is any text, `_` any character, and a backslash takes the next character as it
is. -/
def like : List Char → List Char → Bool
  | [], text => text.isEmpty
  | '%' :: rest, text => text.tails.any (like rest)
  | '\\' :: c :: rest, d :: text => c == d && like rest text
  | '_' :: rest, _ :: text => like rest text
  | c :: rest, d :: text => c == d && like rest text
  | _ :: _, [] => false

/-- `definition_json->'Runtime'->>'Type'`, a string in every definition that is stored. -/
def runtimeType : Json Decimal → Option String
  | .obj members =>
    match members.lookup "Runtime" with
    | some (.obj runtime) =>
      match runtime.lookup "Type" with
      | some (.str text) => some text
      | _ => none
    | _ => none
  | _ => none

def listed (c : ToolCatalog) (opts : ToolListOptions) (r : ToolRow) : Bool :=
  let pattern := '%' :: (trimSpace opts.query).toList ++ ['%']
  let runtime := trimSpace opts.runtimeType
  r.live &&
    (trimSpace opts.query = "" || like pattern r.toolID.toList || like pattern r.displayName.toList ||
      like pattern r.description.toList) &&
    (opts.scope = "" || r.scope = opts.scope) && (opts.status = "" || r.status = opts.status) &&
    (runtime = "" || c.versions.any fun v => v.toolID = r.toolID && v.version = r.latestVersion &&
      runtimeType v.definitionJSON = some runtime)

def pageLimit (limit : Int) : Nat :=
  if limit ≤ 0 then 50 else if 200 < limit then 200 else limit.toNat

/-- A page of the catalog in the order of the ids, and the token of the next one. -/
def list (c : ToolCatalog) (opts : ToolListOptions) : List StoredTool × String :=
  let limit := pageLimit opts.limit
  let rows := (c.tools.filter (listed c opts)).insertionSort fun r s => r.toolID ≤ s.toolID
  let page := (rows.drop opts.offset).take (limit + 1)
  ((page.take limit).map fun row => ⟨row, c.versions.filter fun v => v.toolID = row.toolID⟩,
    if limit < page.length then toString (opts.offset + limit) else "")

def transaction (a : ToolAnswer) (c : ToolCatalog) (id : String) (body : Except HubError ToolCatalog) :
    ToolCatalog × Except HubError StoredTool :=
  match a.fault, body with
  | some cause, _ => (c, .error (.plain cause))
  | none, .error e => (c, .error e)
  | none, .ok d =>
    match a.readFault with
    | some cause => (d, .error (.plain cause))
    | none => (d, get d id "")

/-- The insert under the checks and the partial unique index on `tool_id`. -/
def insertTool (rows : List ToolRow) (row : ToolRow) : Except HubError (List ToolRow) :=
  if row.accepted = false then .error (.plain "violates check constraint")
  else if (liveTool rows row.toolID).isSome then
    .error (.plain "duplicate key value violates unique constraint \"aihub_tools_tool_id_uniq\"")
  else .ok (rows ++ [row])

def updateTools (rows : List ToolRow) (chosen : ToolRow → Bool) (write : ToolRow → ToolRow) :
    Except HubError (List ToolRow) :=
  if rows.all fun r => !chosen r || (write r).accepted then
    .ok (rows.map fun r => if chosen r then write r else r)
  else .error (.plain "violates check constraint")

def updateTool (rows : List ToolRow) (t : Tool) (now : Nat) : Except HubError (List ToolRow) :=
  let chosen (r : ToolRow) : Bool := r.toolID = t.id && r.live
  if rows.any chosen then
    updateTools rows chosen fun r =>
      { r with
        displayName := t.displayName
        description := t.description
        status := t.status
        scope := t.scope
        latestVersion := t.latestVersion
        labelsJSON := labelsToJSON t.labels
        updatedAt := now }
  else .error ⟨.TOOL_NOT_FOUND, ""⟩

/-- The tool row in `UpsertBuiltin`, which finds and updates deleted rows too and leaves
them deleted. -/
def upsertTool (rows : List ToolRow) (t : Tool) (now : Nat) : Except HubError (List ToolRow) :=
  let chosen (r : ToolRow) : Bool := r.toolID = t.id
  if rows.any chosen then
    updateTools rows chosen fun r =>
      { r with
        displayName := t.displayName
        description := t.description
        status := t.status
        scope := t.scope
        ownerType := t.ownerType
        ownerID := t.ownerID
        ownerName := t.ownerName
        latestVersion := t.latestVersion
        updatedAt := now }
  else insertTool rows (toolBizToModel t now)

/-- The transaction of a write: the tool row, then the version rows. -/
def write (a : ToolAnswer) (c : ToolCatalog) (t : Tool) (mode : VersionConflictMode)
    (tools : Except HubError (List ToolRow)) : ToolCatalog × Except HubError StoredTool :=
  transaction a c t.id do
    let tools ← tools
    let versions ← writeVersionRows C a.now c.versions t mode
    return ⟨tools, versions⟩

def create (a : ToolAnswer) (c : ToolCatalog) (t : Tool) :
    ToolCatalog × Except HubError StoredTool :=
  write C a c t .versionConflictStrict (insertTool c.tools (toolBizToModel t a.now))

def update (a : ToolAnswer) (c : ToolCatalog) (t : Tool) :
    ToolCatalog × Except HubError StoredTool :=
  write C a c t .versionConflictStrict (updateTool c.tools t a.now)

def upsertBuiltin (a : ToolAnswer) (c : ToolCatalog) (t : Tool) :
    ToolCatalog × Except HubError StoredTool :=
  write C a c t .versionConflictSkip (upsertTool c.tools t a.now)

/-- `Delete` stamps the live row; its versions stay. -/
def delete (a : ToolAnswer) (c : ToolCatalog) (id : String) : ToolCatalog × Except HubError Unit :=
  let chosen (r : ToolRow) : Bool := r.toolID = trimSpace id && r.live
  match a.fault with
  | some cause => (c, .error (.plain cause))
  | none =>
    if c.tools.any chosen = false then (c, .error ⟨.TOOL_NOT_FOUND, ""⟩)
    else
      ({ c with
          tools := c.tools.map fun r => if chosen r then { r with deletedAt := some a.now } else r },
        .ok ())

end ToolRepo

inductive ToolWrite where
  | create (t : Tool)
  | update (t : Tool)
  | delete (id : String)
  | upsertBuiltin (t : Tool)
deriving DecidableEq

def toolStep (c : ToolCatalog) : ToolWrite × ToolAnswer → Option ToolCatalog
  | (.create t, a) => some (ToolRepo.create C a c t).1
  | (.update t, a) => some (ToolRepo.update C a c t).1
  | (.delete id, a) => some (ToolRepo.delete a c id).1
  | (.upsertBuiltin t, a) => some (ToolRepo.upsertBuiltin C a c t).1

variable {C} {now : Nat} {toolID id version : String} {mode : VersionConflictMode}
  {rows rows' : List ToolVersionRow} {entry : String × ToolVersion} {t : Tool}

theorem key_of_found (found : findToolVersion rows id version = some row) :
    row.toolID = id ∧ row.version = version := by
  have key : row.key = (id, version) := Keyed.key_of_lookup found
  exact Prod.mk.inj key

/-- A row stays under its key, with the definition it was written with. -/
def KeepsDefinitions (rows rows' : List ToolVersionRow) : Prop :=
  ∀ id version row, findToolVersion rows id version = some row →
    ∃ row', findToolVersion rows' id version = some row' ∧
      row'.definitionJSON = row.definitionJSON

theorem KeepsDefinitions.refl (rows : List ToolVersionRow) : KeepsDefinitions rows rows :=
  fun _ _ row found => ⟨row, found, rfl⟩

theorem KeepsDefinitions.trans (first : KeepsDefinitions rows rows')
    (second : KeepsDefinitions rows' rows'') : KeepsDefinitions rows rows'' := by
  intro id version row found
  obtain ⟨row', found', same⟩ := first id version row found
  obtain ⟨row'', found'', same'⟩ := second id version row' found'
  exact ⟨row'', found'', same'.trans same⟩

theorem keepsDefinitions_append (row : ToolVersionRow) : KeepsDefinitions rows (rows ++ [row]) := by
  intro id version old found
  refine ⟨old, ?_, rfl⟩
  rw [findToolVersion] at found ⊢
  rw [Keyed.lookup_append, found]
  rfl

omit [DecidableEq φ] in
def ToolVersionRow.stamped (r row : ToolVersionRow) : ToolVersionRow :=
  { r with sha256 := row.sha256, revision := row.revision }

/-- What a pass of the loop can do: a row is added under a free key, or the one that is found
stays, up to its stamps. -/
theorem writeVersionRow_eq_ok (written : writeVersionRow C now toolID mode rows entry = .ok rows') :
    ∃ row, entry.2.definition.marshal = .ok row.definitionJSON ∧
      row.key = (toolID, entry.2.version) ∧
      (findToolVersion rows toolID entry.2.version = none ∧ rows' = rows ++ [row] ∨
        ∃ existing, findToolVersion rows toolID entry.2.version = some existing ∧
          (mode = .versionConflictSkip ∨
            jsonSemanticEqual C existing.definitionJSON row.definitionJSON = true) ∧ (rows' = rows ∨
            rows' = Keyed.amend ToolVersionRow.key rows row.key fun r => r.stamped row)) := by
  unfold writeVersionRow at written
  split at written
  · cases written
  rename_i json encoded
  split at written
  · cases written
  rename_i row built
  obtain ⟨key, rfl⟩ : row.key = (toolID, entry.2.version) ∧ row.definitionJSON = json := by
    unfold toolVersionRow at built
    dsimp only at built
    split_ifs at built <;> rw [← Except.ok.inj built] <;> exact ⟨rfl, rfl⟩
  refine ⟨row, encoded, key, ?_⟩
  split at written
  · rename_i free
    split_ifs at written
    exact .inl ⟨free, (Except.ok.inj written).symm⟩
  · rename_i existing stored
    refine .inr ⟨existing, stored, ?_⟩
    split_ifs at written with skip equal
    · exact ⟨.inl skip, .inl (Except.ok.inj written).symm⟩
    · exact ⟨.inr equal, .inr (Except.ok.inj written).symm⟩
    · exact ⟨.inr equal, .inl (Except.ok.inj written).symm⟩

theorem writeVersionRow_keeps (written : writeVersionRow C now toolID mode rows entry = .ok rows') :
    KeepsDefinitions rows rows' := by
  obtain ⟨row, _, _, ⟨_, rfl⟩ | ⟨existing, _, _, rfl | rfl⟩⟩ := writeVersionRow_eq_ok written
  · exact keepsDefinitions_append _
  · exact .refl _
  · intro id version old found
    rw [findToolVersion] at found
    rw [findToolVersion, Keyed.lookup_amend (f := (ToolVersionRow.stamped · row)) fun _ => rfl]
    split_ifs with same
    · rw [← same, found]
      exact ⟨_, rfl, rfl⟩
    · exact ⟨old, found, rfl⟩

theorem foldlM_keeps {entries : List (String × ToolVersion)}
    (written : entries.foldlM (writeVersionRow C now toolID mode) rows = .ok rows') :
    KeepsDefinitions rows rows' := by
  induction entries generalizing rows with
  | nil =>
    cases written
    exact .refl _
  | cons entry entries ih =>
    obtain ⟨middle, pass, written⟩ := bind_eq_ok.mp written
    exact (writeVersionRow_keeps pass).trans (ih written)

/-- A write commits its rows in both tables and reads the tool again, or it fails and changes
nothing. -/
theorem write_cases (a : ToolAnswer) (c : ToolCatalog) (t : Tool) (mode : VersionConflictMode)
    (tools : Except HubError (List ToolRow)) :
    (∃ e, ToolRepo.write C a c t mode tools = (c, .error e)) ∨
      ∃ rows versions, a.fault = none ∧ tools = .ok rows ∧
        writeVersionRows C a.now c.versions t mode = .ok versions ∧
        ToolRepo.write C a c t mode tools = (⟨rows, versions⟩,
          a.readFault.elim (ToolRepo.get ⟨rows, versions⟩ t.id "") fun cause => .error (.plain cause)) := by
  unfold ToolRepo.write ToolRepo.transaction
  split
  · exact .inl ⟨_, rfl⟩
  · exact .inl ⟨_, rfl⟩
  rename_i d fault committed
  obtain ⟨rows, made, committed⟩ := bind_eq_ok.mp committed
  obtain ⟨versions, written, committed⟩ := bind_eq_ok.mp committed
  cases committed
  refine .inr ⟨rows, versions, fault, made, written, ?_⟩
  cases a.readFault <;> rfl

theorem write_preserves {I : ToolCatalog → Prop} (before : I c)
    (after : ∀ rows versions, tools = .ok rows → I ⟨rows, versions⟩) :
    I (ToolRepo.write C a c t mode tools).1 := by
  obtain ⟨e, failed⟩ | ⟨rows, versions, _, made, _, done⟩ := write_cases (C := C) a c t mode tools
  · rw [failed]
    exact before
  · rw [done]
    exact after rows versions made

theorem write_keeps (a : ToolAnswer) (c : ToolCatalog) (t : Tool) (mode : VersionConflictMode)
    (tools : Except HubError (List ToolRow)) :
    KeepsDefinitions c.versions (ToolRepo.write C a c t mode tools).1.versions := by
  obtain ⟨e, failed⟩ | ⟨rows, versions, _, _, written, done⟩ := write_cases (C := C) a c t mode tools
  · rw [failed]
    exact .refl _
  · rw [done]
    exact foldlM_keeps written

theorem delete_versions (a : ToolAnswer) (c : ToolCatalog) (id : String) :
    (ToolRepo.delete a c id).1.versions = c.versions := by
  unfold ToolRepo.delete
  dsimp only
  split
  · rfl
  · split_ifs <;> rfl

theorem toolStep_keeps
    (taken : toolStep C c call = some d) : KeepsDefinitions c.versions d.versions := by
  obtain ⟨write, a⟩ := call
  cases write with
  | create t | update t | upsertBuiltin t =>
    cases taken
    exact write_keeps a c t _ _
  | delete id =>
    cases taken
    rw [delete_versions]
    exact .refl _

theorem toolRun_keeps (ran : Transition.run (toolStep C) c calls = some d) :
    KeepsDefinitions c.versions d.versions := by
  refine Transition.run_invariant (I := fun d => KeepsDefinitions c.versions d.versions) ?_
    (.refl _) ran
  intro d call e kept taken
  exact kept.trans (toolStep_keeps taken)

end Writes

end AisphereHub
