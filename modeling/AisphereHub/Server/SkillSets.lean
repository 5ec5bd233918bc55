import AisphereHub.Data.SkillRepo
import AisphereHub.Foundation.Transition

/-! SkillSets: the transactions of their endpoints and the triggers that copy every committed
revision into the append-only tables. A transaction that fails has no effect and no successor
here; whoever starts one has passed the checks of its endpoint. -/
namespace AisphereHub

structure SkillSetRow where
  name : String
  displayName : String := ""
  description : String := ""
  visibility : String := "public"
  ownerID : String := ""
  orgID : String := ""
  revision : Nat := 1
  deleted : Bool := false
deriving DecidableEq

structure SkillSetMember where
  skillName : String
  order : Int := 0
  version : String := ""
  commitSHA : String := ""
  treeSHA : String := ""
  manifestSHA : String := ""
  resolvedAt : Option Nat := none
deriving DecidableEq

structure SkillSetItem where
  skillSetName : String
  member : SkillSetMember
deriving DecidableEq

structure SkillSetRevisionRow where
  skillSetName : String
  revision : Nat
  displayName : String
  description : String
  visibility : String
  ownerID : String
  orgID : String
deriving DecidableEq

structure SkillSetRevisionItem where
  skillSetName : String
  revision : Nat
  member : SkillSetMember
deriving DecidableEq

structure SkillSetTables where
  skills : List SkillRecord := []
  sets : List SkillSetRow := []
  items : List SkillSetItem := []
  revisions : List SkillSetRevisionRow := []
  revisionItems : List SkillSetRevisionItem := []
deriving DecidableEq

/-- `PRIMARY KEY (skillset_name, skill_name)`. -/
def SkillSetItem.key (i : SkillSetItem) : String × String := (i.skillSetName, i.member.skillName)

def SkillSetRevisionRow.key (r : SkillSetRevisionRow) : String × Nat := (r.skillSetName, r.revision)

def SkillSetRevisionItem.key (i : SkillSetRevisionItem) : String × Nat × String :=
  (i.skillSetName, i.revision, i.member.skillName)

/-- The check and the column sizes of `aihub_skillsets`. -/
def SkillSetRow.accepted (r : SkillSetRow) : Bool :=
  r.visibility ∈ ["private", "internal", "public"] && r.name.length ≤ 128 &&
    r.displayName.length ≤ 256 && r.ownerID.length ≤ 128 && r.orgID.length ≤ 128

def SkillSetMember.accepted (m : SkillSetMember) : Bool :=
  m.skillName.length ≤ 128 && -2 ^ 31 ≤ m.order && m.order < 2 ^ 31 && m.version.length ≤ 128 &&
    m.commitSHA.length ≤ 64 && m.treeSHA.length ≤ 64 && m.manifestSHA.length ≤ 64

/-- A member that gives no order takes its place in the request. -/
def SkillSetMember.placed (m : SkillSetMember) (index : Nat) : SkillSetMember :=
  if m.order = 0 ∧ index > 0 then { m with order := index } else m

namespace SkillSetTables

def set (t : SkillSetTables) (name : String) : Option SkillSetRow :=
  Keyed.lookup SkillSetRow.name t.sets name

def members (t : SkillSetTables) (name : String) : List SkillSetMember :=
  (t.items.filter fun i => i.skillSetName = name).map SkillSetItem.member

def frozen (t : SkillSetTables) (name : String) (revision : Nat) : List SkillSetMember :=
  (t.revisionItems.filter fun i => i.skillSetName = name ∧ i.revision = revision).map
    SkillSetRevisionItem.member

def activeSkill (t : SkillSetTables) (name : String) : Bool :=
  (Keyed.lookup SkillRecord.name t.skills name).any fun skill => skill.status = .active

/-- `aihub_snapshot_skillset_revision`. Rows that exist are left. -/
def snapshotRevision (t : SkillSetTables) (name : String) (revision : Nat) : SkillSetTables :=
  let rows := t.sets.filter fun r => r.name = name ∧ r.revision = revision
  let rows := rows.map fun r => SkillSetRevisionRow.mk r.name r.revision r.displayName r.description
    r.visibility r.ownerID r.orgID
  let items := (t.items.filter fun i => i.skillSetName = name).map fun i =>
    SkillSetRevisionItem.mk i.skillSetName revision i.member
  { t with
    revisions := t.revisions ++ rows.filter fun r =>
      (Keyed.lookup SkillSetRevisionRow.key t.revisions r.key).isNone
    revisionItems := t.revisionItems ++ items.filter fun i =>
      (Keyed.lookup SkillSetRevisionItem.key t.revisionItems i.key).isNone }

/-- `INSERT INTO aihub_skillset_items … SELECT` for an active skill. -/
def insertItem (t : SkillSetTables) (name : String) (member : SkillSetMember) :
    Option SkillSetTables :=
  if t.activeSkill member.skillName ∧ member.accepted = true ∧ (t.set name).isSome ∧
      (Keyed.lookup SkillSetItem.key t.items (name, member.skillName)).isNone then
    some { t with items := t.items ++ [⟨name, member⟩] }
  else none

def insertMembers (name : String) : SkillSetTables → Nat → List SkillSetMember →
    Option SkillSetTables
  | t, _, [] => some t
  | t, index, m :: rest =>
    (t.insertItem name (m.placed index)).bind fun t => insertMembers name t (index + 1) rest

def replaceSkillSetMembers (t : SkillSetTables) (name : String) (members : List SkillSetMember) :
    Option SkillSetTables :=
  insertMembers name { t with items := t.items.filter fun i => i.skillSetName ≠ name } 0 members

/-- `UPDATE aihub_skillsets SET revision = revision + 1 WHERE name = ?`. -/
def raiseRevision (t : SkillSetTables) (name : String) : SkillSetTables :=
  { t with sets := Keyed.amend SkillSetRow.name t.sets name fun r =>
      { r with revision := r.revision + 1 } }

/-- The new revision, and the trigger that copies it. -/
def bumpRevision (t : SkillSetTables) (name : String) : Option SkillSetTables :=
  match t.set name with
  | none => some t
  | some row =>
    if row.revision + 1 < 2 ^ 63 then
      some ((t.raiseRevision name).snapshotRevision name (row.revision + 1))
    else none

/-- The row of a new set; its first revision is copied when the transaction commits. -/
def create (t : SkillSetTables) (row : SkillSetRow) (members : List SkillSetMember) :
    Option SkillSetTables :=
  let row : SkillSetRow := { row with revision := 1, deleted := false }
  if row.accepted = true ∧ (t.set row.name).isNone then
    (replaceSkillSetMembers { t with sets := t.sets ++ [row] } row.name members).map fun t =>
      snapshotRevision t row.name 1
  else none

/-- `UPDATE aihub_skillsets … WHERE name = ? AND deleted_at IS NULL`. -/
def updateLive (t : SkillSetTables) (name : String) (f : SkillSetRow → SkillSetRow) :
    Option SkillSetTables :=
  match t.set name with
  | none => none
  | some row =>
    if row.deleted = false ∧ (f row).accepted = true then
      some { t with sets := Keyed.amend SkillSetRow.name t.sets name f }
    else none

/-- The members of a request that gives none stay. -/
def editMembers (t : SkillSetTables) (name : String) : Option (List SkillSetMember) →
    Option SkillSetTables
  | none => some t
  | some members => t.replaceSkillSetMembers name members

def update (t : SkillSetTables) (name displayName description : String) (visibility : Option String)
    (members : Option (List SkillSetMember)) : Option SkillSetTables :=
  let written := t.updateLive name fun r =>
    { r with
      displayName := displayName
      description := description
      visibility := visibility.getD r.visibility }
  written.bind fun t => (t.editMembers name members).bind fun t => t.bumpRevision name

/-- The insert of `bindEndpoint`, which replaces a member of the same skill. -/
def bindItem (t : SkillSetTables) (name : String) (member : SkillSetMember) : Option SkillSetTables :=
  if t.activeSkill member.skillName ∧ member.accepted = true ∧ (t.set name).isSome then
    match Keyed.lookup SkillSetItem.key t.items (name, member.skillName) with
    | none => some { t with items := t.items ++ [⟨name, member⟩] }
    | some _ => some { t with
        items := Keyed.amend SkillSetItem.key t.items (name, member.skillName) fun i =>
          { i with member := member } }
  else none

def bind (t : SkillSetTables) (name : String) (member : SkillSetMember) : Option SkillSetTables :=
  (t.bindItem name member).bind fun t => t.bumpRevision name

/-- The update of `updateMemberEndpoint`: the order, and the release when the request names
one. -/
def updateItem (t : SkillSetTables) (name skillName : String) (order : Int)
    (release : Option SkillSetMember) : Option SkillSetTables :=
  match Keyed.lookup SkillSetItem.key t.items (name, skillName) with
  | none => none
  | some item =>
    let member : SkillSetMember := match release with
      | none => { item.member with order := order }
      | some release => { release with skillName := item.member.skillName, order := order }
    if member.accepted then
      some { t with items := Keyed.amend SkillSetItem.key t.items (name, skillName) fun i =>
        { i with member := member } }
    else none

def updateMember (t : SkillSetTables) (name skillName : String) (order : Int)
    (release : Option SkillSetMember) : Option SkillSetTables :=
  (t.updateItem name skillName order release).bind fun t => t.bumpRevision name

def unbind (t : SkillSetTables) (name skillName : String) : Option SkillSetTables :=
  if (Keyed.lookup SkillSetItem.key t.items (name, skillName)).isSome then
    bumpRevision { t with items := Keyed.remove SkillSetItem.key t.items (name, skillName) } name
  else none

/-- `removeEndpoint`: the row is marked and its members stay. -/
def remove (t : SkillSetTables) (name : String) : Option SkillSetTables :=
  t.updateLive name fun r => { r with deleted := true }

def saveSkill (t : SkillSetTables) (skill : SkillRecord) : SkillSetTables :=
  match Keyed.lookup SkillRecord.name t.skills skill.name with
  | none => { t with skills := t.skills ++ [skill] }
  | some _ => { t with skills := Keyed.amend SkillRecord.name t.skills skill.name fun _ => skill }

/-- A repository goes, and with it the member rows that name it. -/
def deleteSkill (t : SkillSetTables) (name : String) : SkillSetTables :=
  { t with
    skills := Keyed.remove SkillRecord.name t.skills name
    items := t.items.filter fun i => i.member.skillName ≠ name }

end SkillSetTables

inductive SkillSetTransaction where
  | create (row : SkillSetRow) (members : List SkillSetMember)
  | update (name displayName description : String) (visibility : Option String)
      (members : Option (List SkillSetMember))
  | bind (name : String) (member : SkillSetMember)
  | updateMember (name skillName : String) (order : Int) (release : Option SkillSetMember)
  | unbind (name skillName : String)
  | remove (name : String)
  | saveSkill (skill : SkillRecord)
  | deleteSkill (name : String)
deriving DecidableEq

def SkillSetTables.commit (t : SkillSetTables) : SkillSetTransaction → Option SkillSetTables
  | .create row members => t.create row members
  | .update name displayName description visibility members =>
    t.update name displayName description visibility members
  | .bind name member => t.bind name member
  | .updateMember name skillName order release => t.updateMember name skillName order release
  | .unbind name skillName => t.unbind name skillName
  | .remove name => t.remove name
  | .saveSkill skill => some (t.saveSkill skill)
  | .deleteSkill name => some (t.deleteSkill name)

end AisphereHub
