import AisphereHub.Biz.SkillUsecase
import AisphereHub.Server.AgentCatalog
import AisphereHub.Server.SkillSets

/-! The agents that bind a skill, as one query finds them in the stored documents. Rows are read
in the order they are stored, a subquery stops at its first row, and the second one is run when
the first has none. -/
namespace AisphereHub

open GoJson

structure AgentSkillReference extends AgentRef where
  latestVersion : String
deriving DecidableEq

/-- `json -> key`. A document that Go has encoded has every key once. -/
def jsonMember (json : Json Decimal) (key : String) : Option (Json Decimal) :=
  (asMap (some json)).lookup key

/-- `jsonb_array_elements`: no rows for a missing value, and a failure for any other value that
is no array, a null among them. -/
def jsonArrayElements : Option (Json Decimal) → Except HubError (List (Json Decimal))
  | none => .ok []
  | some (.arr items) => .ok items
  | some (.obj _) => .error (.plain "cannot extract elements from an object")
  | some _ => .error (.plain "cannot extract elements from a scalar")

def AgentCatalog.versionsOf (c : AgentCatalog) (id : String) : List AgentVersionRow :=
  c.versions.filter fun v => v.agentID = id

def AgentRow.reference (row : AgentRow) : AgentSkillReference where
  agentID := row.agentID
  displayName := row.displayName
  latestVersion := row.latestVersion

section Query

-- The text that `->>` gives for a number, a Boolean, an array or an object.
variable (render : Json Decimal → String)

/-- `json ->> key`. -/
def jsonMemberText (json : Json Decimal) (key : String) : Option String :=
  match jsonMember json key with
  | none | some .null => none
  | some (.str text) => some text
  | some value => some (render value)

def bindsSkill (skillName : String) (v : AgentVersionRow) : Except HubError Bool :=
  (jsonArrayElements (jsonMember v.definitionJSON "skills")).map fun skills =>
    skills.any fun s => jsonMemberText render s "name" = some skillName

/-- The subquery on the SkillSets of a version, joined with the members the sets have now. -/
def bindsSkillSet (t : SkillSetTables) (skillName : String) (v : AgentVersionRow) :
    Except HubError Bool :=
  let sets := (jsonMember v.definitionJSON "skillsets").or (jsonMember v.definitionJSON "skillSets")
  (jsonArrayElements (sets.or (some (.arr [])))).map fun sets =>
    sets.any fun ss => t.items.any fun i =>
      jsonMemberText render ss "name" = some i.skillSetName && i.member.skillName = skillName

def bindsInVersion (t : SkillSetTables) (skillName : String) (versions : List AgentVersionRow) :
    Except HubError Bool := do
  if ← versions.anyM (bindsSkill render skillName) then return true
  versions.anyM (bindsSkillSet render t skillName)

def listSkillReferences (c : AgentCatalog) (t : SkillSetTables) (skillName : String) :
    Except HubError (List AgentSkillReference) := do
  let rows ← (c.agents.filter AgentRow.live).filterM fun a =>
    bindsInVersion render t skillName (c.versionsOf a.agentID)
  return rows.map AgentRow.reference

end Query

end AisphereHub
