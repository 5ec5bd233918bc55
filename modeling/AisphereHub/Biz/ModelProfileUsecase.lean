import AisphereHub.Data.ModelProfileRepo
import AisphereHub.Data.SkillRepo

/-! Creating a model profile. The row of a creation is stored before
its tuples are written, and marked as deleted when one of them cannot be. -/
namespace AisphereHub

open GoJson
open GoStrings (trimSpace)

structure ModelHub where
  catalog : ModelCatalog := {}
  tuples : Tuples := []
deriving DecidableEq

structure ModelCallAnswer where
  check : CheckAnswer := .allowed
  createFault : Option String := none
  readFault : Option String := none
  ownerFault : Option String := none
  parentFault : Option String := none
  deleteFault : Option String := none
  now : Nat := 0
deriving DecidableEq

def ModelProfile.prepared (C : ModelCodec) (now : Nat) (principal : CatalogPrincipal)
    (projectID : String) (p : ModelProfile) : ModelProfile :=
  let p := { p with
    ownerType := principal.subjectType
    ownerID := principal.subjectID
    ownerName := principal.name
    orgID := principal.orgID
    projectID := projectID
    object := "model_profile:" ++ p.id
    status := orDefault p.status "active"
    apiFormat := orDefault p.apiFormat "openai_responses"
    version := orDefault p.version "v1"
    model := orDefault p.model ("aisphere://" ++ p.id) }
  { p with revisions := p.revisions.filter (fun entry => entry.1 ≠ p.version) ++
      [(p.version, p.currentRevision C now principal.name "initial revision")] }

section Create

variable (C : ModelCodec) (a : ModelCallAnswer) (principal : CatalogPrincipal)

def prepareModelProfile (p : ModelProfile) : Except HubError (AuthzSubjectRef × ModelProfile) := do
  validateModelProfileForCreate p
  let subject ← canonicalSubject principal.toPrincipal
  let projectID ← resolveProjectID p.projectID principal
  a.check.require "forbidden: no edit permission on project"
  return (subject, p.prepared C a.now principal projectID)

/-- The compensation; its own failure is dropped. -/
def undoModelProfile (h : ModelHub) (id : String) : ModelHub :=
  match a.deleteFault with
  | some _ => h
  | none => { h with catalog := ModelProfileRepo.delete h.catalog id a.now }

def grantModelProfile (h : ModelHub) (subject : AuthzSubjectRef) (p : ModelProfile)
    (out : StoredModelProfile) : ModelHub × Except HubError StoredModelProfile :=
  let resource := modelProfileResource p.id
  match writeRelationships h.tuples [⟨resource, "owner", subject⟩] a.ownerFault with
  | .error e =>
    (undoModelProfile a h p.id, .error ⟨e.code, "model profile create: grant owner: " ++ e.detail⟩)
  | .ok owned =>
    let h := { h with tuples := owned }
    let parent : AuthzSubjectRef := { type := "project", id := principal.orgID }
    match writeRelationships h.tuples [⟨resource, "parent", parent⟩] a.parentFault with
    | .error e =>
      (undoModelProfile a h p.id, .error ⟨e.code, "model profile create: grant parent: " ++ e.detail⟩)
    | .ok tuples => ({ h with tuples := tuples }, .ok out)

def createModelProfile (h : ModelHub) (p : ModelProfile) :
    ModelHub × Except HubError StoredModelProfile :=
  match prepareModelProfile C a principal p with
  | .error e => (h, .error e)
  | .ok (subject, p) =>
    match underFault a.createFault (ModelProfileRepo.insert C h.catalog p) with
    | .error e => (h, .error e)
    | .ok catalog =>
      let h := { h with catalog := catalog }
      match underFault a.readFault (ModelProfileRepo.get h.catalog p.id) with
      | .error e => (h, .error e)
      | .ok out => grantModelProfile a principal h subject p out

end Create

end AisphereHub
