import AisphereHub.Server.AgentCatalog
import AisphereHub.Server.SkillSets

/-! How a definition is resolved, once when a version is saved and again for every run: its
model, its skills, its SkillSets and its tools. The handler's collaborators answer by
functions, so that both resolve against one state. -/
namespace AisphereHub

open GoJson
open GoStrings (contains hasPrefix split toLower trimSpace)

structure ModelProfileRowV2 where
  id : String
  code : String
  status : String
  orgID : String
  latestRevision : Int
  deletedAt : Option Nat := none
deriving DecidableEq

structure ModelProfileRevisionRowV2 where
  profileID : String
  revision : Int
  snapshotJSON : Json Decimal
  sha256 : String
deriving DecidableEq

structure SkillPackage where
  sha256 : String
  md5 : String
  size : Int
deriving DecidableEq

structure SkillPackageService where
  buildSkillPackage : String → String → Except HubError SkillPackage
  buildDownloadURL : String → String → String → Except HubError String

inductive ResolverQuery where
  | profile
  | profileRevision
  | skillSet
  | skillSetRevision
  | skillSetItems
deriving DecidableEq

/-- What the handler resolves against. A collaborator that is not configured is `none`. -/
structure ResolverState where
  answer : ResolverAnswer := {}
  fault : ResolverQuery → Option String := fun _ => none
  tools : ToolCatalog := {}
  profiles : List ModelProfileRowV2 := []
  profileRevisions : List ModelProfileRevisionRowV2 := []
  skillSets : SkillSetTables := {}
  getSkill : Option (String → Except HubError SkillStatus) := none
  getRelease : Option (String → String → Except HubError SkillRelease) := none
  packages : Option SkillPackageService := none

def errAgentForbidden : HubError := ⟨.AGENT_PERMISSION_DENIED, "permission denied"⟩
def errAgentAuthzUnavailable : HubError :=
  ⟨.AGENT_AUTHZ_UNAVAILABLE, "IAM authorization service is unavailable"⟩

/-- The caller of an endpoint; nobody is a principal without a subject. -/
def agentPrincipal (p : CatalogPrincipal) : Except HubError CatalogPrincipal :=
  if trimSpace p.subjectID = "" then .error ⟨.UNAUTHENTICATED, "authentication required"⟩
  else if trimSpace p.subjectType = "" then .ok { p with subjectType := "user" }
  else .ok p

def ResolverAnswer.requirePermission (a : ResolverAnswer) (principal : Principal)
    (resourceType resourceID permission : String) : Except HubError Unit :=
  match a.check (agentSubject principal) ⟨resourceType, resourceID⟩ permission principal.orgID with
  | .failed _ => .error errAgentAuthzUnavailable
  | .denied => .error errAgentForbidden
  | .allowed => .ok ()

/-- One skill of a run snapshot. The builtin ones have no digests. -/
structure SkillSnapshotEntry where
  name : String
  version : String
  revision : String
  source : String
  object : String
  treeSHA : Option String := none
  manifestSHA256 : Option String := none
  viaSkillSet : Option String := none
  viaSkillSetRevision : Option Int := none
  package : Option (SkillPackage × String) := none
deriving DecidableEq

/-- `fmt.Sprint` of a key that may be missing. -/
def sprintField (value : Option String) : String := trimSpace (value.getD "<nil>")

def catalogSkillSnapshotEntry (name : String) (release : SkillRelease) : SkillSnapshotEntry where
  name := name
  version := release.tag
  revision := release.commitSHA
  source := "catalog"
  object := "aihub:skill:" ++ name
  treeSHA := some release.treeSHA
  manifestSHA256 := some release.manifestSHA256

def validateSkillLifecycleForBinding (name : String) (status : SkillStatus) (allowArchived : Bool) :
    Except HubError Unit :=
  if status = .active ∨ status = .archived ∧ allowArchived then .ok ()
  else if status = .archived then
    .error ⟨.SKILL_ARCHIVED,
      "skill " ++ name ++ " is archived and cannot be added to a new Agent revision"⟩
  else .error ⟨.SKILL_DISABLED, "skill " ++ name ++ " is not active"⟩

def skillSource (version source : String) : String :=
  let source := toLower (trimSpace source)
  if source = "" ∧ (version = "builtin" ∨ hasPrefix version "builtin-") then "builtin" else source

section Skills

variable (w : ResolverState) (principal : Principal) (allowArchived : Bool)

def checkSkillLifecycle (name : String) : Except HubError Unit :=
  match w.getSkill with
  | none => .ok ()
  | some getSkill => do
      let status ← getSkill name
      validateSkillLifecycleForBinding name status allowArchived

def findSkillRelease (name version : String) : Except HubError SkillRelease :=
  match w.getRelease with
  | none => .error ⟨.AGENT_SKILL_RELEASE_UNAVAILABLE, "skill release resolver is unavailable"⟩
  | some getRelease => getRelease name version

def attachSkillPackage (entry : SkillSnapshotEntry) (name tag : String) :
    Except HubError SkillSnapshotEntry :=
  match w.packages with
  | none => .ok entry
  | some packages => do
      let pkg ← packages.buildSkillPackage name tag
      let url ← packages.buildDownloadURL name tag principal.subjectID
      return { entry with package := some (pkg, url) }

def resolveSkillSnapshotEntry (name version source fromSet : String) :
    Except HubError SkillSnapshotEntry :=
  let name := trimSpace name
  let version := trimSpace version
  let source := skillSource version source
  if source = "builtin" then
    .ok { name := name, version := version, revision := version, source := "builtin",
          object := "aisphere://builtin-skills/" ++ name }
  else do
    w.answer.requirePermission principal "skill" name "view"
    checkSkillLifecycle w allowArchived name
    let release ← findSkillRelease w name version
    let entry := catalogSkillSnapshotEntry name release
    let entry := if fromSet ≠ "" then { entry with viaSkillSet := some fromSet } else entry
    attachSkillPackage w principal entry name release.tag

/-- `appendResolvedSkillSnapshot`. The entries have different names, so the one of a name is
the one whose index the map holds. -/
def appendResolvedSkillSnapshot (out : List SkillSnapshotEntry) (entry : SkillSnapshotEntry) :
    Except HubError (List SkillSnapshotEntry) :=
  let key (e : SkillSnapshotEntry) : String := trimSpace e.name
  match Keyed.lookup key out (key entry) with
  | none => .ok (out ++ [entry])
  | some existing =>
    let version := trimSpace entry.version
    let revision := trimSpace entry.revision
    if trimSpace existing.version ≠ version ∨ trimSpace existing.revision ≠ revision ∨
        trimSpace existing.source ≠ trimSpace entry.source then
      .error ⟨.AGENT_SKILL_VERSION_CONFLICT, "skill " ++ key entry ++
        " resolves to multiple immutable releases (" ++ trimSpace existing.version ++ "/" ++
        trimSpace existing.revision ++ " vs " ++ version ++ "/" ++ revision ++ ")"⟩
    else if entry.viaSkillSet.isSome then .ok out
    else .ok (Keyed.amend key out (key entry) fun _ => entry)

def appendResolvedSkillSnapshots (out entries : List SkillSnapshotEntry) :
    Except HubError (List SkillSnapshotEntry) :=
  entries.foldlM appendResolvedSkillSnapshot out

def skillSetVisible (row : SkillSetRow) : Bool :=
  !row.deleted && (row.visibility = "public" || row.ownerID = principal.subjectID ||
    (row.visibility = "internal" && row.orgID ≠ "" && row.orgID = principal.orgID))

def SkillSetMember.pinned (m : SkillSetMember) : Bool :=
  [m.skillName, m.version, m.commitSHA, m.treeSHA, m.manifestSHA].all fun text => trimSpace text ≠ ""

/-- `ORDER BY sort_order ASC, skill_name ASC`. -/
def memberBefore (a b : SkillSetMember) : Bool :=
  a.order < b.order || (a.order = b.order && a.skillName ≤ b.skillName)

/-- The failure of a query, as `agentDBErr` answers it. -/
def ResolverState.query (w : ResolverState) (q : ResolverQuery) : Except HubError Unit :=
  match w.fault q with
  | some cause => .error (agentDBErr cause)
  | none => .ok ()

def skillSetAt (name : String) (revision : Int) : String := name ++ "@" ++ toString revision

def loadAgentSkillSetRevision (binding : AgentSkillSetBinding) :
    Except HubError (List SkillSetMember) :=
  let name := trimSpace binding.name
  if agentIDRE name = false then
    .error ⟨.AGENT_SKILLSET_INVALID, "definition.skillsets contains an invalid skillset name"⟩
  else if binding.revision ≤ 0 then
    .error ⟨.AGENT_SKILLSET_REVISION_REQUIRED,
      "definition.skillsets.revision must be a positive exact revision"⟩
  else do
    w.query .skillSet
    if (w.skillSets.set name).any (skillSetVisible principal) = false then
      throw ⟨.AGENT_SKILLSET_NOT_FOUND, "bound skillset not found or not visible"⟩
    w.query .skillSetRevision
    let revision := binding.revision.toNat
    if w.skillSets.revisions.any (fun r => r.key = (name, revision)) = false then
      throw ⟨.AGENT_SKILLSET_REVISION_NOT_FOUND,
        "skillset revision not found: " ++ skillSetAt name binding.revision⟩
    w.query .skillSetItems
    let members := (w.skillSets.frozen name revision).insertionSort fun a b => memberBefore a b = true
    if members = [] then
      throw ⟨.AGENT_SKILLSET_EMPTY,
        "skillset revision has no members: " ++ skillSetAt name binding.revision⟩
    match members.find? fun m => !m.pinned with
    | some m => throw ⟨.AGENT_SKILLSET_REVISION_INCOMPLETE,
        "skillset revision contains an incompletely pinned historical member: " ++
          skillSetAt name binding.revision ++ "/" ++ m.skillName⟩
    | none => return members

/-- A member of a set: the release of today has to be the one that was pinned. -/
def resolveSkillSetMember (binding : AgentSkillSetBinding) (member : SkillSetMember) :
    Except HubError SkillSnapshotEntry := do
  let entry ← resolveSkillSnapshotEntry w principal allowArchived member.skillName member.version
    "catalog" (trimSpace binding.name)
  if trimSpace entry.revision ≠ member.commitSHA ∨ sprintField entry.treeSHA ≠ member.treeSHA ∨
      sprintField entry.manifestSHA256 ≠ member.manifestSHA then
    throw ⟨.AGENT_SKILLSET_REVISION_STALE, "immutable skillset member changed unexpectedly: " ++
      member.skillName ++ "@" ++ member.version⟩
  return { entry with viaSkillSetRevision := some binding.revision }

def resolveAgentSkillSet (binding : AgentSkillSetBinding) :
    Except HubError (List SkillSnapshotEntry) := do
  let members ← loadAgentSkillSetRevision w principal binding
  members.mapM (resolveSkillSetMember w principal allowArchived binding)

def addSkill (out : List SkillSnapshotEntry) (binding : AgentSkillBinding) :
    Except HubError (List SkillSnapshotEntry) := do
  let entry ← resolveSkillSnapshotEntry w principal allowArchived binding.name binding.version
    binding.source ""
  appendResolvedSkillSnapshot out entry

def addSkillSet (out : List SkillSnapshotEntry) (binding : AgentSkillSetBinding) :
    Except HubError (List SkillSnapshotEntry) := do
  let entries ← resolveAgentSkillSet w principal allowArchived binding
  appendResolvedSkillSnapshots out entries

def resolveAgentSkillSnapshots (bindings : List AgentSkillBinding)
    (sets : List AgentSkillSetBinding) : Except HubError (List SkillSnapshotEntry) := do
  let out ← bindings.foldlM (addSkill w principal allowArchived) []
  sets.foldlM (addSkillSet w principal allowArchived) out

end Skills

section Plan

variable {φ : Type} (F : FloatCodec φ) (w : ResolverState) (principal : Principal)

/-- The document of a model snapshot; a `null` in the column is a nil map, which cannot be
written to. -/
def modelSnapshot (profile : ModelProfileRowV2) (row : ModelProfileRevisionRowV2) :
    Except HubError (AnyMap φ) :=
  match row.snapshotJSON, unmarshalMap F.numbers row.snapshotJSON with
  | _, none => .error ⟨.AGENT_MODEL_SNAPSHOT_INVALID, "stored model snapshot is invalid"⟩
  | .null, _ => .error (.plain "assignment to entry in nil map")
  | _, some snapshot =>
    .ok ([("profileId", .str profile.id), ("profileCode", .str profile.code),
      ("logicalName", .str ("aisphere://model-profiles/" ++ profile.code)),
      ("revision", .num (.int row.revision)), ("sha256", .str row.sha256)].foldl
        (fun m entry => assign m entry.1 entry.2) snapshot)

def resolveAgentModelSnapshot (binding : Option AgentModelBinding) :
    Except HubError (Option (AnyMap φ)) :=
  match binding with
  | none => .ok none
  | some binding =>
    if trimSpace binding.profileID = "" then .ok none
    else
      match w.answer.requirePermission principal "zone" principal.orgID "use_models" with
      | .error _ => .error ⟨.AGENT_MODEL_USE_DENIED, "caller cannot use the selected model profile"⟩
      | .ok _ => do
          w.query .profile
          match w.profiles.find? fun p => p.id = trimSpace binding.profileID &&
              p.orgID = principal.orgID && p.deletedAt.isNone with
          | none => throw ⟨.AGENT_MODEL_PROFILE_NOT_FOUND, "bound model profile not found"⟩
          | some profile =>
            if profile.status ≠ "active" then
              throw ⟨.AGENT_MODEL_PROFILE_DISABLED, "bound model profile is disabled"⟩
            let revision := if binding.revision = 0 then profile.latestRevision
              else binding.revision
            w.query .profileRevision
            match w.profileRevisions.find? fun r => r.profileID = profile.id &&
                r.revision = revision with
            | none => throw ⟨.AGENT_MODEL_REVISION_NOT_FOUND,
                "bound model profile revision not found"⟩
            | some row => (modelSnapshot F profile row).map some

def resolveBoundTool (binding : AgentToolBinding) : Except HubError (ResolvedAgentTool (Number φ)) :=
  resolveTool F.numbers w.answer w.tools principal binding

/-- `validateToolBindings`: bindings whose mode is disabled are passed over. The tools it
resolves are what its compatibility warnings are made from. -/
def validateToolBindings (projection : AgentDefinitionProjection) :
    Except HubError (List (ResolvedAgentTool (Number φ))) := do
  let _ ← resolveAgentModelSnapshot F w principal projection.model
  let _ ← resolveAgentSkillSnapshots w principal false projection.skills projection.skillSets
  (projection.tools.filter fun b => normalizeApprovalMode b.approvalMode ≠ some .disabled).mapM
    (resolveBoundTool F w principal)

structure AgentIAMPermission where
  resourceType : String
  permission : String
deriving DecidableEq

def knownIAMResources : List String :=
  ["skill", "tool", "agent", "model_profile", "k8s_cluster", "k8s_namespace", "k8s_sandbox",
    "sandbox", "runtime_environment"]

def parseAgentIAMCapability (capability : String) : Option AgentIAMPermission :=
  let capability := trimSpace capability
  let separator := if ¬ contains capability ":" ∧ (capability.toList.count '.') = 1 then '.' else ':'
  match split capability separator with
  | [resourceType, permission] =>
    let resourceType := trimSpace resourceType
    let permission := trimSpace permission
    if resourceType ∈ knownIAMResources ∧ permission ≠ "" then some ⟨resourceType, permission⟩
    else none
  | _ => none

structure AgentToolApproval where
  tool : String
  version : String
  required : Bool
  approvalMode : String
  approved : Bool
  capabilities : List String
  permissions : List AgentIAMPermission
deriving DecidableEq

structure AgentRunRequest where
  version : String := ""
  approvalConfirmed : Bool := false
  approvedTools : List String := []
deriving DecidableEq

def toSet (values : List String) : List String :=
  (values.map trimSpace).filter fun value => value ≠ ""

def approvalForTool (tool : ResolvedAgentTool (Number φ)) (approved : List String) :
    AgentToolApproval where
  tool := tool.binding.name
  version := tool.version
  required := tool.binding.required
  approvalMode := tool.binding.approvalMode
  approved := tool.binding.name ∈ approved || tool.binding.approvalMode = ApprovalMode.always.text
  capabilities := tool.capabilities
  permissions := tool.capabilities.filterMap parseAgentIAMCapability

structure AgentRunPlan (φ : Type) where
  agentID : String
  agentVersion : String
  agentRevision : String
  principalSubject : String
  requiresApproval : Bool
  approvalConfirmed : Bool
  model : Option (AnyMap φ)
  tools : List AgentToolApproval
  skills : List SkillSnapshotEntry

/-- `buildRunPlan`: every binding is resolved, and a disabled one is dropped afterwards. -/
def buildRunPlan (agent : AgentRow) (version : AgentVersionRow) (request : AgentRunRequest) :
    Except HubError (AgentRunPlan φ × List (ResolvedAgentTool (Number φ))) := do
  let (_, projection) ← normalizeAgentDefinition F (.value version.definitionJSON)
  let skills ← resolveAgentSkillSnapshots w principal true projection.skills projection.skillSets
  let model ← resolveAgentModelSnapshot F w principal projection.model
  let tools ← projection.tools.mapM (resolveBoundTool F w principal)
  let resolved := tools.filter fun t => t.binding.approvalMode ≠ ApprovalMode.disabled.text
  return ({
    agentID := agent.agentID
    agentVersion := version.version
    agentRevision := version.revision
    principalSubject := principal.subjectType ++ ":" ++ principal.subjectID
    requiresApproval := resolved.any fun t => t.binding.approvalMode = ApprovalMode.perRun.text
    approvalConfirmed := request.approvalConfirmed
    model := model
    tools := resolved.map fun t => approvalForTool t (toSet request.approvedTools)
    skills := skills }, resolved)

def consentTool (request : AgentRunRequest) (tool : ResolvedAgentTool (Number φ)) :
    Except HubError Bool :=
  if tool.binding.approvalMode = ApprovalMode.always.text then .ok true
  else if tool.binding.approvalMode = ApprovalMode.perRun.text then
    if request.approvalConfirmed = false then
      .error ⟨.AGENT_RUN_APPROVAL_REQUIRED,
        "human approval is required before resolving this agent run"⟩
    else if tool.binding.name ∈ toSet request.approvedTools then .ok true
    else if tool.binding.required then
      .error ⟨.AGENT_REQUIRED_TOOL_DENIED, "required tool was not approved: " ++ tool.binding.name⟩
    else .ok false
  else .ok false

def consentTools (request : AgentRunRequest) : List (ResolvedAgentTool (Number φ)) →
    Except HubError (List (ResolvedAgentTool (Number φ)))
  | [] => .ok []
  | tool :: rest => do
      let allowed ← consentTool request tool
      let others ← consentTools request rest
      return if allowed then tool :: others else others

/-- A binding as it is encoded: all but the name are left out when empty. -/
def AgentToolBinding.marshal (b : AgentToolBinding) : Json Decimal :=
  let text (key value : String) : List (String × Json Decimal) :=
    if value = "" then [] else [(key, .str value)]
  .obj ([("name", .str b.name)] ++ text "version" b.version ++ text "label" b.label ++
    (if b.required then [("required", .bool true)] else []) ++ text "approvalMode" b.approvalMode)

/-- The member `tools` of the document is replaced; a definition that is `null` is a nil map,
which cannot be written to. -/
def replaceResolvedTools (definition : Json Decimal) (tools : List (ResolvedAgentTool (Number φ))) :
    Except HubError (Json Decimal) :=
  match definition, unmarshalMap F.numbers definition with
  | _, none => .error ⟨.AGENT_RESOLVE_FAILED, "failed to build resolved definition"⟩
  | .null, _ => .error (.plain "assignment to entry in nil map")
  | _, some doc =>
    let bindings := tools.map fun t => { t.binding with version := t.version }
    .ok (.obj (assign (marshalMembers F doc) "tools" (.arr (bindings.map AgentToolBinding.marshal))))

structure ResolvedAgentRun (φ : Type) where
  agentVersion : String
  agentRevision : String
  definition : Json Decimal
  tools : List (AnyMap φ)
  authorization : AgentRunPlan φ

def resolveEndpoint (c : AgentCatalog) (caller : CatalogPrincipal) (id : String)
    (request : AgentRunRequest) (loadFault : Option String) :
    Except HubError (ResolvedAgentRun φ) := do
  let id := trimSpace id
  let principal ← agentPrincipal caller
  w.answer.requirePermission principal.toPrincipal "agent" id "execute"
  let agent ← loadAgent c id request.version loadFault
  if agent.row.status = .disabled then throw ⟨.AGENT_DISABLED, "agent is disabled"⟩
  let version ← selectedVersion agent request.version
  let (plan, tools) ← buildRunPlan F w principal.toPrincipal agent.row version request
  let allowed ← consentTools request tools
  let definition ← replaceResolvedTools F version.definitionJSON allowed
  return ⟨version.version, version.revision, definition, allowed.map ResolvedAgentTool.snapshot, plan⟩

end Plan

end AisphereHub
