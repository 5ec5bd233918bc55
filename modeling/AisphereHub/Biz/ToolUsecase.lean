import AisphereHub.Data.ToolRepo

/-! The tool catalog's usecases and the seeding of the builtin tools. A system or builtin
tool is changed and deleted without a permission check. -/
namespace AisphereHub

open GoJson
open GoStrings (trimSpace)

structure ToolHub where
  catalog : ToolCatalog := {}
  tuples : Tuples := []
deriving DecidableEq

/-- What the dependencies answer to one call: the failure of the read before a write, the
write, SpiceDB's decision, the failures of its writes, and the compensating delete. -/
structure ToolCallAnswer where
  readFault : Option String := none
  write : ToolAnswer := {}
  check : CheckAnswer := .allowed
  grantFault : Option String := none
  revokeFault : Option String := none
  compensation : ToolAnswer := {}
deriving DecidableEq

/-- How SpiceDB answers a subject, a resource, a permission and an organisation. -/
abbrev SpiceDB := AuthzSubjectRef → AuthzObjectRef → String → String → CheckAnswer

structure ToolReadAnswer where
  fault : Option String := none
  batchFault : Option String := none
  check : SpiceDB := fun _ _ _ _ => .allowed

/-- The check of a principal on a resource. Without a subject none is made. -/
def SpiceDB.answer (spice : SpiceDB) (principal : CatalogPrincipal) (resource : AuthzObjectRef)
    (permission : String) : CheckAnswer :=
  match canonicalSubject principal.toPrincipal with
  | .error _ => .denied
  | .ok subject => spice subject resource permission principal.orgID

/-- The rows that are shown, changed and deleted without a check. -/
def ToolRow.exempt (r : ToolRow) : Bool := r.scope = "system" || r.status = "builtin"

def getTool (a : ToolReadAnswer) (h : ToolHub) (principal : CatalogPrincipal) (id version : String) :
    Except HubError StoredTool :=
  match a.fault, ToolRepo.get h.catalog id version with
  | some cause, _ => .error (.plain cause)
  | none, .error e => .error e
  | none, .ok t =>
    if t.row.exempt then .ok t
    else
      match canonicalSubject principal.toPrincipal with
      | .error e => .error e
      | .ok subject =>
        ((a.check subject (toolResource t.row.toolID) "view" principal.orgID).require
          "forbidden: no view permission on tool").map fun _ => t

/-- The exempt tools of a page go first, then those the batch check allows. -/
def listTools (a : ToolReadAnswer) (h : ToolHub) (principal : CatalogPrincipal)
    (opts : ToolListOptions) : Except HubError (List StoredTool × String) :=
  match a.fault with
  | some cause => .error (.plain cause)
  | none =>
    let (tools, next) := ToolRepo.list h.catalog opts
    if tools = [] then .ok (tools, next)
    else
      match canonicalSubject principal.toPrincipal with
      | .error e => .error e
      | .ok subject =>
        let checked := tools.filter fun t => !t.row.exempt
        if checked = [] then .ok (tools, next)
        else
          match a.batchFault with
          | some cause => .error ⟨.AUTHZ_BACKEND_FAILED, cause⟩
          | none =>
            let shown := checked.filter fun t =>
              a.check subject (toolResource t.row.toolID) "view" principal.orgID = .allowed
            .ok ((tools.filter fun t => t.row.exempt) ++ shown, next)

def validateToolForCreate (t : Tool) : Except HubError Unit :=
  if validToolID t.id = false then
    .error ⟨.INVALID_ARGUMENT,
      "id must match [A-Za-z0-9][A-Za-z0-9._-]\x7b0,127\x7d (trailing separators not allowed)"⟩
  else if t.definition.runtime.type = "" then
    .error ⟨.INVALID_ARGUMENT, "definition.runtime.type is required"⟩
  else .ok ()

section Usecase

variable {φ : Type} [DecidableEq φ] (C : ToolCodec φ)

/-- `CreateTool` once the row is stored: a failed grant deletes it again. -/
def grantToolOwner (a : ToolCallAnswer) (h : ToolHub) (principal : CatalogPrincipal) (id : String)
    (out : StoredTool) : ToolHub × Except HubError StoredTool :=
  let undone : ToolHub := { h with catalog := (ToolRepo.delete a.compensation h.catalog id).1 }
  match canonicalSubject principal.toPrincipal with
  | .error e => (undone, .error e)
  | .ok subject =>
    match writeRelationships h.tuples [⟨toolResource id, "owner", subject⟩] a.grantFault with
    | .error e => (undone, .error ⟨e.code, "tool create: grant owner: " ++ e.detail⟩)
    | .ok tuples => ({ h with tuples := tuples }, .ok out)

def createTool (a : ToolCallAnswer) (h : ToolHub) (principal : CatalogPrincipal) (t : Tool) :
    ToolHub × Except HubError StoredTool :=
  match validateToolForCreate t with
  | .error e => (h, .error e)
  | .ok _ =>
    let reqOrg := trimSpace t.orgID
    if reqOrg ≠ "" ∧ reqOrg ≠ principal.orgID then
      (h, .error ⟨.INVALID_ARGUMENT, "org_id \"" ++ reqOrg ++
        "\" does not match the caller's org \"" ++ principal.orgID ++ "\""⟩)
    else
      let t := { t with
        ownerType := principal.subjectType
        ownerID := principal.subjectID
        ownerName := principal.name
        orgID := principal.orgID
        object := "tool:" ++ toolAuthzObjectID t.id
        status := orDefault t.status "active"
        scope := orDefault t.scope "project" }
      match ToolRepo.create C a.write h.catalog t with
      | (catalog, .error e) => ({ h with catalog := catalog }, .error e)
      | (catalog, .ok out) => grantToolOwner a { h with catalog := catalog } principal t.id out

def readTool (a : ToolCallAnswer) (h : ToolHub) (principal : CatalogPrincipal) (id : String)
    (forbidden : String) : Except HubError StoredTool :=
  match a.readFault, ToolRepo.get h.catalog id "" with
  | some cause, _ => .error (.plain cause)
  | none, .error e => .error e
  | none, .ok existing =>
    if existing.row.scope ≠ "system" ∧ existing.row.status ≠ "builtin" then
      match canonicalSubject principal.toPrincipal with
      | .error e => .error e
      | .ok _ => (a.check.require forbidden).map fun _ => existing
    else .ok existing

def updateTool (a : ToolCallAnswer) (h : ToolHub) (principal : CatalogPrincipal) (t : Tool) :
    ToolHub × Except HubError StoredTool :=
  if validToolID t.id = false then (h, .error ⟨.INVALID_ARGUMENT, "invalid id"⟩)
  else
    match readTool a h principal t.id "forbidden: no edit permission on tool" with
    | .error e => (h, .error e)
    | .ok existing =>
      let t := { t with
        ownerType := existing.row.ownerType
        ownerID := existing.row.ownerID
        ownerName := existing.row.ownerName
        orgID := existing.row.orgID
        object := existing.row.objectRef }
      let (catalog, out) := ToolRepo.update C a.write h.catalog t
      ({ h with catalog := catalog }, out)

def deleteTool (a : ToolCallAnswer) (h : ToolHub) (principal : CatalogPrincipal) (id : String) :
    ToolHub × Except HubError StoredTool :=
  match readTool a h principal id "forbidden: no manage permission on tool" with
  | .error e => (h, .error e)
  | .ok existing =>
    match ToolRepo.delete a.write h.catalog id with
    | (catalog, .error e) => ({ h with catalog := catalog }, .error e)
    | (catalog, .ok _) =>
      -- The revocation is best effort.
      let tuples := match revokeResource h.tuples (toolResource id) a.revokeFault with
        | .ok tuples => tuples
        | .error _ => h.tuples
      ({ catalog := catalog, tuples := tuples }, .ok existing)

end Usecase

structure BuiltinToolSeed where
  id : String
  displayName : String
  description : String
  inputSchema : Json Decimal
  placement : String
  capability : String := ""
deriving DecidableEq

/-- The schemas of the seeds: an object of described properties and nothing else. -/
def objectSchema (properties : List (String × List (String × String))) (required : List String) :
    Json Decimal :=
  .obj [("type", .str "object"),
    ("properties", .obj (properties.map fun p => (p.1, .obj (p.2.map fun q => (q.1, .str q.2))))),
    ("required", .arr (required.map .str)), ("additionalProperties", .bool false)]

def builtinToolSeeds : List BuiltinToolSeed :=
  [{ id := "workspace.read"
     displayName := "Workspace Read"
     description := "Read the contents of a file in the sandbox workspace."
     inputSchema := objectSchema [("path", [("type", "string"),
       ("description", "Path to the file relative to the workspace root.")])] ["path"]
     placement := "sandbox" },
   { id := "workspace.write"
     displayName := "Workspace Write"
     description := "Write content to a file in the sandbox workspace."
     inputSchema := objectSchema [("path", [("type", "string")]), ("content", [("type", "string")])]
       ["path", "content"]
     placement := "sandbox" },
   { id := "workspace.list"
     displayName := "Workspace List"
     description := "List entries under a path in the sandbox workspace."
     inputSchema := objectSchema [("path", [("type", "string"), ("default", ".")])] ["path"]
     placement := "sandbox" },
   { id := "workspace.delete"
     displayName := "Workspace Delete"
     description := "Delete a file or directory in the sandbox workspace."
     inputSchema := objectSchema [("path", [("type", "string")])] ["path"]
     placement := "sandbox" },
   { id := "workspace.search_text"
     displayName := "Workspace Search Text"
     description := "Search for a text pattern across the sandbox workspace."
     inputSchema := objectSchema [("pattern", [("type", "string")]),
       ("path", [("type", "string"), ("default", ".")])] ["pattern"]
     placement := "sandbox" },
   { id := "browser.open"
     displayName := "Browser Open"
     description := "Open a URL in the sandbox browser environment."
     inputSchema := objectSchema [("url", [("type", "string"), ("format", "uri")])] ["url"]
     placement := "sandbox" },
   { id := "skill.fetch"
     displayName := "Skill Fetch"
     description := "Fetch a published skill release into the sandbox workspace. Resolves <name>@<version> to a release tag and shallow-clones its snapshot."
     inputSchema := objectSchema [("name", [("type", "string"),
         ("description", "Skill name, e.g. \"ttt1\".")]),
       ("version", [("type", "string"), ("description", "SemVer, e.g. \"1.4.2\" or \"v1.4.2\".")]),
       ("dest", [("type", "string"), ("default", "./skills/\x7bname\x7d"),
         ("description", "Destination directory relative to the workspace root.")])]
       ["name", "version"]
     placement := "runtime"
     capability := "skill:view" },
   { id := "skill.pull"
     displayName := "Skill Pull"
     description := "Pull the latest draft (main branch) of a skill repo into the sandbox workspace for editing."
     inputSchema := objectSchema [("name", [("type", "string"), ("description", "Skill name.")]),
       ("ref", [("type", "string"), ("default", "refs/heads/main"),
         ("description", "Git ref to pull.")])] ["name"]
     placement := "runtime"
     capability := "skill:view" },
   { id := "skill.push"
     displayName := "Skill Push"
     description := "Push local skill draft commits to the Hub git remote (updates the main branch draft)."
     inputSchema := objectSchema [("name", [("type", "string"), ("description", "Skill name.")]),
       ("ref", [("type", "string"), ("default", "refs/heads/main"),
         ("description", "Git ref to push.")])] ["name"]
     placement := "runtime"
     capability := "skill:edit" },
   { id := "skill.tag"
     displayName := "Skill Tag"
     description := "Create an annotated release tag on a commit without pushing. Validates SKILL.md at the target commit. The tag message carries AISphere-Source-Ref and AISphere-Publisher-ID. Use skill.publish to tag and push in one step."
     inputSchema := objectSchema [("name", [("type", "string"), ("description", "Skill name.")]),
       ("version", [("type", "string"), ("description", "SemVer to tag, e.g. \"1.4.2\".")]),
       ("commitSha", [("type", "string"),
         ("description", "The commit SHA to tag. Defaults to the current HEAD of the pulled draft.")]),
       ("notes", [("type", "string"), ("description", "Release notes for the tag message.")])]
       ["name", "version"]
     placement := "runtime"
     capability := "skill:publish" },
   { id := "skill.publish"
     displayName := "Skill Publish"
     description := "Publish a skill release: validate SKILL.md, create an annotated release tag, and push it to the Hub git remote. Irreversible (creates a public release). Equivalent to skill.tag + push."
     inputSchema := objectSchema [("name", [("type", "string"), ("description", "Skill name.")]),
       ("version", [("type", "string"), ("description", "SemVer to publish, e.g. \"1.4.2\".")]),
       ("commitSha", [("type", "string"),
         ("description", "The commit SHA to tag. Defaults to the current HEAD of the pulled draft.")]),
       ("notes", [("type", "string"), ("description", "Release notes for the tag message.")])]
       ["name", "version"]
     placement := "runtime"
     capability := "skill:publish" }]

/-- Builtin ids that were renamed. -/
def deprecatedBuiltinToolIDs : List String := ["git.pull", "git.push"]

def builtinSeedDefinition (s : BuiltinToolSeed) : ToolDefinition where
  runtime := { type := "builtin", name := s.id, description := s.description }
  execution := some {
    placement := s.placement
    runner := "builtin"
    filesystem := "workspace"
    network := if s.placement = "runtime" then "restricted" else "none"
    capabilities := some (if s.capability = "" then [] else [s.capability]) }
  inputSchema := .value s.inputSchema

section Seeding

variable {φ : Type} [DecidableEq φ] (C : ToolCodec φ)

/-- The label of a seed: the first twelve characters of its digest. -/
def builtinSeedVersion (json : Json Decimal) : String :=
  "builtin-" ++ String.ofList ((C.sha256Hex json).toList.take 12)

/-- `builtinSeedToTool`; a definition that cannot be encoded makes it panic. -/
def builtinSeedToTool (now : Nat) (s : BuiltinToolSeed) : Except HubError Tool :=
  match (builtinSeedDefinition s).marshal with
  | .error cause => .error (.plain ("builtin seed: marshal definition: " ++ cause))
  | .ok json =>
    let ver := builtinSeedVersion C json
    let sum := C.sha256Hex json
    .ok {
      id := s.id
      displayName := s.displayName
      description := s.description
      status := "builtin"
      scope := "system"
      object := "tool:" ++ toolAuthzObjectID s.id
      ownerType := "service"
      ownerID := "aisphere-hub"
      ownerName := "AISphere Hub"
      latestVersion := ver
      versions := [(ver, {
        version := ver
        revision := String.ofList (sum.toList.take 12)
        sha256 := sum
        author := "aisphere-hub"
        commitMsg := "builtin tool seed"
        createTime := now
        definition := builtinSeedDefinition s })] }

/-- The first loop of `SeedBuiltinTools`; `a` answers the call for each id. -/
def seedTools (a : String → ToolAnswer) :
    List BuiltinToolSeed → ToolCatalog → ToolCatalog × Except HubError Unit
  | [], c => (c, .ok ())
  | s :: rest, c =>
    match builtinSeedToTool C (a s.id).now s with
    | .error e => (c, .error e)
    | .ok t =>
      match ToolRepo.upsertBuiltin C (a s.id) c t with
      | (d, .error e) => (d, .error ⟨e.code, "seed builtin tool \"" ++ s.id ++ "\": " ++ e.detail⟩)
      | (d, .ok _) => seedTools a rest d

/-- The second loop: a missing row is no error. -/
def deprecateTools (a : String → ToolAnswer) :
    List String → ToolCatalog → ToolCatalog × Except HubError Unit
  | [], c => (c, .ok ())
  | id :: rest, c =>
    match ToolRepo.delete (a id) c id with
    | (d, .error e) =>
      if e.code = .TOOL_NOT_FOUND then deprecateTools a rest d
      else (d, .error ⟨e.code, "deprecate builtin tool \"" ++ id ++ "\": " ++ e.detail⟩)
    | (d, .ok _) => deprecateTools a rest d

def seedBuiltinTools (a : String → ToolAnswer) (c : ToolCatalog) : ToolCatalog × Except HubError Unit :=
  match seedTools C a builtinToolSeeds c with
  | (d, .error e) => (d, .error e)
  | (d, .ok _) => deprecateTools a deprecatedBuiltinToolIDs d

end Seeding

end AisphereHub
