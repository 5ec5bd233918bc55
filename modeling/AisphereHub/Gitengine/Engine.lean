import AisphereHub.Biz.SkillArchive
import AisphereHub.Data.PullRequest
import AisphereHub.Gitengine.Repository

/-! Creation of a skill's repository with its first commit, fast-forward merges, and
the permission a ref update takes. -/
namespace AisphereHub

open GoStrings

variable {β : Type}

/-- The fields of a skill that the engine writes into its repository. -/
structure GitSkill (β : Type) where
  name : String
  displayName : String := ""
  description : String := ""
  ownerID : String := ""
  initialFiles : List (SkillArchiveFile β) := []

def scaffoldContent (P : Plumbing β) (skill : GitSkill β) : String :=
  let name := trimSpace skill.name
  let desc := trimSpace skill.description
  let title := if trimSpace skill.displayName = "" then name else trimSpace skill.displayName
  let body := if desc = "" then "Edit this SKILL.md to describe what this skill does." else desc
  "---\nname: " ++ name ++ "\ndescription: " ++ P.quote desc ++ "\nversion: \"0.1.0\"\n---\n\n# "
    ++ title ++ "\n\n" ++ body ++ "\n"

def writeFiles (P : Plumbing β) (root : GitTree β) :
    List (SkillArchiveFile β) → Except HubError (GitTree β)
  | [] => .ok root
  | file :: rest =>
    match upsertFileInTree P.refuses root file.path file.content .Regular with
    | .error e => .error (.plain ("add " ++ file.path ++ " to tree: " ++ e.detail))
    | .ok tree => writeFiles P tree rest

def writeInitialTree (P : Plumbing β) (a : EngineAnswer β) (files : List (SkillArchiveFile β)) :
    Except HubError (GitTree β) :=
  match a.check .plainOpen fun cause => .plain ("open bare repository: " ++ cause) with
  | .error e => .error e
  | .ok _ =>
    match files with
    | [] => .error (.plain "initial tree is empty")
    | file :: rest => writeFiles P [] (file :: rest)

def seedInitialCommit (P : Plumbing β) (a : EngineAnswer β) (skill : GitSkill β) :
    Except HubError (Commit β) :=
  match a.check .open .plain with
  | .error e => .error e
  | .ok _ =>
    let files := if skill.initialFiles.isEmpty then
        [⟨"SKILL.md", P.bytes (scaffoldContent P skill)⟩] else skill.initialFiles
    let commitSubject :=
      if skill.initialFiles.isEmpty then "Initial scaffold" else "Import skill archive"
    match writeInitialTree P a files with
    | .error e => .error e
    | .ok tree =>
      match a.check .commitTree fun cause => .plain ("create commit: " ++ cause) with
      | .error e => .error e
      | .ok _ =>
        match a.check .updateRef fun cause => .plain ("update main ref: " ++ cause) with
        | .error e => .error e
        | .ok _ =>
          match a.check .symbolicRef fun cause =>
              .plain ("point HEAD at main: " ++ cause) with
          | .error e => .error e
          | .ok _ =>
            .ok ⟨tree, [], commitSubject ++ "\n\nCreated by " ++ skill.ownerID,
              "Aisphere Hub", "noreply@aisphere.io", a.now⟩

/-- `taken` says that a repository of the name exists. A repository whose first
commit fails is deleted again. -/
def createSkill (P : Plumbing β) (a : EngineAnswer β) (taken : Bool) (skill : GitSkill β) :
    Except HubError (Repository β) :=
  let item := { skill with name := trimSpace skill.name }
  if taken then .error ⟨.SKILL_ALREADY_EXISTS, ""⟩
  else
    match a.check .createRepository fun cause =>
        ⟨.SKILL_DEPENDENCY_FAILED, "create repository: " ++ cause⟩ with
    | .error e => .error e
    | .ok _ =>
      match seedInitialCommit P a item with
      | .error e => .error ⟨.SKILL_DEPENDENCY_FAILED, "seed initial commit: " ++ e.detail⟩
      | .ok commit => .ok ⟨item.name, [⟨skillDefaultRef, commit⟩], item.displayName,
          item.description⟩

/-- `Merge`: the target moves to a source commit whose metadata is valid, by the
compare-and-set of `git update-ref`. -/
def mergeRefs (P : Plumbing β) (a : EngineAnswer β) (r : Repository β)
    (sourceRef targetRef expectedTargetSHA : String) : Repository β × Except HubError String :=
  match a.check .open .plain with
  | .error e => (r, .error e)
  | .ok _ =>
    match a.check .showRef .plain, r.lookup (normalizeRef sourceRef) with
    | .error e, _ => (r, .error e)
    | .ok _, none => (r, .error (.plain "reference does not exist"))
    | .ok _, some source =>
      match a.check .mergeBase fun cause => .plain ("gitengine: merge base: " ++ cause) with
      | .error e => (r, .error e)
      | .ok _ =>
        if trimSpace a.mergeBase ≠ trimSpace expectedTargetSHA then
          (r, .error ⟨.PULL_REQUEST_STALE, ""⟩)
        else
          match readSkillMetadata P a source r.name with
          | .error cause => (r, .error (.plain ("gitengine: validate SKILL.md: " ++ cause)))
          | .ok _ =>
            match a.check .updateRef fun cause =>
                .plain ("gitengine: update target ref: " ++ cause) with
            | .error e => (r, .error e)
            | .ok _ =>
              if (r.lookup (normalizeRef targetRef)).map P.commitHash ≠
                  some expectedTargetSHA then
                (r, .error (.plain "gitengine: update target ref"))
              else
                match syncSkillMetadata P a
                    (r.moveRef (normalizeRef targetRef) source) source with
                | (r', .error e) => (r', .error e)
                | (r', .ok _) => (r', .ok (P.commitHash source))

/-- The exported `SyncSkillMetadata`: the refresh from the head of a ref. -/
def syncSkillMetadataOfRef (P : Plumbing β) (a : EngineAnswer β) (r : Repository β) (ref : String) :
    Repository β × Except HubError Unit :=
  match a.check .open .plain with
  | .error e => (r, .error e)
  | .ok _ =>
    match a.check .showRef .plain, r.lookup (normalizeRef ref) with
    | .error e, _ => (r, .error e)
    | .ok _, none => (r, .error (.plain "reference does not exist"))
    | .ok _, some commit => syncSkillMetadata P a r commit

inductive SkillPermission where
  | edit
  | publish
  | manage
deriving DecidableEq

def requiredPermissionForRefUpdate (defaultBranch ref oldSHA newSHA : String)
    (fastForward : Bool) : SkillPermission :=
  let defaultRef := "refs/heads/" ++ trimPrefix (trimSpace defaultBranch) "refs/heads/"
  if hasPrefix ref "refs/tags/" then
    if isZero oldSHA && !isZero newSHA then .publish else .manage
  else if ref = defaultRef then
    if isZero newSHA || (!isZero oldSHA && !fastForward) then .manage else .publish
  else .edit

end AisphereHub
