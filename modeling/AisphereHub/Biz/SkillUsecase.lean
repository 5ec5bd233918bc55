import AisphereHub.Data.SkillRepo
import AisphereHub.Foundation.Threads

/-! Creation, visibility, sharing and deletion of skills. The usecase writes a row
and the tuples on it in separate steps. A visibility switch is cut at its
dependency calls: one constructor for each point where it waits for the database
or SpiceDB. The other calls name the step that fails. -/
namespace AisphereHub

open GoStrings

def skillResource (name : String) : AuthzObjectRef := ⟨"skill", name⟩

def publicSubjects : List AuthzSubjectRef :=
  [{ type := "user", id := "*" }, { type := "service", id := "*" },
    { type := "service_account", id := "*" }]

def publicViewer (name : String) (subject : AuthzSubjectRef) : AuthzRelationship :=
  ⟨skillResource name, "viewer", subject⟩

def appendSkillPublicViewers (rels : List AuthzRelationship) (name : String) :
    List AuthzRelationship :=
  rels ++ publicSubjects.map (publicViewer name)

def isSkillNameStart (c : Char) : Bool :=
  ('a' ≤ c && c ≤ 'z') || ('0' ≤ c && c ≤ '9')

/-- `^[a-z0-9][a-z0-9_-]{0,62}$`. -/
def skillNamePattern (name : String) : Bool :=
  match name.toList with
  | [] => false
  | c :: rest =>
    isSkillNameStart c && rest.all (fun d => isSkillNameStart d || d == '_' || d == '-') &&
      rest.length ≤ 62

structure NewSkill where
  name : String
  displayName : String := ""
  description : String := ""
  orgID : String := ""
  projectID : String := ""
  visibility : String := ""
deriving DecidableEq

inductive CreateStep where
  | createRepository
  | writeRelationships
  | deleteRepository
  | writeStatus
  | rereadStatus
  | revokeResource
deriving DecidableEq

def validateProject (validator : Option (String → String → Except HubError Unit))
    (orgID projectID : String) : Except HubError Unit :=
  if projectID = "" then .ok ()
  else
    match validator with
    | none => .error ⟨.SKILL_DEPENDENCY_FAILED, ""⟩
    | some validate => validate orgID projectID

def newSkillItem (validator : Option (String → String → Except HubError Unit))
    (principal : SkillPrincipal) (input : Option NewSkill) : Except HubError SkillRecord :=
  if principal.authenticated = false then .error errUnauthenticated
  else
    match input with
    | none => .error ⟨.SKILL_INVALID_ARGUMENT, ""⟩
    | some input =>
      if skillNamePattern (trimSpace input.name) = false ∨ trimSpace input.orgID = "" ∨
          trimSpace input.orgID ≠ trimSpace principal.orgID then
        .error ⟨.SKILL_INVALID_ARGUMENT, ""⟩
      else
        match SkillVisibility.ofString
            (if input.visibility = "" then "private" else input.visibility) with
        | none => .error ⟨.SKILL_INVALID_ARGUMENT, ""⟩
        | some visibility => do
            validateProject validator (trimSpace input.orgID) (trimSpace input.projectID)
            return {
              name := trimSpace input.name
              displayName := input.displayName
              description := input.description
              orgID := trimSpace input.orgID
              projectID := trimSpace input.projectID
              ownerID := principal.subjectID
              ownerType := if principal.subjectType = "" then "user" else principal.subjectType
              ownerName := principal.name
              visibility := visibility
              status := .provisioning }

def initialRelationships (principal : SkillPrincipal) (item : SkillRecord) : List AuthzRelationship :=
  let rels : List AuthzRelationship :=
    [⟨skillResource item.name, "owner", principalSubject principal.toFilePrincipal⟩,
      ⟨skillResource item.name, "zone", { type := "zone", id := item.orgID }⟩]
  if item.visibility = .public then appendSkillPublicViewers rels item.name else rels

/-- The compensations of `createSkill`: a failing one leaves what it was to remove. -/
def dropRepository (s : SkillTables) (name : String) (fault : Option String) : SkillTables :=
  match fault with
  | some _ => s
  | none => { s with skills := deleteRepository s.skills name }

def dropResource (s : SkillTables) (name : String) (fault : Option String) : SkillTables :=
  match revokeResource s.tuples (skillResource name) fault with
  | .error _ => s
  | .ok tuples => { s with tuples := tuples }

def SkillUsecase.createSkill (s : SkillTables) (validator : Option (String → String → Except HubError Unit))
    (principal : SkillPrincipal) (input : Option NewSkill) (faults : CreateStep → Option String) :
    SkillTables × Except HubError SkillRecord :=
  match newSkillItem validator principal input with
  | .error e => (s, .error e)
  | .ok item =>
    match underFault (faults .createRepository) (insertSkill s.skills item) with
    | .error e =>
      if e.code = .SKILL_ALREADY_EXISTS then (s, .error e)
      else (s, .error ⟨.SKILL_DEPENDENCY_FAILED, "create repository: " ++ e.detail⟩)
    | .ok skills =>
      let s := { s with skills := skills }
      match writeRelationships s.tuples (initialRelationships principal item)
          (faults .writeRelationships) with
      | .error e =>
        (dropRepository s item.name (faults .deleteRepository),
          .error ⟨.SKILL_DEPENDENCY_FAILED, "project relationships: " ++ e.detail⟩)
      | .ok tuples =>
        let s := { s with tuples := tuples }
        let undone (s : SkillTables) := dropRepository
          (dropResource s item.name (faults .revokeResource)) item.name
          (faults .deleteRepository)
        match underFault (faults .writeStatus)
            (writeSkillStatus s.skills item.name .provisioning .active) with
        | .error e => (undone s, .error e)
        | .ok skills =>
          let s := { s with skills := skills }
          match underFault (faults .rereadStatus) (getSkill s.skills item.name) with
          | .error e => (undone s, .error e)
          | .ok active => (s, .ok active)

structure SkillVisibilityRequest where
  name : String
  visibility : String
deriving DecidableEq

structure SwitchFrame where
  name : String
  visibility : SkillVisibility
  current : SkillRecord
deriving DecidableEq

inductive SkillVisibilityCall where
  | load (request : SkillVisibilityRequest)
  | reconcile (frame : SwitchFrame) (todo : List AuthzSubjectRef)
  | project (frame : SwitchFrame) (done todo : List AuthzSubjectRef)
  | write (frame : SwitchFrame)
  | reread (frame : SwitchFrame)
  | compensate (name : String) (grant : Bool) (todo : List AuthzSubjectRef) (error : HubError)
  | returned (result : Except HubError SkillRecord)
deriving DecidableEq

/-- Granting the viewer role to a wildcard subject, or revoking every role of it. -/
def projectViewer (tuples : Tuples) (name : String) (grant : Bool) (subject : AuthzSubjectRef)
    (fault : Option String) : Except HubError Tuples :=
  if grant then grantRole tuples (skillResource name) "viewer" subject fault
  else revokeAll tuples (skillResource name) subject fault

def SwitchFrame.grants (frame : SwitchFrame) : Bool := frame.visibility = .public

-- The loops of the call: a loop that has no subject left goes on to what follows it.

def SwitchFrame.reconciling (frame : SwitchFrame) : List AuthzSubjectRef → SkillVisibilityCall
  | [] => .returned (.ok frame.current)
  | todo => .reconcile frame todo

def SwitchFrame.projecting (frame : SwitchFrame) (done : List AuthzSubjectRef) :
    List AuthzSubjectRef → SkillVisibilityCall
  | [] => .write frame
  | todo => .project frame done todo

def compensating (name : String) (grant : Bool) (error : HubError) :
    List AuthzSubjectRef → SkillVisibilityCall
  | [] => .returned (.error error)
  | todo => .compensate name grant todo error

/-- A projection that fails: grants made so far are revoked, revoked viewers of a
public skill are granted again. -/
def SwitchFrame.unproject (frame : SwitchFrame) (done : List AuthzSubjectRef) (error : HubError) :
    SkillVisibilityCall :=
  if frame.grants then compensating frame.name false error done
  else if frame.current.visibility = .public then
    compensating frame.name true error publicSubjects
  else .returned (.error error)

def SwitchFrame.unwrite (frame : SwitchFrame) (error : HubError) : SkillVisibilityCall :=
  frame.unproject publicSubjects error

/-- `UpdateSkillVisibility`. The repository's transaction and its reread are two
steps, but their failures are one to the usecase. -/
def SkillVisibilityCall.next (s : SkillTables) (call : SkillVisibilityCall) (fault : Option String) :
    Option (SkillTables × SkillVisibilityCall) :=
  match call with
  | .load request =>
    match SkillVisibility.ofString request.visibility with
    | none => some (s, .returned (.error ⟨.SKILL_INVALID_ARGUMENT, ""⟩))
    | some visibility =>
      match underFault fault (getSkill s.skills request.name) with
      | .error e => some (s, .returned (.error e))
      | .ok current =>
        let frame : SwitchFrame := ⟨request.name, visibility, current⟩
        if current.visibility = visibility then some (s, frame.reconciling publicSubjects)
        else some (s, frame.projecting [] publicSubjects)
  | .reconcile frame (subject :: rest) =>
    match projectViewer s.tuples frame.name frame.grants subject fault with
    | .error e => some (s, .returned (.error e))
    | .ok tuples => some ({ s with tuples := tuples }, frame.reconciling rest)
  | .project frame done (subject :: rest) =>
    match projectViewer s.tuples frame.name frame.grants subject fault with
    | .error e => some (s, frame.unproject done e)
    | .ok tuples => some ({ s with tuples := tuples }, frame.projecting (done ++ [subject]) rest)
  | .write frame =>
    match underFault fault (writeSkillVisibility s.skills frame.name frame.visibility) with
    | .error e => some (s, frame.unwrite e)
    | .ok skills => some ({ s with skills := skills }, .reread frame)
  | .reread frame =>
    match underFault fault (getSkill s.skills frame.name) with
    | .error e => some (s, frame.unwrite e)
    | .ok updated => some (s, .returned (.ok updated))
  | .compensate name grant (subject :: rest) error =>
    match projectViewer s.tuples name grant subject fault with
    | .error _ =>
      -- `grantSkillPublicViewers` stops at its first failure, the revocations go on.
      some (s, if grant then .returned (.error error) else compensating name grant error rest)
    | .ok tuples => some ({ s with tuples := tuples }, compensating name grant error rest)
  | .reconcile _ [] | .project _ _ [] | .compensate _ _ [] _ | .returned _ => none

def skillVisibilityProgram :
    Threads.Program SkillTables SkillVisibilityCall SkillVisibilityRequest (Option String) where
  start := .load
  next := SkillVisibilityCall.next
  finished
    | .returned _ => true
    | _ => false

structure SkillShare where
  skillName : String
  relation : String := ""
  subjectType : String := ""
  subjectID : String := ""
  subjectRelation : String := ""
deriving DecidableEq

def SkillShare.subject (share : SkillShare) : AuthzSubjectRef :=
  ⟨share.subjectType, share.subjectID, share.subjectRelation⟩

def SkillShare.tuple (share : SkillShare) : AuthzRelationship :=
  ⟨skillResource share.skillName, share.relation, share.subject⟩

def validSkillRelation (relation : String) : Bool :=
  relation ∈ ["editor", "reviewer", "publisher", "viewer"]

def createSkillShare (tuples : Tuples) (share : SkillShare) (fault : Option String) :
    Except HubError Tuples :=
  if validSkillRelation share.relation = false ∨ trimSpace share.subjectType = "" ∨
      trimSpace share.subjectID = "" then .error ⟨.SKILL_INVALID_ARGUMENT, ""⟩
  else grantRole tuples (skillResource share.skillName) share.relation share.subject fault

def deleteSkillShare (tuples : Tuples) (share : SkillShare) (fault : Option String) :
    Except HubError Tuples :=
  revokeAll tuples (skillResource share.skillName) share.subject fault

structure AgentRef where
  agentID : String
  displayName : String := ""
deriving DecidableEq

def AgentRef.label (ref : AgentRef) : String :=
  if trimSpace ref.displayName ≠ "" then ref.displayName ++ "(" ++ ref.agentID ++ ")"
  else ref.agentID

/-- The refusal of a deletion that agents stand in the way of. The name is quoted
without escapes, which a skill name does not need. -/
def skillReferenced (name : String) (refs : List AgentRef) : HubError where
  code := .AGENT_SKILL_REFERENCED
  detail := "skill \"" ++ name ++ "\" 正被 " ++ toString refs.length ++ " 个 Agent 使用: " ++
    ", ".intercalate (refs.map AgentRef.label) ++ "。请先更新这些 Agent 的绑定后再删除。"

inductive DeleteStep where
  | references
  | read
  | writeStatus
  | rereadStatus
  | revokeResource
  | deleteRepository
deriving DecidableEq

/-- What `DeleteSkill` does once the row is marked: the reread of `UpdateSkillStatus`, then
the tuples, then the repository. -/
def removeMarked (s : SkillTables) (name : String) (faults : DeleteStep → Option String) :
    SkillTables × Except HubError Unit :=
  match underFault (faults .rereadStatus) (getSkill s.skills name) with
  | .error e => (s, .error e)
  | .ok _ =>
    match revokeResource s.tuples (skillResource name) (faults .revokeResource) with
    | .error e => (s, .error e)
    | .ok tuples =>
      match faults .deleteRepository with
      | some cause => ({ s with tuples := tuples }, .error (.plain cause))
      | none => (⟨deleteRepository s.skills name, tuples⟩, .ok ())

/-- `SkillUsecase.DeleteSkill`; `refs` are the agents that bind the skill. -/
def deleteSkill (s : SkillTables) (refs : List AgentRef) (name : String)
    (faults : DeleteStep → Option String) : SkillTables × Except HubError Unit :=
  let name := trimSpace name
  match faults .references with
  | some cause => (s, .error ⟨.SKILL_DEPENDENCY_FAILED, "check agent references: " ++ cause⟩)
  | none =>
    if refs ≠ [] then (s, .error (skillReferenced name refs))
    else
      match underFault (faults .read) (getSkill s.skills name) with
      | .error e => (s, .error e)
      | .ok current =>
        if mutableSkillLifecycle current.status = false then
          (s, .error ⟨.SKILL_LIFECYCLE_INVALID, ""⟩)
        else
          match underFault (faults .writeStatus)
              (writeSkillStatus s.skills name current.status .deleting) with
          | .error e => (s, .error e)
          | .ok skills => removeMarked { s with skills := skills } name faults

end AisphereHub
