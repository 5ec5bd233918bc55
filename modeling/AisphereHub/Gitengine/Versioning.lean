import AisphereHub.Gitengine.Repository

/-! `RestoreRef` commits the tree of an older version on top of a branch, moves the
branch, and answers with the commit as `ListCommits` reads it from `git log`. -/
namespace AisphereHub

open GoStrings

variable {β : Type}

structure RestoreSkillRef where
  sourceRef : String
  targetBranch : String
  expectedHeadSHA : String
  commitMessage : String := ""
  actorID : String := ""
  actorName : String := ""
  actorEmail : String := ""
  createTime : Nat := 0
deriving DecidableEq

/-- `createTime` is the text git prints for the date. -/
structure SkillCommit where
  commitSHA : String
  treeSHA : String
  parentSHAs : List String
  authorName : String
  authorEmail : String
  createTime : String
  subject : String
deriving DecidableEq

def isHexDigit (c : Char) : Bool :=
  ('0' ≤ c && c ≤ '9') || ('a' ≤ c && c ≤ 'f') || ('A' ≤ c && c ≤ 'F')

def fullCommitSHA (s : String) : Bool := s.length == 40 && s.toList.all isHexDigit

def resolveVersionRef (a : EngineAnswer β) (ref : String) : Except HubError (Commit β) :=
  let ref := trimSpace ref
  if ref = "" ∨ hasPrefix ref "-" = true then .error ⟨.SKILL_INVALID_ARGUMENT, ""⟩
  else
    let candidates := if hasPrefix ref "refs/" || fullCommitSHA ref then [ref]
      else ["refs/heads/" ++ ref, "refs/tags/" ++ ref]
    match candidates.findSome? fun candidate => a.revParse (candidate ++ "^\x7bcommit\x7d") with
    | none => .error (errBranchNotFound ref)
    | some commit => .ok commit

def logOutput (P : Plumbing β) (commit : Commit β) : String :=
  trimSpace (join [P.commitHash commit, P.nodeHash (.dir commit.tree), join commit.parents ' ',
    commit.authorName, commit.authorEmail, P.date commit.time, P.subject commit.message] '\x00'
      ++ "\x1e\n")

def parseLogRecord (record : String) : Option SkillCommit :=
  match split (trimSpace record) '\x00' with
  | [commit, tree, parents, name, email, date, subject] =>
    some ⟨trimSpace commit, trimSpace tree, fields (trimSpace parents), trimSpace name,
      trimSpace email, trimSpace date, trimSpace subject⟩
  | _ => none

/-- `ListCommits` of one commit, by its full hash. -/
def listCommits (P : Plumbing β) (a : EngineAnswer β) (commit : Commit β) :
    Except HubError (List SkillCommit) :=
  match a.check .reopen .plain with
  | .error e => .error e
  | .ok _ =>
    match a.check .revParse fun _ => errBranchNotFound (P.commitHash commit) with
    | .error e => .error e
    | .ok _ =>
      match a.check .log fun cause => .plain ("gitengine: list commits: " ++ cause) with
      | .error e => .error e
      | .ok _ => .ok ((split (logOutput P commit) '\x1e').filterMap parseLogRecord)

/-- No command line and no environment variable holds a null character. -/
def execRefuses (message name email : String) : Bool :=
  message.toList.contains '\x00' || name.toList.contains '\x00' || email.toList.contains '\x00'

def RestoreSkillRef.targetRef (request : RestoreSkillRef) : String :=
  "refs/heads/" ++ trimPrefix (trimSpace request.targetBranch) "refs/heads/"

def RestoreSkillRef.message (request : RestoreSkillRef) : String :=
  if trimSpace request.commitMessage = "" then "Restore " ++ request.sourceRef
  else trimSpace request.commitMessage

def RestoreSkillRef.authorName (request : RestoreSkillRef) : String :=
  if trimSpace request.actorName = "" then trimSpace request.actorID
  else trimSpace request.actorName

def RestoreSkillRef.authorEmail (request : RestoreSkillRef) : String :=
  if trimSpace request.actorEmail = "" then "noreply@aisphere.io" else trimSpace request.actorEmail

/-- `git commit-tree` on the current head, with the identity as git records it. -/
def RestoreSkillRef.commit (P : Plumbing β) (request : RestoreSkillRef) (source head : Commit β) :
    Commit β :=
  ⟨source.tree, [P.commitHash head], request.message, P.ident request.authorName,
    P.ident request.authorEmail, request.createTime⟩

/-- Everything up to `git update-ref`: the ref and the commit it moves to. -/
def restorePlan (P : Plumbing β) (a : EngineAnswer β) (r : Repository β)
    (request : RestoreSkillRef) : Except HubError (String × Commit β) :=
  match a.check .open .plain with
  | .error e => .error e
  | .ok _ =>
    match resolveVersionRef a request.sourceRef with
    | .error e => .error e
    | .ok source =>
      match readSkillMetadata P a source r.name with
      | .error cause => .error (.plain ("gitengine: validate restored SKILL.md: " ++ cause))
      | .ok _ =>
        match a.fault .showRef, r.lookup request.targetRef with
        | some _, _ => .error (errBranchNotFound request.targetRef)
        | none, none => .error (errBranchNotFound request.targetRef)
        | none, some head =>
          if trimSpace (P.commitHash head) ≠ trimSpace request.expectedHeadSHA then
            .error ⟨.SKILL_RESTORE_STALE, ""⟩
          else
            match a.check .sourceTree fun cause =>
                .plain ("gitengine: read restore tree: " ++ cause) with
            | .error e => .error e
            | .ok _ =>
              if execRefuses request.message request.authorName request.authorEmail then
                .error (.plain "gitengine: create restore commit: invalid argument")
              else
                match a.check .commitTree fun cause =>
                    .plain ("gitengine: create restore commit: " ++ cause) with
                | .error e => .error e
                | .ok _ =>
                  match a.check .updateRef fun _ => ⟨.SKILL_RESTORE_STALE, ""⟩ with
                  | .error e => .error e
                  | .ok _ => .ok (request.targetRef, request.commit P source head)

def restoreRef (P : Plumbing β) (a : EngineAnswer β) (r : Repository β)
    (request : RestoreSkillRef) : Repository β × Except HubError SkillCommit :=
  match restorePlan P a r request with
  | .error e => (r, .error e)
  | .ok (targetRef, commit) =>
    (r.moveRef targetRef commit,
      match listCommits P a commit with
      | .error e => .error e
      | .ok [restored] => .ok restored
      | .ok _ => .error (.plain "gitengine: restored commit not found"))

variable {P : Plumbing β} {a : EngineAnswer β} {r : Repository β} {request : RestoreSkillRef}

theorem restorePlan_eq_ok (planned : restorePlan P a r request = .ok (ref, commit)) :
    ∃ source head metadata, resolveVersionRef a request.sourceRef = .ok source ∧
      readSkillMetadata P a source r.name = .ok metadata ∧
      r.lookup request.targetRef = some head ∧ ref = request.targetRef ∧
      commit = request.commit P source head := by
  unfold restorePlan at planned
  split at planned
  · cases planned
  split at planned
  · cases planned
  rename_i source resolved
  split at planned
  · cases planned
  rename_i metadata read
  split at planned
  · cases planned
  · cases planned
  rename_i head _ found
  split at planned
  · cases planned
  split at planned
  · cases planned
  split at planned
  · cases planned
  split at planned
  · cases planned
  split at planned
  · cases planned
  cases planned
  exact ⟨source, head, metadata, resolved, read, found, rfl, rfl⟩

end AisphereHub
