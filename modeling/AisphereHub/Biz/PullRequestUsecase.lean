import AisphereHub.Biz.Authz
import AisphereHub.Data.PullRequest
import AisphereHub.Foundation.Threads

/-! The pull request usecases, each cut at its queries and git commands, and the
pushes they run beside. `MergePullRequest` goes on inside the git engine: the
engine reads the source branch again, and only its last command moves the
target. -/
namespace AisphereHub

open GoStrings (trimSpace)

/-- `authenticated` is `principal.IsAuthenticated()`. -/
def requirePrincipal (authenticated : Bool) : Except HubError Unit :=
  if authenticated then .ok ()
  else .error ⟨.UNAUTHENTICATED, "authenticated principal is required"⟩

structure MergeRequest where
  principal : Principal
  authenticated : Bool := true
  skill : String
  id : String
  expectedTargetSHA : String
deriving DecidableEq

/-- The metadata projection runs twice: at the end of the engine's merge, and
again from the usecase. -/
inductive SyncPass where
  | engine
  | usecase
deriving DecidableEq

/-- `pr` is the row the call loaded, `sourceSHA` what the engine read from the
source branch. -/
inductive MergeCall where
  | load (request : MergeRequest)
  | listReviews (request : MergeRequest) (pr : SkillPullRequest)
  | resolveTarget (request : MergeRequest) (pr : SkillPullRequest)
  | resolveSource (request : MergeRequest) (pr : SkillPullRequest)
  | readSource (request : MergeRequest) (pr : SkillPullRequest)
  | mergeBase (request : MergeRequest) (pr : SkillPullRequest) (sourceSHA : String)
  | readMetadata (request : MergeRequest) (pr : SkillPullRequest) (sourceSHA : String)
  | updateRef (request : MergeRequest) (pr : SkillPullRequest) (sourceSHA : String)
  | syncRead (request : MergeRequest) (pr : SkillPullRequest) (sourceSHA : String)
      (pass : SyncPass) (sha : String)
  | syncName (request : MergeRequest) (pr : SkillPullRequest) (sourceSHA : String)
      (pass : SyncPass) (displayName description : String)
  | syncDescription (request : MergeRequest) (pr : SkillPullRequest) (sourceSHA : String)
      (pass : SyncPass) (description : String)
  | resolveMerged (request : MergeRequest) (pr : SkillPullRequest) (sourceSHA : String)
  | record (request : MergeRequest) (pr : SkillPullRequest) (sourceSHA : String)
  | returned (result : Except HubError SkillPullRequest)
deriving DecidableEq

def checkReviews : List SkillPullRequestReview → Bool → Except HubError Unit
  | [], approved => if approved then .ok () else .error ⟨.PULL_REQUEST_NOT_APPROVED, ""⟩
  | review :: rest, approved =>
    if review.verdict = .REQUEST_CHANGES then .error ⟨.PULL_REQUEST_NOT_APPROVED, ""⟩
    else checkReviews rest (approved || review.verdict == .APPROVE)

/-- `git show SHA:SKILL.md` and `ParseSkillMetadata`. -/
def GitAnswer.skillMetadata (a : GitAnswer) : Except String (String × String) :=
  match a.fault with
  | some cause => .error ("gitengine: read SKILL.md: " ++ cause)
  | none =>
    match a.metadata with
    | .error cause => .error ("gitengine: validate SKILL.md: " ++ cause)
    | .ok parsed => .ok parsed

/-- The usecase wraps what its own pass of the projection returns. -/
def SyncPass.failure (pass : SyncPass) (cause : String) : HubError :=
  match pass with
  | .engine => .plain cause
  | .usecase => ⟨.SKILL_DEPENDENCY_FAILED, "sync SKILL.md metadata: " ++ cause⟩

def SyncPass.done (pass : SyncPass) (request : MergeRequest) (pr : SkillPullRequest)
    (sourceSHA : String) : MergeCall :=
  match pass with
  | .engine => .resolveMerged request pr sourceSHA
  | .usecase => .record request pr sourceSHA

def setDisplayName (profiles : List SkillProfile) (skill displayName : String) :
    List SkillProfile :=
  Keyed.amend SkillProfile.name profiles skill fun p => { p with displayName := displayName }

def setDescription (profiles : List SkillProfile) (skill description : String) :
    List SkillProfile :=
  Keyed.amend SkillProfile.name profiles skill fun p => { p with description := description }

def MergeCall.next (s : SkillStore) (call : MergeCall) (a : GitAnswer) :
    Option (SkillStore × MergeCall) :=
  match call with
  | .load request =>
    match requirePrincipal request.authenticated with
    | .error e => some (s, .returned (.error e))
    | .ok () =>
      match a.orFault (getPullRequest s.pulls request.skill request.id) with
      | .error e => some (s, .returned (.error e))
      | .ok pr =>
        if pr.state ≠ .OPEN then
          some (s, .returned (.error ⟨.PULL_REQUEST_NOT_OPEN, ""⟩))
        else some (s, .listReviews request pr)
  | .listReviews request pr =>
    match a.orFault (checkReviews (AisphereHub.listReviews s.reviews request.id) false) with
    | .error e => some (s, .returned (.error e))
    | .ok () => some (s, .resolveTarget request pr)
  | .resolveTarget request pr =>
    match a.orFault (resolveRef s.refs request.skill pr.targetRef) with
    | .error e => some (s, .returned (.error e))
    | .ok currentTarget =>
      if currentTarget ≠ pr.targetSHA ∨ currentTarget ≠ request.expectedTargetSHA then
        some (s, .returned (.error ⟨.PULL_REQUEST_STALE, ""⟩))
      else some (s, .resolveSource request pr)
  | .resolveSource request pr =>
    match a.orFault (resolveRef s.refs request.skill pr.sourceRef) with
    | .error e => some (s, .returned (.error e))
    | .ok currentSource =>
      if currentSource ≠ pr.sourceSHA then
        some (s, .returned (.error ⟨.PULL_REQUEST_STALE, ""⟩))
      else some (s, .readSource request pr)
  | .readSource request pr =>
    match a.orFault (showRefVerify s.refs request.skill (normalizeRef pr.sourceRef)) with
    | .error e => some (s, .returned (.error e))
    | .ok sourceSHA => some (s, .mergeBase request pr sourceSHA)
  | .mergeBase request pr sourceSHA =>
    match a.fault with
    | some cause =>
      some (s, .returned (.error (.plain ("gitengine: merge base: " ++ cause))))
    | none =>
      if trimSpace a.mergeBase ≠ trimSpace request.expectedTargetSHA then
        some (s, .returned (.error ⟨.PULL_REQUEST_STALE, ""⟩))
      else some (s, .readMetadata request pr sourceSHA)
  | .readMetadata request pr sourceSHA =>
    match a.orFault (a.metadata.mapError .plain) with
    | .error e =>
      some (s, .returned (.error (.plain ("gitengine: validate SKILL.md: " ++ e.detail))))
    | .ok _ => some (s, .updateRef request pr sourceSHA)
  | .updateRef request pr sourceSHA =>
    match a.orFault (AisphereHub.updateRef s.refs request.skill (normalizeRef pr.targetRef)
        sourceSHA request.expectedTargetSHA) with
    | .error e => some (s, .returned (.error e))
    | .ok refs =>
      some ({ s with refs := refs }, .syncRead request pr sourceSHA .engine sourceSHA)
  | .syncRead request pr sourceSHA pass _ =>
    match a.skillMetadata with
    | .error cause => some (s, .returned (.error (pass.failure cause)))
    | .ok (displayName, description) =>
      some (s, .syncName request pr sourceSHA pass displayName description)
  | .syncName request pr sourceSHA pass displayName description =>
    match a.fault with
    | some cause =>
      some (s, .returned (.error
        (pass.failure ("gitengine: update skill metadata projection: " ++ cause))))
    | none =>
      some ({ s with profiles := setDisplayName s.profiles request.skill displayName },
        .syncDescription request pr sourceSHA pass description)
  | .syncDescription request pr sourceSHA pass description =>
    match a.fault with
    | some cause =>
      some (s, .returned (.error
        (pass.failure ("gitengine: update repository metadata projection: " ++ cause))))
    | none =>
      some ({ s with profiles := setDescription s.profiles request.skill description },
        pass.done request pr sourceSHA)
  | .resolveMerged request pr sourceSHA =>
    match a.orFault (resolveRef s.refs request.skill pr.targetRef) with
    | .error e => some (s, .returned (.error (SyncPass.failure .usecase e.detail)))
    | .ok sha => some (s, .syncRead request pr sourceSHA .usecase sha)
  | .record request _ sourceSHA =>
    match a.orFault (mergePullRequest s.pulls request.skill request.id
        request.expectedTargetSHA sourceSHA request.principal.subjectID a.now) with
    | .error e => some (s, .returned (.error e))
    | .ok (rows, merged) => some ({ s with pulls := rows }, .returned (.ok merged))
  | .returned _ => none

inductive CloseCall where
  | close (skill id : String)
  | reread (skill id : String) (affected : Bool)
  | returned (result : Except HubError SkillPullRequest)
deriving DecidableEq

def CloseCall.next (s : SkillStore) (call : CloseCall) (a : GitAnswer) :
    Option (SkillStore × CloseCall) :=
  match call with
  | .close skill id =>
    match a.fault with
    | some cause => some (s, .returned (.error (.plain cause)))
    | none =>
      match closePullRequest s.pulls skill id a.now with
      | none => some (s, .reread skill id false)
      | some (rows, _) => some ({ s with pulls := rows }, .reread skill id true)
  | .reread skill id affected =>
    match a.orFault (getPullRequest s.pulls skill id) with
    | .error e => some (s, .returned (.error e))
    | .ok pr =>
      some (s, .returned
        (if affected then .ok pr else .error ⟨.PULL_REQUEST_NOT_OPEN, ""⟩))
  | .returned _ => none

structure ReviewRequest where
  principal : Principal
  authenticated : Bool := true
  id : String := ""
  pullRequestID : String
  verdict : String
  comment : String := ""
deriving DecidableEq

inductive ReviewCall where
  | create (request : ReviewRequest)
  | returned (result : Except HubError SkillPullRequestReview)
deriving DecidableEq

/-- The review as it is stored, if the call gets that far. -/
def ReviewRequest.row (request : ReviewRequest) (a : GitAnswer) :
    Except HubError SkillPullRequestReview :=
  match requirePrincipal request.authenticated with
  | .error e => .error e
  | .ok () =>
    match ReviewVerdict.ofString request.verdict with
    | none => .error ⟨.SKILL_INVALID_ARGUMENT, ""⟩
    | some verdict =>
      .ok
        { id := if request.id = "" then a.uuid else request.id
          pullRequestID := request.pullRequestID
          reviewerID := request.principal.subjectID
          verdict := verdict
          comment := request.comment
          createTime := a.now }

def ReviewCall.next (s : SkillStore) (call : ReviewCall) (a : GitAnswer) :
    Option (SkillStore × ReviewCall) :=
  match call with
  | .create request =>
    match request.row a with
    | .error e => some (s, .returned (.error e))
    | .ok row =>
      match a.orFault (createReview s row) with
      | .error e => some (s, .returned (.error e))
      | .ok reviews => some ({ s with reviews := reviews }, .returned (.ok row))
  | .returned _ => none

def skillDefaultBranch : String := "main"

def normalizeBranchRef : String → String := normalizeRef

structure CreateRequest where
  principal : Principal
  authenticated : Bool := true
  input : SkillPullRequest
deriving DecidableEq

inductive CreateCall where
  | resolveSource (request : CreateRequest)
  | resolveTarget (request : CreateRequest) (item : SkillPullRequest)
  | insert (item : SkillPullRequest)
  | returned (result : Except HubError SkillPullRequest)
deriving DecidableEq

def CreateRequest.item (request : CreateRequest) : Except HubError SkillPullRequest :=
  match requirePrincipal request.authenticated with
  | .error e => .error e
  | .ok () =>
    if trimSpace request.input.skillName = "" ∨ trimSpace request.input.sourceRef = "" ∨
        trimSpace request.input.title = "" then
      .error ⟨.SKILL_INVALID_ARGUMENT, ""⟩
    else
      .ok { request.input with
        sourceRef := normalizeBranchRef request.input.sourceRef
        targetRef := "refs/heads/" ++ skillDefaultBranch }

/-- A ref that cannot be resolved is the caller's mistake. -/
def resolvedRef (s : SkillStore) (skill ref : String) (a : GitAnswer) :
    Except HubError String :=
  match a.orFault (resolveRef s.refs skill ref) with
  | .error _ => .error ⟨.SKILL_INVALID_ARGUMENT, ""⟩
  | .ok sha => if sha = "" then .error ⟨.SKILL_INVALID_ARGUMENT, ""⟩ else .ok sha

def CreateCall.next (s : SkillStore) (call : CreateCall) (a : GitAnswer) :
    Option (SkillStore × CreateCall) :=
  match call with
  | .resolveSource request =>
    match request.item with
    | .error e => some (s, .returned (.error e))
    | .ok item =>
      match resolvedRef s item.skillName item.sourceRef a with
      | .error e => some (s, .returned (.error e))
      | .ok sha => some (s, .resolveTarget request { item with sourceSHA := sha })
  | .resolveTarget request item =>
    match resolvedRef s item.skillName item.targetRef a with
    | .error e => some (s, .returned (.error e))
    | .ok sha =>
      some (s, .insert { item with
        targetSHA := sha
        authorID := request.principal.subjectID
        state := .OPEN })
  | .insert item =>
    let row : SkillPullRequest :=
      { item with
        id := if item.id = "" then a.uuid else item.id
        createTime := a.now
        updateTime := a.now
        mergedTime := none }
    match a.orFault (createPullRequest s.pulls row) with
    | .error e => some (s, .returned (.error e))
    | .ok rows => some ({ s with pulls := rows }, .returned (.ok row))
  | .returned _ => none

inductive PullCall where
  | merge (call : MergeCall)
  | close (call : CloseCall)
  | review (call : ReviewCall)
  | create (call : CreateCall)
  | push (skill name : String) (sha : Option String)
  | pushed
deriving DecidableEq

inductive PullCallRequest where
  | merge (request : MergeRequest)
  | close (skill id : String)
  | review (request : ReviewRequest)
  | create (request : CreateRequest)
  | push (skill name : String) (sha : Option String)
deriving DecidableEq

def PullCallRequest.start : PullCallRequest → PullCall
  | .merge request => .merge (.load request)
  | .close skill id => .close (.close skill id)
  | .review request => .review (.create request)
  | .create request => .create (.resolveSource request)
  | .push skill name sha => .push skill name sha

def PullCall.next (s : SkillStore) (call : PullCall) (a : GitAnswer) :
    Option (SkillStore × PullCall) :=
  match call with
  | .merge call => (call.next s a).map fun out => (out.1, .merge out.2)
  | .close call => (call.next s a).map fun out => (out.1, .close out.2)
  | .review call => (call.next s a).map fun out => (out.1, .review out.2)
  | .create call => (call.next s a).map fun out => (out.1, .create out.2)
  | .push skill name sha =>
    match a.fault with
    | some _ => some (s, .pushed)
    | none => some ({ s with refs := pushRef s.refs skill name sha }, .pushed)
  | .pushed => none

def PullCall.finished : PullCall → Bool
  | .merge (.returned _) => true
  | .close (.returned _) => true
  | .review (.returned _) => true
  | .create (.returned _) => true
  | .pushed => true
  | _ => false

def pullProgram : Threads.Program SkillStore PullCall PullCallRequest GitAnswer where
  start := PullCallRequest.start
  next := PullCall.next
  finished := PullCall.finished

end AisphereHub
