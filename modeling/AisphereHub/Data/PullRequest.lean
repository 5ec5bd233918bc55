import AisphereHub.Biz.Error
import AisphereHub.Foundation.GoStrings
import AisphereHub.Foundation.Keyed

/-! Pull requests, their reviews and the git refs they are about. A ref is a name
in a skill's bare repository; the objects behind the hashes are left out, and so
are the columns of a skill's profile that no merge writes. -/
namespace AisphereHub

open GoStrings (trimSpace hasPrefix)

inductive PullRequestState where
  | OPEN
  | CLOSED
  | MERGED
deriving DecidableEq

inductive ReviewVerdict where
  | APPROVE
  | REQUEST_CHANGES
deriving DecidableEq

def ReviewVerdict.ofString : String → Option ReviewVerdict
  | "approve" => some .APPROVE
  | "request_changes" => some .REQUEST_CHANGES
  | _ => none

structure SkillPullRequest where
  id : String
  skillName : String
  sourceRef : String
  targetRef : String
  sourceSHA : String
  targetSHA : String
  title : String
  description : String := ""
  state : PullRequestState := .OPEN
  authorID : String := ""
  mergedBy : String := ""
  mergedSHA : String := ""
  createTime : Nat := 0
  updateTime : Nat := 0
  mergedTime : Option Nat := none
deriving DecidableEq

structure SkillPullRequestReview where
  id : String
  pullRequestID : String
  reviewerID : String
  verdict : ReviewVerdict
  comment : String := ""
  createTime : Nat := 0
deriving DecidableEq

structure GitRef where
  skill : String
  name : String
  sha : String
deriving DecidableEq

/-- The query cache of `SKILL.md` in `repos` and `hub_skill_profiles`. -/
structure SkillProfile where
  name : String
  displayName : String
  description : String
deriving DecidableEq

structure SkillStore where
  refs : List GitRef := []
  pulls : List SkillPullRequest := []
  reviews : List SkillPullRequestReview := []
  profiles : List SkillProfile := []
deriving DecidableEq

/-- What the environment answers to one atomic step: a failure of the database
or of git, the merge base of two commits, what a commit's `SKILL.md` parses to,
the clock and a fresh UUID. A failing step has no effect. -/
structure GitAnswer where
  fault : Option String := none
  mergeBase : String := ""
  metadata : Except String (String × String) := .ok ("", "")
  now : Nat := 0
  uuid : String := ""
deriving DecidableEq

def GitAnswer.orFault {α : Type} (answer : GitAnswer) (result : Except HubError α) :
    Except HubError α :=
  match answer.fault with
  | some cause => .error (.plain cause)
  | none => result

def normalizeRef (ref : String) : String :=
  if hasPrefix (trimSpace ref) "refs/" then trimSpace ref else "refs/heads/" ++ trimSpace ref

def GitRef.key (r : GitRef) : String × String := (r.skill, r.name)

def showRefVerify (refs : List GitRef) (skill name : String) : Except HubError String :=
  match Keyed.lookup GitRef.key refs (skill, name) with
  | some r => .ok r.sha
  | none => .error (.plain "reference does not exist")

def resolveRef (refs : List GitRef) (skill ref : String) : Except HubError String :=
  showRefVerify refs skill (normalizeRef ref)

/-- `git update-ref NAME NEW OLD`: the ref moves only from the old value. -/
def updateRef (refs : List GitRef) (skill name newSHA oldSHA : String) :
    Except HubError (List GitRef) :=
  match Keyed.update GitRef.key refs (skill, name) (fun r => r.sha == oldSHA)
      (fun r => { r with sha := newSHA }) with
  | some (table, _) => .ok table
  | none => .error (.plain "gitengine: update target ref")

/-- A push: the ref is created, moved or deleted. -/
def pushRef (refs : List GitRef) (skill name : String) (sha : Option String) : List GitRef :=
  Keyed.remove GitRef.key refs (skill, name) ++ (sha.map fun value => ⟨skill, name, value⟩).toList

def getPullRequest (rows : List SkillPullRequest) (skillName id : String) :
    Except HubError SkillPullRequest :=
  match Keyed.lookup SkillPullRequest.id rows id with
  | none => .error ⟨.PULL_REQUEST_NOT_FOUND, ""⟩
  | some row =>
    if row.skillName = skillName then .ok row else .error ⟨.PULL_REQUEST_NOT_FOUND, ""⟩

def createPullRequest (rows : List SkillPullRequest) (row : SkillPullRequest) :
    Except HubError (List SkillPullRequest) :=
  if (Keyed.lookup SkillPullRequest.id rows row.id).isSome then
    .error (.plain "duplicate key")
  else .ok (rows ++ [row])

def listReviews (rows : List SkillPullRequestReview) (pullRequestID : String) :
    List SkillPullRequestReview :=
  rows.filter fun r => r.pullRequestID == pullRequestID

/-- `uq_skill_pr_review_reviewer` and the primary key. -/
def reviewCollides (row other : SkillPullRequestReview) : Bool :=
  other.id == row.id ||
    (other.pullRequestID == row.pullRequestID && other.reviewerID == row.reviewerID)

/-- The insert under the unique indexes and the foreign key to the pull requests. -/
def createReview (s : SkillStore) (row : SkillPullRequestReview) :
    Except HubError (List SkillPullRequestReview) :=
  if s.reviews.any (reviewCollides row) then .error ⟨.PULL_REQUEST_REVIEW_EXISTS, ""⟩
  else if (Keyed.lookup SkillPullRequest.id s.pulls row.pullRequestID).isNone then
    .error (.plain "foreign key violation")
  else .ok (s.reviews ++ [row])

def SkillPullRequest.closed (row : SkillPullRequest) (now : Nat) : SkillPullRequest :=
  { row with state := .CLOSED, updateTime := now }

def closePullRequest (rows : List SkillPullRequest) (skillName id : String) (now : Nat) :
    Option (List SkillPullRequest × SkillPullRequest) :=
  Keyed.update SkillPullRequest.id rows id
    (fun row => row.skillName == skillName && row.state == .OPEN) (fun row => row.closed now)

def SkillPullRequest.recordMerge (row : SkillPullRequest) (mergedSHA mergedBy : String)
    (now : Nat) : SkillPullRequest :=
  { row with
    state := .MERGED
    mergedSHA := mergedSHA
    mergedBy := mergedBy
    mergedTime := some now
    updateTime := now }

variable {row : SkillPullRequest} {rows table : List SkillPullRequest}

/-- The transaction of `MergePullRequest`: the locked row is checked, then
updated under the state and the exact target hash. -/
def mergePullRequest (rows : List SkillPullRequest)
    (skillName id expectedTargetSHA mergedSHA mergedBy : String) (now : Nat) :
    Except HubError (List SkillPullRequest × SkillPullRequest) :=
  match getPullRequest rows skillName id with
  | .error e => .error e
  | .ok row =>
    if row.state ≠ .OPEN then .error ⟨.PULL_REQUEST_NOT_OPEN, ""⟩
    else if trimSpace row.targetSHA ≠ trimSpace expectedTargetSHA then
      .error ⟨.PULL_REQUEST_STALE, ""⟩
    else
      match Keyed.update SkillPullRequest.id rows id
          (fun row => row.state == .OPEN && row.targetSHA == expectedTargetSHA)
          (fun row => row.recordMerge mergedSHA mergedBy now) with
      | none => .error ⟨.PULL_REQUEST_STALE, ""⟩
      | some out => .ok out

theorem gitFault_eq_ok {answer : GitAnswer} {a : α} :
    answer.orFault result = .ok a ↔ answer.fault = none ∧ result = .ok a := by
  unfold GitAnswer.orFault
  cases answer.fault <;> simp

variable {skillName id : String}

theorem getPullRequest_eq_ok : getPullRequest rows skillName id = .ok row ↔
      Keyed.lookup SkillPullRequest.id rows id = some row ∧ row.skillName = skillName := by
  unfold getPullRequest
  cases found : Keyed.lookup SkillPullRequest.id rows id with
  | none => simp
  | some other =>
    by_cases same : other.skillName = skillName
    · simp only [same, if_true, Except.ok.injEq, Option.some.injEq]
      constructor
      · rintro rfl
        exact ⟨rfl, same⟩
      · exact fun both => both.1
    · simp only [same, if_false, reduceCtorEq, Option.some.injEq, false_iff]
      rintro ⟨rfl, named⟩
      exact same named

theorem updateRef_eq_ok {table} :
    updateRef refs skill name newSHA oldSHA = .ok table ↔
      showRefVerify refs skill name = .ok oldSHA ∧
        table = Keyed.amend GitRef.key refs (skill, name) (fun r => { r with sha := newSHA }) := by
  unfold updateRef showRefVerify Keyed.update
  cases Keyed.lookup GitRef.key refs (skill, name) with
  | none => simp
  | some r =>
    by_cases same : r.sha = oldSHA
    · simp [same, eq_comm]
    · simp [same]

theorem createPullRequest_eq_ok (created : createPullRequest rows row = .ok table) :
    table = rows ++ [row] := by
  unfold createPullRequest at created
  split_ifs at created
  cases created
  rfl

theorem createReview_eq_ok {row table} (created : createReview s row = .ok table) :
    table = s.reviews ++ [row] := by
  unfold createReview at created
  split_ifs at created
  cases created
  rfl

end AisphereHub
