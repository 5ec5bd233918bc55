import AisphereHub.Biz.SkillRelease
import AisphereHub.Gitengine.Hook
import AisphereHub.Gitengine.Versioning

/-! Releases are tags. `CreateRelease` makes an annotated one, `releaseForTag` reads
one back, and `ListReleases` reads all tags and sorts them by version. -/
namespace AisphereHub

open GoStrings

variable {β : Type}

/-- What git prints about the tags and commits of a repository, and `time.Parse`. -/
structure TagAnswer where
  openFault : Option String := none
  tagsFault : Option String := none
  commit : String → Option String
  treeSHA : String → Except String String
  commitTime : String → Except String String
  manifestSHA256 : String → Except String String
  tagRecord : String → Except String String
  parseTime : String → Except String Nat

def parseReleaseMessage (message : String) : String × String × String :=
  let start : List String × String × String := ([], "", "")
  let (noteLines, sourceRef, publisherID) :=
    (split (trimSpace message) '\n').foldl (fun found line =>
      if hasPrefix line "AISphere-Source-Ref:" then
        (found.1, trimSpace (trimPrefix line "AISphere-Source-Ref:"), found.2.2)
      else if hasPrefix line "AISphere-Publisher-ID:" then
        (found.1, found.2.1, trimSpace (trimPrefix line "AISphere-Publisher-ID:"))
      else (found.1 ++ [line], found.2)) start
  (trimSpace (join noteLines '\n'), sourceRef, publisherID)

/-- `strings.Trim(email, "<>")`. -/
def trimAngles (email : String) : String :=
  let angle := fun c => c == '<' || c == '>'
  String.ofList ((email.toList.dropWhile angle).rdropWhile angle)

/-- The fields of an annotated tag; a lightweight tag has none. -/
def SkillRelease.annotate (release : SkillRelease) (A : TagAnswer) (raw : String) : SkillRelease :=
  match split raw '\x00' with
  | kind :: name :: email :: date :: first :: rest =>
    if trimSpace kind = "tag" then
      let (notes, sourceRef, publisherID) := parseReleaseMessage (join (first :: rest) '\x00')
      { release with
        publisherName := trimSpace name
        publisherEmail := trimAngles (trimSpace email)
        createTime :=
          match A.parseTime (trimSpace date) with
          | .ok publishedAt => publishedAt
          | .error _ => release.createTime
        releaseNotes := notes
        sourceRef := if trimSpace sourceRef = "" then "refs/heads/main" else sourceRef
        publisherID := publisherID }
    else release
  | _ => release

/-- A tag that is no version is returned by name only. -/
def releaseForTag (S : SemVer) (A : TagAnswer) (tag : String) : Except HubError SkillRelease :=
  let tag := trimSpace tag
  if tag = "" then .error ⟨.SKILL_INVALID_ARGUMENT, ""⟩
  else if normalizeReleaseVersion S tag = none then .ok { tag := tag }
  else
    match A.commit ("refs/tags/" ++ tag ++ "^\x7bcommit\x7d") with
    | none => .error ⟨.SKILL_RELEASE_NOT_FOUND, ""⟩
    | some sha =>
      let commitSHA := trimSpace sha
      match A.treeSHA commitSHA with
      | .error cause => .error (.plain ("gitengine: read release tree: " ++ cause))
      | .ok treeSHA =>
        match A.commitTime commitSHA with
        | .error cause => .error (.plain ("gitengine: read release commit time: " ++ cause))
        | .ok raw =>
          match A.parseTime (trimSpace raw) with
          | .error cause =>
            .error (.plain ("gitengine: parse release commit time: " ++ cause))
          | .ok committedAt =>
            match A.manifestSHA256 (commitSHA ++ ":SKILL.md") with
            | .error cause =>
              .error (.plain ("gitengine: read release manifest: " ++ cause))
            | .ok manifestHash =>
              match A.tagRecord ("refs/tags/" ++ tag) with
              | .error cause => .error (.plain ("gitengine: read release tag: " ++ cause))
              | .ok raw =>
                let release : SkillRelease :=
                  { tag := tag
                    commitSHA := commitSHA
                    treeSHA := trimSpace treeSHA
                    manifestSHA256 := manifestHash
                    createTime := committedAt }
                .ok (release.annotate A raw)

def getRelease (S : SemVer) (A : TagAnswer) (version : String) : Except HubError SkillRelease :=
  match A.openFault with
  | some cause => .error (.plain cause)
  | none =>
    match normalizeReleaseVersion S version with
    | none => .error ⟨.SKILL_INVALID_ARGUMENT, ""⟩
    | some tag => releaseForTag S A tag

def compareStrings (left right : String) : Int :=
  if left = right then 0 else if left < right then -1 else 1

/-- Two versions compare as versions, anything else as text. -/
def compareReleaseTags (S : SemVer) (left right : String) : Int :=
  match S.parseTag left, S.parseTag right with
  | some l, some r => S.compare l r
  | _, _ => compareStrings left right

def releaseBefore (S : SemVer) (x y : SkillRelease) : Bool :=
  decide (0 < compareReleaseTags S x.tag y.tag)

def releasesForTags (S : SemVer) (A : TagAnswer) : List String → Except HubError (List SkillRelease)
  | [] => .ok []
  | tag :: rest =>
    match releaseForTag S A tag with
    | .error e => .error e
    | .ok release =>
      match releasesForTags S A rest with
      | .error e => .error e
      | .ok releases => .ok (release :: releases)

/-- `tags` is the enumeration of `repo.Tags()`. -/
def listReleases (S : SemVer) (sort : GoSort.StableSort SkillRelease) (A : TagAnswer)
    (tags : List String) : Except HubError (List SkillRelease) :=
  match A.openFault, A.tagsFault with
  | some cause, _ => .error (.plain cause)
  | none, some cause => .error (.plain cause)
  | none, none =>
    match releasesForTags S A tags with
    | .error e => .error e
    | .ok out => .ok (sort.run (releaseBefore S) out)

def CreateSkillRelease.committerName (request : CreateSkillRelease) : String :=
  if trimSpace request.actorName ≠ "" then trimSpace request.actorName
  else if trimSpace request.actorID ≠ "" then trimSpace request.actorID
  else "AISphere Publisher"

def CreateSkillRelease.committerEmail (request : CreateSkillRelease) : String :=
  if trimSpace request.actorEmail = "" then "noreply@aisphere.io" else trimSpace request.actorEmail

def CreateSkillRelease.tagMessage (request : CreateSkillRelease) (tag : String) : String :=
  let notes :=
    if trimSpace request.releaseNotes = "" then "Release " ++ tag else trimSpace request.releaseNotes
  notes ++ "\n\nAISphere-Source-Ref: " ++ trimSpace request.sourceRef ++
    "\nAISphere-Publisher-ID: " ++ trimSpace request.actorID ++ "\n"

/-- Everything up to `git tag`: the tag and the commit it will peel to. A failing
`git show-ref` counts as no tag; `git tag` itself refuses one that exists. -/
def releasePlan (S : SemVer) (P : Plumbing β) (a : EngineAnswer β) (r : Repository β)
    (request : CreateSkillRelease) : Except HubError (String × Commit β) :=
  match a.check .open .plain, normalizeReleaseVersion S request.version with
  | .error e, _ => .error e
  | .ok _, none => .error ⟨.SKILL_INVALID_ARGUMENT, ""⟩
  | .ok _, some tag =>
    let commitSHA := trimSpace request.expectedCommitSHA
    if a.fault .showRef = none ∧ (r.lookup ("refs/tags/" ++ tag)).isSome = true then
      .error ⟨.SKILL_RELEASE_ALREADY_EXISTS, ""⟩
    else if commitSHA = "" then .error ⟨.SKILL_INVALID_ARGUMENT, ""⟩
    else
      match a.revParse commitSHA with
      | none => .error (.plain "gitengine: validate release SKILL.md: invalid object name")
      | some commit =>
        match readSkillMetadata P a commit r.name with
        | .error cause => .error (.plain ("gitengine: validate release SKILL.md: " ++ cause))
        | .ok _ =>
          if execRefuses (request.tagMessage tag) request.committerName
              request.committerEmail then
            .error (.plain "gitengine: create annotated release tag: invalid argument")
          else
            match a.check .commitTree fun cause =>
                .plain ("gitengine: create annotated release tag: " ++ cause) with
            | .error e => .error e
            | .ok _ =>
              if (r.lookup ("refs/tags/" ++ tag)).isSome then
                .error ⟨.SKILL_RELEASE_ALREADY_EXISTS, ""⟩
              else .ok (tag, commit)

/-- `A` answers after the tag has been made. -/
def createRelease (S : SemVer) (P : Plumbing β) (a : EngineAnswer β) (A : TagAnswer)
    (r : Repository β) (request : CreateSkillRelease) :
    Repository β × Except HubError SkillRelease :=
  match releasePlan S P a r request with
  | .error e => (r, .error e)
  | .ok (tag, commit) => (r.setRef ("refs/tags/" ++ tag) (some commit), getRelease S A tag)

theorem releasePlan_eq_ok {commit : Commit β}
    (planned : releasePlan S P a r request = .ok (tag, commit)) :
    normalizeReleaseVersion S request.version = some tag ∧
      ∃ metadata, readSkillMetadata P a commit r.name = .ok metadata := by
  unfold releasePlan at planned
  split at planned
  · cases planned
  · cases planned
  rename_i version
  dsimp only at planned
  split at planned
  · cases planned
  split at planned
  · cases planned
  split at planned
  · cases planned
  split at planned
  · cases planned
  rename_i metadata read
  split at planned
  · cases planned
  split at planned
  · cases planned
  split at planned
  · cases planned
  cases planned
  exact ⟨version, metadata, read⟩

def oneCommit (tags : List String) : TagAnswer where
  commit ref := if ref ∈ tags.map fun tag => "refs/tags/" ++ tag ++ "^\x7bcommit\x7d"
    then some "c0ffee" else none
  treeSHA _ := .ok "7ree"
  commitTime _ := .ok "2026-07-24T10:00:00Z"
  manifestSHA256 _ := .ok "5ha"
  tagRecord _ := .ok "commit"
  parseTime _ := .ok 0

end AisphereHub
