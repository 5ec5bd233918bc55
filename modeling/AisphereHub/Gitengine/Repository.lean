import Mathlib.Algebra.Order.BigOperators.Group.List
import Mathlib.Algebra.Order.Ring.Nat
import AisphereHub.Gitengine.Metadata
import AisphereHub.Gitengine.Tree

/-! The bare repository of one skill. A ref holds the commit it points at; for an
annotated tag, the commit it peels to. -/
namespace AisphereHub

open GoStrings

structure Commit (β : Type) where
  tree : GitTree β
  parents : List String := []
  message : String := ""
  authorName : String := ""
  authorEmail : String := ""
  time : Nat := 0

structure Ref (β : Type) where
  name : String
  commit : Commit β

/-- `displayName` and `description` are the projection in `hub_skill_profiles` and
`repos`. -/
structure Repository (β : Type) where
  name : String
  refs : List (Ref β) := []
  displayName : String := ""
  description : String := ""

def zeroHash : String := "0000000000000000000000000000000000000000"

def isZero (hash : String) : Bool :=
  trimSpace hash == "" || trim (trimSpace hash) '0' == ""

def skillDefaultRef : String := "refs/heads/main"

/-- What the engine takes from go-git and the git command: the refusals of
`Tree.Encode`, object names, and how git records an identity and prints a commit;
`quote` is the verb `%q`. Object names and dates are printable, no commit holds its
own name, and git prints C strings. -/
structure Plumbing (β : Type) extends Content β where
  refuses : GitTree β → Option String
  nodeHash : GitNode β → String
  commitHash : Commit β → String
  ident : String → String
  subject : String → String
  date : Nat → String
  quote : String → String
  commitHash_nonzero : ∀ commit, isZero (commitHash commit) = false
  commitHash_fresh : ∀ commit, commitHash commit ∉ commit.parents
  node_printable : ∀ node, '\x00' ∉ (nodeHash node).toList ∧ '\x1e' ∉ (nodeHash node).toList
  commit_printable : ∀ commit,
    '\x00' ∉ (commitHash commit).toList ∧ '\x1e' ∉ (commitHash commit).toList
  date_printable : ∀ time, '\x00' ∉ (date time).toList ∧ '\x1e' ∉ (date time).toList
  ident_text : ∀ value, '\x00' ∉ (ident value).toList
  subject_text : ∀ message, '\x00' ∉ (subject message).toList

/-- The calls of the engine that fail for reasons of their own. -/
inductive EngineStep where
  | createRepository
  | open
  | plainOpen
  | showRef
  | mergeBase
  | sourceTree
  | commitTree
  | updateRef
  | symbolicRef
  | showFile
  | reopen
  | showAgain
  | updateProfile
  | updateRepos
  | revParse
  | log
deriving DecidableEq

/-- What the environment answers to one engine call: which of its steps fail, what
`git rev-parse` and `git merge-base` print, and the clock. -/
structure EngineAnswer (β : Type) where
  fault : EngineStep → Option String := fun _ => none
  revParse : String → Option (Commit β) := fun _ => none
  mergeBase : String := ""
  now : Nat := 0

variable {β : Type}

def EngineAnswer.check (a : EngineAnswer β) (step : EngineStep) (wrap : String → HubError) :
    Except HubError Unit :=
  match a.fault step with
  | some cause => .error (wrap cause)
  | none => .ok ()

def Repository.lookup (r : Repository β) (name : String) : Option (Commit β) :=
  (Keyed.lookup Ref.name r.refs name).map Ref.commit

def Repository.moveRef (r : Repository β) (name : String) (commit : Commit β) : Repository β :=
  { r with refs := Keyed.amend Ref.name r.refs name fun ref => { ref with commit := commit } }

theorem lookup_moveRef (r : Repository β) (name k : String) (commit : Commit β) :
    (r.moveRef name commit).lookup k =
      if k = name then (r.lookup name).map fun _ => commit else r.lookup k := by
  have keep : ∀ ref : Ref β, Ref.name { ref with commit := commit } = ref.name := fun _ => rfl
  have table : Keyed.lookup Ref.name (r.moveRef name commit).refs k =
      if k = name then (Keyed.lookup Ref.name r.refs name).map fun ref => { ref with commit := commit }
      else Keyed.lookup Ref.name r.refs k :=
    Keyed.lookup_amend keep r.refs k name
  unfold Repository.lookup
  rw [table]
  split_ifs with same
  · simp [Function.comp_def]
  · rfl

theorem lookup_congr {r r' : Repository β} (same : r'.refs = r.refs) (name : String) :
    r'.lookup name = r.lookup name := by
  unfold Repository.lookup
  rw [same]

/-- `git show COMMIT:SKILL.md`, trimmed. Of a directory git prints a listing. -/
def gitShowSkill (P : Plumbing β) (commit : Commit β) : Except String String :=
  match findEntryInSlice commit.tree "SKILL.md" with
  | some (.file .Submodule _) => .error "bad object"
  | some (.file _ blob) => .ok (trimSpace (P.text blob))
  | some (.dir entries) =>
    .ok (trimSpace ("tree " ++ P.commitHash commit ++ ":SKILL.md\n\n"
      ++ join (entries.map Prod.fst) '\n'))
  | none => .error "path 'SKILL.md' does not exist"

def readSkillMetadata (P : Plumbing β) (a : EngineAnswer β) (commit : Commit β) (name : String) :
    Except String (String × String) :=
  match a.fault .showFile with
  | some cause => .error cause
  | none =>
    match gitShowSkill P commit with
    | .error cause => .error cause
    | .ok content => parseSkillMetadata P.yaml name content

def shownMetadata (P : Plumbing β) (a : EngineAnswer β) (commit : Commit β) (name : String) :
    Except HubError (String × String) :=
  match a.check .showAgain fun cause => .plain ("gitengine: read SKILL.md: " ++ cause) with
  | .error e => .error e
  | .ok _ =>
    match gitShowSkill P commit with
    | .error cause => .error (.plain ("gitengine: read SKILL.md: " ++ cause))
    | .ok content =>
      match parseSkillMetadata P.yaml name content with
      | .error cause => .error (.plain ("gitengine: validate SKILL.md: " ++ cause))
      | .ok metadata => .ok metadata

/-- Two updates of the projection, one after the other. -/
def syncSkillMetadata (P : Plumbing β) (a : EngineAnswer β) (r : Repository β)
    (commit : Commit β) : Repository β × Except HubError Unit :=
  match shownMetadata P a commit r.name with
  | .error e => (r, .error e)
  | .ok (displayName, description) =>
    match a.fault .updateProfile with
    | some cause => (r, .error (.plain ("gitengine: update skill metadata projection: " ++ cause)))
    | none =>
      match a.fault .updateRepos with
      | some cause => ({ r with displayName := displayName },
          .error (.plain ("gitengine: update repository metadata projection: " ++ cause)))
      | none => ({ r with displayName := displayName, description := description }, .ok ())

/-- The head of the default branch has a root file `SKILL.md` whose metadata, as git
shows the file, names the repository. -/
def HeadValid (P : Plumbing β) (r : Repository β) : Prop :=
  ∃ commit mode blob, r.lookup skillDefaultRef = some commit ∧
    fileAt commit.tree ["SKILL.md"] = some (mode, blob) ∧ mode ≠ .Submodule ∧
    (parseSkillMetadata P.yaml r.name (trimSpace (P.text blob))).isOk = true

def yamlField (lines : List String) (key : String) : String :=
  match lines.find? (hasPrefix · (key ++ ": ")) with
  | some line => trimPrefix line (key ++ ": ")
  | none => ""

def plainYaml : Yaml := fun document =>
  let lines := split document '\n'
  .ok ⟨yamlField lines "name", yamlField lines "display_name", yamlField lines "title",
    yamlField lines "description"⟩

/-- A C string ends at its first null character. -/
def cString (s : String) : String :=
  String.ofList (s.toList.takeWhile (· ≠ '\x00'))

theorem cString_text (s : String) : '\x00' ∉ (cString s).toList := by
  rw [cString, String.toList_ofList]
  intro member
  simpa using List.mem_takeWhile_imp member

def longerName {β : Type} (commit : Commit β) : String :=
  String.ofList (List.replicate ((commit.parents.map String.length).sum + 1) 'c')

theorem longerName_nonzero (commit : Commit β) : isZero (longerName commit) = false := by
  generalize size : (commit.parents.map String.length).sum = n
  have kept : ∀ drop : Char → Bool, drop 'c' = false →
      (List.replicate (n + 1) 'c').dropWhile drop = List.replicate (n + 1) 'c' := by
    intro drop stays
    simp [List.replicate_succ, stays]
  have spaced : trimSpace (longerName commit) = longerName commit := by
    simp only [trimSpace, longerName, size, String.toList_ofList, kept isSpace (by decide),
      List.reverse_replicate]
  have zeros : trim (longerName commit) '0' = longerName commit := by
    simp only [trim, longerName, size, String.toList_ofList, List.rdropWhile,
      kept (· == '0') (by decide), List.reverse_replicate]
  have nonempty : longerName commit ≠ "" := by
    intro empty
    have length := congrArg String.length empty
    simp [longerName] at length
  simp [isZero, spaced, zeros, nonempty]

theorem longerName_fresh (commit : Commit β) : longerName commit ∉ commit.parents := by
  intro member
  have bound := List.le_sum_of_mem (List.mem_map_of_mem (f := String.length) member)
  simp only [longerName, String.length_ofList, List.length_replicate] at bound
  omega

def plainPlumbing : Plumbing String where
  text := id
  bytes := id
  len := String.utf8ByteSize
  yaml := plainYaml
  text_bytes _ := rfl
  refuses _ := none
  nodeHash _ := "b10b"
  commitHash := longerName
  ident := cString
  subject message := cString ((split message '\n').headD "")
  date _ := "2026-07-24T10:00:00Z"
  quote value := "\"" ++ value ++ "\""
  commitHash_nonzero := longerName_nonzero
  commitHash_fresh := longerName_fresh
  node_printable _ := by decide
  commit_printable commit := by simp [longerName, List.mem_replicate]
  date_printable _ := by decide
  ident_text := cString_text
  subject_text _ := cString_text _

def weatherSkill : String := "---\nname: weather\ndescription: Forecasts\n---\n"

def weatherTree : GitTree String :=
  [("SKILL.md", .file .Regular weatherSkill), ("bin", .dir [("run", .file .Executable "curl")]),
    ("docs", .dir [("usage.md", .file .Regular "Ask.")])]

def weatherRepository : Repository String :=
  { name := "weather", refs := [⟨skillDefaultRef, { tree := weatherTree }⟩] }

end AisphereHub
