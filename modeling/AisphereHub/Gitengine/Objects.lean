import AisphereHub.Gitengine.Release

/-! Refs with the objects they point to. `Repository` knows a ref by the commit it
peels to; here a tag may also point to a blob, to a tree or to another tag, and
`git rev-parse` looks a name up in several places. -/
namespace AisphereHub

open GoStrings

variable {β : Type}

inductive GitObject (β : Type) where
  | commit (value : Commit β)
  | node (value : GitNode β)
  | tag (message : String) (target : GitObject β)

/-- The commit that `^{commit}` stands for. -/
def GitObject.peel : GitObject β → Option (Commit β)
  | .commit value => some value
  | .node _ => none
  | .tag _ target => target.peel

abbrev GitRefs (β : Type) := List (String × GitObject β)

def GitRefs.object (refs : GitRefs β) (name : String) : Option (GitObject β) :=
  (Keyed.lookup Prod.fst refs name).map Prod.snd

def GitRefs.withRef (refs : GitRefs β) (name : String) (object : Option (GitObject β)) : GitRefs β :=
  Keyed.remove Prod.fst refs name ++ (object.map fun value => (name, value)).toList

/-- What git puts around a name when it looks for the ref, in this order. -/
def refRules : List (String × String) :=
  [("", ""), ("refs/", ""), ("refs/tags/", ""), ("refs/heads/", ""), ("refs/remotes/", ""),
    ("refs/remotes/", "/HEAD")]

/-- The ref that `git rev-parse` takes a name for. -/
def GitRefs.resolve (refs : GitRefs β) (name : String) : Option (GitObject β) :=
  refRules.findSome? fun rule => refs.object (rule.1 ++ name ++ rule.2)

/-- `git rev-parse --verify NAME^{commit}` of a name that is no object name. -/
def GitRefs.commitAt (refs : GitRefs β) (name : String) : Option (Commit β) :=
  (refs.resolve name).bind GitObject.peel

def GitRefs.tagNames (refs : GitRefs β) : List String :=
  refs.filterMap fun ref =>
    if hasPrefix ref.1 "refs/tags/" then some (trimPrefix ref.1 "refs/tags/") else none

/-- The refs as the engine's commands on commits see them. -/
def GitRefs.repository (refs : GitRefs β) (name : String) : Repository β where
  name := name
  refs := refs.filterMap fun ref => ref.2.peel.map fun commit => ⟨ref.1, commit⟩

def GitRefs.Reaches (refs : GitRefs β) (commit : Commit β) : Prop :=
  ∃ name object, refs.object name = some object ∧ object.peel = some commit

/-- Git answers about these refs, and its commands on existing objects succeed. Of a name that
is no version nothing is said: git might read an operator in it. -/
structure ReadsGit (S : SemVer) (P : Plumbing β) (refs : GitRefs β) (A : TagAnswer) : Prop where
  opened : A.openFault = none
  listed : A.tagsFault = none
  commit : ∀ tag, normalizeReleaseVersion S tag ≠ none →
    A.commit ("refs/tags/" ++ trimSpace tag ++ "^\x7bcommit\x7d") =
      (refs.commitAt ("refs/tags/" ++ trimSpace tag)).map P.commitHash
  tree : ∀ commit, refs.Reaches commit →
    (A.treeSHA (trimSpace (P.commitHash commit))).isOk = true
  time : ∀ commit, refs.Reaches commit →
    ∃ raw, A.commitTime (trimSpace (P.commitHash commit)) = .ok raw ∧
      (A.parseTime (trimSpace raw)).isOk = true
  manifest : ∀ commit, refs.Reaches commit →
    (A.manifestSHA256 (trimSpace (P.commitHash commit) ++ ":SKILL.md")).isOk =
      (gitShowSkill P commit).isOk
  record : ∀ tag, (refs.object ("refs/tags/" ++ tag)).isSome = true →
    (A.tagRecord ("refs/tags/" ++ tag)).isOk = true

def ParsesRefs (S : SemVer) (refs : GitRefs β) (a : EngineAnswer β) : Prop :=
  ∀ tag, isReleaseTag S tag = true → ∀ space ∈ ["refs/heads/", "refs/tags/"],
    a.revParse (space ++ tag ++ "^\x7bcommit\x7d") = refs.commitAt (space ++ tag)

theorem mem_tagNames {refs : GitRefs β} :
    tag ∈ GitRefs.tagNames refs ↔ (GitRefs.object refs ("refs/tags/" ++ tag)).isSome = true := by
  unfold GitRefs.object GitRefs.tagNames
  rw [Option.isSome_map, Keyed.lookup, List.find?_isSome, List.mem_filterMap]
  constructor
  · intro listed
    obtain ⟨ref, member, named⟩ := listed
    split_ifs at named with isTag
    obtain ⟨rest, shape⟩ := hasPrefix_iff.mp isTag
    rw [shape, trimPrefix_append, Option.some.injEq] at named
    exact ⟨ref, member, by simp [shape, named]⟩
  · intro stored
    obtain ⟨ref, member, named⟩ := stored
    rw [decide_eq_true_eq] at named
    refine ⟨ref, member, ?_⟩
    rw [named, if_pos (hasPrefix_iff.mpr ⟨tag, rfl⟩), trimPrefix_append]

end AisphereHub
