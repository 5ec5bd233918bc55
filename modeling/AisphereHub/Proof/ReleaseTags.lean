import AisphereHub.Gitengine.Objects
import AisphereHub.Foundation.Transition
import AisphereHub.Proof.ReleaseOrder

/-! The version list while releases are created and tags are pushed, and what a version
string means beside a branch of that name. -/
namespace AisphereHub

open GoStrings GoSort Transition

variable {β : Type} {S : SemVer} {P : Plumbing β} {A : TagAnswer} {refs : GitRefs β} {tag : String}
  {commit : Commit β} {object : Option (GitObject β)}

def SemVer.Reads (S : SemVer) : Prop := ∀ version, S.strictNewVersion (S.text version) = some version

theorem normalizeReleaseVersion_canonical (reads : S.Reads)
    (normal : normalizeReleaseVersion S version = some tag) : isReleaseTag S tag = true := by
  obtain ⟨parsed, _, rfl⟩ := Option.map_eq_some_iff.mp normal
  have solid : trimSpace ("v" ++ S.text parsed) = "v" ++ S.text parsed := by
    apply trimSpace_of_trimmed
    constructor
    · intro c first
      obtain rfl : c = 'v' := by simpa using first.symm
      decide
    · intro c last
      have member := List.mem_of_getLast? last
      rw [String.toList_append, List.mem_append] at member
      rcases member with letter | digit
      · obtain rfl : c = 'v' := by simpa using letter
        decide
      · exact S.text_solid parsed c digit
  simp [isReleaseTag, normalizeReleaseVersion, SemVer.parseTag, solid, trimPrefix_append,
    reads parsed]

section Listing

def showsSkill (P : Plumbing β) (refs : GitRefs β) (name : String) : Bool :=
  ((GitRefs.object refs name).bind GitObject.peel).any fun commit => (gitShowSkill P commit).isOk

/-- A tag that the list can read: one that is no version, or one whose trimmed name is a tag
of a commit with a `SKILL.md`. -/
def readableTag (S : SemVer) (P : Plumbing β) (refs : GitRefs β) (tag : String) : Bool :=
  trimSpace tag ≠ "" &&
    (normalizeReleaseVersion S tag = none || showsSkill P refs ("refs/tags/" ++ trimSpace tag))

theorem showsSkill_iff : showsSkill P refs name = true ↔
    ∃ object commit, GitRefs.object refs name = some object ∧ object.peel = some commit ∧
      (gitShowSkill P commit).isOk = true := by
  unfold showsSkill
  cases found : GitRefs.object refs name with
  | none => simp
  | some object => cases peels : object.peel <;> simp [peels]

theorem readableTag_iff : readableTag S P refs tag = true ↔
    trimSpace tag ≠ "" ∧ (normalizeReleaseVersion S tag ≠ none →
      showsSkill P refs ("refs/tags/" ++ trimSpace tag) = true) := by
  by_cases version : normalizeReleaseVersion S tag = none <;> simp [readableTag, version]

theorem releaseForTag_version (reads : ReadsGit S P refs A) {object}
    (named : trimSpace tag ≠ "") (version : normalizeReleaseVersion S tag ≠ none)
    (found : GitRefs.object refs ("refs/tags/" ++ trimSpace tag) = some object)
    (peels : object.peel = some commit) (shows : (gitShowSkill P commit).isOk = true) :
    ∃ release, releaseForTag S A tag = .ok release ∧ release.tag = trimSpace tag ∧
      release.commitSHA = trimSpace (P.commitHash commit) := by
  have reached : GitRefs.Reaches refs commit := ⟨_, object, found, peels⟩
  have resolved : A.commit ("refs/tags/" ++ trimSpace tag ++ "^\x7bcommit\x7d") =
      some (P.commitHash commit) := by
    rw [reads.commit tag version]
    simp [GitRefs.commitAt, GitRefs.resolve, refRules, found, peels]
  obtain ⟨tree, treeRead⟩ := exists_of_isOk (reads.tree commit reached)
  obtain ⟨raw, timeRead, parses⟩ := reads.time commit reached
  obtain ⟨time, timeParsed⟩ := exists_of_isOk parses
  have manifest := reads.manifest commit reached
  rw [shows] at manifest
  obtain ⟨hash, manifestRead⟩ := exists_of_isOk manifest
  have stored : (GitRefs.object refs ("refs/tags/" ++ trimSpace tag)).isSome = true := by
    rw [found]
    rfl
  obtain ⟨record, recordRead⟩ := exists_of_isOk (reads.record (trimSpace tag) stored)
  rw [← normalizeReleaseVersion_trimSpace] at version
  refine ⟨SkillRelease.annotate
    { tag := trimSpace tag
      commitSHA := trimSpace (P.commitHash commit)
      treeSHA := trimSpace tree
      manifestSHA256 := hash
      createTime := time } A record, ?_, annotate_frame _ A record⟩
  simp only [releaseForTag, if_neg named, if_neg version, resolved, treeRead, timeRead, timeParsed,
    manifestRead, recordRead]

theorem releaseForTag_readable (reads : ReadsGit S P refs A)
    (readable : readableTag S P refs tag = true) : (releaseForTag S A tag).isOk = true := by
  obtain ⟨named, version⟩ := readableTag_iff.mp readable
  by_cases text : normalizeReleaseVersion S tag = none
  · have plain : normalizeReleaseVersion S (trimSpace tag) = none := by
      rw [normalizeReleaseVersion_trimSpace, text]
    simp only [releaseForTag, if_neg named, if_pos plain]
    rfl
  · obtain ⟨object, commit, found, peels, shows⟩ := showsSkill_iff.mp (version text)
    obtain ⟨release, read, _⟩ := releaseForTag_version reads named text found peels shows
    rw [read]
    rfl

theorem mem_releasesForTags
    (done : releasesForTags S A tags = .ok out) (member : tag ∈ tags)
    (read : releaseForTag S A tag = .ok release) : release ∈ out := by
  induction tags generalizing out with
  | nil => cases member
  | cons first rest ih =>
    simp only [releasesForTags] at done
    split at done
    · cases done
    rename_i head readHead
    split at done
    · cases done
    rename_i tail readTail
    cases done
    rcases List.mem_cons.mp member with same | later
    · rw [← same, read] at readHead
      cases readHead
      exact List.mem_cons_self
    · exact List.mem_cons_of_mem head (ih readTail later)

/-- The refs of a repository and the releases that `CreateRelease` has made in it: their tags
and the object names of their commits. -/
structure TagStore (β : Type) where
  name : String
  refs : GitRefs β := []
  created : List (String × String) := []

/-- A release, or a pushed tag: what it is to point to, or its deletion. -/
inductive TagStep (β : Type) where
  | release (a : EngineAnswer β) (request : CreateSkillRelease)
  | push (services : HookServices) (env : HookEnv) (tag : String) (object : Option (GitObject β))

def pushedName (hash : GitObject β → String) (object : Option (GitObject β)) : String :=
  (object.map hash).getD zeroHash

def hookAccepts (hash : GitObject β → String) (services : HookServices) (env : HookEnv)
    (s : TagStore β) (tag : String) (object : Option (GitObject β)) : Bool :=
  (runHook services { env with repoName := s.name, gitDefaultBranch := "main" }
    ["update", "refs/tags/" ++ tag, pushedName hash (GitRefs.object s.refs ("refs/tags/" ++ tag)),
      pushedName hash object]).1 = 0

/-- `git tag` refuses a tag that exists, whatever it points to. -/
def tagStep (S : SemVer) (P : Plumbing β) (hash : GitObject β → String) (s : TagStore β) :
    TagStep β → Option (TagStore β)
  | .release a request =>
    match releasePlan S P a (GitRefs.repository s.refs s.name) request with
    | .error _ => some s
    | .ok (tag, commit) =>
      if (GitRefs.object s.refs ("refs/tags/" ++ tag)).isSome then some s
      else some { s with
        refs := GitRefs.withRef s.refs ("refs/tags/" ++ tag)
          (some (.tag (request.tagMessage tag) (.commit commit)))
        created := s.created ++ [(tag, P.commitHash commit)] }
  | .push services env tag object =>
    if hookAccepts hash services env s tag object then
      some { s with refs := GitRefs.withRef s.refs ("refs/tags/" ++ tag) object }
    else none

/-- However git enumerates the tags and the sort orders them, the list is answered and holds
every release that was created. -/
def ListsReleases (S : SemVer) (P : Plumbing β) (s : TagStore β) : Prop :=
  ∀ (A : TagAnswer) (sort : StableSort SkillRelease) (enumeration : List String),
    ReadsGit S P s.refs A → enumeration.Perm (GitRefs.tagNames s.refs) →
    ∃ out, listReleases S sort A enumeration = .ok out ∧
      ∀ made ∈ s.created, ∃ release ∈ out, getRelease S A made.1 = .ok release ∧
        release.tag = made.1 ∧ release.commitSHA = trimSpace made.2

def keepsRelease (P : Plumbing β) (refs : GitRefs β) (made : String × String) : Bool :=
  ((GitRefs.object refs ("refs/tags/" ++ made.1)).bind GitObject.peel).any fun commit =>
    P.commitHash commit = made.2

/-- What a pushed tag must observe. A version is pushed for a commit that shows a `SKILL.md`,
under its own name or under a padding of the name of such a tag; a created release keeps its
commit; and a tag is deleted only if it is no created release and no padded tag is read
through it. -/
def harmlessTag (S : SemVer) (P : Plumbing β) (s : TagStore β) : TagStep β → Bool
  | .release _ _ => true
  | .push _ _ tag object =>
    let refs := GitRefs.withRef s.refs ("refs/tags/" ++ tag) object
    (object.isNone || readableTag S P refs tag) &&
      (s.created.all fun made => made.1 ≠ tag || keepsRelease P refs made) &&
      (object.isSome || normalizeReleaseVersion S tag = none ||
        (GitRefs.tagNames s.refs).all fun other => other = tag || trimSpace other ≠ tag)

structure TagsGood (S : SemVer) (P : Plumbing β) (s : TagStore β) : Prop where
  readable : ∀ tag ∈ GitRefs.tagNames s.refs, readableTag S P s.refs tag = true
  kept : ∀ made ∈ s.created, isReleaseTag S made.1 = true ∧ keepsRelease P s.refs made = true

variable {s t : TagStore β} {hash : GitObject β → String}

theorem keepsRelease_iff : keepsRelease P refs made = true ↔
    ∃ object commit, GitRefs.object refs ("refs/tags/" ++ made.1) = some object ∧
      object.peel = some commit ∧ P.commitHash commit = made.2 := by
  unfold keepsRelease
  cases found : GitRefs.object refs ("refs/tags/" ++ made.1) with
  | none => simp
  | some object => cases peels : object.peel <;> simp [peels]

theorem listsReleases_of_good (good : TagsGood S P s) : ListsReleases S P s := by
  intro A sort enumeration reads same
  have readable : ∀ tag ∈ enumeration, (releaseForTag S A tag).isOk = true := by
    intro tag member
    exact releaseForTag_readable reads (good.readable tag (same.mem_iff.mp member))
  obtain ⟨out, done, _⟩ := releasesForTags_eq_ok readable
  refine ⟨sort.run (releaseBefore S) out, by simp [listReleases, reads.opened, reads.listed, done], ?_⟩
  intro made member
  obtain ⟨canonical, keeps⟩ := good.kept made member
  obtain ⟨object, commit, found, peels, sha⟩ := keepsRelease_iff.mp keeps
  have trimmed := trimSpace_of_isReleaseTag canonical
  have normal : normalizeReleaseVersion S made.1 = some made.1 := beq_iff_eq.mp canonical
  have listed : made.1 ∈ GitRefs.tagNames s.refs := mem_tagNames.mpr (by simp [found])
  obtain ⟨named, shows⟩ := readableTag_iff.mp (good.readable made.1 listed)
  have shown : (gitShowSkill P commit).isOk = true := by
    have shows := shows (by simp [normal])
    rw [trimmed, showsSkill, found, Option.bind_some, peels] at shows
    exact shows
  obtain ⟨release, read, tag, commitSHA⟩ := releaseForTag_version (S := S) reads named
    (by simp [normal]) (trimmed.symm ▸ found) peels shown
  refine ⟨release, ?_, ?_, tag.trans trimmed, sha ▸ commitSHA⟩
  · exact (sort.perm _ out).mem_iff.mpr
      (mem_releasesForTags done (same.mem_iff.mpr listed) read)
  · simp [getRelease, reads.opened, normal, read]

theorem tagRef_inj : "refs/tags/" ++ tag = "refs/tags/" ++ other ↔ tag = other := by
  constructor
  · intro same
    have parts := congrArg (trimPrefix · "refs/tags/") same
    simpa [trimPrefix_append] using parts
  · exact congrArg _

theorem object_tag_withRef (refs : GitRefs β) (tag other : String) (object : Option (GitObject β)) :
    GitRefs.object (GitRefs.withRef refs ("refs/tags/" ++ tag) object) ("refs/tags/" ++ other) =
      if other = tag then object else GitRefs.object refs ("refs/tags/" ++ other) := by
  rw [GitRefs.object, GitRefs.withRef, Keyed.lookup_reset refs (by simp)]
  simp only [tagRef_inj]
  split_ifs
  · cases object <;> rfl
  · rfl

/-- A tag that was readable stays so if the written tag is not the one it is read through, or
is itself readable. -/
theorem readable_withRef (before : readableTag S P refs other = true)
    (through : trimSpace other = tag → normalizeReleaseVersion S tag ≠ none →
      readableTag S P (GitRefs.withRef refs ("refs/tags/" ++ tag) object) tag = true) :
    readableTag S P (GitRefs.withRef refs ("refs/tags/" ++ tag) object) other = true := by
  obtain ⟨named, shows⟩ := readableTag_iff.mp before
  refine readableTag_iff.mpr ⟨named, ?_⟩
  intro version
  by_cases same : trimSpace other = tag
  · have trimmed : trimSpace tag = tag := by rw [← same, trimSpace_trimSpace]
    have isVersion : normalizeReleaseVersion S tag ≠ none := by
      rw [← same, normalizeReleaseVersion_trimSpace]
      exact version
    have shown := (readableTag_iff.mp (through same isVersion)).2 isVersion
    rw [trimmed] at shown
    rw [same]
    exact shown
  · rw [showsSkill, object_tag_withRef, if_neg same]
    exact shows version

theorem tagsGood_withRef (tag : String) (object : Option (GitObject β)) (good : TagsGood S P s)
    (readable : object ≠ none →
      readableTag S P (GitRefs.withRef s.refs ("refs/tags/" ++ tag) object) tag = true)
    (kept : ∀ made ∈ s.created, made.1 = tag →
      keepsRelease P (GitRefs.withRef s.refs ("refs/tags/" ++ tag) object) made = true)
    (unread : object = none → normalizeReleaseVersion S tag ≠ none →
      ∀ other ∈ GitRefs.tagNames s.refs, other ≠ tag → trimSpace other ≠ tag) :
    TagsGood S P { s with refs := GitRefs.withRef s.refs ("refs/tags/" ++ tag) object } := by
  constructor
  · intro other listed
    rw [mem_tagNames, object_tag_withRef] at listed
    by_cases same : other = tag
    · rw [if_pos same, Option.isSome_iff_ne_none] at listed
      rw [same]
      exact readable listed
    · rw [if_neg same] at listed
      have before := mem_tagNames.mpr listed
      apply readable_withRef (good.readable other before)
      intro through version
      by_cases deleted : object = none
      · exact absurd through (unread deleted version other before same)
      · exact readable deleted
  · intro made member
    obtain ⟨canonical, keeps⟩ := good.kept made member
    refine ⟨canonical, ?_⟩
    by_cases same : made.1 = tag
    · exact kept made member same
    · rw [keepsRelease, object_tag_withRef, if_neg same]
      exact keeps

theorem tagsGood_push (good : TagsGood S P s)
    (harmless : harmlessTag S P s (.push services env tag object) = true) :
    TagsGood S P { s with refs := GitRefs.withRef s.refs ("refs/tags/" ++ tag) object } := by
  simp only [harmlessTag, Bool.and_eq_true, Bool.or_eq_true, List.all_eq_true, decide_eq_true_eq,
    Option.isNone_iff_eq_none] at harmless
  obtain ⟨⟨readable, kept⟩, unread⟩ := harmless
  refine tagsGood_withRef _ _ good readable.resolve_left ?_ ?_
  · intro made member same
    exact (kept made member).resolve_left (not_not.mpr same)
  · intro deleted version other listed different
    subst deleted
    rcases unread with (present | text) | apart
    · cases present
    · exact absurd text version
    · exact (apart other listed).resolve_left different

theorem readSkillMetadata_shows
    (read : readSkillMetadata P a commit name = .ok metadata) :
    (gitShowSkill P commit).isOk = true := by
  unfold readSkillMetadata at read
  cases fault : a.fault .showFile with
  | some cause => simp [fault] at read
  | none =>
    cases shown : gitShowSkill P commit with
    | error cause => simp [fault, shown] at read
    | ok content => rfl

theorem tagsGood_release (canonical : S.Reads) (good : TagsGood S P s)
    (planned : releasePlan S P a (GitRefs.repository s.refs s.name) request = .ok (tag, commit))
    (free : ¬(GitRefs.object s.refs ("refs/tags/" ++ tag)).isSome = true) : TagsGood S P { s with
      refs := GitRefs.withRef s.refs ("refs/tags/" ++ tag) (some (.tag message (.commit commit)))
      created := s.created ++ [(tag, P.commitHash commit)] } := by
  obtain ⟨normal, metadata, read⟩ := releasePlan_eq_ok planned
  have isTag := normalizeReleaseVersion_canonical canonical normal
  have trimmed := trimSpace_of_isReleaseTag isTag
  have written := object_tag_withRef s.refs tag tag (some (.tag message (.commit commit)))
  rw [if_pos rfl] at written
  have shows : showsSkill P (GitRefs.withRef s.refs ("refs/tags/" ++ tag)
      (some (.tag message (.commit commit)))) ("refs/tags/" ++ tag) = true :=
    showsSkill_iff.mpr ⟨_, commit, written, rfl, readSkillMetadata_shows read⟩
  have named : trimSpace tag ≠ "" := by
    rw [trimmed]
    obtain ⟨version, _, rfl⟩ := Option.map_eq_some_iff.mp normal
    simp
  have pushed := tagsGood_withRef tag (some (.tag message (.commit commit))) good
    (fun _ => readableTag_iff.mpr ⟨named, fun _ => trimmed.symm ▸ shows⟩)
    (by
      intro made member same
      obtain ⟨object, _, found, _⟩ := keepsRelease_iff.mp (good.kept made member).2
      rw [← same, found] at free
      exact absurd rfl free)
    (fun deleted => nomatch deleted)
  refine ⟨pushed.readable, ?_⟩
  intro made member
  rcases List.mem_append.mp member with old | new
  · exact pushed.kept made old
  · rw [List.mem_singleton.mp new]
    exact ⟨isTag, keepsRelease_iff.mpr ⟨_, commit, written, rfl, rfl⟩⟩

theorem tagsGood_step (canonical : S.Reads) (s : TagStore β) (i : TagStep β) (t : TagStore β)
    (harmless : harmlessTag S P s i = true) (good : TagsGood S P s)
    (taken : tagStep S P hash s i = some t) : TagsGood S P t := by
  cases i with
  | release a request =>
    simp only [tagStep] at taken
    split at taken
    · cases taken
      exact good
    · rename_i tag commit planned
      split_ifs at taken with stored
      · cases taken
        exact good
      · cases taken
        exact tagsGood_release canonical good planned stored
  | push services env tag object =>
    simp only [tagStep] at taken
    split_ifs at taken
    cases taken
    exact tagsGood_push good harmless

/-- A run whose pushed tags are harmless keeps the version list. -/
theorem harmless_tags_listed (canonical : S.Reads) {steps : List (TagStep β)}
    (start : TagsGood S P s)
    (harmless : Guarded (tagStep S P hash) (fun s i => harmlessTag S P s i = true) s steps)
    (ran : run (tagStep S P hash) s steps = some t) : ListsReleases S P t :=
  listsReleases_of_good (run_preserves (tagsGood_step canonical) start harmless ran)

def plainAnswer (P : Plumbing β) (refs : GitRefs β) : TagAnswer where
  commit spec := (GitRefs.commitAt refs (trimSuffix spec "^\x7bcommit\x7d")).map P.commitHash
  treeSHA _ := .ok "7ree"
  commitTime _ := .ok "2026-07-24T10:00:00Z"
  manifestSHA256 object :=
    if refs.any fun ref => ref.2.peel.any fun commit =>
        object = trimSpace (P.commitHash commit) ++ ":SKILL.md" && (gitShowSkill P commit).isOk then
      .ok "5ha"
    else .error "path 'SKILL.md' does not exist"
  tagRecord _ := .ok "commit"
  parseTime _ := .ok 0

theorem reaches_iff_mem (distinct : (refs.map Prod.fst).Nodup) :
    GitRefs.Reaches refs commit ↔ ∃ ref ∈ refs, ref.2.peel = some commit := by
  constructor
  · intro reached
    obtain ⟨name, object, found, peels⟩ := reached
    obtain ⟨ref, stored, rfl⟩ := Option.map_eq_some_iff.mp found
    exact ⟨ref, Keyed.mem_of_lookup stored, peels⟩
  · intro listed
    obtain ⟨ref, member, peels⟩ := listed
    refine ⟨ref.1, ref.2, ?_, peels⟩
    rw [GitRefs.object, (Keyed.lookup_eq_some_iff distinct).mpr ⟨member, rfl⟩]
    rfl

theorem plainAnswer_reads (distinct : (refs.map Prod.fst).Nodup)
    (alike : ∀ first second, GitRefs.Reaches refs first → GitRefs.Reaches refs second →
      trimSpace (P.commitHash first) = trimSpace (P.commitHash second) →
      (gitShowSkill P first).isOk = (gitShowSkill P second).isOk) :
    ReadsGit S P refs (plainAnswer P refs) where
  opened := rfl
  listed := rfl
  commit name _ := by simp [plainAnswer, trimSuffix_append]
  tree _ _ := rfl
  time _ _ := ⟨_, rfl, rfl⟩
  manifest commit reached := by
    have known : (refs.any fun ref => ref.2.peel.any fun other =>
        trimSpace (P.commitHash commit) ++ ":SKILL.md" =
          trimSpace (P.commitHash other) ++ ":SKILL.md" && (gitShowSkill P other).isOk) =
        (gitShowSkill P commit).isOk := by
      rw [Bool.eq_iff_iff, List.any_eq_true]
      constructor
      · intro listed
        obtain ⟨ref, member, shown⟩ := listed
        cases peels : ref.2.peel with
        | none => simp [peels] at shown
        | some other =>
          simp only [peels, Option.any_some, Bool.and_eq_true, decide_eq_true_eq] at shown
          have same := congrArg (trimSuffix · ":SKILL.md") shown.1
          simp only [trimSuffix_append] at same
          rw [alike commit other reached ((reaches_iff_mem distinct).mpr ⟨ref, member, peels⟩) same]
          exact shown.2
      · intro shown
        obtain ⟨ref, member, peels⟩ := (reaches_iff_mem distinct).mp reached
        exact ⟨ref, member, by simp [peels, shown]⟩
    simp only [plainAnswer, known]
    cases (gitShowSkill P commit).isOk <;> rfl
  record _ _ := rfl

theorem plainAnswer_reads_of_shown (distinct : (refs.map Prod.fst).Nodup)
    (shown : (refs.all fun ref => ref.2.peel.all fun commit => (gitShowSkill P commit).isOk) = true) :
    ReadsGit S P refs (plainAnswer P refs) := by
  have shows : ∀ commit, GitRefs.Reaches refs commit → (gitShowSkill P commit).isOk = true := by
    intro commit reached
    obtain ⟨ref, member, peels⟩ := (reaches_iff_mem distinct).mp reached
    have all := List.all_eq_true.mp shown ref member
    rwa [peels] at all
  apply plainAnswer_reads distinct
  intro first second reachedFirst reachedSecond _
  rw [shows first reachedFirst, shows second reachedSecond]

def weatherTags : TagStore String where
  name := "weather"
  refs := [(skillDefaultRef, .commit { tree := weatherTree })]

def releaseWeather : TagStep String :=
  .release { revParse := fun name => if name = "c" then some { tree := weatherTree } else none }
    { version := "1.0.0", sourceRef := "main", expectedCommitSHA := "c" }

def pushTag (tag : String) (object : Option (GitObject String)) : TagStep String :=
  .push openServices { repoPath := "/srv" } tag object

theorem weatherTags_good : TagsGood coreSemVer plainPlumbing weatherTags := by
  constructor
  · intro tag listed
    cases listed
  · intro made member
    cases member

theorem operational_tags_listed :
    ∃ t, run (tagStep coreSemVer plainPlumbing fun _ => "feed") weatherTags
        [releaseWeather, pushTag "backup" (some (.node (.file .Regular "zip"))),
          pushTag "v2.0.0" (some (.tag "Rain" (.commit { tree := weatherTree }))),
          pushTag "backup" none] = some t ∧
      t.created = [("v1.0.0", "c")] ∧ ListsReleases coreSemVer plainPlumbing t := by
  refine exists_run (P := fun t => t.created = [("v1.0.0", "c")]) (by decide +kernel)
    fun t ran created => ⟨created, ?_⟩
  exact harmless_tags_listed (fun version => dif_pos version.property) weatherTags_good (by decide +kernel) ran

/-- A version tag on a blob is accepted, and then no release is listed any more. -/
theorem blob_tag_breaks_list :
    ∃ t A, run (tagStep coreSemVer plainPlumbing fun _ => "feed") weatherTags
        [releaseWeather, pushTag "v2.0.0" (some (.node (.file .Regular "zip")))] = some t ∧
      t.created = [("v1.0.0", "c")] ∧ ReadsGit coreSemVer plainPlumbing t.refs A ∧
      listReleases coreSemVer (insertionSort SkillRelease) A (GitRefs.tagNames t.refs) =
        .error ⟨.SKILL_RELEASE_NOT_FOUND, ""⟩ ∧
      ¬ListsReleases coreSemVer plainPlumbing t := by
  obtain ⟨t, ran, created, distinct, shown, failed⟩ : ∃ t,
      run (tagStep coreSemVer plainPlumbing fun _ => "feed") weatherTags
        [releaseWeather, pushTag "v2.0.0" (some (.node (.file .Regular "zip")))] = some t ∧
      t.created = [("v1.0.0", "c")] ∧ (t.refs.map Prod.fst).Nodup ∧
      (t.refs.all fun ref => ref.2.peel.all fun commit => (gitShowSkill plainPlumbing commit).isOk)
        ∧
      listReleases coreSemVer (insertionSort SkillRelease) (plainAnswer plainPlumbing t.refs)
        (GitRefs.tagNames t.refs) = .error ⟨.SKILL_RELEASE_NOT_FOUND, ""⟩ := by
    decide +kernel
  have reads := plainAnswer_reads_of_shown (S := coreSemVer) (P := plainPlumbing) distinct shown
  refine ⟨t, _, ran, created, reads, failed, ?_⟩
  intro lists
  obtain ⟨out, answered, _⟩ := lists _ (insertionSort SkillRelease) _ reads (.refl _)
  rw [failed] at answered
  cases answered

end Listing

section Resolution

variable {a : EngineAnswer β} {version : String} {release : SkillRelease}

theorem version_shape (canonical : isReleaseTag S version = true) :
    trimSpace version = version ∧ version ≠ "" ∧ hasPrefix version "-" = false ∧
      hasPrefix version "refs/" = false ∧ fullCommitSHA version = false := by
  have trimmed := trimSpace_of_isReleaseTag canonical
  obtain ⟨parsed, _, rfl⟩ := Option.map_eq_some_iff.mp (beq_iff_eq.mp canonical)
  refine ⟨trimmed, by simp, ?_, ?_, ?_⟩
  · simp [hasPrefix, List.isPrefixOf, String.toList_append]
  · simp [hasPrefix, List.isPrefixOf, String.toList_append]
  · simp [fullCommitSHA, String.toList_append, isHexDigit]

theorem resolveVersionRef_version (canonical : isReleaseTag S version = true)
    (parses : ParsesRefs S refs a) : resolveVersionRef a version =
      ((GitRefs.commitAt refs ("refs/heads/" ++ version)).or
        (GitRefs.commitAt refs ("refs/tags/" ++ version))).elim
          (.error (errBranchNotFound version)) .ok := by
  obtain ⟨trimmed, named, option, full, sha⟩ := version_shape canonical
  unfold resolveVersionRef
  simp only [trimmed, named, option, full, sha, Bool.false_eq_true, or_self, if_false, Bool.or_self,
    List.findSome?_cons, List.findSome?_nil, parses version canonical "refs/heads/" (by simp),
    parses version canonical "refs/tags/" (by simp)]
  cases GitRefs.commitAt refs ("refs/heads/" ++ version) with
  | some commit => rfl
  | none => cases GitRefs.commitAt refs ("refs/tags/" ++ version) <;> rfl

def plainParse (refs : GitRefs β) : EngineAnswer β where
  revParse spec := GitRefs.commitAt refs (trimSuffix spec "^\x7bcommit\x7d")

theorem plainParse_parses (refs : GitRefs β) : ParsesRefs S refs (plainParse refs) := by
  intro tag _ space _
  simp only [plainParse, trimSuffix_append]

def Repository.gitRefs (r : Repository β) : GitRefs β :=
  r.refs.map fun ref => (ref.name, .commit ref.commit)

def releasedWeather : Repository String where
  name := "weather"
  refs := [⟨skillDefaultRef, { tree := weatherTree }⟩, ⟨"refs/heads/dev", { tree := weatherTree }⟩,
    ⟨"refs/tags/v1.0.0", { tree := weatherTree }⟩]

def editServices : HookServices :=
  { openServices with allowed := fun request => .ok (decide (request.permission = .edit)) }

end Resolution

end AisphereHub
