import AisphereHub.Gitengine.Versioning
import AisphereHub.Proof.FileFrame

/-! The refs after a write that answers with an error. -/
namespace AisphereHub

open GoStrings

variable {β : Type} {P : Plumbing β} {a : EngineAnswer β} {r r' : Repository β} {commit : Commit β}
  {content : String}

section Log

theorem parseLogRecord_isSome (record : String) :
    (parseLogRecord record).isSome = true ↔ record.toList.count '\x00' = 6 := by
  have length := length_split (trimSpace record) '\x00'
  rw [count_trimSpace (by decide)] at length
  unfold parseLogRecord
  split
  · rename_i shape
    rw [shape] at length
    simp only [List.length_cons, List.length_nil] at length
    simp only [Option.isSome_some, true_iff]
    omega
  · rename_i other
    simp only [Option.isSome_none, Bool.false_eq_true, false_iff]
    intro six
    rw [six] at length
    generalize split (trimSpace record) '\x00' = parts at other length
    rcases parts with _ | ⟨_, _ | ⟨_, _ | ⟨_, _ | ⟨_, _ | ⟨_, _ | ⟨_, _ | ⟨_, _ | ⟨_, _⟩⟩⟩⟩⟩⟩⟩⟩
    all_goals simp at length
    exact other _ _ _ _ _ _ _ rfl

/-- What `git log` prints between the first and the last null character. -/
def logMiddle (P : Plumbing β) (commit : Commit β) : List Char :=
  '\x00' :: (P.nodeHash (.dir commit.tree)).toList ++ '\x00' :: (join commit.parents ' ').toList ++
    '\x00' :: commit.authorName.toList ++ '\x00' :: commit.authorEmail.toList ++
    '\x00' :: (P.date commit.time).toList ++ ['\x00']

theorem logOutput_eq (P : Plumbing β) (commit : Commit β) :
    logOutput P commit = String.ofList ((P.commitHash commit).toList.dropWhile isSpace ++
      logMiddle P commit ++ (P.subject commit.message).toList ++ ['\x1e']) := by
  have shape : join [P.commitHash commit, P.nodeHash (.dir commit.tree), join commit.parents ' ',
      commit.authorName, commit.authorEmail, P.date commit.time, P.subject commit.message] '\x00'
      ++ "\x1e\n" = String.ofList ((P.commitHash commit).toList ++
        (logMiddle P commit ++ (P.subject commit.message).toList ++ ['\x1e']) ++ ['\n']) := by
    rw [← String.toList_inj]
    simp [join_cons, join_singleton, logMiddle]
  rw [logOutput, shape, trimSpace_framed]
  · simp only [List.append_assoc]
  · constructor
    · simp [logMiddle]
      decide
    · simp
      decide
  · simp
  · simp
    decide

/-- The fields of a commit that come from outside hold no null character, and git
names its parents. -/
structure Printable (P : Plumbing β) (commit : Commit β) : Prop where
  name : '\x00' ∉ commit.authorName.toList
  email : '\x00' ∉ commit.authorEmail.toList
  parents : '\x00' ∉ (join commit.parents ' ').toList ∧ '\x1e' ∉ (join commit.parents ' ').toList

theorem count_logMiddle (printable : Printable P commit) :
    (logMiddle P commit).count '\x00' = 6 := by
  have tree := (P.node_printable (.dir commit.tree)).1
  have date := (P.date_printable commit.time).1
  simp [logMiddle, List.count_append, List.count_eq_zero_of_not_mem tree,
    List.count_eq_zero_of_not_mem date, List.count_eq_zero_of_not_mem printable.name,
    List.count_eq_zero_of_not_mem printable.email, List.count_eq_zero_of_not_mem printable.parents.1]

theorem mem_logMiddle (printable : Printable P commit) : '\x1e' ∈ logMiddle P commit ↔
      '\x1e' ∈ commit.authorName.toList ∨ '\x1e' ∈ commit.authorEmail.toList := by
  have tree := (P.node_printable (.dir commit.tree)).2
  have date := (P.date_printable commit.time).2
  have apart : ('\x1e' : Char) ≠ '\x00' := by decide
  simp [logMiddle, tree, date, printable.parents.2, apart]

theorem logMiddle_cut (shape : logMiddle P commit = before ++ '\x1e' :: after) :
    '\x00' ∈ before ∧ '\x00' ∈ after := by
  constructor
  · have first : (logMiddle P commit).head? = some '\x00' := by simp [logMiddle]
    rw [shape] at first
    cases before with
    | nil => simp at first
    | cons c before => simp_all
  · have last : (logMiddle P commit).getLast? = some '\x00' := by
      rw [logMiddle, List.getLast?_concat]
    rw [shape, List.getLast?_append] at last
    cases found : after.getLast? with
    | none =>
      obtain rfl := List.getLast?_eq_none_iff.mp found
      simp at last
    | some c =>
      obtain rfl : c = '\x00' := by simpa [List.getLast?_cons, found] using last
      exact List.mem_of_getLast? found

theorem log_read_back_iff (printable : Printable P commit) :
    (∃ x, (split (logOutput P commit) '\x1e').filterMap parseLogRecord = [x]) ↔
      '\x1e' ∉ commit.authorName.toList ∧ '\x1e' ∉ commit.authorEmail.toList := by
  have six := count_logMiddle printable
  obtain ⟨noNull, noSeparator⟩ := P.commit_printable commit
  rw [← not_or, ← mem_logMiddle printable, logOutput_eq, List.append_assoc]
  generalize front : (P.commitHash commit).toList.dropWhile isSpace = start
  generalize back : (P.subject commit.message).toList ++ ['\x1e'] = tail
  have startSub : start.Sublist (P.commitHash commit).toList :=
    front ▸ List.dropWhile_sublist isSpace
  have startNull : start.count '\x00' = 0 :=
    List.count_eq_zero_of_not_mem fun member => noNull (startSub.subset member)
  have tailNull : tail.count '\x00' = 0 := by
    rw [← back, List.count_append, List.count_eq_zero_of_not_mem (P.subject_text commit.message)]
    rfl
  by_cases inside : '\x1e' ∈ logMiddle P commit
  · obtain ⟨before, after, shape⟩ := List.append_of_mem inside
    obtain ⟨nullBefore, nullAfter⟩ := logMiddle_cut shape
    have more := List.count_pos_iff.mpr nullBefore
    have less := List.count_pos_iff.mpr nullAfter
    rw [shape, List.count_append, List.count_cons_of_ne (by decide)] at six
    have cut : start ++ logMiddle P commit ++ tail = (start ++ before) ++ '\x1e' :: (after ++ tail) := by
      simp [shape]
    rw [cut, no_record_read parseLogRecord_isSome (by rw [List.count_append]; omega)
      (by rw [List.count_append]; omega)]
    simp [inside]
  · obtain ⟨before, after, shape, free⟩ := List.eq_append_cons_of_mem
      (by simp [← back] : '\x1e' ∈ tail)
    rw [shape, List.count_append, List.count_cons_of_ne (by decide)] at tailNull
    have cut : start ++ logMiddle P commit ++ tail =
        (start ++ logMiddle P commit ++ before) ++ '\x1e' :: after := by
      simp [shape]
    rw [cut]
    simp only [inside, not_false_eq_true, iff_true]
    refine one_record_read parseLogRecord_isSome ?_ ?_ (by omega)
    · simp only [List.mem_append, not_or]
      exact ⟨⟨fun member => noSeparator (startSub.subset member), inside⟩, free⟩
    · rw [List.count_append, List.count_append]
      omega

end Log

def RefsKept (r r' : Repository β) : Prop := ∀ k, r'.lookup k = r.lookup k

theorem not_refsKept (ref : String) (moved : (r'.lookup ref).map Commit.parents ≠
    (r.lookup ref).map Commit.parents) : ¬RefsKept r r' :=
  fun kept => moved (congrArg _ (kept ref))

theorem child_ne (child : P.commitHash head ∈ commit.parents) :
    commit ≠ head := by
  rintro rfl
  exact P.commitHash_fresh commit child

/-- The projection accepts a new `SKILL.md`, and nothing fails on the way. -/
structure Projects (P : Plumbing β) (a : EngineAnswer β) (name content : String) : Prop where
  reopen : a.fault .reopen = none
  show_ : a.fault .showAgain = none
  profile : a.fault .updateProfile = none
  repos : a.fault .updateRepos = none
  metadata : (parseSkillMetadata P.yaml name (trimSpace content)).isOk = true

theorem syncSkillMetadata_isOk_iff (shown : gitShowSkill P commit = .ok (trimSpace content)) :
    a.fault .reopen = none ∧ (syncSkillMetadata P a r commit).2.isOk = true ↔
      Projects P a r.name content := by
  unfold syncSkillMetadata shownMetadata EngineAnswer.check
  rw [shown]
  constructor
  · rintro ⟨reopen, done⟩
    cases again : a.fault .showAgain with
    | some cause => simp [again, Except.isOk, Except.toBool] at done
    | none =>
      cases parsed : parseSkillMetadata P.yaml r.name (trimSpace content) with
      | error cause => simp [again, parsed, Except.isOk, Except.toBool] at done
      | ok metadata =>
        cases profile : a.fault .updateProfile with
        | some cause => simp [again, parsed, profile, Except.isOk, Except.toBool] at done
        | none =>
          cases repos : a.fault .updateRepos with
          | some cause => simp [again, parsed, profile, repos, Except.isOk, Except.toBool] at done
          | none => exact ⟨reopen, again, profile, repos, by rw [parsed]; rfl⟩
  · rintro ⟨reopen, again, profile, repos, metadata⟩
    refine ⟨reopen, ?_⟩
    cases parsed : parseSkillMetadata P.yaml r.name (trimSpace content) with
    | error cause => rw [parsed] at metadata; cases metadata
    | ok metadata => simp [again, profile, repos, parsed, Except.isOk, Except.toBool]

theorem syncSkillMetadataOnWrite_isOk_iff
    (shown : path = "SKILL.md" → gitShowSkill P commit = .ok (trimSpace content)) :
    (syncSkillMetadataOnWrite P a r path branch commit).2.isOk = true ↔
      (path = "SKILL.md" → trimSpace branch = "main" → Projects P a r.name content) := by
  unfold syncSkillMetadataOnWrite
  by_cases outside : path ≠ "SKILL.md" ∨ trimSpace branch ≠ "main"
  · rw [if_pos outside]
    simp only [Except.isOk, Except.toBool, true_iff]
    intro named main
    exact absurd outside (by simp [named, main])
  · simp only [not_or, not_not] at outside
    simp only [outside, true_implies]
    rw [← syncSkillMetadata_isOk_iff (shown outside.1)]
    unfold EngineAnswer.check
    cases reopen : a.fault .reopen with
    | some cause => simp [Except.isOk, Except.toBool]
    | none =>
      cases synced : syncSkillMetadata P a r commit with
      | mk r₁ outcome => cases outcome <;> simp [Except.isOk, Except.toBool]

theorem gitShowSkill_written
    (written : upsertEntry P.refuses tree (splitPath "SKILL.md") (.file .Regular (P.bytes content))
      = .ok tree') (holds :
    commit.tree = tree') : gitShowSkill P commit = .ok (trimSpace content) := by
  have root : splitPath "SKILL.md" = ["SKILL.md"] := by decide
  rw [root, upsertEntry] at written
  unfold gitShowSkill
  rw [holds, storeTree_eq_ok written, find_replaceOrAppend_self]
  simp only [P.text_bytes]

section Edits

variable {edit : FileEdit} {filePath message branch : String} {who : Committer}

/-- An edit that is accepted has moved its branch, so its refs are kept when it fails
exactly when it does not fail any more. -/
theorem editFile_keeps_iff
    (shown : ∀ tree tree', edit.apply P tree "SKILL.md" = .ok tree' → ∀ commit : Commit β,
      commit.tree = tree' → gitShowSkill P commit = .ok (trimSpace content))
    (projected : ∀ r path commit, edit.sync P a r path branch commit =
      syncSkillMetadataOnWrite P a r path branch commit) :
    (∀ r' e, editFile P a r edit filePath message branch who = (r', .error e) → RefsKept r r') ↔
      (Accepts P a r edit filePath branch → trimSpace filePath = "SKILL.md" →
        trimSpace branch = "main" → Projects P a r.name content) := by
  cases made : editFile P a r edit filePath message branch who with
  | mk r' outcome =>
    rcases editFile_effect made with ⟨rejects, rfl, e, rfl⟩ |
        ⟨head, tree, edited, result, synced, answers⟩
    · constructor
      · exact fun _ accepts => absurd accepts rejects
      · rintro _ r' _ ⟨⟩ k
        rfl
    · have accepts : Accepts P a r edit filePath branch :=
        ⟨edited.valid, _, head, tree, edited.opened, edited.planned⟩
      have written : trimSpace filePath = "SKILL.md" →
          gitShowSkill P (editCommit P a message who head tree) = .ok (trimSpace content) :=
        fun root => shown _ _ (root ▸ edited.planned) _ rfl
      obtain rfl := congrArg Prod.snd synced
      rw [projected, syncSkillMetadataOnWrite_isOk_iff written] at answers
      simp only [accepts, true_implies]
      rw [show r.name = (r.moveRef (refPath (branchReferenceName branch))
        (editCommit P a message who head tree)).name from rfl, ← answers]
      cases outcome with
      | ok out => simp
      | error e =>
        simp only [Prod.mk.injEq, Except.error.injEq, reduceCtorEq, exists_false, iff_false,
          not_forall]
        refine ⟨r', e, ⟨rfl, rfl⟩, fun kept => ?_⟩
        have moved := edited.moved (refPath (branchReferenceName branch))
        rw [kept, if_pos rfl, edited.found, Option.some.injEq] at moved
        exact child_ne (List.mem_singleton.mpr rfl) moved.symm

theorem deleteFile_keeps
    (failed : deleteFile P a r filePath message sha branch who = (r', .error e)) :
    RefsKept r r' := by
  rcases editFile_effect failed with ⟨_, rfl, _⟩ | ⟨head, tree, _, result, synced, answers⟩
  · exact fun _ => rfl
  · cases synced
    obtain ⟨out, done⟩ := answers.mpr rfl
    cases done

end Edits

section Restore

variable {request : RestoreSkillRef}

/-- The answer of a restore can be read back from `git log`. -/
@[mk_iff] structure ReadsBack (P : Plumbing β) (a : EngineAnswer β) (request : RestoreSkillRef) : Prop where
  reopen : a.fault .reopen = none
  revParse : a.fault .revParse = none
  log : a.fault .log = none
  name : '\x1e' ∉ (P.ident request.authorName).toList
  email : '\x1e' ∉ (P.ident request.authorEmail).toList

theorem listCommits_eq_ok :
    listCommits P a commit = .ok out ↔ a.fault .reopen = none ∧ a.fault .revParse = none ∧
      a.fault .log = none ∧ (split (logOutput P commit) '\x1e').filterMap parseLogRecord = out := by
  unfold listCommits EngineAnswer.check
  cases a.fault .reopen <;> cases a.fault .revParse <;> cases a.fault .log <;> simp

theorem listCommits_one_iff (source head : Commit β) :
    (∃ x, listCommits P a (request.commit P source head) = .ok [x]) ↔ ReadsBack P a request := by
  have printable : Printable P (request.commit P source head) :=
    ⟨P.ident_text _, P.ident_text _,
      by simpa [RestoreSkillRef.commit, join_singleton] using P.commit_printable head⟩
  simp only [listCommits_eq_ok, exists_and_left, log_read_back_iff printable, readsBack_iff]
  rfl

theorem restoreRef_keeps_iff : (∀ r' e, restoreRef P a r request = (r', .error e) → RefsKept r r') ↔
      ((restorePlan P a r request).isOk = true → ReadsBack P a request) := by
  unfold restoreRef
  cases planned : restorePlan P a r request with
  | error e =>
    simp only [Except.isOk, Except.toBool, Bool.false_eq_true, false_implies, iff_true]
    rintro r' _ ⟨⟩ k
    rfl
  | ok plan =>
    obtain ⟨ref, commit⟩ := plan
    obtain ⟨source, head, _, _, _, found, rfl, rfl⟩ := restorePlan_eq_ok planned
    have moves : ¬RefsKept r (r.moveRef request.targetRef (request.commit P source head)) := by
      intro kept
      have same := kept request.targetRef
      rw [lookup_moveRef, if_pos rfl, found, Option.map_some, Option.some.injEq] at same
      exact child_ne (List.mem_singleton.mpr rfl) same
    simp only [Except.isOk, Except.toBool, true_implies, Prod.mk.injEq]
    rw [← listCommits_one_iff source head]
    cases listCommits P a (request.commit P source head) with
    | error e =>
      simp only [reduceCtorEq, exists_false, iff_false]
      exact fun keeps => moves (keeps _ e ⟨rfl, rfl⟩)
    | ok commits =>
      rcases commits with _ | ⟨x, _ | ⟨y, rest⟩⟩
      · simp only [Except.ok.injEq, List.nil_eq, reduceCtorEq, exists_false, iff_false]
        exact fun keeps => moves (keeps _ _ ⟨rfl, rfl⟩)
      · simp
      · simp only [Except.ok.injEq, List.cons.injEq, reduceCtorEq, and_false, exists_false,
          iff_false]
        exact fun keeps => moves (keeps _ _ ⟨rfl, rfl⟩)

end Restore

/-- A write that answers with an error has moved no ref, unless it is a write of
`SKILL.md` to the default branch that the projection then refuses, or a restore
whose answer cannot be read back. -/
theorem failed_write_keeps_refs_iff (P : Plumbing β) (a : EngineAnswer β) (r : Repository β)
    (filePath content message sha branch : String) (who : Committer)
    (request : RestoreSkillRef) :
    ((∀ r' e, createFile P a r filePath content message branch who = (r', .error e) →
        RefsKept r r') ↔
      (Accepts P a r (.create content) filePath branch → trimSpace filePath = "SKILL.md" →
        trimSpace branch = "main" → Projects P a r.name content)) ∧
    ((∀ r' e, updateFile P a r filePath content message sha branch who = (r', .error e) →
        RefsKept r r') ↔
      (Accepts P a r (.update content sha) filePath branch → trimSpace filePath = "SKILL.md" →
        trimSpace branch = "main" → Projects P a r.name content)) ∧
    (∀ r' e, deleteFile P a r filePath message sha branch who = (r', .error e) → RefsKept r r') ∧
    ((∀ r' e, restoreRef P a r request = (r', .error e) → RefsKept r r') ↔
      ((restorePlan P a r request).isOk = true → ReadsBack P a request)) :=
  ⟨editFile_keeps_iff (fun _ _ planned _ => gitShowSkill_written (create_apply_eq_ok planned))
      fun _ _ _ => rfl,
    editFile_keeps_iff (fun _ _ planned _ => gitShowSkill_written (update_apply_eq_ok planned).2)
      fun _ _ _ => rfl,
    fun _ _ => deleteFile_keeps, restoreRef_keeps_iff⟩

def mainVersion (r : Repository β) : EngineAnswer β :=
  { revParse := fun ref =>
      if ref = skillDefaultRef ++ "^\x7bcommit\x7d" then r.lookup skillDefaultRef else none }

theorem failed_update_restore_keep_weather :
    (∀ r' e, updateFile plainPlumbing (mainVersion weatherRepository) weatherRepository "SKILL.md"
        weatherSkill "Reword" "" "main" {} = (r', .error e) → RefsKept weatherRepository r') ∧
      ∀ r' e, restoreRef plainPlumbing (mainVersion weatherRepository) weatherRepository
        { sourceRef := "main", targetBranch := "main", expectedHeadSHA := "c",
          actorID := "ada" } = (r', .error e) → RefsKept weatherRepository r' := by
  obtain ⟨_, update, _, restore⟩ := failed_write_keeps_refs_iff plainPlumbing
    (mainVersion weatherRepository) weatherRepository "SKILL.md" weatherSkill "Reword" "" "main"
    {} { sourceRef := "main", targetBranch := "main", expectedHeadSHA := "c", actorID := "ada" }
  constructor
  · exact update.mpr fun _ _ _ => ⟨rfl, rfl, rfl, rfl, by decide +kernel⟩
  · exact restore.mpr fun _ => ⟨rfl, rfl, rfl, by decide +kernel, by decide +kernel⟩

theorem fails_with_moved_ref {α : Type} (answer : Repository β × Except HubError α) (ref : String)
    (moved : answer.2.isOk = false ∧ (answer.1.lookup ref).map Commit.parents ≠
      (r.lookup ref).map Commit.parents) : ∃ r' e, answer = (r', .error e) ∧ ¬RefsKept r r' := by
  obtain ⟨r', outcome⟩ := answer
  cases outcome with
  | ok value => cases moved.1
  | error e => exact ⟨r', e, rfl, not_refsKept ref moved.2⟩

/-- A `SKILL.md` without front matter is refused after the branch has moved to it,
and so is an author whose name cuts the log record in two. -/
theorem refused_metadata_moves_main :
    (∃ r' e, updateFile plainPlumbing {} weatherRepository "SKILL.md" "# Weather" "Reword" ""
        "main" {} = (r', .error e) ∧ ¬RefsKept weatherRepository r') ∧
      ∃ r' e, restoreRef plainPlumbing (mainVersion weatherRepository) weatherRepository
        { sourceRef := "main", targetBranch := "main", expectedHeadSHA := "c",
          actorID := "ada \x1e lovelace" } = (r', .error e) ∧ ¬RefsKept weatherRepository r' :=
  ⟨fails_with_moved_ref _ skillDefaultRef (by decide +kernel),
    fails_with_moved_ref _ skillDefaultRef (by decide +kernel)⟩

end AisphereHub
