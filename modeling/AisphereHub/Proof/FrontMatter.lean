import AisphereHub.Gitengine.Repository

/-! The front matter as the import reads it and as the engine reads the stored file. -/
namespace AisphereHub

open GoStrings

variable {chars : List Char} {lines body : List String} {c : Char} {content : String}

theorem isFence_indented (space : Blank blank.toList) (line : String) :
    isFence (blank ++ line) = isFence line := by
  have trimmed := trimSpace_surrounded space (List.forall_mem_nil _) line
  rw [List.append_nil, ← String.toList_append, String.ofList_toList] at trimmed
  rw [isFence, isFence, trimmed]

theorem trimSpace_padded (space : Blank blank.toList) (line : String) :
    trimSpace (line ++ blank) = trimSpace line := by
  have trimmed := trimSpace_surrounded (List.forall_mem_nil _) space line
  rwa [List.nil_append, ← String.toList_append, String.ofList_toList] at trimmed

theorem isFence_of_blank (blank : Blank line.toList) : isFence line = false := by
  rw [isFence, trimSpace_of_blank blank]
  rfl

theorem unixLines_append
    (apart : front.getLast? ≠ some '\r' ∨ back.head? ≠ some '\n') :
    unixLines (front ++ back) = unixLines front ++ unixLines back := by
  fun_induction unixLines front with
  | case1 => rfl
  | case2 rest ih =>
    have later : rest.getLast? ≠ some '\r' ∨ back.head? ≠ some '\n' := by
      refine apart.imp_left fun free last => free ?_
      simp [List.getLast?_cons, last]
    rw [List.cons_append, List.cons_append, unixLines, ih later, List.cons_append]
  | case3 c rest other ih =>
    have later : rest.getLast? ≠ some '\r' ∨ back.head? ≠ some '\n' := by
      refine apart.imp_left fun free last => free ?_
      simp [List.getLast?_cons, last]
    have single : ∀ more, c = '\r' → rest ++ back ≠ '\n' :: more := by
      intro more carriage shape
      cases rest with
      | nil =>
        rw [List.nil_append] at shape
        simp [carriage, shape] at apart
      | cons next rest =>
        rw [List.cons_append, List.cons.injEq] at shape
        exact other rest carriage (by rw [shape.1])
    rw [List.cons_append, unixLines, ih later, List.cons_append]
    exact single

theorem blank_unixLines (blank : Blank chars) : Blank (unixLines chars) := by
  fun_induction unixLines chars with
  | case1 => exact blank
  | case2 rest ih =>
    have later : Blank rest := fun c member => blank c (by simp [member])
    intro c member
    rcases List.mem_cons.mp member with rfl | member
    · decide
    · exact ih later c member
  | case3 head rest _ ih =>
    have later : Blank rest := fun c member => blank c (by simp [member])
    intro c member
    rcases List.mem_cons.mp member with rfl | member
    · exact blank c (by simp)
    · exact ih later c member

theorem frontMatterLines_eq_ok :
    frontMatterLines (first :: rest) = .ok (lines, body) ↔
      isFence first = true ∧ ∃ close, rest = lines ++ close :: body ∧ isFence close = true ∧
        ∀ line ∈ lines, isFence line = false := by
  simp only [frontMatterLines]
  constructor
  · intro found
    by_cases fence : isFence first = true
    · simp only [fence, Bool.not_true, Bool.false_eq_true, if_false] at found
      have whole := List.takeWhile_append_dropWhile (p := (!isFence ·)) (l := rest)
      cases dropped : rest.dropWhile (!isFence ·) with
      | nil => simp [dropped] at found
      | cons close after =>
        simp only [dropped, Except.ok.injEq, Prod.mk.injEq] at found whole
        obtain ⟨rfl, rfl⟩ := found
        refine ⟨fence, close, whole.symm, ?_, fun line member => ?_⟩
        · have stopped := List.head?_dropWhile_not (!isFence ·) rest
          simpa [dropped] using stopped
        · simpa using List.mem_takeWhile_imp member
    · simp [fence] at found
  · rintro ⟨fence, close, rfl, closed, inside⟩
    have taken : ∀ line ∈ lines, (!isFence line) = true := by simpa using inside
    rw [List.dropWhile_append_of_pos taken, List.takeWhile_append_of_pos taken]
    simp [fence, closed]

theorem headingTitle_blank (blank : ∀ line ∈ body, Blank line.toList) : headingTitle body = "" := by
  induction body with
  | nil => rfl
  | cons line rest ih =>
    rw [headingTitle, trimSpace_of_blank (blank line (by simp)), if_neg (by decide)]
    exact ih fun other member => blank other (by simp [member])

theorem headingTitle_padded
    (closing : trimSpace last' = trimSpace last) (blank : ∀ line ∈ after, Blank line.toList) :
    headingTitle (lines ++ [last']) = headingTitle (lines ++ last :: after) := by
  induction lines with
  | nil => simp only [List.nil_append, headingTitle, closing, headingTitle_blank blank]
  | cons line rest ih => simp only [List.cons_append, headingTitle, ih]

/-- The fences are found again when the first line and everything from the closing
fence on only change in white space; so is the first heading below them. -/
theorem frontMatterLines_framed
    (opening : isFence first' = isFence first) (closing : trimSpace last' = trimSpace last)
    (blank : ∀ line ∈ after, Blank line.toList)
    (found : frontMatterLines (first :: (middle ++ last :: after)) = .ok (lines, body)) :
    ∃ body', frontMatterLines (first' :: (middle ++ [last'])) = .ok (lines, body') ∧
      headingTitle body' = headingTitle body := by
  obtain ⟨fence, close, shape, closed, inside⟩ := frontMatterLines_eq_ok.mp found
  simp only [frontMatterLines_eq_ok, opening, fence, true_and]
  rcases List.append_eq_append_iff.mp shape with ⟨more, rfl, tail⟩ | ⟨more, rfl, tail⟩
  · cases more with
    | nil =>
      obtain ⟨rfl, rfl⟩ := tail
      exact ⟨[], ⟨last', by simp, by rw [isFence, closing, ← isFence, closed], inside⟩,
        (headingTitle_blank blank).symm⟩
    | cons line more =>
      simp only [List.cons_append, List.cons.injEq] at tail
      have open_ := isFence_of_blank (blank close (by simp [tail.2]))
      rw [closed] at open_
      cases open_
  · cases more with
    | nil =>
      obtain ⟨rfl, rfl⟩ := tail
      exact ⟨[], ⟨last', by simp, by rw [isFence, closing, ← isFence, closed], inside⟩,
        (headingTitle_blank blank).symm⟩
    | cons line more =>
      obtain ⟨rfl, rfl⟩ := tail
      exact ⟨more ++ [last'], ⟨close, by simp, closed, inside⟩, headingTitle_padded closing blank⟩

def unixSplit (chars : List Char) : List String := split (String.ofList (unixLines chars)) '\n'

theorem blank_of_mem_split (blank : Blank s.toList)
    (member : part ∈ split s '\n') : Blank part.toList := by
  obtain ⟨before, after, shape⟩ := contains_iff.mp (contains_of_mem_split member)
  intro c inside
  exact blank c (by simp [shape, inside])

theorem first_line_fence (found : frontMatterLines (split s '\n') = .ok (lines, body)) :
    ∃ first rest, split s '\n' = first :: rest ∧ isFence first = true := by
  cases shape : split s '\n' with
  | nil => exact absurd shape (split_ne_nil s '\n')
  | cons first rest =>
    rw [shape] at found
    exact ⟨first, rest, rfl, (frontMatterLines_eq_ok.mp found).1⟩

theorem frontMatterLines_blank (blank : Blank chars)
    : frontMatterLines (unixSplit chars) ≠ .ok found := by
  intro ok
  obtain ⟨first, rest, shape, fence⟩ := first_line_fence ok
  have lines : Blank (String.ofList (unixLines chars)).toList := by
    simpa using blank_unixLines blank
  have here : Blank first.toList := blank_of_mem_split lines (by rw [shape]; simp)
  rw [isFence_of_blank here] at fence
  cases fence

/-- White space before the opening fence, on its line, and after the last line that
is not blank does not matter. -/
theorem frontMatterLines_surrounded (left : Blank front)
    (right : Blank back) (joined : front.getLast? ≠ some '\r' ∨ core.head? ≠ some '\n')
    (solid : ∀ c ∈ core.getLast?, isSpace c = false)
    (found : frontMatterLines (unixSplit (front ++ core ++ back)) = .ok (lines, body)) :
    ∃ body', frontMatterLines (unixSplit core) = .ok (lines, body') ∧
      headingTitle body' = headingTitle body := by
  by_cases empty : core = []
  · subst empty
    exact absurd found (frontMatterLines_blank (by simpa using left.append right))
  have ended : (front ++ core).getLast? ≠ some '\r' := by
    rw [List.getLast?_append_of_ne_nil _ empty]
    intro carriage
    exact absurd (solid '\r' carriage) (by decide)
  have whole : String.ofList (unixLines (front ++ core ++ back)) = String.ofList (unixLines front) ++
      (String.ofList (unixLines core) ++ String.ofList (unixLines back)) := by
    rw [unixLines_append (.inl ended), unixLines_append joined]
    simp only [String.ofList_append, String.append_assoc]
  have blankFront : ∀ part ∈ split (String.ofList (unixLines front)) '\n', Blank part.toList :=
    fun part => blank_of_mem_split (by simpa using blank_unixLines left)
  have blankBack : ∀ part ∈ split (String.ofList (unixLines back)) '\n', Blank part.toList :=
    fun part => blank_of_mem_split (by simpa using blank_unixLines right)
  unfold unixSplit at found ⊢
  rw [whole] at found
  obtain ⟨before, edge, frontLines⟩ :=
    (List.eq_nil_or_concat _).resolve_left (split_ne_nil (String.ofList (unixLines front)) '\n')
  obtain ⟨head, after, backLines⟩ :=
    List.exists_cons_of_ne_nil (split_ne_nil (String.ofList (unixLines back)) '\n')
  obtain ⟨first, rest, coreLines⟩ :=
    List.exists_cons_of_ne_nil (split_ne_nil (String.ofList (unixLines core)) '\n')
  rw [List.concat_eq_append] at frontLines
  rw [frontLines] at blankFront
  rw [backLines] at blankBack
  have edgeBlank := blankFront edge (by simp)
  have headBlank := blankBack head (by simp)
  have afterBlank : ∀ line ∈ after, Blank line.toList :=
    fun line member => blankBack line (by simp [member])
  cases before with
  | cons line before =>
    -- a line end in front of the text leaves its first line blank
    obtain ⟨next, more, coreBack⟩ := List.exists_cons_of_ne_nil
      (split_ne_nil (String.ofList (unixLines core) ++ String.ofList (unixLines back)) '\n')
    rw [split_append_seam frontLines coreBack, List.cons_append, frontMatterLines_eq_ok,
      isFence_of_blank (blankFront line (by simp))] at found
    cases found.1
  | nil =>
    rcases List.eq_nil_or_concat rest with rfl | ⟨middle, last, rfl⟩
    · rw [← List.nil_append [first]] at coreLines
      have coreBack := split_append_seam coreLines backLines
      rw [split_append_seam frontLines coreBack, List.nil_append, frontMatterLines_eq_ok] at found
      obtain ⟨_, close, shape, fence, _⟩ := found
      rw [isFence_of_blank (afterBlank close (by simp [shape]))] at fence
      cases fence
    · rw [List.concat_eq_append, ← List.cons_append] at coreLines
      have coreBack := split_append_seam coreLines backLines
      rw [split_append_seam frontLines coreBack, List.nil_append] at found
      rw [coreLines, List.cons_append]
      exact frontMatterLines_framed (isFence_indented edgeBlank first).symm
        (trimSpace_padded headBlank last).symm afterBlank found

theorem isFence_head (fence : isFence line = true)
    (first : line.toList.head? = some c) : isSpace c = true ∨ c = '-' := by
  have dashes : trimSpace line = "---" := by simpa [isFence] using fence
  obtain ⟨front, back, shape, left, _⟩ := trimSpace_decomposes line
  rw [dashes] at shape
  cases front with
  | nil =>
    rw [shape] at first
    exact .inr (by simpa using first.symm)
  | cons d front =>
    rw [shape] at first
    obtain rfl : d = c := by simpa using first
    exact .inl (left d (by simp))

theorem frontMatterLines_head (solid : isSpace c = false) (other : c ≠ '-') :
    frontMatterLines (unixSplit (c :: chars)) ≠ .ok found := by
  intro ok
  obtain ⟨first, rest, shape, fence⟩ := first_line_fence ok
  have text : unixLines (c :: chars) = c :: unixLines chars := by
    rw [unixLines]
    intro more carriage
    rw [carriage] at solid
    exact absurd solid (by decide)
  have inLine : c ≠ '\n' := by
    rintro rfl
    exact absurd solid (by decide)
  have start : first.toList.head? = some c := by
    unfold split at shape
    rw [text, String.toList_ofList, List.splitOn_cons_eq_if_modifyHead, if_neg (by simpa using inLine)]
      at shape
    cases tail : (unixLines chars).splitOn '\n' with
    | nil => exact absurd tail (by simp)
    | cons line lines =>
      rw [tail, List.modifyHead_cons, List.map_cons, List.cons.injEq] at shape
      simp [← shape.1]
  rcases isFence_head fence start with space | dash
  · rw [solid] at space
    cases space
  · exact other dash

theorem contentLines_eq (content : String) :
    contentLines content = unixSplit (trimPrefix content "\ufeff").toList := rfl

theorem frontMatterLines_trimSpace
    (found : frontMatterLines (contentLines content) = .ok (lines, body)) :
    ∃ body', frontMatterLines (contentLines (trimSpace content)) = .ok (lines, body') ∧
      headingTitle body' = headingTitle body := by
  have ends := trimmed_trimSpace content
  have solid : isSpace '\ufeff' = false := by decide
  have keep : ∀ s : String, ¬hasPrefix s "\ufeff" = true → trimPrefix s "\ufeff" = s :=
    fun s absent => by rw [trimPrefix, if_neg absent]
  have single : "\ufeff".toList = ['\ufeff'] := by decide
  have marked (text : String) : ("\ufeff" ++ text).toList = '\ufeff' :: text.toList := by
    rw [String.toList_append, single, List.singleton_append]
  rw [contentLines_eq] at found ⊢
  by_cases mark : hasPrefix content "\ufeff" = true
  · -- the byte order mark is not white space, so trimming keeps it
    obtain ⟨text, rfl⟩ := hasPrefix_iff.mp mark
    obtain ⟨core, back, start, shape, right⟩ := trimSpace_head (marked text) solid
    have whole : trimSpace ("\ufeff" ++ text) = "\ufeff" ++ String.ofList core := by
      rw [← String.toList_inj, marked, start, String.toList_ofList]
    have last : ∀ c ∈ core.getLast?, isSpace c = false := by
      intro c final
      refine ends.2 c ?_
      rw [start, List.getLast?_cons, Option.mem_def.mp final]
      rfl
    rw [trimPrefix_append, shape, ← List.nil_append core] at found
    rw [whole, trimPrefix_append, String.toList_ofList]
    exact frontMatterLines_surrounded (List.forall_mem_nil _) right (.inl (by simp)) last found
  · obtain ⟨front, back, shape, left, right⟩ := trimSpace_decomposes content
    rw [keep content mark, shape] at found
    generalize trimSpace content = inner at found ends ⊢
    have joined : inner.toList.head? ≠ some '\n' := fun line =>
      absurd (ends.1 '\n' line) (by decide)
    obtain ⟨body', again, title⟩ := frontMatterLines_surrounded left right (.inr joined) ends.2 found
    by_cases mark' : hasPrefix inner "\ufeff" = true
    · obtain ⟨text, rfl⟩ := hasPrefix_iff.mp mark'
      rw [marked] at again
      exact absurd again (frontMatterLines_head solid (by decide))
    · rw [keep inner mark']
      exact ⟨body', again, title⟩

theorem decodeFrontMatter_trimSpace
    (decoded : decodeFrontMatter yaml content = .ok (fm, body)) :
    ∃ body', decodeFrontMatter yaml (trimSpace content) = .ok (fm, body') ∧
      headingTitle body' = headingTitle body := by
  unfold decodeFrontMatter at decoded ⊢
  cases found : frontMatterLines (contentLines content) with
  | error e => simp [found] at decoded
  | ok parts =>
    obtain ⟨lines, after⟩ := parts
    obtain ⟨body', again, title⟩ := frontMatterLines_trimSpace found
    simp only [found] at decoded
    simp only [again]
    cases read : yaml (join lines '\n') with
    | error cause => simp [read] at decoded
    | ok document =>
      simp only [read, Except.ok.injEq, Prod.mk.injEq] at decoded
      obtain ⟨rfl, rfl⟩ := decoded
      exact ⟨body', rfl, title⟩

theorem parseSkillMetadata_of_document
    (parsed : parseSkillMetadataDocument yaml content = .ok (name, displayName, description)) :
    parseSkillMetadata yaml name (trimSpace content) = .ok (displayName, description) := by
  unfold parseSkillMetadataDocument at parsed
  cases decoded : decodeFrontMatter yaml content with
  | error e => simp [decoded] at parsed
  | ok document =>
    obtain ⟨fm, body⟩ := document
    obtain ⟨body', again, title⟩ := decodeFrontMatter_trimSpace decoded
    simp only [decoded] at parsed
    by_cases unnamed : trimSpace fm.name = ""
    · simp [unnamed] at parsed
    · simp only [unnamed, if_false, Except.ok.injEq, Prod.mk.injEq] at parsed
      obtain ⟨rfl, rfl, rfl⟩ := parsed
      unfold parseSkillMetadata
      rw [again, trimSpace_trimSpace]
      simp [unnamed, FrontMatter.shownName, title]

/-- What the import accepts, the engine reads from the stored file, with the same display name
and description. -/
theorem readSkillMetadata_of_document {β : Type} (P : Plumbing β) (a : EngineAnswer β)
    (commit : Commit β) (mode : FileMode) (c : β) (name displayName description : String)
    (stored : findEntryInSlice commit.tree "SKILL.md" = some (.file mode c))
    (shown : mode ≠ .Submodule) (works : a.fault .showFile = none)
    (parsed : parseSkillMetadataDocument P.yaml (P.text c) = .ok (name, displayName, description)) :
    readSkillMetadata P a commit name = .ok (displayName, description) := by
  have text : gitShowSkill P commit = .ok (trimSpace (P.text c)) := by
    unfold gitShowSkill
    rw [stored]
    cases mode with
    | Submodule => exact absurd rfl shown
    | _ => rfl
  rw [readSkillMetadata, works, text]
  exact parseSkillMetadata_of_document parsed

theorem weather_document_read :
    parseSkillMetadataDocument plainYaml weatherSkill = .ok ("weather", "weather", "Forecasts") ∧
      readSkillMetadata plainPlumbing {} { tree := weatherTree } "weather" =
        .ok ("weather", "Forecasts") := by
  have parsed : parseSkillMetadataDocument plainYaml weatherSkill =
      .ok ("weather", "weather", "Forecasts") := by decide +kernel
  exact ⟨parsed, readSkillMetadata_of_document plainPlumbing {} { tree := weatherTree } .Regular
    weatherSkill "weather" "weather" "Forecasts" rfl (by decide) rfl parsed⟩

theorem parseSkillMetadata_head (yaml : Yaml) (name : String) (start : content.toList = c :: chars)
    (solid : isSpace c = false) (dash : c ≠ '-') (mark : c ≠ '\ufeff') :
    (parseSkillMetadata yaml name (trimSpace content)).isOk = false := by
  obtain ⟨front, _, trimmed, _⟩ := trimSpace_head start solid
  have unmarked : ¬hasPrefix (trimSpace content) "\ufeff" = true := by
    intro marked
    obtain ⟨text, shape⟩ := hasPrefix_iff.mp marked
    rw [shape, String.toList_append] at trimmed
    exact mark (List.cons.inj trimmed).1.symm
  unfold parseSkillMetadata decodeFrontMatter
  rw [contentLines_eq, trimPrefix, if_neg unmarked, trimmed]
  cases found : frontMatterLines (unixSplit (c :: front)) with
  | error e => rfl
  | ok parts => exact absurd found (frontMatterLines_head solid dash)

end AisphereHub
