import AisphereHub.Biz.SandboxTools
import AisphereHub.Server.AgentRun

/-! What the capabilities of a catalog tool stand for. A sandbox folds them into one permission, the
last one's, and reads each by rules of its own, which differ from those of an agent run; and the
surface of a sandbox has the first page of the catalog only. -/
namespace AisphereHub

def skillPermission (cap : String) : Option String :=
  (capabilityParts cap).bind fun parts => if parts.1 = "skill" then some parts.2 else none

theorem addCapability_eq_ok :
    addCapability out cap = .ok after ↔ ∃ perm, skillPermission cap = some perm ∧
      after = { out with privileged := true, permission := perm } := by
  unfold addCapability skillPermission
  cases capabilityParts cap with
  | none => simp
  | some parts =>
    by_cases skill : parts.1 = "skill"
    · simp [skill, eq_comm]
    · simp [skill]

/-- What is projected of a tool: its capabilities are permissions on skills, and if
there are any, the last one's is kept. -/
theorem foldlM_addCapability
    (projected : caps.foldlM addCapability out = .ok after) :
    after.name = out.name ∧ (∀ cap ∈ caps, (skillPermission cap).isSome = true) ∧
      (caps = [] ∧ after = out ∨ after.privileged = true ∧
        ∃ cap ∈ caps, skillPermission cap = some after.permission) := by
  induction caps using List.reverseRecOn generalizing after with
  | nil =>
    cases projected
    simp
  | append_singleton caps last ih =>
    rw [List.foldlM_append] at projected
    obtain ⟨middle, before, projected⟩ := bind_eq_ok.mp projected
    simp only [List.foldlM_cons, List.foldlM_nil, bind_pure] at projected
    obtain ⟨perm, spelled, rfl⟩ := addCapability_eq_ok.mp projected
    obtain ⟨name, skills, _⟩ := ih before
    refine ⟨name, ?_, .inr ⟨rfl, last, by simp, spelled⟩⟩
    intro cap member
    rcases List.mem_append.mp member with old | new
    · exact skills cap old
    · rw [List.mem_singleton.mp new, spelled]
      rfl

theorem require_ne_unavailable (answer : CheckAnswer) (forbidden : String) :
    answer.require forbidden ≠ .error toolExecutionUnavailable := by
  cases answer <;> simp [CheckAnswer.require, toolExecutionUnavailable]

theorem callSandboxTool_passes {id}
    (passed : callSandboxTool spice readName sandboxes (.ok tools) principal id tool inputJSON =
      .error toolExecutionUnavailable) :
    ∃ subject t schema, canonicalSubject principal = .ok subject ∧
      spice subject (sandboxResource id) "use" principal.orgID = .allowed ∧
      t ∈ tools ∧ sandboxSchemaFromCatalogTool t = .ok schema ∧ schema.name = tool ∧
      checkPrivileged spice readName subject principal.orgID inputJSON schema = .ok () := by
  have present : getSandbox sandboxes id ≠ .error toolExecutionUnavailable := by
    unfold getSandbox
    split <;> simp [toolExecutionUnavailable]
  have known : canonicalSubject principal ≠ .error toolExecutionUnavailable := by
    simp only [canonicalSubject]
    split_ifs <;> simp [toolExecutionUnavailable]
  obtain ⟨s, found, passed⟩ := (bind_eq_error.mp passed).resolve_left present
  obtain ⟨subject, named, passed⟩ := (bind_eq_error.mp passed).resolve_left known
  obtain ⟨_, used, passed⟩ := (bind_eq_error.mp passed).resolve_left (require_ne_unavailable _ _)
  obtain ⟨_, same, passed⟩ := (bind_eq_error.mp passed).resolve_left (by simp)
  cases same
  split at passed
  · simp [toolExecutionUnavailable] at passed
  · rename_i schema chosen
    obtain ⟨_, checked, _⟩ := (bind_eq_error.mp passed).resolve_left (by
      unfold checkPrivileged
      split
      · split
        · simp [toolExecutionUnavailable]
        · exact require_ne_unavailable _ _
      · simp)
    obtain ⟨t, member, projected⟩ := List.mem_filterMap.mp (List.mem_of_find?_eq_some chosen)
    have same := Keyed.key_of_lookup (getSandbox_eq_ok.mp found).1
    refine ⟨subject, t, schema, named, same ▸ CheckAnswer.require_eq_ok.mp used, member, ?_,
      by simpa using List.find?_some chosen, checked⟩
    cases made : sandboxSchemaFromCatalogTool t with
    | error e => simp [made, Except.toOption] at projected
    | ok made => simpa [made, Except.toOption] using projected

theorem foldlM_of_skills {caps : List String} (skills : ∀ cap ∈ caps, (skillPermission cap).isSome = true)
    (out : SandboxToolSchema) : ∃ after, caps.foldlM addCapability out = .ok after := by
  induction caps generalizing out with
  | nil => exact ⟨out, rfl⟩
  | cons cap caps ih =>
    obtain ⟨perm, spelled⟩ := Option.isSome_iff_exists.mp (skills cap (by simp))
    obtain ⟨after, rest⟩ := ih (fun other member => skills other (by simp [member]))
      { out with privileged := true, permission := perm }
    refine ⟨after, ?_⟩
    rw [List.foldlM_cons, addCapability_eq_ok.mpr ⟨perm, spelled, rfl⟩]
    exact rest

def workspace : Sandbox :=
  { id := "sb", name := "sb", kubernetesName := "sb", namespaceID := "ns", clusterID := "c" }

/-- Everybody may use the sandbox, and has one permission on the skill `notes`. -/
def granting (permission : String) : SpiceDB := fun _ resource asked _ =>
  if (resource, asked) ∈ [(sandboxResource "sb", "use"), (⟨"skill", "notes"⟩, permission)]
  then .allowed else .denied

theorem granted_call_passes (projected : sandboxSchemaFromCatalogTool t = .ok schema)
    (named : schema.name = t.id) :
    callSandboxTool (granting schema.permission) (fun _ => .ok "notes") [workspace] (.ok [t])
      ⟨"user", "bob", ""⟩ "sb" t.id "" = .error toolExecutionUnavailable := by
  have input : skillResourceFromInput (fun _ => .ok "notes") "" = .ok ⟨"skill", "notes"⟩ := rfl
  have checked (subject) (orgID) : checkPrivileged (granting schema.permission)
      (fun _ => .ok "notes") subject orgID "" schema = .ok () := by
    unfold checkPrivileged
    split
    · rw [input]
      simp [granting, CheckAnswer.require]
    · rfl
  have shown : (sandboxToolSurface [t]).find? (fun schema => schema.name = t.id) = some schema := by
    simp [sandboxToolSurface, projected, Except.toOption, named]
  refine bind_eq_error.mpr (.inr ⟨workspace, rfl, bind_eq_error.mpr (.inr ⟨_, rfl, ?_⟩)⟩)
  refine bind_eq_error.mpr (.inr ⟨(), rfl, bind_eq_error.mpr (.inr ⟨[t], rfl, ?_⟩)⟩)
  rw [shown]
  exact bind_eq_error.mpr (.inr ⟨(), checked _ _, rfl⟩)

/-- A call of the tool reaches the executor only for a caller with `use` on the sandbox and every
capability's permission on the skill that the input names, exactly when the tool has a capability
that is no permission on skills, so that no sandbox shows it, or all stand for one permission. -/
theorem capabilities_enforced_iff (t : Tool) :
    (∀ (spice : SpiceDB) (readName : String → Except String String) (sandboxes : List Sandbox)
      (tools : List Tool) (principal : Principal) (id inputJSON : String),
      (tools.map Tool.id).Nodup → t ∈ tools →
      callSandboxTool spice readName sandboxes (.ok tools) principal id t.id inputJSON =
        .error toolExecutionUnavailable →
      ∃ subject, canonicalSubject principal = .ok subject ∧
        spice subject (sandboxResource id) "use" principal.orgID = .allowed ∧
        ∀ cap ∈ t.definition.capabilities, ∃ permission skill,
          skillPermission cap = some permission ∧
          skillResourceFromInput readName inputJSON = .ok skill ∧
          spice subject skill permission principal.orgID = .allowed) ↔
      (∃ cap ∈ t.definition.capabilities, skillPermission cap = none) ∨
        ∀ cap ∈ t.definition.capabilities, ∀ other ∈ t.definition.capabilities,
          skillPermission cap = skillPermission other := by
  constructor
  · intro enforced
    by_cases skills : ∃ cap ∈ t.definition.capabilities, skillPermission cap = none
    · exact .inl skills
    have known : ∀ cap ∈ t.definition.capabilities, (skillPermission cap).isSome = true :=
      fun cap member => Option.isSome_iff_ne_none.mpr fun none => skills ⟨cap, member, none⟩
    obtain ⟨schema, projected⟩ := foldlM_of_skills known { name := t.id }
    obtain ⟨_, _, _, each⟩ := enforced _ _ _ [t] ⟨"user", "bob", ""⟩ _ _ (List.nodup_singleton _)
      (List.mem_singleton_self _)
      (granted_call_passes projected (foldlM_addCapability projected).1)
    -- The one permission the caller has is the one that was asked for.
    have all : ∀ cap ∈ t.definition.capabilities, skillPermission cap = some schema.permission := by
      intro cap member
      obtain ⟨permission, skill, spelled, input, allowed⟩ := each cap member
      cases input
      have same : permission = schema.permission := by
        by_contra other
        simp [granting, sandboxResource, other] at allowed
      rw [spelled, same]
    exact .inr fun cap member other listed => (all cap member).trans (all other listed).symm
  · intro agree spice readName sandboxes tools principal id inputJSON distinct visible passed
    obtain ⟨subject, tool, schema, named, used, member, projected, name, checked⟩ :=
      callSandboxTool_passes passed
    obtain ⟨kept, skills, last⟩ := foldlM_addCapability projected
    obtain rfl : tool = t := List.inj_on_of_nodup_map distinct member visible (kept.symm.trans name)
    refine ⟨subject, named, used, fun other listed => ?_⟩
    rcases last with none | ⟨privileged, cap, among, spelled⟩
    · rw [none.1] at listed
      cases listed
    obtain ⟨odd, listed', none⟩ | agree := agree
    · simpa [none] using skills odd listed'
    rw [checkPrivileged, if_pos privileged] at checked
    split at checked
    · cases checked
    · rename_i skill input
      exact ⟨_, skill, (agree other listed cap among).trans spelled, input,
        CheckAnswer.require_eq_ok.mp checked⟩

def toolWith (caps : List String) : Tool where
  id := "skill.release"
  latestVersion := "1"
  versions := [("1", { version := "1", definition := { execution := some { capabilities := some caps } } })]

theorem view_capability_enforced :
    granting "view" ⟨"user", "bob", ""⟩ ⟨"skill", "notes"⟩ "view" "" = .allowed := by
  obtain ⟨subject, named, _, each⟩ := (capabilities_enforced_iff (toolWith ["skill:view"])).mpr
    (by decide +kernel) (granting "view") (fun _ => .ok "notes") [workspace] [toolWith ["skill:view"]]
    ⟨"user", "bob", ""⟩ "sb" "" (List.nodup_singleton _) (List.mem_singleton_self _)
    (by decide +kernel)
  obtain ⟨permission, skill, spelled, input, allowed⟩ := each "skill:view" (by decide +kernel)
  cases named
  cases input
  obtain rfl : "view" = permission := Option.some.inj (.trans (by decide +kernel) spelled)
  exact allowed

/-- Of `publish` and `view`, only `view` is asked for. -/
theorem publish_capability_skipped :
    callSandboxTool (granting "view") (fun _ => .ok "notes") [workspace]
      (.ok [toolWith ["skill:publish", "skill:view"]]) ⟨"user", "bob", ""⟩ "sb" "skill.release" "" =
        .error toolExecutionUnavailable ∧
    skillPermission "skill:publish" = some "publish" ∧
    granting "view" ⟨"user", "bob", ""⟩ ⟨"skill", "notes"⟩ "publish" "" = .denied := by
  decide +kernel

open GoStrings

theorem cut_cases (s : String) (sep : Char) : (sep ∉ s.toList ∧ cut s sep = none) ∨
    ∃ before after, s = before ++ .ofList [sep] ++ after ∧ cut s sep = some (before, after) ∧
      split s sep = before :: split after sep := by
  unfold cut
  rw [List.span_eq_takeWhile_dropWhile]
  by_cases found : sep ∈ s.toList
  · right
    obtain ⟨before, after, shape, free⟩ := List.eq_append_cons_of_mem found
    have passes : ∀ d ∈ before, decide (d ≠ sep) = true :=
      fun d member => decide_eq_true fun same => free (same ▸ member)
    have whole : s = .ofList before ++ .ofList [sep] ++ .ofList after := by
      rw [← String.toList_inj, shape]
      simp
    refine ⟨_, _, whole, ?_, ?_⟩
    · rw [shape, List.takeWhile_append_of_pos passes, List.dropWhile_append_of_pos passes]
      simp
    · rw [whole, split_append, split_of_not_mem (by simpa using free)]
      rfl
  · have passes : ∀ d ∈ s.toList, decide (d ≠ sep) = true :=
      fun d member => decide_eq_true fun same => found (same ▸ member)
    exact .inl ⟨found, by rw [List.dropWhile_eq_nil_iff.mpr passes]⟩

/-- What a run reads of a capability that a sandbox cuts into these parts. -/
def readParts (sep : Char) (kind perm : String) : Option AgentIAMPermission :=
  if sep ∉ perm.toList ∧ trimSpace kind ∈ knownIAMResources ∧ trimSpace perm ≠ "" then
    some ⟨trimSpace kind, trimSpace perm⟩
  else none

theorem parse_parts (separator : (if ¬ contains (trimSpace c) ":" ∧
      (trimSpace c).toList.count '.' = 1 then '.' else ':') = sep)
    (parts : split (trimSpace c) sep = kind :: split perm sep) :
    parseAgentIAMCapability c = readParts sep kind perm := by
  simp only [parseAgentIAMCapability, separator, parts, readParts]
  by_cases free : sep ∈ perm.toList
  · have several := length_split perm sep
    have more := List.count_pos_iff.mpr free
    split
    · rename_i same
      obtain ⟨_, same⟩ := List.cons.inj same
      rw [same, List.length_singleton] at several
      omega
    · simp [free]
  · simp [split_of_not_mem free, free]

theorem parse_colon (cuts : cut (trimSpace c) ':' = some (kind, perm)) :
    parseAgentIAMCapability c = readParts ':' kind perm := by
  obtain ⟨_, none⟩ | ⟨before, after, shape, cut, parts⟩ := cut_cases (trimSpace c) ':'
  · simp [none] at cuts
  cases cuts.symm.trans cut
  have colon : contains (trimSpace c) ":" = true := contains_char.mpr (by simp [shape])
  exact parse_parts (by simp [colon]) parts

theorem parse_dot (plain : ':' ∉ c.toList) (cuts : cut c '.' = some (kind, perm)) :
    parseAgentIAMCapability c = readParts '.' kind perm := by
  obtain ⟨_, none⟩ | ⟨before, after, shape, cut, parts⟩ := cut_cases c '.'
  · simp [none] at cuts
  cases cuts.symm.trans cut
  have free : ':' ∉ (trimSpace c).toList := fun member => plain ((mem_trimSpace rfl).mp member)
  have colon : contains (trimSpace c) ":" = false := by
    rw [← Bool.not_eq_true]
    exact fun found => free (contains_char.mp found)
  have count := count_trimSpace (s := c) (c := '.') rfl
  have once : c.toList.count '.' = kind.toList.count '.' + 1 + perm.toList.count '.' := by
    simp only [shape, String.toList_append, List.count_append]
    rfl
  by_cases several : '.' ∈ perm.toList
  · have more := List.count_pos_iff.mpr several
    have separator : ¬ (trimSpace c).toList.count '.' = 1 := by omega
    simp [parseAgentIAMCapability, separator, split_of_not_mem free, readParts, several]
  have bare : kind.toList.count '.' = 0 := by
    have lengths := congrArg List.length parts
    rw [length_split, List.length_cons, length_split] at lengths
    omega
  have last := List.count_eq_zero.mpr several
  obtain ⟨missing, _⟩ | ⟨first, second, inner, _, pieces⟩ := cut_cases (trimSpace c) '.'
  · have none := List.count_eq_zero.mpr missing
    omega
  rw [parse_parts (by simp [colon, count, once, bare, last]) pieces]
  obtain ⟨front, back, whole, left, right⟩ := trimSpace_decomposes c
  have same : kind.toList ++ '.' :: perm.toList =
      (front ++ first.toList) ++ '.' :: (second.toList ++ back) := by
    rw [inner] at whole
    nth_rewrite 1 [shape] at whole
    simpa using whole
  obtain ⟨one, two⟩ | ⟨_, _, inside⟩ | ⟨_, inside, _⟩ := separated_iff.mp same
  · have trims : trimSpace kind = trimSpace first := by
      rw [← trimSpace_surrounded left (List.forall_mem_nil _) first, List.append_nil, ← one,
        String.ofList_toList]
    have ends : trimSpace perm = trimSpace second := by
      rw [← trimSpace_surrounded (List.forall_mem_nil _) right second, List.nil_append, ← two,
        String.ofList_toList]
    have clear : '.' ∉ second.toList := fun member => several (by simp [two, member])
    simp [readParts, trims, ends, several, clear]
  · exact absurd (by simp [inside]) several
  · exact absurd (by simp [inside]) (List.count_eq_zero.mp bare)

/-- The parts that a sandbox reads are those that a run reads: a first part `skill`, blanks aside,
is spelled without them and followed by one trimmed part, or misspelled and followed by nothing
that a run would take. -/
def readsAlike (c : String) : Bool :=
  let sep := if ':' ∈ c.toList then ':' else '.'
  ((cut (trimSpace c) ':').or (cut c '.')).all fun (kind, perm) =>
    trimSpace kind ≠ "skill" ∨ kind = "skill" ∧ sep ∉ perm.toList ∧ trimSpace perm = perm ∨
      kind ≠ "skill" ∧ (sep ∈ perm.toList ∨ trimSpace perm = "")

theorem readParts_alike (sep : Char) (kind perm : String) :
    (∀ permission, (kind = "skill" ∧ perm ≠ "" ∧ perm = permission) ↔
        readParts sep kind perm = some ⟨"skill", permission⟩) ↔
      (trimSpace kind ≠ "skill" ∨ kind = "skill" ∧ sep ∉ perm.toList ∧ trimSpace perm = perm ∨
        kind ≠ "skill" ∧ (sep ∈ perm.toList ∨ trimSpace perm = "")) := by
  have read (permission : String) : readParts sep kind perm = some ⟨"skill", permission⟩ ↔
      trimSpace kind = "skill" ∧ sep ∉ perm.toList ∧ trimSpace perm ≠ "" ∧
        trimSpace perm = permission := by
    unfold readParts
    split_ifs with taken
    · simp [taken]
    · simp only [false_iff]
      rintro ⟨skill, free, some, _⟩
      exact taken ⟨free, by simp [skill, knownIAMResources], some⟩
  simp only [read]
  by_cases skill : kind = "skill"
  · have trims : trimSpace "skill" = "skill" := rfl
    simp only [skill, trims, true_and, not_true_eq_false, ne_eq, false_and, false_or, or_false]
    constructor
    · intro same
      by_cases empty : perm = ""
      · subst empty
        exact ⟨by simp, rfl⟩
      · have found := (same perm).mp ⟨empty, rfl⟩
        exact ⟨found.1, found.2.2⟩
    · rintro ⟨free, trimmed⟩ permission
      simp [free, trimmed]
  · constructor
    · intro same
      have none := (same (trimSpace perm)).not.mp fun found => skill found.1
      tauto
    · intro apart permission
      refine iff_of_false (fun found => skill found.1) ?_
      tauto

theorem skillPermission_of_parts
    (cuts : (cut (trimSpace c) ':').or (cut c '.') = some (kind, perm)) (permission : String) :
    skillPermission c = some permission ↔ kind = "skill" ∧ perm ≠ "" ∧ perm = permission := by
  rw [skillPermission, capabilityParts, cuts]
  by_cases skill : kind = "skill"
  · by_cases blank : perm = "" <;> simp [Option.filter, skill, blank]
  · by_cases blank : kind ≠ "" ∧ perm ≠ "" <;> simp [Option.filter, skill, blank]

theorem readsAlike_iff (c : String) : readsAlike c = true ↔ ∀ permission,
    skillPermission c = some permission ↔
      parseAgentIAMCapability c = some ⟨"skill", permission⟩ := by
  have reads (sep kind perm) (chosen : (if ':' ∈ c.toList then ':' else '.') = sep)
      (cuts : (cut (trimSpace c) ':').or (cut c '.') = some (kind, perm))
      (read : parseAgentIAMCapability c = readParts sep kind perm) :
      readsAlike c = true ↔ ∀ permission, skillPermission c = some permission ↔
        parseAgentIAMCapability c = some ⟨"skill", permission⟩ := by
    simp only [skillPermission_of_parts cuts, read, readParts_alike]
    simp [readsAlike, cuts, chosen]
  obtain ⟨free, uncut⟩ | ⟨kind, perm, shape, cuts, _⟩ := cut_cases (trimSpace c) ':'
  · rw [mem_trimSpace rfl] at free
    obtain ⟨bare, whole⟩ | ⟨kind, perm, _, cuts, _⟩ := cut_cases c '.'
    · have single : split (trimSpace c) ':' = [trimSpace c] :=
        split_of_not_mem fun member => free ((mem_trimSpace rfl).mp member)
      have count : (trimSpace c).toList.count '.' = 0 := by
        rw [count_trimSpace rfl, List.count_eq_zero.mpr bare]
      simp [readsAlike, skillPermission, capabilityParts, uncut, whole, parseAgentIAMCapability,
        count, single]
    · exact reads _ _ _ (if_neg free) (by rw [uncut, Option.none_or, cuts]) (parse_dot free cuts)
  · have colon : ':' ∈ c.toList := (mem_trimSpace rfl).mp (by simp [shape])
    exact reads _ _ _ (if_pos colon) (by rw [cuts, Option.some_or]) (parse_colon cuts)

theorem projected_only (only : t.definition.capabilities = [c]) (permission : String) :
    (∃ schema, sandboxSchemaFromCatalogTool t = .ok schema ∧ schema.privileged = true ∧
      schema.permission = permission) ↔ skillPermission c = some permission := by
  rw [sandboxSchemaFromCatalogTool, only]
  simp only [List.foldlM_cons, List.foldlM_nil, bind_pure, addCapability_eq_ok]
  constructor
  · rintro ⟨_, ⟨_, spelled, rfl⟩, _, rfl⟩
    exact spelled
  · intro spelled
    exact ⟨_, ⟨permission, spelled, rfl⟩, rfl, rfl⟩

/-- A capability stands for the same permission on skills in a sandbox and in a run exactly when
its parts are read alike. -/
theorem capability_meanings_agree_iff (c : String) :
    (∀ t : Tool, t.definition.capabilities = [c] → ∀ permission,
      (∃ schema, sandboxSchemaFromCatalogTool t = .ok schema ∧ schema.privileged = true ∧
        schema.permission = permission) ↔
      parseAgentIAMCapability c = some ⟨"skill", permission⟩) ↔ readsAlike c = true := by
  rw [readsAlike_iff]
  constructor
  · intro agree permission
    rw [← agree (toolWith [c]) rfl permission, projected_only rfl]
  · intro agree t only permission
    rw [projected_only only, agree]

theorem padded_capability_agrees :
    parseAgentIAMCapability " skill:view " = some ⟨"skill", "view"⟩ :=
  ((capability_meanings_agree_iff " skill:view ").mpr (by decide +kernel)
    (toolWith [" skill:view "]) rfl "view").mp
      ⟨⟨"skill.release", true, "view"⟩, by decide +kernel, rfl, rfl⟩

/-- A second colon is part of the permission in a sandbox and an error in a run; white space before
a dotted capability is an error in a sandbox only. -/
theorem capability_meanings_differ :
    sandboxSchemaFromCatalogTool (toolWith ["skill:view:all"]) =
      .ok { name := "skill.release", privileged := true, permission := "view:all" } ∧
    parseAgentIAMCapability "skill:view:all" = none ∧
    (sandboxSchemaFromCatalogTool (toolWith [" skill.view"])).isOk = false ∧
    parseAgentIAMCapability " skill.view" = some ⟨"skill", "view"⟩ := by
  decide +kernel

open GoJson (Json Decimal)

section Surface

variable (decode : Json Decimal → ToolDefinition) (a : ToolReadAnswer) (subject : AuthzSubjectRef)
  (orgID : String)

/-- `toolModelToBiz` and `toolVersionModelToBiz`, as far as the projection reads a tool; `decode` is
how `encoding/json` reads a definition. -/
def StoredTool.load (t : StoredTool) : Tool where
  id := t.row.toolID
  latestVersion := t.row.latestVersion
  versions := t.versions.map fun v =>
    (v.version, { version := v.version, definition := decode v.definitionJSON })

/-- `sandboxToolSurface` from the catalog, which is asked for one page. -/
def catalogSurface (h : ToolHub) (principal : CatalogPrincipal) :
    Except HubError (List SandboxToolSchema) :=
  (listTools a h principal { limit := 200 }).map fun out =>
    sandboxToolSurface (out.1.map (StoredTool.load decode))

def liveTools (c : ToolCatalog) : List StoredTool :=
  ((c.tools.filter ToolRow.live).insertionSort fun r s => r.toolID ≤ s.toolID).map fun row =>
    ⟨row, c.versions.filter fun v => v.toolID = row.toolID⟩

def StoredTool.visible (t : StoredTool) : Bool :=
  t.row.exempt || a.check subject (toolResource t.row.toolID) "view" orgID = .allowed

def visibleSchemas (tools : List StoredTool) : List SandboxToolSchema :=
  sandboxToolSurface ((tools.filter (StoredTool.visible a subject orgID)).map (StoredTool.load decode))

theorem visibleSchemas_append (first second : List StoredTool) :
    visibleSchemas decode a subject orgID (first ++ second) =
      visibleSchemas decode a subject orgID first ++ visibleSchemas decode a subject orgID second := by
  simp [visibleSchemas, sandboxToolSurface]

variable {a subject} {principal : CatalogPrincipal} (h : ToolHub)

theorem list_page (c : ToolCatalog) : (ToolRepo.list c { limit := 200 }).1 = (liveTools c).take 200 := by
  have live : ToolRepo.listed c { limit := 200 } = ToolRow.live := by
    funext r
    simp [ToolRepo.listed, show trimSpace "" = "" from rfl]
  simp [ToolRepo.list, ToolRepo.pageLimit, live, liveTools, List.take_take, List.map_take]

theorem listTools_shows (opts : ToolListOptions) (works : a.fault = none ∧ a.batchFault = none)
    (known : canonicalSubject principal.toPrincipal = .ok subject) :
    ∃ out, listTools a h principal opts = .ok out ∧ out.1.Perm
      ((ToolRepo.list h.catalog opts).1.filter (StoredTool.visible a subject principal.orgID)) := by
  unfold listTools
  rw [works.1, works.2, known]
  generalize ToolRepo.list h.catalog opts = page
  dsimp only
  split_ifs with empty unchecked
  · exact ⟨_, rfl, by simp [empty]⟩
  · refine ⟨_, rfl, ?_⟩
    rw [List.filter_eq_self.mpr]
    intro t member
    have exempt : t.row.exempt = true := by simpa using List.filter_eq_nil_iff.mp unchecked t member
    simp [StoredTool.visible, exempt]
  · refine ⟨_, rfl, .trans (.of_eq ?_) (List.filter_append_perm (fun t => t.row.exempt) _)⟩
    simp only [List.filter_filter]
    congr 1
    all_goals
      refine List.filter_congr fun t _ => ?_
      cases exempt : t.row.exempt <;> simp [StoredTool.visible, exempt]

theorem catalogSurface_first_page (works : a.fault = none ∧ a.batchFault = none)
    (known : canonicalSubject principal.toPrincipal = .ok subject) :
    ∃ surface, catalogSurface decode a h principal = .ok surface ∧ surface.Perm
      (visibleSchemas decode a subject principal.orgID ((liveTools h.catalog).take 200)) := by
  obtain ⟨out, listed, shown⟩ := listTools_shows h { limit := 200 } works known
  rw [list_page] at shown
  exact ⟨_, by rw [catalogSurface, listed]; rfl, (shown.map _).filterMap _⟩

/-- The surface has one schema for every live tool that is visible and well formed, each of which a
call then finds, exactly when there is none such after the first 200 live tools. -/
theorem surface_complete_iff (decode : Json Decimal → ToolDefinition) (a : ToolReadAnswer)
    (works : a.fault = none ∧ a.batchFault = none) (h : ToolHub) (principal : CatalogPrincipal)
    (subject : AuthzSubjectRef) (known : canonicalSubject principal.toPrincipal = .ok subject) :
    ∃ surface, catalogSurface decode a h principal = .ok surface ∧
      ((surface.Perm (visibleSchemas decode a subject principal.orgID (liveTools h.catalog)) ∧
        ∀ schema ∈ visibleSchemas decode a subject principal.orgID (liveTools h.catalog),
          (surface.find? fun s => s.name = schema.name).isSome) ↔
        visibleSchemas decode a subject principal.orgID ((liveTools h.catalog).drop 200) = []) := by
  obtain ⟨surface, shown, first⟩ := catalogSurface_first_page decode h works known
  have whole := visibleSchemas_append decode a subject principal.orgID
    ((liveTools h.catalog).take 200) ((liveTools h.catalog).drop 200)
  rw [List.take_append_drop] at whole
  refine ⟨surface, shown, fun complete => ?_, fun none => ?_⟩
  · have lengths := complete.1.length_eq
    rw [whole, List.length_append, first.length_eq] at lengths
    exact List.length_eq_zero_iff.mp (Nat.left_eq_add.mp lengths)
  · rw [none, List.append_nil] at whole
    refine ⟨whole ▸ first, fun schema member => ?_⟩
    rw [List.find?_isSome]
    exact ⟨schema, first.mem_iff.mpr (whole ▸ member), by simp⟩

def sharedTool (id : String) : ToolRow := toolBizToModel { id := id, scope := "system" } 0

/-- A catalog of numbered system tools. -/
def sharedTools (count : Nat) : ToolHub where
  catalog := { tools := (List.range count).map fun n => sharedTool ("shared-" ++ toString n) }

def plainUser : CatalogPrincipal := { toPrincipal := ⟨"user", "bob", ""⟩ }

def sharedSchemas (count : Nat) : List SandboxToolSchema :=
  visibleSchemas (fun _ => {}) {} ⟨"user", "bob", ""⟩ "" (liveTools (sharedTools count).catalog)

theorem small_catalog_surfaces : ∃ surface,
    catalogSurface (fun _ => {}) {} (sharedTools 2) plainUser = .ok surface ∧
      surface.Perm (sharedSchemas 2) := by
  obtain ⟨surface, shown, complete⟩ := surface_complete_iff (fun _ => {}) {} ⟨rfl, rfl⟩ (sharedTools 2)
    plainUser ⟨"user", "bob", ""⟩ (by decide +kernel)
  exact ⟨surface, shown, (complete.mpr (by decide +kernel)).1⟩

theorem sharedSchemas_length (count : Nat) : (sharedSchemas count).length = count := by
  have plain : ∀ t ∈ liveTools (sharedTools count).catalog, ∃ id, t.row = sharedTool id := by
    simp only [liveTools, sharedTools, List.mem_map, List.mem_insertionSort, List.mem_filter]
    rintro _ ⟨_, ⟨⟨n, _, rfl⟩, _⟩, rfl⟩
    exact ⟨_, rfl⟩
  have projected : sharedSchemas count =
      (liveTools (sharedTools count).catalog).map fun t => { name := t.row.toolID } := by
    rw [sharedSchemas, visibleSchemas, List.filter_eq_self.mpr, sandboxToolSurface,
      List.filterMap_map, ← List.filterMap_eq_map]
    · refine List.filterMap_congr fun t member => ?_
      obtain ⟨id, same⟩ := plain t member
      simp [sandboxSchemaFromCatalogTool, StoredTool.load, Tool.definition, ToolDefinition.capabilities,
        same, sharedTool, toolBizToModel, Except.toOption, pure, Except.pure]
    · intro t member
      obtain ⟨id, same⟩ := plain t member
      rw [StoredTool.visible, same]
      rfl
  have live : ∀ r ∈ (sharedTools count).catalog.tools, r.live = true := by
    simp [sharedTools, sharedTool, ToolRow.live, toolBizToModel]
  rw [projected, List.length_map, liveTools, List.length_map, List.length_insertionSort,
    List.filter_eq_self.mpr live]
  simp [sharedTools]

/-- Of 201 system tools the surface has at most 200. -/
theorem tool_past_page_missing : ∃ surface,
    catalogSurface (fun _ => {}) {} (sharedTools 201) plainUser = .ok surface ∧ surface.length ≤ 200 ∧
      (sharedSchemas 201).length = 201 := by
  obtain ⟨surface, shown, first⟩ := catalogSurface_first_page (a := {})
    (fun _ => {}) (sharedTools 201) ⟨rfl, rfl⟩ (show canonicalSubject plainUser.toPrincipal = _ from rfl)
  refine ⟨surface, shown, ?_, sharedSchemas_length 201⟩
  calc surface.length
      ≤ ((liveTools (sharedTools 201).catalog).take 200).length :=
        first.length_eq.trans_le ((List.length_filterMap_le _ _).trans
          ((List.length_map _).trans_le (List.length_filter_le _ _)))
    _ ≤ 200 := List.length_take_le _ _

end Surface

end AisphereHub
