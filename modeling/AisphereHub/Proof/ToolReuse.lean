import AisphereHub.Proof.ToolCalls

/-! A tool created under the id of a deleted one. -/
namespace AisphereHub

open GoJson Transition
open GoStrings (trimSpace)

variable {φ : Type} [DecidableEq φ] {C : ToolCodec φ}

/-- A request to `CreateTool` that is refused for nothing but what the catalog holds, made
while all dependencies work. -/
structure ToolAcceptable (C : ToolCodec φ) (a : ToolCallAnswer) (principal : CatalogPrincipal)
    (t : Tool) : Prop where
  valid : validateToolForCreate t = .ok ()
  org : trimSpace t.orgID = "" ∨ trimSpace t.orgID = principal.orgID
  subject : ∃ subject, canonicalSubject principal.toPrincipal = .ok subject
  insertable : Insertable C a.write.now (t.stamped principal)
  writes : a.write.fault = none
  reads : a.write.readFault = none
  grants : a.grantFault = none

section Create

variable {a : ToolCallAnswer} {h h' : ToolHub} {principal : CatalogPrincipal} {t : Tool}
  {out : StoredTool}

theorem toolAuthzObjectID_ne_empty {id} (named : id ≠ "") : toolAuthzObjectID id ≠ "" := by
  intro empty
  have length := congrArg String.length empty
  rw [toolAuthzObjectID, GoStrings.length_replaceChar] at length
  exact named (String.length_eq_zero_iff.mp length)

theorem grantToolOwner_succeeds {id} (out : StoredTool)
    (canonical : canonicalSubject principal.toPrincipal = .ok subject) (named : id ≠ "")
    (works : a.grantFault = none) : (grantToolOwner a h principal id out).2.isOk = true := by
  obtain ⟨typed, filled⟩ := canonicalSubject_eq_ok canonical
  have written : writeRelationships h.tuples [⟨toolResource id, "owner", subject⟩] a.grantFault =
      .ok (touch h.tuples ⟨toolResource id, "owner", subject⟩) := by
    refine writeRelationships_eq_ok.mpr ⟨?_, works, rfl⟩
    intro r member
    cases List.mem_singleton.mp member
    exact validateRelationship_ok (by decide) (toolAuthzObjectID_ne_empty named) (by decide) typed filled
  unfold grantToolOwner
  rw [canonical]
  dsimp only
  rw [written]
  rfl

omit [DecidableEq φ] in
theorem ToolAcceptable.named (acceptable : ToolAcceptable C a principal t) : t.id ≠ "" := by
  intro empty
  have valid := validToolID_of_valid acceptable.valid
  rw [empty] at valid
  exact absurd valid (by decide)

/-- An acceptable tool is created exactly when no live tool has its id and its versions are
new or adopted. -/
theorem createTool_ok_iff (acceptable : ToolAcceptable C a principal t) :
    (createTool C a h principal t).2.isOk = true ↔ liveTool h.catalog.tools t.id = none ∧
        ∀ entry ∈ t.versions, Adoptable C h.catalog.versions t.id entry.2 := by
  have stored : (ToolRepo.create C a.write h.catalog (t.stamped principal)).2.isOk = true ↔ _ :=
    create_ok_iff acceptable.insertable acceptable.writes acceptable.reads
  refine Iff.trans ?_ stored
  have sameOrg : ¬(trimSpace t.orgID ≠ "" ∧ trimSpace t.orgID ≠ principal.orgID) := by
    rintro ⟨given, other⟩
    exact acceptable.org.elim given other
  obtain ⟨subject, canonical⟩ := acceptable.subject
  unfold createTool
  rw [acceptable.valid]
  dsimp only
  rw [if_neg sameOrg]
  cases made : ToolRepo.create C a.write h.catalog (t.stamped principal) with | mk catalog out
  dsimp only [Tool.stamped] at made
  rw [made]
  cases out with
  | error e => exact Iff.rfl
  | ok out =>
    exact iff_of_true (grantToolOwner_succeeds out canonical acceptable.named acceptable.grants) rfl

end Create

/-- A tool is shown with a version whose label was stored under its id before. -/
def Inherits (c : ToolCatalog) (out : StoredTool) : Prop :=
  ∃ v ∈ out.versions, ∃ old ∈ c.versions, old.key = v.key

/-- A creation succeeds, and from then on nothing that was stored before it is shown. -/
structure StartsClean (C : ToolCodec φ) (a : ToolCallAnswer) (h : ToolHub)
    (principal : CatalogPrincipal) (t : Tool) : Prop where
  succeeds : (createTool C a h principal t).2.isOk = true
  got : ∀ later h', run (toolHubStep C) (createTool C a h principal t).1 later = some h' →
    ∀ b reader version out, getTool b h' reader t.id version = .ok out → ¬Inherits h.catalog out
  listed : ∀ later h', run (toolHubStep C) (createTool C a h principal t).1 later = some h' →
    ∀ b reader opts tools next, listTools b h' reader opts = .ok (tools, next) →
      ∀ out ∈ tools, out.row.toolID = t.id → ¬Inherits h.catalog out

/-- In every catalog an acceptable creation starts clean exactly when its id has neither a
live tool nor a version. -/
theorem reused_tool_clean_iff (C : ToolCodec φ) (a : ToolCallAnswer) (h : ToolHub)
    (principal : CatalogPrincipal) (t : Tool) (acceptable : ToolAcceptable C a principal t) :
    StartsClean C a h principal t ↔
      liveTool h.catalog.tools t.id = none ∧ ∀ v ∈ h.catalog.versions, v.toolID ≠ t.id := by
  have trimmed : trimSpace t.id = t.id := acceptable.insertable.trimmed
  constructor
  · intro clean
    obtain ⟨out, result⟩ := exists_of_isOk clean.succeeds
    have created : createTool C a h principal t = (_, .ok out) := Prod.ext rfl result
    obtain ⟨_, free, read, subject, canonical, _⟩ := createTool_eq_ok created
    refine ⟨free, fun v member same => ?_⟩
    -- Read by the creator, with every permission.
    have got : getTool {} (createTool C a h principal t).1 principal t.id "" = .ok out := by
      unfold getTool
      rw [read]
      dsimp only
      rw [canonical]
      split_ifs <;> rfl
    obtain ⟨v', stored, key⟩ := (createTool_reaches (C := C) a h principal t).keeps.mem member
    obtain ⟨row, versions⟩ := get_eq_ok read
    have named : out.row.toolID = t.id := (toolID_of_live row).trans trimmed
    refine clean.got [] _ rfl {} principal "" out got ⟨v', ?_, v, member, key.symm⟩
    rw [versions]
    refine List.mem_filter.mpr ⟨stored, ?_⟩
    simp [(Prod.mk.inj key).1, same, named]
  · rintro ⟨free, unused⟩
    have foreign : ∀ out : StoredTool, out.row.toolID = t.id →
        (∀ v ∈ out.versions, v.toolID = out.row.toolID) → ¬Inherits h.catalog out := by
      rintro out named same ⟨v, shown, old, stored, key⟩
      exact unused old stored ((Prod.mk.inj key).1.trans ((same v shown).trans named))
    refine ⟨(createTool_ok_iff acceptable).mpr ⟨free, ?_⟩, ?_, ?_⟩
    · intro entry _ existing stored
      obtain ⟨id, _⟩ := key_of_found stored
      exact absurd id (unused existing (Keyed.mem_of_lookup stored))
    · intro later h' _ b reader version out got
      obtain ⟨live, versions⟩ := get_eq_ok (getTool_eq_ok got).1
      refine foreign out ((toolID_of_live live).trans trimmed) fun v shown => ?_
      rw [versions] at shown
      have both := (List.mem_filter.mp shown).2
      simp only [Bool.and_eq_true, decide_eq_true_eq] at both
      exact both.1
    · intro later h' _ b reader opts tools next listed out member named
      obtain ⟨_, _, versions⟩ := mem_list (listTools_eq_ok listed member).1
      refine foreign out named fun v shown => ?_
      rw [versions] at shown
      exact of_decide_eq_true (List.mem_filter.mp shown).2

def bobOfBeta : CatalogPrincipal := { subjectType := "user", subjectID := "bob", orgID := "beta" }

def retiredNotes : List (ToolCall × ToolCallAnswer) :=
  [(.create adaOfAcme (userTool "notes.search" "v1"), {}), (.delete adaOfAcme "notes.search", {})]

theorem notes_index_acceptable :
    ToolAcceptable hexCodec {} bobOfBeta (userTool "notes.index" "v1") where
  valid := by decide +kernel
  org := .inl (by decide +kernel)
  subject := ⟨{ type := "user", id := "bob" }, by decide +kernel⟩
  insertable := {
    row := by decide +kernel
    versions := by
      rw [Tool.stamped, userTool, List.forall_mem_singleton]
      refine ⟨{
        toolID := "notes.index"
        version := "v1"
        revision := "000000000000"
        sha256 := hexCodec.sha256Hex .null
        author := ""
        commitMsg := ""
        definitionJSON := _
        createdAt := 0 }, rfl, by decide +kernel, by decide +kernel⟩
    labels := by decide
    trimmed := by decide +kernel }
  writes := rfl
  reads := rfl
  grants := rfl

theorem new_id_starts_clean :
    ∃ h, run (toolHubStep hexCodec) {} retiredNotes = some h ∧
      StartsClean hexCodec {} h bobOfBeta (userTool "notes.index" "v1") := by
  refine exists_run (P := fun h => liveTool h.catalog.tools "notes.index" = none ∧
      ∀ v ∈ h.catalog.versions, v.toolID ≠ "notes.index") (by decide +kernel) fun h _ free => ?_
  exact (reused_tool_clean_iff hexCodec {} h bobOfBeta _ notes_index_acceptable).mpr free

def httpTool (id label : String) : Tool where
  id := id
  latestVersion := label
  versions := [(label, { version := label, definition := { runtime := { type := "http" } } })]

/-- Under the id of a deleted tool, a definition of the next owner is refused, or shown beside
the one of the first. -/
theorem earlier_versions_return :
    ∃ h, run (toolHubStep hexCodec) {} retiredNotes = some h ∧
      (createTool hexCodec {} h bobOfBeta (httpTool "notes.search" "v1")).2 =
        .error ⟨.TOOL_VERSION_CONFLICT, "tool \"notes.search\" version \"v1\""⟩ ∧
      (createTool hexCodec {} h bobOfBeta (httpTool "notes.search" "v2")).2.isOk = true ∧
      ∃ out, getTool {} (createTool hexCodec {} h bobOfBeta (httpTool "notes.search" "v2")).1 bobOfBeta
          "notes.search" "" = .ok out ∧
        ∃ v ∈ out.versions, v ∈ h.catalog.versions := by
  decide +kernel

end AisphereHub
