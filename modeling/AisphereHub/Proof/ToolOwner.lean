import AisphereHub.Proof.ToolCalls
import AisphereHub.Service.ToolService

/-! The tuple that makes a creator the owner, against the object that uses are checked on. -/
namespace AisphereHub

open GoStrings (trimSpace)

variable {φ : Type} [DecidableEq φ] {C : ToolCodec φ}

/-- The owner has every permission on the object that the tuple names, and there is nothing
else. -/
def ownerGrants (tuple : AuthzRelationship) : SpiceDB :=
  fun subject resource _ _ => if tuple = ⟨resource, "owner", subject⟩ then .allowed else .denied

def CanUse (spice : SpiceDB) (h : ToolHub) (principal : CatalogPrincipal) (id : String) : Prop :=
  ∀ m : ToolMethod, m.policy spice principal id = .allowed ∧
    (m.usecase spice h principal id).isOk = true

theorem toolAuthzObjectID_eq_self {id} : toolAuthzObjectID id = id ↔ '.' ∉ id.toList := by
  constructor
  · intro same
    rw [← same]
    exact GoStrings.not_mem_replaceChar (by decide)
  · exact GoStrings.replaceChar_of_not_mem '/'

section Owner

variable {h : ToolHub} {principal : CatalogPrincipal} {subject : AuthzSubjectRef} {id : String}
  {out : StoredTool}

theorem answer_ownerGrants (canonical : canonicalSubject principal.toPrincipal = .ok subject)
    (resource : AuthzObjectRef) (permission : String) :
    (ownerGrants ⟨toolResource id, "owner", subject⟩).answer principal resource permission = .allowed ↔
      toolResource id = resource := by
  rw [SpiceDB.answer, canonical]
  simp [ownerGrants]

theorem policy_passes_iff (canonical : canonicalSubject principal.toPrincipal = .ok subject)
    (m : ToolMethod) :
    m.policy (ownerGrants ⟨toolResource id, "owner", subject⟩) principal id = .allowed ↔
      '.' ∉ id.toList := by
  rw [ToolMethod.policy, answer_ownerGrants canonical, toolResource, policyResource,
    AuthzObjectRef.mk.injEq, toolAuthzObjectID_eq_self]
  simp

theorem toolResource_trimSpace : toolResource id = toolResource (trimSpace id) ↔ trimSpace id = id := by
  constructor
  · intro same
    have length := congrArg (fun resource => resource.id.length) same
    simp only [toolResource, toolAuthzObjectID, GoStrings.length_replaceChar] at length
    exact GoStrings.trimSpace_eq_self_of_length length.symm
  · intro trimmed
    rw [trimmed]

theorem getTool_owner_iff (canonical : canonicalSubject principal.toPrincipal = .ok subject)
    (read : ToolRepo.get h.catalog id "" = .ok out) :
    (getTool { check := ownerGrants ⟨toolResource id, "owner", subject⟩ } h principal id "").isOk = true ↔
      trimSpace id = id ∨ out.row.exempt = true := by
  have named : out.row.toolID = trimSpace id := toolID_of_live (get_eq_ok read).1
  unfold getTool
  rw [read]
  dsimp only
  split_ifs with exempt
  · exact iff_of_true rfl (.inr exempt)
  rw [canonical]
  dsimp only
  rw [named, ownerGrants, ← toolResource_trimSpace, or_iff_left exempt]
  by_cases same : toolResource id = toolResource (trimSpace id)
  · rw [if_pos (by rw [same])]
    exact iff_of_true rfl same
  · rw [if_neg (by simp [same])]
    exact iff_of_false (fun fine => nomatch fine) same

end Owner

/-- After a creation the creator can use the tool exactly when its id has no dots, and no
blanks around it unless it stands in for an exempt tool. -/
theorem owner_can_use_iff (C : ToolCodec φ) (a : ToolCallAnswer) (h h' : ToolHub)
    (principal : CatalogPrincipal) (t : Tool) (out : StoredTool)
    (created : createTool C a h principal t = (h', .ok out)) :
    ∃ subject, canonicalSubject principal.toPrincipal = .ok subject ∧
      ⟨toolResource t.id, "owner", subject⟩ ∈ h'.tuples ∧
      (CanUse (ownerGrants ⟨toolResource t.id, "owner", subject⟩) h' principal t.id ↔
        '.' ∉ t.id.toList ∧ (trimSpace t.id = t.id ∨ out.row.exempt = true)) := by
  obtain ⟨_, _, read, subject, canonical, owned⟩ := createTool_eq_ok created
  refine ⟨subject, canonical, owned, ?_⟩
  constructor
  · intro uses
    exact ⟨(policy_passes_iff canonical .get).mp (uses .get).1,
      (getTool_owner_iff canonical read).mp (uses .get).2⟩
  · rintro ⟨undotted, named⟩ m
    refine ⟨(policy_passes_iff canonical m).mpr undotted, ?_⟩
    cases m with
    | get => exact (getTool_owner_iff canonical read).mpr named
    | update | delete =>
      have allowed := fun p => (answer_ownerGrants canonical (toolResource t.id) p).mpr rfl
      simp only [ToolMethod.usecase, readTool, read]
      split_ifs
      · rw [canonical, allowed]
        rfl
      · rfl

theorem undotted_tool_usable :
    ∃ h' out subject, createTool hexCodec {} {} adaOfAcme (userTool "notes" "v1") = (h', .ok out) ∧
      canonicalSubject adaOfAcme.toPrincipal = .ok subject ∧
      CanUse (ownerGrants ⟨toolResource "notes", "owner", subject⟩) h' adaOfAcme "notes" := by
  obtain ⟨out, result⟩ := exists_of_isOk (by decide +kernel :
    (createTool hexCodec {} {} adaOfAcme (userTool "notes" "v1")).2.isOk = true)
  have created : createTool hexCodec {} {} adaOfAcme (userTool "notes" "v1") = (_, .ok out) :=
    Prod.ext rfl result
  obtain ⟨subject, canonical, _, uses⟩ := owner_can_use_iff hexCodec {} {} _ adaOfAcme _ out created
  exact ⟨_, out, subject, created, canonical, uses.mpr ⟨by decide, .inl (by decide +kernel)⟩⟩

/-- The owner of a tool with a dot in its id is refused by every policy. -/
theorem dotted_tool_refused :
    ∃ h' out subject, createTool hexCodec {} {} adaOfAcme (userTool "notes.search" "v1") = (h', .ok out) ∧
      canonicalSubject adaOfAcme.toPrincipal = .ok subject ∧
      ⟨toolResource "notes.search", "owner", subject⟩ ∈ h'.tuples ∧
      ToolMethod.get.policy (ownerGrants ⟨toolResource "notes.search", "owner", subject⟩) adaOfAcme
        "notes.search" = .denied ∧
      ToolMethod.update.policy (ownerGrants ⟨toolResource "notes.search", "owner", subject⟩) adaOfAcme
        "notes.search" = .denied ∧
      ToolMethod.delete.policy (ownerGrants ⟨toolResource "notes.search", "owner", subject⟩) adaOfAcme
        "notes.search" = .denied := by
  obtain ⟨out, result⟩ := exists_of_isOk (by decide +kernel :
    (createTool hexCodec {} {} adaOfAcme (userTool "notes.search" "v1")).2.isOk = true)
  refine ⟨_, out, { type := "user", id := "ada" }, Prod.ext rfl result, ?_⟩
  decide +kernel

end AisphereHub
