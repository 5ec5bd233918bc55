import AisphereHub.Server.AgentResolver
import Mathlib.Data.List.Dedup

/-! A tool binding without an approval mode, against what its definition asks for. -/
namespace AisphereHub

open GoJson Transition
open GoStrings (trimSpace)

variable {φ : Type} [DecidableEq φ] {C : ToolCodec φ}

def StoredDefinition (c : ToolCatalog) (id version : String) (d : ToolDefinition) : Prop :=
  ∃ row, findToolVersion c.versions id version = some row ∧ d.marshal = .ok row.definitionJSON

instance decidableStoredDefinition (c : ToolCatalog) (id version : String) (d : ToolDefinition) :
    Decidable (StoredDefinition c id version d) :=
  decidable_of_iff ((findToolVersion c.versions id version).any fun row =>
      decide (d.marshal = .ok row.definitionJSON)) (by
    simp only [StoredDefinition, Option.any_eq_true, decide_eq_true_eq])

/-- The capabilities a resolved tool is to have: those of the definition trimmed, each once
and in order. -/
def dueCapabilities (d : ToolDefinition) : List String :=
  ((d.capabilities.map trimSpace).filter (· ≠ "")).dedup.insertionSort (· ≤ ·)

theorem dueCapabilities_eq_nil :
    dueCapabilities d = [] ↔ ∀ capability ∈ d.capabilities, trimSpace capability = "" := by
  simp only [dueCapabilities, List.eq_nil_iff_forall_not_mem, List.mem_insertionSort,
    List.mem_dedup, List.mem_filter, List.mem_map, decide_eq_true_eq]
  constructor
  · intro empty capability member
    by_contra filled
    exact empty _ ⟨⟨capability, member, rfl⟩, filled⟩
  · intro blank text listed
    obtain ⟨⟨capability, member, rfl⟩, filled⟩ := listed
    exact filled (blank capability member)

/-- A binding without a mode is resolved as the definition asks exactly when it asks for
nothing. -/
theorem tool_consent_iff (C : ToolCodec φ) (c e : ToolCatalog)
    (calls : List (ToolWrite × ToolAnswer)) (a : ResolverAnswer) (principal : Principal)
    (binding : AgentToolBinding) (d : ToolDefinition) (r : ResolvedAgentTool φ)
    (stored : StoredDefinition c binding.name r.version d)
    (later : run (toolStep C) c calls = some e)
    (resolved : resolveTool C.floats a e principal binding = .ok r)
    (unset : normalizeApprovalMode binding.approvalMode = none) :
    r.capabilities = dueCapabilities d ∧
        r.binding.approvalMode = (defaultApprovalMode (dueCapabilities d)).text ↔
      ∀ capability ∈ d.capabilities, trimSpace capability = "" := by
  obtain ⟨first, held, encoded⟩ := stored
  obtain ⟨row, found, same⟩ := toolRun_keeps later _ _ first held
  rw [← same] at encoded
  obtain ⟨row', definition, read⟩ := resolveTool_eq_ok resolved
  cases found.symm.trans read.found
  have none : r.capabilities = [] := by
    obtain ⟨members, same, names⟩ := marshal_eq_ok encoded
    have absent : "execution" ∉ members.map Prod.fst := by
      rw [names]
      decide
    rw [read.capabilities, extractToolCapabilities,
      lookup_unmarshalMembers C.floats absent (same ▸ read.decoded)]
    rfl
  have mode := read.mode
  rw [unset, none] at mode
  rw [none, mode, ← dueCapabilities_eq_nil]
  constructor
  · intro asked
    exact asked.1.symm
  · intro nothing
    rw [nothing]
    exact ⟨rfl, rfl⟩

def plainCodec : ToolCodec Int where
  floats := ⟨fun n => if n.exponent = 0 then some n.mantissa else none, fun n => toString n⟩
  sha256Hex _ := "0123456789abcdef"

def seedDefinition (id : String) (capabilities : List String) : ToolDefinition where
  runtime := { type := "builtin", name := id }
  execution := some { placement := "runtime", capabilities := some capabilities }

def seedTool (id : String) (capabilities : List String) : Tool where
  id := id
  status := "builtin"
  scope := "system"
  latestVersion := "v1"
  versions := [("v1", { version := "v1", definition := seedDefinition id capabilities })]

def seeded (id : String) (capabilities : List String) : ToolCatalog :=
  (ToolRepo.upsertBuiltin plainCodec {} {} (seedTool id capabilities)).1

theorem workspace_read_needs_no_consent :
    ∃ e r, run (toolStep plainCodec) (seeded "workspace.read" [" "])
        [(.upsertBuiltin (seedTool "skill.pull" ["skill:view"]), {}), (.delete "skill.pull", {})] =
          some e ∧
      resolveTool plainCodec.floats {} e { subjectType := "user", subjectID := "ada" }
        { name := "workspace.read" } = .ok r ∧
      r.capabilities = dueCapabilities (seedDefinition "workspace.read" [" "]) ∧
      r.binding.approvalMode =
        (defaultApprovalMode (dueCapabilities (seedDefinition "workspace.read" [" "]))).text := by
  simp only [exists_and_left]
  refine exists_run (P := fun e => ∃ r, resolveTool plainCodec.floats {} e
      { subjectType := "user", subjectID := "ada" } { name := "workspace.read" } = .ok r ∧
      r.version = "v1") (by decide +kernel) fun e ran facts => ?_
  obtain ⟨r, resolved, version⟩ := facts
  refine ⟨r, resolved, (tool_consent_iff plainCodec (seeded "workspace.read" [" "]) e _ {} _
    { name := "workspace.read" } _ r ?_ ran resolved (by decide +kernel)).mpr (by decide +kernel)⟩
  rw [version]
  decide +kernel

/-- A seeded tool with a capability is bound without consent, and its capability is lost. -/
theorem skill_publish_needs_no_consent :
    StoredDefinition (seeded "skill.publish" ["skill:publish"]) "skill.publish" "v1"
        (seedDefinition "skill.publish" ["skill:publish"]) ∧
      dueCapabilities (seedDefinition "skill.publish" ["skill:publish"]) = ["skill:publish"] ∧
      ∃ r, resolveTool plainCodec.floats {} (seeded "skill.publish" ["skill:publish"])
          { subjectType := "user", subjectID := "ada" } { name := "skill.publish" } = .ok r ∧
        r.version = "v1" ∧ r.capabilities = [] ∧ r.binding.approvalMode = "always" := by
  decide +kernel

end AisphereHub
