import AisphereHub.Proof.ToolCalls
import AisphereHub.Server.AgentResolver
import AisphereHub.Service.ToolService

/-! Tools that are used without a permission. The calls on the catalog and the resolver pass
over the check of a tool whose row has the scope `system` or the status `builtin`, and the
owner of a tool writes both. -/
namespace AisphereHub

open GoJson Transition
open GoStrings (trimSpace)

variable {φ : Type} [DecidableEq φ] {C : ToolCodec φ}

def Granted (spice : SpiceDB) (principal : CatalogPrincipal) (id permission : String) : Prop :=
  ∃ subject, canonicalSubject principal.toPrincipal = .ok subject ∧
    spice subject (toolResource id) permission principal.orgID = .allowed

/-- A tool is shown, changed, deleted and resolved only for those who were granted it. -/
structure OnlyGranted (C : ToolCodec φ) (h : ToolHub) (id : String) : Prop where
  get : ∀ b principal version out, getTool b h principal id version = .ok out →
    Granted b.check principal id "view"
  list : ∀ b principal opts tools next, listTools b h principal opts = .ok (tools, next) →
    ∀ out ∈ tools, out.row.toolID = id → Granted b.check principal id "view"
  update : ∀ (spice : SpiceDB) (a : ToolCallAnswer) principal t, t.id = id →
    (updateTool C { a with check := spice.answer principal (toolResource t.id) "edit" } h principal t).1 ≠
      h → Granted spice principal id "edit"
  delete : ∀ (spice : SpiceDB) (a : ToolCallAnswer) principal,
    (deleteTool { a with check := spice.answer principal (toolResource id) "manage" } h principal id).1 ≠
      h → Granted spice principal id "manage"
  resolve : ∀ a principal binding r, binding.name = id →
    resolveTool C.floats a h.catalog principal binding = .ok r →
      a.check (agentSubject principal) (toolResource id) "execute" principal.orgID = .allowed

theorem granted_of_answer {id}
    (allowed : spice.answer principal (toolResource id) permission = .allowed) :
    Granted spice principal id permission := by
  unfold SpiceDB.answer at allowed
  split at allowed
  · cases allowed
  · rename_i subject canonical
    exact ⟨subject, canonical, allowed⟩

variable {c : ToolCatalog}

section Row

variable {h : ToolHub} {id : String} {row : ToolRow}

theorem onlyGranted_of_plain (trimmed : trimSpace id = id) (unique : LiveUnique h.catalog)
    (live : liveTool h.catalog.tools id = some row) (plain : row.exempt = false) :
    OnlyGranted C h id := by
  have read : ∀ {version out}, ToolRepo.get h.catalog id version = .ok out → out.row = row := by
    intro version out got
    have found := (get_eq_ok got).1
    rw [trimmed, live] at found
    exact (Option.some.inj found).symm
  have notExempt : ∀ {p : Prop}, row.exempt = true ∨ p → p := fun either =>
    either.resolve_left (by simp [plain])
  have named : row.toolID = id := toolID_of_live live
  refine ⟨?_, ?_, ?_, ?_, ?_⟩
  · intro b principal version out got
    obtain ⟨found, allowed⟩ := getTool_eq_ok got
    rw [read found, named] at allowed
    exact notExempt allowed
  · intro b principal opts tools next listed out member same
    obtain ⟨page, allowed⟩ := listTools_eq_ok listed member
    obtain ⟨stored, lives, _⟩ := mem_list page
    have found := unique out.row stored lives
    rw [same, live] at found
    rw [← Option.some.inj found, named] at allowed
    exact notExempt allowed
  · intro spice a principal t same changed
    unfold updateTool at changed
    split_ifs at changed
    · exact absurd rfl changed
    split at changed
    · exact absurd rfl changed
    rename_i existing checked
    obtain ⟨found, allowed⟩ := readTool_eq_ok checked
    rw [same] at found allowed
    rw [read found] at allowed
    exact granted_of_answer (notExempt allowed).2
  · intro spice a principal changed
    unfold deleteTool at changed
    split at changed
    · exact absurd rfl changed
    rename_i existing checked
    obtain ⟨found, allowed⟩ := readTool_eq_ok checked
    rw [read found] at allowed
    exact granted_of_answer (notExempt allowed).2
  · intro a principal binding r same resolved
    unfold resolveTool at resolved
    split at resolved
    · cases resolved
    · cases resolved
    rename_i found
    dsimp only at resolved
    split_ifs at resolved with disabled denied
    rw [same] at found denied
    obtain rfl := Option.some.inj (found.symm.trans live)
    rw [ToolRow.exempt, Bool.or_eq_false_iff, decide_eq_false_iff_not,
      decide_eq_false_iff_not] at plain
    by_contra refused
    exact denied ⟨plain.1, plain.2, refused⟩

theorem plain_of_onlyGranted (trimmed : trimSpace id = id)
    (live : liveTool h.catalog.tools id = some row) (only : OnlyGranted C h id) :
    row.exempt = false := by
  by_contra exempt
  have nobody : getTool { check := fun _ _ _ _ => .denied } h { subjectType := "user", subjectID := "eve" } id
      "" = ToolRepo.get h.catalog id "" := by
    unfold getTool ToolRepo.get
    rw [trimmed, live]
    exact if_pos (Bool.eq_true_of_not_eq_false exempt)
  have got : ToolRepo.get h.catalog id "" = ToolRepo.loadVersions h.catalog row "" := by
    rw [ToolRepo.get, trimmed, live]
  rw [got, ToolRepo.loadVersions, if_neg (by simp)] at nobody
  obtain ⟨subject, _, allowed⟩ := only.get _ _ _ _ nobody
  cases allowed

end Row

def PlainTool (t : Tool) : Prop := t.scope ≠ "system" ∧ t.status ≠ "builtin"

def AsksPlain (id : String) : ToolCall → Prop
  | .create _ t | .update _ t => t.id = id → PlainTool t
  | .delete _ _ | .seed _ => True

/-- The same of a write of the repository, and no seed of the id. -/
def WritesPlain (id : String) : ToolWrite → Prop
  | .create t | .update t => t.id = id → PlainTool t
  | .delete _ => True
  | .upsertBuiltin t => t.id ≠ id

def PlainRows (id : String) (c : ToolCatalog) : Prop :=
  ∀ r ∈ c.tools, r.toolID = id → r.exempt = false

theorem exempt_eq_false {r : ToolRow} :
    r.exempt = false ↔ r.scope ≠ "system" ∧ r.status ≠ "builtin" := by
  simp [ToolRow.exempt]

theorem orDefault_ne {default} (plain : value ≠ other) (safe : default ≠ other) :
    orDefault value default ≠ other := by
  unfold orDefault
  split_ifs
  · exact safe
  · exact plain

theorem plainRows_map {id} (plain : PlainRows id c)
    (keep : ∀ r, (f r).toolID = id → r.toolID = id ∧ (r.exempt = false → (f r).exempt = false))
    (versions : List ToolVersionRow) : PlainRows id ⟨c.tools.map f, versions⟩ := by
  intro r member named
  obtain ⟨old, stored, rfl⟩ := List.mem_map.mp member
  exact (keep old named).2 (plain old stored (keep old named).1)

theorem plainRows_insert {id} (plain : PlainRows id c)
    (inserted : ToolRepo.insertTool c.tools row = .ok rows)
    (new : row.toolID = id → row.exempt = false) (versions : List ToolVersionRow) :
    PlainRows id ⟨rows, versions⟩ := by
  obtain ⟨_, _, rfl⟩ := insertTool_eq_ok.mp inserted
  intro r member named
  rcases List.mem_append.mp member with old | last
  · exact plain r old named
  · rw [List.mem_singleton.mp last] at named ⊢
    exact new named

theorem plainRows_delete {id} (plain : PlainRows id c) (a : ToolAnswer) (gone : String)
    : PlainRows id (ToolRepo.delete a c gone).1 := by
  unfold ToolRepo.delete
  dsimp only
  split
  · exact plain
  split_ifs
  · exact plain
  · refine plainRows_map plain (fun r named => ?_) c.versions
    split_ifs at named ⊢
    · exact ⟨named, fun before => before⟩
    · exact ⟨named, fun before => before⟩

theorem toolStep_plainRows {id}
    (may : WritesPlain id write.1) (plain : PlainRows id c) (taken : toolStep C c write = some d) :
    PlainRows id d := by
  obtain ⟨write, a⟩ := write
  cases write with
  | create t =>
    obtain rfl := Option.some.inj taken
    refine write_preserves plain fun rows versions made => plainRows_insert plain made ?_ versions
    intro named
    obtain ⟨scope, status⟩ := may named
    exact exempt_eq_false.mpr ⟨orDefault_ne scope (by decide), orDefault_ne status (by decide)⟩
  | update t =>
    obtain rfl := Option.some.inj taken
    refine write_preserves plain fun rows versions made => ?_
    unfold ToolRepo.updateTool at made
    dsimp only at made
    split_ifs at made
    rw [updateTools_eq_ok made]
    refine plainRows_map plain (fun r named => ?_) versions
    split_ifs at named ⊢ with chosen
    · simp only [Bool.and_eq_true, decide_eq_true_eq] at chosen
      exact ⟨named, fun _ => exempt_eq_false.mpr (may (chosen.1.symm.trans named))⟩
    · exact ⟨named, fun before => before⟩
  | delete gone =>
    obtain rfl := Option.some.inj taken
    exact plainRows_delete plain a gone
  | upsertBuiltin t =>
    obtain rfl := Option.some.inj taken
    refine write_preserves plain fun rows versions made => ?_
    unfold ToolRepo.upsertTool at made
    dsimp only at made
    split_ifs at made
    · rw [updateTools_eq_ok made]
      refine plainRows_map plain (fun r named => ?_) versions
      split_ifs at named ⊢ with chosen
      · exact absurd ((of_decide_eq_true chosen).symm.trans named) may
      · exact ⟨named, fun before => before⟩
    · exact plainRows_insert plain made (fun named => absurd named may) versions

omit [DecidableEq φ] in
theorem writesPlain_of_asks {id call} (asks : AsksPlain id call)
    (other : id ∉ builtinToolSeeds.map BuiltinToolSeed.id) {w} (made : call.writes C w) :
    WritesPlain id w := by
  cases call with
  | create principal t =>
    rcases made with rfl | rfl
    · intro named
      obtain ⟨scope, status⟩ := asks named
      exact ⟨orDefault_ne scope (by decide), orDefault_ne status (by decide)⟩
    · trivial
  | update principal t =>
    obtain ⟨row, rfl⟩ := made
    exact asks
  | delete principal gone =>
    obtain rfl := made
    trivial
  | seed answers =>
    rcases made with ⟨s, member, now, rfl⟩ | ⟨gone, _, rfl⟩
    · exact fun same => other (List.mem_map.mpr ⟨s, member, same⟩)
    · trivial

def deniesAll : SpiceDB := fun _ _ _ _ => .denied

def eve : CatalogPrincipal := { subjectType := "user", subjectID := "eve", orgID := "other" }

def systemRequest : ToolRequest where
  id := "notes.search"
  definition := some { runtime := { type := "mcp" } }
  scope := "system"

def systemTool : Tool := { userTool "notes.search" "v1" with scope := "system" }

def seizedTool : Tool := { userTool "notes.search" "v2" with status := "active", scope := "private" }

end AisphereHub
