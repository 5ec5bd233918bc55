import AisphereHub.Proof.ToolSeeding
import AisphereHub.Proof.ToolWrites

/-! What the tool calls do when they succeed, and that ids of live tools stay unique. -/
namespace AisphereHub

open GoJson
open GoStrings (trimSpace)

variable {φ : Type} [DecidableEq φ] {C : ToolCodec φ} {c : ToolCatalog}

theorem Reaches.keeps
    (reaches : Reaches C allowed c d) : KeepsDefinitions c.versions d.versions := by
  obtain ⟨writes, _, ran⟩ := reaches
  exact toolRun_keeps ran

theorem find_of_mem (member : v ∈ rows) :
    ∃ row, findToolVersion rows v.toolID v.version = some row := by
  refine Option.isSome_iff_exists.mp ?_
  rw [findToolVersion, Keyed.lookup, List.find?_isSome]
  exact ⟨v, member, by simp [ToolVersionRow.key]⟩

theorem KeepsDefinitions.mem
    (kept : KeepsDefinitions rows rows') (member : v ∈ rows) : ∃ v' ∈ rows', v'.key = v.key := by
  obtain ⟨row, found⟩ := find_of_mem member
  obtain ⟨row', found', _⟩ := kept _ _ row found
  exact ⟨row', Keyed.mem_of_lookup found', Keyed.key_of_lookup found'⟩

section Create

variable {a : ToolCallAnswer} {h h' : ToolHub} {principal : CatalogPrincipal} {t : Tool}
  {out : StoredTool}

theorem validToolID_of_valid (valid : validateToolForCreate t = .ok ()) :
    validToolID t.id = true := by
  unfold validateToolForCreate at valid
  split_ifs at valid with refused
  exact Bool.eq_true_of_not_eq_false refused

theorem createTool_eq_ok (created : createTool C a h principal t = (h', .ok out)) :
    validToolID t.id = true ∧ liveTool h.catalog.tools t.id = none ∧
      ToolRepo.get h'.catalog t.id "" = .ok out ∧
      ∃ subject, canonicalSubject principal.toPrincipal = .ok subject ∧
        ⟨toolResource t.id, "owner", subject⟩ ∈ h'.tuples := by
  unfold createTool at created
  split at created
  · cases (Prod.mk.inj created).2
  rename_i valid
  dsimp only at created
  split_ifs at created
  · cases (Prod.mk.inj created).2
  split at created
  · cases (Prod.mk.inj created).2
  rename_i catalog stored committed
  obtain ⟨free, _, read⟩ := repoCreate_eq_ok committed
  unfold grantToolOwner at created
  split at created
  · cases (Prod.mk.inj created).2
  rename_i subject canonical
  split at created
  · cases (Prod.mk.inj created).2
  rename_i tuples written
  obtain ⟨rfl, same⟩ := Prod.mk.inj created
  obtain ⟨_, _, rfl⟩ := writeRelationships_eq_ok.mp written
  cases same
  exact ⟨validToolID_of_valid valid, free, read, subject, canonical,
    mem_foldl_touch.mpr (.inr List.mem_cons_self)⟩

end Create

section Reads

variable {b : ToolReadAnswer} {h : ToolHub} {reader : CatalogPrincipal} {out : StoredTool}
  {id version : String}

theorem get_eq_ok (read : ToolRepo.get h.catalog id version = .ok out) :
    liveTool h.catalog.tools (trimSpace id) = some out.row ∧
      out.versions = h.catalog.versions.filter fun v =>
        v.toolID = out.row.toolID && (version = "" || v.version = version) := by
  unfold ToolRepo.get at read
  split at read
  · cases read
  rename_i row found
  unfold ToolRepo.loadVersions at read
  dsimp only at read
  split_ifs at read
  obtain rfl := Except.ok.inj read
  exact ⟨found, rfl⟩

theorem getTool_eq_ok (read : getTool b h reader id version = .ok out) :
    ToolRepo.get h.catalog id version = .ok out ∧
      (out.row.exempt = true ∨ ∃ subject, canonicalSubject reader.toPrincipal = .ok subject ∧
        b.check subject (toolResource out.row.toolID) "view" reader.orgID = .allowed) := by
  unfold getTool at read
  split at read
  · cases read
  · cases read
  rename_i t _ found
  split_ifs at read with exempt
  · cases read
    exact ⟨found, .inl exempt⟩
  split at read
  · cases read
  rename_i subject canonical
  obtain ⟨_, allowed, rfl⟩ := map_eq_ok read
  exact ⟨found, .inr ⟨subject, canonical, CheckAnswer.require_eq_ok.mp allowed⟩⟩

theorem mem_list (member : out ∈ (ToolRepo.list c opts).1) :
    out.row ∈ c.tools ∧ out.row.live = true ∧
      out.versions = c.versions.filter fun v => v.toolID = out.row.toolID := by
  obtain ⟨row, shown, rfl⟩ := List.mem_map.mp member
  have sorted := List.mem_of_mem_drop (List.mem_of_mem_take (List.mem_of_mem_take shown))
  obtain ⟨stored, passes⟩ := List.mem_filter.mp ((List.mem_insertionSort _).mp sorted)
  simp only [ToolRepo.listed, Bool.and_eq_true] at passes
  exact ⟨stored, passes.1.1.1.1, rfl⟩

theorem listTools_eq_ok
    (read : listTools b h reader opts = .ok (tools, next)) (member : out ∈ tools) :
    out ∈ (ToolRepo.list h.catalog opts).1 ∧
      (out.row.exempt = true ∨ ∃ subject, canonicalSubject reader.toPrincipal = .ok subject ∧
        b.check subject (toolResource out.row.toolID) "view" reader.orgID = .allowed) := by
  unfold listTools at read
  split at read
  · cases read
  dsimp only at read
  split_ifs at read with empty checked
  · obtain ⟨rfl, _⟩ := Prod.mk.inj (Except.ok.inj read)
    rw [empty] at member
    cases member
  · split at read
    · cases read
    obtain ⟨rfl, _⟩ := Prod.mk.inj (Except.ok.inj read)
    have exempt := List.filter_eq_nil_iff.mp checked out member
    exact ⟨member, .inl (by simpa using exempt)⟩
  · split at read
    · cases read
    rename_i subject canonical
    split at read
    · cases read
    obtain ⟨rfl, _⟩ := Prod.mk.inj (Except.ok.inj read)
    rcases List.mem_append.mp member with first | second
    · obtain ⟨page, exempt⟩ := List.mem_filter.mp first
      exact ⟨page, .inl exempt⟩
    · obtain ⟨rest, allowed⟩ := List.mem_filter.mp second
      exact ⟨(List.mem_filter.mp rest).1, .inr ⟨subject, canonical, of_decide_eq_true allowed⟩⟩

theorem readTool_eq_ok (read : readTool a h reader id forbidden = .ok out) :
    ToolRepo.get h.catalog id "" = .ok out ∧ (out.row.exempt = true ∨
        (∃ subject, canonicalSubject reader.toPrincipal = .ok subject) ∧ a.check = .allowed) := by
  unfold readTool at read
  split at read
  · cases read
  · cases read
  rename_i existing _ found
  split_ifs at read with checked
  · split at read
    · cases read
    rename_i subject canonical
    obtain ⟨_, allowed, rfl⟩ := map_eq_ok read
    exact ⟨found, .inr ⟨⟨subject, canonical⟩, CheckAnswer.require_eq_ok.mp allowed⟩⟩
  · obtain rfl := Except.ok.inj read
    refine ⟨found, .inl ?_⟩
    rw [ToolRow.exempt, Bool.or_eq_true, decide_eq_true_eq, decide_eq_true_eq]
    by_contra neither
    exact checked (not_or.mp neither)

end Reads

def LiveUnique (c : ToolCatalog) : Prop :=
  ∀ r ∈ c.tools, r.live = true → liveTool c.tools r.toolID = some r

theorem LiveUnique.map (unique : LiveUnique c)
    (keepID : ∀ r, (f r).toolID = r.toolID) (keepLive : ∀ r, (f r).live = r.live)
    (versions : List ToolVersionRow) : LiveUnique ⟨c.tools.map f, versions⟩ := by
  intro r member live
  obtain ⟨old, stored, rfl⟩ := List.mem_map.mp member
  rw [keepLive] at live
  rw [keepID, liveTool_map keepID keepLive, unique old stored live]
  rfl

theorem LiveUnique.insert (unique : LiveUnique c)
    (live : row.live = true) (inserted : ToolRepo.insertTool c.tools row = .ok rows)
    (versions : List ToolVersionRow) : LiveUnique ⟨rows, versions⟩ := by
  obtain ⟨_, free, rfl⟩ := insertTool_eq_ok.mp inserted
  intro r member lives
  rw [liveTool_append live]
  rcases List.mem_append.mp member with old | new
  · rw [unique r old lives]
    rfl
  · rw [List.mem_singleton.mp new, free, if_pos rfl]
    rfl

theorem updateTools_eq_ok
    (updated : ToolRepo.updateTools rows chosen write = .ok rows') :
    rows' = rows.map fun r => if chosen r then write r else r := by
  unfold ToolRepo.updateTools at updated
  split_ifs at updated
  exact (Except.ok.inj updated).symm

theorem LiveUnique.delete (unique : LiveUnique c) (a : ToolAnswer) (id : String) :
    LiveUnique (ToolRepo.delete a c id).1 := by
  unfold ToolRepo.delete
  dsimp only
  split
  · exact unique
  split_ifs
  · exact unique
  intro r member live
  obtain ⟨old, stored, rfl⟩ := List.mem_map.mp member
  split_ifs at live ⊢ with chosen
  · cases live
  · have other : old.toolID ≠ trimSpace id := by
      intro same
      exact chosen (by simp [same, live])
    have rest := filter_changed other (fun r => (decide (r.toolID = trimSpace id) && r.live) = true)
      (fun r both => by simp only [Bool.and_eq_true, decide_eq_true_eq] at both; exact both.1)
      (fun r => { r with deletedAt := some a.now }) (fun _ => rfl) c.tools
    rw [liveTool_eq, rest, ← liveTool_eq]
    exact unique old stored live

theorem toolStep_liveUnique
    (unique : LiveUnique c) (taken : toolStep C c write = some d) : LiveUnique d := by
  obtain ⟨write, a⟩ := write
  cases write with
  | create t =>
    obtain rfl := Option.some.inj taken
    exact write_preserves unique fun rows versions made => unique.insert rfl made versions
  | update t =>
    obtain rfl := Option.some.inj taken
    refine write_preserves unique fun rows versions made => ?_
    unfold ToolRepo.updateTool at made
    dsimp only at made
    split_ifs at made
    rw [updateTools_eq_ok made]
    exact unique.map (fun r => by split_ifs <;> rfl) (fun r => by split_ifs <;> rfl) versions
  | delete id =>
    obtain rfl := Option.some.inj taken
    exact unique.delete a id
  | upsertBuiltin t =>
    obtain rfl := Option.some.inj taken
    refine write_preserves unique fun rows versions made => ?_
    unfold ToolRepo.upsertTool at made
    dsimp only at made
    split_ifs at made
    · rw [updateTools_eq_ok made]
      exact unique.map (fun r => by split_ifs <;> rfl) (fun r => by split_ifs <;> rfl) versions
    · exact unique.insert rfl made versions

theorem reached_liveUnique
    (ran : Transition.run (toolHubStep C) {} calls = some h) : LiveUnique h.catalog :=
  reached_invariant (fun _ _ _ unique taken => toolStep_liveUnique unique taken)
    (List.forall_mem_nil _) ran

end AisphereHub
