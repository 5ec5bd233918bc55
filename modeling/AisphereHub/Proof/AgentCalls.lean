import AisphereHub.Server.AgentEndpoints

/-! What the agent calls do when they succeed. -/
namespace AisphereHub

open GoJson Keyed Transition
open GoStrings (trimSpace)

variable {version : AgentVersionRow} {row : AgentRow} {fault : Option String}

section Catalog

variable {c d : AgentCatalog} {id : String} {f : AgentRow → AgentRow}

theorem insertVersion_eq_ok {row} : c.insertVersion row = .ok d ↔ row.accepted = true ∧
      lookup AgentVersionRow.key c.versions row.key = none ∧
      d = { c with versions := c.versions ++ [row] } := by
  unfold AgentCatalog.insertVersion
  rw [inserted_eq_ok, Except.ok.injEq, eq_comm (b := d)]

theorem create_eq_ok : c.create row version = .ok d ↔ row.accepted = true ∧
      lookup AgentRow.agentID c.agents row.agentID = none ∧ version.accepted = true ∧
      lookup AgentVersionRow.key c.versions version.key = none ∧
      d = ⟨c.agents ++ [row], c.versions ++ [version]⟩ := by
  have inserted : ∀ e, c.insertAgent row = .ok e ↔ row.accepted = true ∧
      lookup AgentRow.agentID c.agents row.agentID = none ∧
      e = { c with agents := c.agents ++ [row] } := by
    intro e
    unfold AgentCatalog.insertAgent
    rw [inserted_eq_ok, Except.ok.injEq, eq_comm (b := e)]
  unfold AgentCatalog.create
  rw [bind_eq_ok]
  constructor
  · rintro ⟨e, first, second⟩
    obtain ⟨fine, free, rfl⟩ := (inserted e).mp first
    obtain ⟨fineVersion, freeVersion, rfl⟩ := insertVersion_eq_ok.mp second
    exact ⟨fine, free, fineVersion, freeVersion, rfl⟩
  · rintro ⟨fine, free, fineVersion, freeVersion, rfl⟩
    exact ⟨_, (inserted _).mpr ⟨fine, free, rfl⟩, insertVersion_eq_ok.mpr ⟨fineVersion, freeVersion, rfl⟩⟩

theorem update_eq_ok :
    c.update id f version = .ok d ↔ ∃ row, c.live id = some row ∧ (f row).accepted = true ∧
      version.accepted = true ∧ lookup AgentVersionRow.key c.versions version.key = none ∧
      d = ⟨amend AgentRow.agentID c.agents id f, c.versions ++ [version]⟩ := by
  unfold AgentCatalog.update AgentCatalog.updateAgent
  rw [bind_eq_ok]
  cases found : c.live id with
  | none => simp
  | some row =>
    by_cases fine : (f row).accepted = true
    · simp only [fine, if_true, Except.ok.injEq, exists_eq_left', insertVersion_eq_ok,
        Option.some.injEq, true_and]
    · simp [fine]

end Catalog

section Plans

variable {φ : Type} {A : AgentCodec φ} {w : ResolverState} {now : Nat} {caller : CatalogPrincipal}
  {request : AgentWriteRequest}

def chosenVersion (request : AgentWriteRequest) (automatic : String) : String :=
  if trimSpace request.version = "" then automatic else trimSpace request.version

theorem planCreate_eq_ok (planned : planCreate A w now caller request = .ok (row, version)) :
    ∃ principal definition, agentIDRE (trimSpace request.id) = true ∧
      agentPrincipal caller = .ok principal ∧
      allowCreateInScope w.answer principal request.projectID (normalizeAgentScope request.scope) =
        .ok () ∧ row = createdRow principal request (chosenVersion request "v1") ∧
      version = versionRow A now principal (trimSpace request.id) (chosenVersion request "v1")
        request.commitMsg "create agent" definition ∧
      ∃ projection, normalizeAgentDefinition A.toFloatCodec request.definition =
        .ok (definition, projection) := by
  unfold planCreate at planned
  split_ifs at planned with invalid
  obtain ⟨principal, authenticated, planned⟩ := bind_eq_ok.mp planned
  obtain ⟨_, placed, planned⟩ := bind_eq_ok.mp planned
  obtain ⟨⟨definition, projection⟩, normalized, planned⟩ := bind_eq_ok.mp planned
  obtain ⟨_, _, planned⟩ := bind_eq_ok.mp planned
  obtain ⟨rfl, rfl⟩ := Prod.mk.inj (Except.ok.inj planned)
  exact ⟨principal, definition, eq_true_of_ne_false invalid, authenticated, placed, rfl, rfl,
    projection, normalized⟩

theorem loadAgent_row {id version} (loaded : loadAgent c id version fault = .ok agent) :
    c.live id = some agent.row := by
  unfold loadAgent at loaded
  split at loaded
  · cases loaded
  · cases loaded
  rename_i found
  dsimp only at loaded
  split_ifs at loaded
  cases loaded
  exact found

theorem planUpdate_eq_ok {id} (planned : planUpdate A w now c fault caller id request = .ok u) :
    ∃ principal definition, agentPrincipal caller = .ok principal ∧ c.live id = some u.existing ∧
      u.id = id ∧ u.scope = normalizeAgentScope request.scope ∧
      u.projectID = trimSpace request.projectID ∧ u.version = versionRow A now principal id
        (chosenVersion request (nextAgentVersion now u.existing.latestVersion)) request.commitMsg
        "update agent" definition ∧
      ∃ projection, normalizeAgentDefinition A.toFloatCodec request.definition =
        .ok (definition, projection) := by
  obtain ⟨principal, authenticated, planned⟩ := bind_eq_ok.mp planned
  obtain ⟨_, _, planned⟩ := bind_eq_ok.mp planned
  obtain ⟨existing, loaded, planned⟩ := bind_eq_ok.mp planned
  obtain ⟨_, _, planned⟩ := bind_eq_ok.mp planned
  obtain ⟨⟨definition, projection⟩, normalized, planned⟩ := bind_eq_ok.mp planned
  obtain ⟨_, _, planned⟩ := bind_eq_ok.mp planned
  have shape := Except.ok.inj planned
  subst shape
  dsimp only [chosenVersion]
  exact ⟨principal, definition, authenticated, loadAgent_row loaded, rfl, rfl, rfl, rfl,
    projection, normalized⟩

end Plans

theorem transact_eq_ok :
    transact result fault = .ok c ↔ result = .ok c ∧ fault = none := by
  cases fault <;> simp [transact]

section Served

variable {φ : Type} {A : AgentCodec φ} {s s' : AgentTables} {answers : List AgentAnswer}
  {caller : CatalogPrincipal} {request : AgentWriteRequest} {result : Except HubError LoadedAgent}

def Updating (c : AgentCatalog) (u : AgentUpdate) (x : AgentTables × AgentCall) : Prop :=
  match x.2 with
  | .commit v => v = u ∧ x.1.catalog = c
  | .reconcile .. | .reload _ => c.update u.id u.apply u.version = .ok x.1.catalog
  | .returned result => (x.1.catalog = c ∧ ∃ e, result = .error e) ∨
      c.update u.id u.apply u.version = .ok x.1.catalog
  | _ => False

theorem updating_step (x : AgentTables × AgentCall)
    (answer : AgentAnswer) (y : AgentTables × AgentCall) (progress : Updating c u x)
    (taken : (agentProgram A).next x.1 x.2 answer = some y) : Updating c u y := by
  obtain ⟨s, call⟩ := x
  cases call with
  | commit v =>
    obtain ⟨rfl, same⟩ := progress
    simp only [agentProgram, agentNext] at taken
    split at taken
    · cases taken
      exact .inl ⟨same, _, rfl⟩
    · rename_i catalog done
      cases taken
      rw [same] at done
      exact (transact_eq_ok.mp done).1
  | reconcile v todo =>
    cases todo with
    | nil | cons relation todo =>
      simp only [agentProgram, agentNext] at taken
      split at taken <;> cases taken
      · exact .inr progress
      · exact progress
  | reload id =>
    cases taken
    exact .inr progress
  | returned result => cases taken
  | _ => exact progress.elim

theorem update_served {id} (served : (agentProgram A).serve s (.update caller id request) answers =
      some (s', .returned result)) : (s'.catalog = s.catalog ∧ ∃ e, result = .error e) ∨
      ∃ answer u, answers.head? = some answer ∧
        planUpdate A answer.world answer.now s.catalog answer.fault caller (trimSpace id) request =
          .ok u ∧ s.catalog.update u.id u.apply u.version = .ok s'.catalog := by
  obtain ⟨answer, rest, s₁, t₁, rfl, first, ran⟩ := Threads.serve_first served rfl
  simp only [agentProgram, AgentRequest.start, agentNext] at first
  split at first
  · rename_i e _
    cases first
    cases rest with
    | nil =>
      cases ran
      exact .inl ⟨rfl, e, rfl⟩
    | cons a rest =>
      obtain ⟨_, taken, _⟩ := run_cons.mp ran
      cases taken
  · rename_i u planned
    cases first
    have begun : Updating s.catalog u (s, .commit u) := ⟨rfl, rfl⟩
    have progress := run_invariant updating_step begun ran
    rcases progress with failed | committed
    · exact .inl failed
    · exact .inr ⟨answer, u, rfl, planned, committed⟩

def Creating (c : AgentCatalog) (row : AgentRow) (version : AgentVersionRow)
    (x : AgentTables × AgentCall) : Prop :=
  match x.2 with
  | .insert r v => r = row ∧ v = version ∧ x.1.catalog = c
  | .grant r => r = row ∧ c.create row version = .ok x.1.catalog
  | .reload _ => c.create row version = .ok x.1.catalog
  | .dropVersions _ | .mark _ => True
  | .returned (.ok _) => c.create row version = .ok x.1.catalog
  | .returned (.error _) => True
  | _ => False

theorem creating_step (x : AgentTables × AgentCall) (answer : AgentAnswer)
    (y : AgentTables × AgentCall) (progress : Creating c row version x)
    (taken : (agentProgram A).next x.1 x.2 answer = some y) : Creating c row version y := by
  obtain ⟨s, call⟩ := x
  cases call with
  | insert r v =>
    obtain ⟨rfl, rfl, same⟩ := progress
    simp only [agentProgram, agentNext] at taken
    split at taken
    · cases taken
      trivial
    · rename_i catalog done
      cases taken
      rw [same] at done
      exact ⟨rfl, (transact_eq_ok.mp done).1⟩
  | grant r =>
    simp only [agentProgram, agentNext] at taken
    split at taken <;> cases taken
    · trivial
    · exact progress.2
  | dropVersions id | mark id =>
    simp only [agentProgram, agentNext] at taken
    split at taken <;> cases taken <;> trivial
  | reload id =>
    cases taken
    cases loadAgent s.catalog id "" answer.fault with
    | ok agent => exact progress
    | error e => trivial
  | returned result => cases taken
  | _ => exact progress.elim

theorem create_served (served : (agentProgram A).serve s (.create caller request) answers =
      some (s', .returned (.ok agent))) : ∃ answer row version, answers.head? = some answer ∧
      planCreate A answer.world answer.now caller request = .ok (row, version) ∧
      s.catalog.create row version = .ok s'.catalog := by
  obtain ⟨answer, rest, s₁, t₁, rfl, first, ran⟩ := Threads.serve_first served rfl
  simp only [agentProgram, AgentRequest.start, agentNext] at first
  split at first
  · cases first
    cases rest with
    | nil => cases ran
    | cons a rest =>
      obtain ⟨_, taken, _⟩ := run_cons.mp ran
      cases taken
  · rename_i row version planned
    cases first
    have begun : Creating s.catalog row version (s, .insert row version) := ⟨rfl, rfl, rfl⟩
    have progress := run_invariant creating_step begun ran
    exact ⟨answer, row, version, rfl, planned, progress⟩

end Served

end AisphereHub
