import AisphereHub.Proof.AgentVersions

/-! Who places an agent where. Creating one in a scope asks `allowCreateInScope`, and an update asks
only for the right to edit the agent, so an update can carry it to a place where its caller could
not create it. -/
namespace AisphereHub

open GoStrings (trimSpace)

def AgentCatalog.placement (c : AgentCatalog) (id : String) : Option (AgentScope × String) :=
  (c.live id).map fun row => (row.scope, row.projectID)

def AgentRequest.caller : AgentRequest → CatalogPrincipal
  | .create caller _ => caller
  | .update caller _ _ => caller

section Placement

variable {φ : Type} (A : AgentCodec φ)

def servedCall (s : AgentTables) (call : AgentRequest × List AgentAnswer) : Option AgentTables :=
  ((agentProgram A).serve s call.1 call.2).map Prod.fst

/-- The caller could create an agent there, by what the services answer to the call. -/
def MayCreate (call : AgentRequest × List AgentAnswer) (pair : AgentScope × String) : Prop :=
  ∃ answer ∈ call.2.head?, ∃ principal ∈ (agentPrincipal call.1.caller).toOption,
    allowCreateInScope answer.world.answer principal pair.2 pair.1 = .ok ()

instance (call : AgentRequest × List AgentAnswer) (pair : AgentScope × String) :
    Decidable (MayCreate call pair) :=
  inferInstanceAs (Decidable (∃ _ ∈ _, _))

/-- Wherever a successful call leaves an agent that was not there before, the caller could
create one. -/
def PlacedByRight (s : AgentTables) (call : AgentRequest × List AgentAnswer) : Prop :=
  ∀ s' agent, (agentProgram A).serve s call.1 call.2 = some (s', .returned (.ok agent)) →
    ∀ id pair, s'.catalog.placement id = some pair → s.catalog.placement id ≠ some pair →
      MayCreate call pair

/-- The scope and the project that the agent gets by the request. -/
def AgentWriteRequest.wish (request : AgentWriteRequest) : AgentScope × String :=
  (normalizeAgentScope request.scope, trimSpace request.projectID)

/-- An update asks for a scope and a project other than the stored ones only where its caller
could create an agent. -/
def AsksByRight (s : AgentTables) (call : AgentRequest × List AgentAnswer) : Prop :=
  match call.1 with
  | .create _ _ => True
  | .update _ id request =>
    s.catalog.placement (trimSpace id) ≠ some request.wish → MayCreate call request.wish

instance (s : AgentTables) :
    (call : AgentRequest × List AgentAnswer) → Decidable (AsksByRight s call)
  | (.create _ _, _) => .isTrue trivial
  | (.update _ _ _, _) => inferInstanceAs (Decidable (_ → _))

def Succeeds (s : AgentTables) (call : AgentRequest × List AgentAnswer) : Prop :=
  ∃ s' agent, (agentProgram A).serve s call.1 call.2 = some (s', .returned (.ok agent))

variable {A} {s s' : AgentTables} {answers : List AgentAnswer} {caller : CatalogPrincipal}
  {request : AgentWriteRequest} {agent : LoadedAgent}

theorem create_places (served : (agentProgram A).serve s (.create caller request) answers =
      some (s', .returned (.ok agent))) (id : String) :
    s'.catalog.placement id = s.catalog.placement id ∨
      ∃ pair, s'.catalog.placement id = some pair ∧ MayCreate (.create caller request, answers) pair := by
  obtain ⟨answer, row, version, first, planned, done⟩ := create_served served
  obtain ⟨principal, definition, _, authenticated, allowed, created, _⟩ := planCreate_eq_ok planned
  obtain ⟨_, free, _, _, shape⟩ := create_eq_ok.mp done
  have live : row.live = true := by rw [created, createdRow, AgentRow.live, Option.isNone_none]
  rw [shape, AgentCatalog.placement, AgentCatalog.live, Keyed.select_append free live]
  split_ifs with own
  · refine .inr ⟨_, rfl, answer, first, principal, ?_, ?_⟩
    · rw [AgentRequest.caller, authenticated]
      rfl
    rw [created, createdRow]
    dsimp only
    unfold allowCreateInScope at allowed ⊢
    rwa [GoStrings.trimSpace_trimSpace]
  · exact .inl rfl

theorem update_places
    (served : (agentProgram A).serve s (.update caller name request) answers =
      some (s', .returned (.ok agent))) (id : String) :
    s'.catalog.placement id =
      if id = trimSpace name then some request.wish else s.catalog.placement id := by
  rcases update_served served with ⟨_, e, failed⟩ | ⟨answer, u, _, planned, done⟩
  · cases failed
  obtain ⟨_, _, _, existing, named, scope, project, _⟩ := planUpdate_eq_ok planned
  obtain ⟨row, found, _, _, _, shape⟩ := update_eq_ok.mp done
  rw [shape, AgentCatalog.placement, AgentCatalog.live,
    Keyed.select_amend u.apply (fun _ => rfl) (fun _ => rfl), named]
  split_ifs with own
  · rw [named] at found
    have selected : Keyed.select AgentRow.agentID AgentRow.live s.catalog.agents (trimSpace name) =
      some row := found
    rw [selected, Option.map_some, Option.map_some, AgentUpdate.apply, AgentWriteRequest.wish, scope,
      project]
  · rfl

theorem AsksByRight.placed (asks : AsksByRight s call) : PlacedByRight A s call := by
  obtain ⟨request, answers⟩ := call
  intro s' agent served id pair after before
  cases request with
  | create caller request =>
    rcases create_places served id with same | ⟨other, placed, may⟩
    · exact absurd (same ▸ after) before
    · cases placed.symm.trans after
      exact may
  | update caller name request =>
    rw [update_places served] at after
    split_ifs at after with own
    · rw [own, ← after] at before
      rw [← Option.some.inj after]
      exact asks before
    · exact absurd after before

theorem PlacedByRight.asks (placed : PlacedByRight A s call) (succeeds : Succeeds A s call) :
    AsksByRight s call := by
  obtain ⟨request, answers⟩ := call
  obtain ⟨s', agent, served⟩ := succeeds
  cases request with
  | create caller request => trivial
  | update caller name request =>
    intro moved
    refine placed s' agent served (trimSpace name) _ ?_ moved
    rw [update_places served, if_pos rfl]

/-- In every run of calls, agents come to a scope and a project only through callers who could
create them there, if this is so of what the updates ask for; and among the runs of calls that
succeed, only then. -/
theorem agents_placed_by_right (A : AgentCodec φ) (s : AgentTables)
    (calls : List (AgentRequest × List AgentAnswer)) :
    (Transition.Guarded (servedCall A) AsksByRight s calls →
      Transition.Guarded (servedCall A) (PlacedByRight A) s calls) ∧
    (Transition.Guarded (servedCall A) (fun s call => Succeeds A s call ∧ PlacedByRight A s call)
        s calls ↔
      Transition.Guarded (servedCall A) (fun s call => Succeeds A s call ∧ AsksByRight s call)
        s calls) := by
  constructor
  · exact Transition.guarded_of_invariant (I := fun _ => True) (fun _ _ _ asks => asks.placed)
      (fun _ _ _ _ _ _ => trivial) trivial
  · exact Transition.guarded_iff (I := fun _ => True)
      (fun s call _ => and_congr_right fun succeeds => ⟨fun placed => placed.asks succeeds,
        AsksByRight.placed⟩)
      (fun _ _ _ _ _ _ => trivial) trivial

end Placement

def shareScout : AgentRequest × List AgentAnswer :=
  (.update { toPrincipal := launcher } "scout"
    { scope := "project", projectID := "atlas", definition := sampleDefinition [] },
    List.replicate 7 { now := 1800000000 })

theorem scout_shared_by_right : ∃ s,
    Transition.run (servedCall plainAgents) {} [createScout "", shareScout] = some s ∧
    s.catalog.placement "scout" = some (.project, "atlas") ∧
    Transition.Guarded (servedCall plainAgents) (PlacedByRight plainAgents) {}
      [createScout "", shareScout] :=
  Transition.exists_run (P := fun s => s.catalog.placement "scout" = some (.project, "atlas"))
    (by decide +kernel) fun _ _ placed =>
    ⟨placed, (agents_placed_by_right plainAgents {} [createScout "", shareScout]).1
      (by decide +kernel)⟩

def unmanagedZone : AgentAnswer where
  world := { answer := { check := fun _ _ permission _ =>
    if permission = "manage_agents" then .denied else .allowed } }

def promoteScout : AgentRequest :=
  .update { toPrincipal := launcher } "scout" { scope := "system", definition := sampleDefinition [] }

def AgentCall.succeeded : AgentCall → Bool
  | .returned (.ok _) => true
  | _ => false

theorem AgentCall.of_succeeded {call : AgentCall} (done : call.succeeded = true) :
    ∃ agent, call = .returned (.ok agent) := by
  rw [succeeded.eq_def] at done
  split at done
  · exact ⟨_, rfl⟩
  · cases done

/-- A caller who could not create a system agent makes one of an own agent. -/
theorem owner_makes_system_agent : ∃ s s' agent,
    servedCall plainAgents {} (createScout "") = some s ∧
    (agentProgram plainAgents).serve s promoteScout (List.replicate 7 unmanagedZone) =
      some (s', .returned (.ok agent)) ∧
    s.catalog.placement "scout" = some (.private, "") ∧
    s'.catalog.placement "scout" = some (.system, "") ∧
    allowCreateInScope unmanagedZone.world.answer { toPrincipal := launcher } "" .system =
      .error errAgentForbidden := by
  obtain ⟨s, created, before, ⟨s', _⟩, served, after, ended⟩ : ∃ s,
      servedCall plainAgents {} (createScout "") = some s ∧
      s.catalog.placement "scout" = some (.private, "") ∧
      ∃ out, (agentProgram plainAgents).serve s promoteScout (List.replicate 7 unmanagedZone) =
        some out ∧ out.1.catalog.placement "scout" = some (.system, "") ∧
        out.2.succeeded = true := by
    decide +kernel
  obtain ⟨agent, rfl⟩ := AgentCall.of_succeeded ended
  exact ⟨s, s', agent, created, served, before, after, by decide +kernel⟩

end AisphereHub
