import AisphereHub.Biz.ModelProfileUsecase
import AisphereHub.Proof.AgentVersions

/-! What a creation of an agent or a profile leaves when its tuples cannot be written. -/
namespace AisphereHub

open GoJson Keyed Transition
open GoStrings (trimSpace)

variable {subject : AuthzSubjectRef} {q : ModelProfile}

section Agents

variable {φ : Type} {A : AgentCodec φ} {s s' : AgentTables} {caller : CatalogPrincipal}
  {request : AgentWriteRequest}

def AgentCatalog.Referenced (c : AgentCatalog) : Prop :=
  ∀ version ∈ c.versions, (lookup AgentRow.agentID c.agents version.agentID).isSome = true

/-- A creation that stored its row, could not write its tuples and took both steps of the
compensation. -/
def AgentRolledBack (A : AgentCodec φ) (s : AgentTables) (caller : CatalogPrincipal)
    (request : AgentWriteRequest) (s' : AgentTables) : Prop :=
  ∃ plan commit grant drop mark : AgentAnswer, ∃ e, drop.fault = none ∧ mark.fault = none ∧
    (agentProgram A).serve s (.create caller request) [plan, commit, grant, drop, mark] =
      some (s', .returned (.error e))

def AgentAcceptable (A : AgentCodec φ) (caller : CatalogPrincipal) (request : AgentWriteRequest)
    (answer : AgentAnswer) : Prop :=
  answer.fault = none ∧ ∃ row version,
    planCreate A answer.world answer.now caller request = .ok (row, version) ∧
      row.accepted = true ∧ version.accepted = true

theorem rolledBack_catalog (rolled : AgentRolledBack A s caller request s') :
    ∃ row version catalog now, row.agentID = trimSpace request.id ∧
      s.catalog.create row version = .ok catalog ∧
      s'.catalog = (catalog.dropVersions row.agentID).mark row.agentID now := by
  obtain ⟨plan, commit, grant, drop, mark, e, dropped, marked, served⟩ := rolled
  obtain ⟨_, _, s₁, t₁, same, first, ran⟩ := Threads.serve_first served rfl
  cases same
  simp only [agentProgram, AgentRequest.start, agentNext] at first
  split at first
  · cases first
    obtain ⟨_, taken, _⟩ := run_cons.mp ran
    cases taken
  rename_i row version planned
  cases first
  obtain ⟨_, _, _, _, _, created, _⟩ := planCreate_eq_ok planned
  have named : row.agentID = trimSpace request.id := by rw [created, createdRow]
  obtain ⟨x, taken, ran⟩ := run_cons.mp ran
  simp only [agentProgram, agentNext] at taken
  split at taken
  · cases taken
    obtain ⟨_, taken, _⟩ := run_cons.mp ran
    cases taken
  rename_i catalog done
  cases taken
  obtain ⟨x, taken, ran⟩ := run_cons.mp ran
  simp only [agentProgram, agentNext] at taken
  split at taken
  · cases taken
    obtain ⟨x, taken, ran⟩ := run_cons.mp ran
    simp only [agentProgram, agentNext, dropped] at taken
    cases taken
    obtain ⟨x, taken, ran⟩ := run_cons.mp ran
    simp only [agentProgram, agentNext, marked] at taken
    cases taken
    cases ran
    exact ⟨row, version, catalog, mark.now, named, (transact_eq_ok.mp done).1, rfl⟩
  · -- Without a fault the call reloads the agent and ends one step early.
    cases taken
    obtain ⟨x, taken, ran⟩ := run_cons.mp ran
    cases taken
    obtain ⟨_, taken, _⟩ := run_cons.mp ran
    cases taken

theorem rolledBack_row (rolled : AgentRolledBack A s caller request s') :
    lookup AgentRow.agentID s'.catalog.agents (trimSpace request.id) ≠ none := by
  obtain ⟨row, version, catalog, now, named, done, shape⟩ := rolledBack_catalog rolled
  obtain ⟨_, free, _, _, rfl⟩ := create_eq_ok.mp done
  have found : lookup AgentRow.agentID (s.catalog.agents ++ [row]) row.agentID = some row := by
    rw [lookup_append, free, if_pos rfl, Option.none_or]
  have kept := lookup_amend_self (fun r : AgentRow => { r with deletedAt := some now })
    (fun _ => rfl) found
  rw [shape, ← named]
  exact ne_of_eq_of_ne kept (Option.some_ne_none _)

theorem create_again_iff (referenced : s.catalog.Referenced)
    (acceptable : AgentAcceptable A caller request answer) :
    ((∃ s' agent, (agentProgram A).serve s (.create caller request) (List.replicate 4 answer) =
        some (s', .returned (.ok agent))) ↔
      lookup AgentRow.agentID s.catalog.agents (trimSpace request.id) = none) ∧
    (lookup AgentRow.agentID s.catalog.agents (trimSpace request.id) ≠ none →
      (agentProgram A).serve s (.create caller request) (List.replicate 2 answer) =
        some (s, .returned (.error errAgentAlreadyExists))) := by
  obtain ⟨working, row, version, planned, rowFits, versionFits⟩ := acceptable
  obtain ⟨_, _, _, _, _, created, versioned, _⟩ := planCreate_eq_ok planned
  have named : row.agentID = trimSpace request.id := by rw [created, createdRow]
  have owned : version.agentID = row.agentID := by rw [named, versioned, versionRow]
  have live : row.live = true := by rw [created, createdRow, AgentRow.live, Option.isNone_none]
  rw [← named]
  refine ⟨⟨?_, ?_⟩, ?_⟩
  · rintro ⟨s', agent, served⟩
    obtain ⟨other, row', version', first, planned', done⟩ := create_served served
    cases first
    cases planned.symm.trans planned'
    exact (create_eq_ok.mp done).2.1
  · intro free
    have fresh : lookup AgentVersionRow.key s.catalog.versions version.key = none := by
      rw [lookup_eq_none_iff]
      intro other member same
      have held := referenced other member
      have owner : other.agentID = row.agentID := (congrArg Prod.fst same).trans owned
      rw [owner, free] at held
      cases held
    have done := create_eq_ok.mpr ⟨rowFits, free, versionFits, fresh, rfl⟩
    have found : AgentCatalog.live ⟨s.catalog.agents ++ [row], s.catalog.versions ++ [version]⟩
        row.agentID = some row := by
      rw [AgentCatalog.live, select_append free live, if_pos rfl]
    have loaded : ∃ agent, loadAgent ⟨s.catalog.agents ++ [row], s.catalog.versions ++ [version]⟩
        row.agentID "" none = .ok agent := by
      have blank : trimSpace "" = "" := by decide
      simp only [loadAgent, found, blank]
      exact ⟨_, rfl⟩
    obtain ⟨agent, loaded⟩ := loaded
    refine ⟨({ s with catalog := ⟨s.catalog.agents ++ [row], s.catalog.versions ++ [version]⟩ } :
      AgentTables).write row, agent, ?_⟩
    simp only [Threads.Program.serve, List.replicate, run, agentProgram,
      AgentRequest.start, agentNext, planned, done, working, transact, Option.bind_some,
      AgentTables.write, loaded, Option.filter_some, AgentCall.finished, if_true]
  · intro taken
    have refused : s.catalog.create row version = .error errAgentAlreadyExists := by
      obtain ⟨stored, found⟩ := Option.ne_none_iff_exists'.mp taken
      simp only [AgentCatalog.create, AgentCatalog.insertAgent, rowFits, found, Option.isSome_some]
      rfl
    simp only [Threads.Program.serve, List.replicate, run, agentProgram,
      AgentRequest.start, agentNext, planned, refused, working, transact, Option.bind_some,
      Option.filter_some, AgentCall.finished, if_true]

end Agents

section Models

variable {C : ModelCodec} {a : ModelCallAnswer} {principal : CatalogPrincipal} {h h' : ModelHub}
  {p : ModelProfile}

/-- A creation that stored its row, could not write a tuple and marked the row again. -/
def ProfileRolledBack (C : ModelCodec) (h : ModelHub) (principal : CatalogPrincipal)
    (p : ModelProfile) (h' : ModelHub) : Prop :=
  ∃ (a : ModelCallAnswer) (e : HubError), (a.ownerFault ≠ none ∨ a.parentFault ≠ none) ∧
    a.deleteFault = none ∧ createModelProfile C a principal h p = (h', .error e) ∧
    h'.catalog ≠ h.catalog

def ProfileAcceptable (C : ModelCodec) (h : ModelHub) (principal : CatalogPrincipal)
    (p : ModelProfile) (a : ModelCallAnswer) : Prop :=
  a.createFault = none ∧ a.readFault = none ∧ a.ownerFault = none ∧ a.parentFault = none ∧
    trimSpace p.id = p.id ∧ principal.orgID ≠ "" ∧
    ∃ subject q revisions, prepareModelProfile C a principal p = .ok (subject, q) ∧
      (modelProfileBizToModel q).accepted = true ∧
      q.revisions.foldlM (writeModelProfileRevisionRow C q.id) h.catalog.revisions = .ok revisions

theorem prepareModelProfile_eq_ok
    (prepared : prepareModelProfile C a principal p = .ok (subject, q)) :
    validModelProfileID p.id = true ∧ canonicalSubject principal.toPrincipal = .ok subject ∧
      q.id = p.id := by
  obtain ⟨_, valid, prepared⟩ := bind_eq_ok.mp prepared
  obtain ⟨_, canonical, prepared⟩ := bind_eq_ok.mp prepared
  obtain ⟨_, _, prepared⟩ := bind_eq_ok.mp prepared
  obtain ⟨_, _, prepared⟩ := bind_eq_ok.mp prepared
  cases prepared
  refine ⟨?_, canonical, rfl⟩
  unfold validateModelProfileForCreate at valid
  split_ifs at valid with invalid
  exact eq_true_of_ne_false invalid

theorem modelProfileBizToModel_id (p : ModelProfile) : (modelProfileBizToModel p).profileID = p.id :=
  rfl

theorem insert_eq_ok :
    ModelProfileRepo.insert C c p = .ok d ↔ (modelProfileBizToModel p).accepted = true ∧
      lookup ModelProfileRow.profileID c.profiles p.id = none ∧
      ∃ revisions, p.revisions.foldlM (writeModelProfileRevisionRow C p.id) c.revisions = .ok revisions ∧
        d = ⟨c.profiles ++ [modelProfileBizToModel p], revisions⟩ := by
  unfold ModelProfileRepo.insert
  dsimp only
  rw [modelProfileBizToModel_id, inserted_eq_ok, bind_eq_ok]
  simp only [pure, Except.pure, Except.ok.injEq, eq_comm (b := d)]

theorem delete_keeps_ids (c : ModelCatalog) (id other : String) (now : Nat) :
    (lookup ModelProfileRow.profileID (ModelProfileRepo.delete c id now).profiles other).isSome =
      (lookup ModelProfileRow.profileID c.profiles other).isSome := by
  apply isSome_lookup_amend
  intro r
  split_ifs <;> rfl

theorem undoModelProfile_catalog (working : a.deleteFault = none) (g : ModelHub) (id : String) :
    (undoModelProfile a g id).catalog = ModelProfileRepo.delete g.catalog id a.now := by
  simp only [undoModelProfile, working]

theorem profileRolledBack_row (rolled : ProfileRolledBack C h principal p h') :
    (lookup ModelProfileRow.profileID h'.catalog.profiles p.id).isSome = true := by
  obtain ⟨a, e, _, working, failed, changed⟩ := rolled
  unfold createModelProfile at failed
  split at failed
  · exact absurd (congrArg ModelHub.catalog (Prod.mk.inj failed).1.symm) changed
  rename_i subject q prepared
  obtain ⟨_, _, same⟩ := prepareModelProfile_eq_ok prepared
  split at failed
  · exact absurd (congrArg ModelHub.catalog (Prod.mk.inj failed).1.symm) changed
  rename_i catalog stored
  obtain ⟨_, free, _, _, rfl⟩ := insert_eq_ok.mp (underFault_eq_ok.mp stored).2
  have kept : (lookup ModelProfileRow.profileID
      (h.catalog.profiles ++ [modelProfileBizToModel q]) p.id).isSome = true := by
    rw [lookup_append, ← same, free, if_pos (modelProfileBizToModel_id q)]
    rfl
  dsimp only at failed
  split at failed
  · rw [← (Prod.mk.inj failed).1]
    exact kept
  unfold grantModelProfile at failed
  dsimp only at failed
  split at failed
  · rw [← (Prod.mk.inj failed).1, undoModelProfile_catalog working, delete_keeps_ids]
    exact kept
  split at failed
  · rw [← (Prod.mk.inj failed).1, undoModelProfile_catalog working, delete_keeps_ids]
    exact kept
  · rw [← (Prod.mk.inj failed).1]
    exact kept

theorem write_profile_tuple {id} (relation : String) (subject : AuthzSubjectRef)
    (tuples : Tuples) (named : id ≠ "") (related : trimSpace relation ≠ "") (typed : subject.type ≠ "")
    (filled : subject.id ≠ "") :
    ∃ out, writeRelationships tuples [⟨modelProfileResource id, relation, subject⟩] none = .ok out := by
  refine ⟨_, writeRelationships_eq_ok.mpr ⟨?_, rfl, rfl⟩⟩
  intro r member
  cases List.mem_singleton.mp member
  exact validateRelationship_ok (by decide) named related typed filled

theorem create_profile_again_iff (acceptable : ProfileAcceptable C h principal p a) :
    ((createModelProfile C a principal h p).2.isOk = true ↔
      lookup ModelProfileRow.profileID h.catalog.profiles p.id = none) ∧
    (lookup ModelProfileRow.profileID h.catalog.profiles p.id ≠ none →
      createModelProfile C a principal h p = (h, .error errDuplicateKey)) := by
  obtain ⟨noCreate, noRead, noOwner, noParent, trimmed, zoned, subject, q, revisions, prepared, fits,
    written⟩ := acceptable
  obtain ⟨valid, canonical, same⟩ := prepareModelProfile_eq_ok prepared
  have named : q.id ≠ "" := by
    rw [same]
    intro empty
    rw [empty] at valid
    exact absurd valid (by decide)
  have refused : lookup ModelProfileRow.profileID h.catalog.profiles p.id ≠ none →
      createModelProfile C a principal h p = (h, .error errDuplicateKey) := by
    intro taken
    have duplicate : ModelProfileRepo.insert C h.catalog q = .error errDuplicateKey := by
      simp only [ModelProfileRepo.insert, fits, modelProfileBizToModel_id, same,
        Option.isSome_iff_ne_none.mpr taken]
      rfl
    simp only [createModelProfile, prepared, noCreate, underFault, duplicate]
  refine ⟨⟨?_, ?_⟩, refused⟩
  · intro done
    by_contra taken
    rw [refused taken] at done
    cases done
  · intro free
    rw [← same] at free trimmed
    have stored := insert_eq_ok.mpr ⟨fits, free, revisions, written, rfl⟩
    have live : (modelProfileBizToModel q).live = true := rfl
    have found : select ModelProfileRow.profileID ModelProfileRow.live
        (h.catalog.profiles ++ [modelProfileBizToModel q]) (trimSpace q.id) =
          some (modelProfileBizToModel q) := by
      rw [trimmed, select_append free live, if_pos (modelProfileBizToModel_id q).symm]
    obtain ⟨typed, filled⟩ := canonicalSubject_eq_ok canonical
    obtain ⟨owned, first⟩ := write_profile_tuple "owner" subject h.tuples named (by decide) typed filled
    obtain ⟨tuples, second⟩ := write_profile_tuple "parent"
      { type := "project", id := principal.orgID } owned named (by decide) (by simp) zoned
    simp only [createModelProfile, prepared, noCreate, noRead, underFault, stored,
      ModelProfileRepo.get, found, grantModelProfile, noOwner, noParent, first, second]
    rfl

end Models

/-- A creation that could not write its tuples leaves the row of its id in either catalog, and
a later one by the same principal, with dependencies that work, succeeds exactly in catalogs
that have no such row. -/
theorem failed_creation_keeps_id {φ : Type} (A : AgentCodec φ) (C : ModelCodec)
    (caller : CatalogPrincipal) :
    (∀ (s s' : AgentTables) (request : AgentWriteRequest), AgentRolledBack A s caller request s' →
      lookup AgentRow.agentID s'.catalog.agents (trimSpace request.id) ≠ none ∧
      ∀ (later : AgentTables) (again : AgentWriteRequest) (answer : AgentAnswer),
        later.catalog.Referenced → trimSpace again.id = trimSpace request.id →
        AgentAcceptable A caller again answer →
        ((∃ after agent, (agentProgram A).serve later (.create caller again)
            (List.replicate 4 answer) = some (after, .returned (.ok agent))) ↔
          lookup AgentRow.agentID later.catalog.agents (trimSpace request.id) = none) ∧
        (lookup AgentRow.agentID later.catalog.agents (trimSpace request.id) ≠ none →
          (agentProgram A).serve later (.create caller again) (List.replicate 2 answer) =
            some (later, .returned (.error errAgentAlreadyExists)))) ∧
    (∀ (h h' : ModelHub) (p : ModelProfile), ProfileRolledBack C h caller p h' →
      lookup ModelProfileRow.profileID h'.catalog.profiles p.id ≠ none ∧
      ∀ (later : ModelHub) (again : ModelProfile) (answer : ModelCallAnswer), again.id = p.id →
        ProfileAcceptable C later caller again answer →
        ((createModelProfile C answer caller later again).2.isOk = true ↔
          lookup ModelProfileRow.profileID later.catalog.profiles p.id = none) ∧
        (lookup ModelProfileRow.profileID later.catalog.profiles p.id ≠ none →
          createModelProfile C answer caller later again = (later, .error errDuplicateKey))) := by
  constructor
  · intro s s' request rolled
    refine ⟨rolledBack_row rolled, ?_⟩
    intro later again answer referenced same acceptable
    rw [← same]
    exact create_again_iff referenced acceptable
  · intro h h' p rolled
    refine ⟨Option.isSome_iff_ne_none.mp (profileRolledBack_row rolled), ?_⟩
    intro later again answer same acceptable
    rw [← same]
    exact create_profile_again_iff acceptable

def scoutRequest : AgentWriteRequest := { id := "scout", definition := sampleDefinition [] }

def grantFails : List AgentAnswer := [{}, {}, { fault := some "unavailable" }, {}, {}]

def plainModels : ModelCodec := ⟨fun _ => none, fun _ => "0123456789abcdef"⟩

def codingProfile : ModelProfile where
  id := "coding"
  provider := "openai"
  apiFormat := "openai_responses"
  endpoint := "https://models.example"
  upstreamModel := "large"

theorem scout_acceptable : AgentAcceptable plainAgents { toPrincipal := launcher } scoutRequest {} := by
  obtain ⟨⟨row, version⟩, planned, fits⟩ := map_eq_ok (by decide +kernel :
    (planCreate plainAgents {} 0 { toPrincipal := launcher } scoutRequest).map
      (fun out => out.1.accepted && out.2.accepted) = .ok true)
  obtain ⟨rowFits, versionFits⟩ := (Bool.and_eq_true _ _).mp fits
  exact ⟨rfl, row, version, planned, rowFits, versionFits⟩

theorem coding_acceptable :
    ProfileAcceptable plainModels {} { toPrincipal := launcher } codingProfile {} := by
  obtain ⟨⟨subject, q⟩, prepared, facts⟩ := map_eq_ok (by decide +kernel :
    (prepareModelProfile plainModels {} { toPrincipal := launcher } codingProfile).map
      (fun out => (modelProfileBizToModel out.2).accepted &&
        (out.2.revisions.foldlM (writeModelProfileRevisionRow plainModels out.2.id) []).isOk) = .ok true)
  obtain ⟨fits, writes⟩ := (Bool.and_eq_true _ _).mp facts
  obtain ⟨revisions, written⟩ := exists_of_isOk writes
  exact ⟨rfl, rfl, rfl, rfl, by decide +kernel, by decide, subject, q, revisions, prepared, fits, written⟩

theorem scout_rolledBack :
    ∃ s', AgentRolledBack plainAgents {} { toPrincipal := launcher } scoutRequest s' := by
  obtain ⟨⟨s', call⟩, served, ended⟩ := Option.map_eq_some_iff.mp (by decide +kernel :
    ((agentProgram plainAgents).serve {} (.create { toPrincipal := launcher } scoutRequest) grantFails).map
      Prod.snd = some (.returned (.error errAgentAuthzUnavailable)))
  cases ended
  exact ⟨s', _, _, _, _, _, _, rfl, rfl, served⟩

theorem coding_rolledBack : ProfileRolledBack plainModels {} { toPrincipal := launcher } codingProfile
    (createModelProfile plainModels { ownerFault := some "unavailable" } { toPrincipal := launcher } {}
      codingProfile).1 := by
  have failed : (createModelProfile plainModels { ownerFault := some "unavailable" }
      { toPrincipal := launcher } {} codingProfile).2 =
      .error ⟨.AUTHZ_BACKEND_FAILED, "model profile create: grant owner: unavailable"⟩ := by
    decide +kernel
  exact ⟨{ ownerFault := some "unavailable" }, _, .inl (by decide), rfl, Prod.ext rfl failed,
    by decide +kernel⟩

/-- In catalogs without the rows of failed creations the ids are free again. -/
theorem purged_ids_created_again :
    (∃ s', AgentRolledBack plainAgents {} { toPrincipal := launcher } scoutRequest s' ∧
      ∃ after agent, (agentProgram plainAgents).serve {} (.create { toPrincipal := launcher } scoutRequest)
        (List.replicate 4 {}) = some (after, .returned (.ok agent))) ∧
    ∃ h', ProfileRolledBack plainModels {} { toPrincipal := launcher } codingProfile h' ∧
      (createModelProfile plainModels {} { toPrincipal := launcher } {} codingProfile).2.isOk = true := by
  constructor
  · obtain ⟨s', rolled⟩ := scout_rolledBack
    refine ⟨s', rolled, ?_⟩
    have again := ((failed_creation_keeps_id plainAgents plainModels _).1 {} s' scoutRequest rolled).2 {}
      scoutRequest {} (by intro version member; cases member) rfl scout_acceptable
    exact again.1.mpr rfl
  · have again := ((failed_creation_keeps_id plainAgents plainModels _).2 {} _ codingProfile
      coding_rolledBack).2 {} codingProfile {} rfl coding_acceptable
    exact ⟨_, coding_rolledBack, again.1.mpr rfl⟩

/-- In the catalogs that failed creations leave, the ids are taken. -/
theorem failed_ids_stay_taken :
    (∃ s', AgentRolledBack plainAgents {} { toPrincipal := launcher } scoutRequest s' ∧
      (agentProgram plainAgents).serve s' (.create { toPrincipal := launcher } scoutRequest)
        (List.replicate 2 {}) = some (s', .returned (.error errAgentAlreadyExists))) ∧
    ∃ h', ProfileRolledBack plainModels {} { toPrincipal := launcher } codingProfile h' ∧
      (createModelProfile plainModels {} { toPrincipal := launcher } h' codingProfile).2 =
        .error errDuplicateKey := by
  constructor
  · obtain ⟨⟨s', _⟩, served, rfl, again⟩ : ∃ out,
        (agentProgram plainAgents).serve {} (.create { toPrincipal := launcher } scoutRequest)
          grantFails = some out ∧ out.2 = .returned (.error errAgentAuthzUnavailable) ∧
        (agentProgram plainAgents).serve out.1 (.create { toPrincipal := launcher } scoutRequest)
          (List.replicate 2 {}) = some (out.1, .returned (.error errAgentAlreadyExists)) := by
      decide +kernel
    exact ⟨s', ⟨_, _, _, _, _, _, rfl, rfl, served⟩, again⟩
  · exact ⟨_, coding_rolledBack, by decide +kernel⟩

end AisphereHub
