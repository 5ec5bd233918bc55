import AisphereHub.Biz.Cluster
import AisphereHub.Foundation.Keyed

/-! The state the Kubernetes usecases act on: the Postgres tables, the SpiceDB
tuples and the in-process client pool, together with the credential refs
`uuid.NewString` has handed out. Ciphertexts are left out of the credential
rows: a stored row holds the credential it opens to. Claim, lease and retry
bookkeeping is left out of the outbox rows. -/
namespace AisphereHub

inductive CredentialKind where
  | KUBECONFIG
  | SERVICE_ACCOUNT
  | IN_CLUSTER
deriving DecidableEq

/-- `kubernetesx.Credential`; the empty kind is an absent credential. -/
structure Credential where
  kind : CredentialKind
  kubeconfig : String := ""
  context : String := ""
  host : String := ""
  token : String := ""
  caCert : String := ""
deriving DecidableEq

structure CredentialRow where
  ref : String
  clusterID : String
  credentialRevision : Int
  credential : Credential
deriving DecidableEq

/-- A built `kubernetesx.Client`: the credential it authenticates with and the
API server its REST config names. -/
structure Client where
  credential : Credential
  host : String
deriving DecidableEq

structure ClientEntry where
  clusterID : String
  client : Client
  revision : Int
deriving DecidableEq

structure OutboxEvent where
  aggregateType : String
  aggregateID : String
  eventType : String
  payload : List (String × String)
deriving DecidableEq

structure KubeStore where
  clusters : List Cluster := []
  credentials : List CredentialRow := []
  namespaces : List Namespace := []
  shares : List NamespaceShare := []
  outbox : List OutboxEvent := []
  tuples : Tuples := []
  clients : List ClientEntry := []
  issuedRefs : List String := []
deriving DecidableEq

/-- What the environment answers to one atomic step: a failure of the
dependency the step calls, a failure of the client factory, SpiceDB's decision,
the clock, a fresh UUID, and what the API server says about itself. A failing
dependency has no effect. -/
structure Answer where
  fault : Option String := none
  factoryFault : Option String := none
  check : CheckAnswer := .allowed
  now : Nat := 0
  uuid : String := ""
  clusterUID : String := ""
  gitVersion : String := ""
deriving DecidableEq

/-- A dependency call that fails with the environment's fault, if there is one. -/
def Answer.orFault {α : Type} (answer : Answer) (result : Except HubError α) :
    Except HubError α :=
  match answer.fault with
  | some cause => .error (.plain cause)
  | none => result

def enqueue (outbox : List OutboxEvent) (event : OutboxEvent) (answer : Answer) :
    List OutboxEvent :=
  match answer.fault with
  | some _ => outbox
  | none => outbox ++ [event]

/-- The rows a guarded `UPDATE` leaves, or the caller's sentinel when no row
was affected. -/
def affected {ρ : Type} (result : Option (List ρ × ρ)) (missing : ErrorCode) :
    Except HubError (List ρ × ρ) :=
  match result with
  | some out => .ok out
  | none => .error ⟨missing, ""⟩

theorem affected_eq_ok
    {out : List ρ × ρ} : affected result missing = .ok out ↔ result = some out := by
  cases result <;> simp [affected]

section GuardedWrite

variable {ρ : Type} {key : ρ → String} {rows table : List ρ} {updated : ρ} {k : String}
  {guard live : ρ → Bool} {f : ρ → ρ} {missing : ErrorCode}

theorem affected_guarded : affected (Keyed.update key rows k (fun r => guard r && live r) f) missing
        = .ok (table, updated) ↔
      ∃ r, Keyed.select key live rows k = some r ∧ guard r = true ∧ updated = f r ∧
        table = Keyed.amend key rows k f := by
  simp only [affected_eq_ok, Keyed.update_eq_some, Keyed.select_eq_some, Bool.and_eq_true,
    Prod.mk.injEq, and_assoc, and_comm, and_left_comm]

theorem affected_update :
    affected (Keyed.update key rows k live f) missing = .ok (table, updated) ↔
      ∃ r, Keyed.select key live rows k = some r ∧ updated = f r ∧
        table = Keyed.amend key rows k f := by
  simp only [affected_eq_ok, Keyed.update_eq_some, Keyed.select_eq_some, Prod.mk.injEq, and_assoc,
    and_comm, and_left_comm]

end GuardedWrite

theorem map_fst_eq_ok {α β : Type} {result : Except HubError (α × β)} {a} :
    result.map Prod.fst = .ok a ↔ ∃ b, result = .ok (a, b) := by
  rcases result with e | ⟨a', b⟩ <;> simp [Except.map]

theorem orFault_eq_ok {answer : Answer} {a : α} :
    answer.orFault result = .ok a ↔ answer.fault = none ∧ result = .ok a := by
  unfold Answer.orFault
  cases answer.fault <;> simp

end AisphereHub
