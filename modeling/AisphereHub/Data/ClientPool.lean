import AisphereHub.Data.CredentialStore

/-! The client pool: one cached client for each cluster, good for one credential
revision. `getOrBuild` is one atomic step, as the builds of one cluster and
revision are single-flighted. -/
namespace AisphereHub

/-- The parts of a compiled `rest.Config` the factory looks at. -/
structure RestConfig where
  host : String
  proxy : Bool := false
  execProvider : Bool := false
  authProvider : Bool := false
  impersonate : Bool := false
deriving DecidableEq

/-- A loaded kubeconfig: its current context, and the REST config client-go
compiles for each context. -/
structure Kubeconfig where
  currentContext : String
  clientConfig : String → Except String RestConfig

structure ServerURL where
  scheme : String
  port : String
deriving DecidableEq

/-- The third-party functions the client factory rests on: `Credential.Validate`,
the host of `Config.MergeCredential`, `clientcmd.Load`, `url.Parse`, and the
API server an in-cluster config names. -/
structure Kubernetesx where
  validate : Credential → Except String Unit
  mergeCredential : Credential → Except String String
  load : String → Except String Kubeconfig
  parseURL : String → Option ServerURL
  inClusterHost : String

/-- A library that takes every credential at its word. -/
def trustingKubernetesx : Kubernetesx where
  validate _ := .ok ()
  mergeCredential cred := .ok cred.host
  load raw := .ok ⟨"main", fun _ => .ok { host := raw }⟩
  parseURL _ := some ⟨"https", ""⟩
  inClusterHost := "https://kubernetes.default"

section
variable (K : Kubernetesx)

def portFromURL (raw : String) : String :=
  match K.parseURL raw with
  | none => ""
  | some u => if u.port ≠ "" then u.port else if u.scheme = "https" then "443" else ""

def restConfigFromKubeconfig (cred : Credential) : Except String RestConfig := do
  let raw ← K.load cred.kubeconfig
  let contextName := if cred.context = "" then raw.currentContext else cred.context
  if contextName = "" then .error "kubeconfig current-context is empty"
  else raw.clientConfig contextName

def validateKubeconfigRestConfig (cfg : RestConfig) : Except String Unit :=
  if cfg.proxy then .error "proxy-url is not allowed"
  else if cfg.execProvider then .error "exec credential plugins are not allowed"
  else if cfg.authProvider then .error "auth-provider plugins are not allowed"
  else if cfg.impersonate then .error "impersonation is not allowed"
  else .ok ()

/-- The endpoint policy and the port of the URL a client is pinned to. The
policy resolves names, so whether it accepts is the environment's answer; so
is the outcome of `kubernetesx.New`. -/
def pinned (url noPort : String) (fault : Option String) : Except HubError Unit :=
  match fault with
  | some cause => .error (.plain cause)
  | none => if portFromURL K url = "" then .error (.plain noPort) else .ok ()

def wrapped {α : Type} (text : String) : Except String α → Except HubError α
  | .ok a => .ok a
  | .error cause => .error (.plain (text ++ cause))

def defaultClientFactory (clusterID : String) (cred : Credential) (fault : Option String) :
    Except HubError Client := do
  let merged ← wrapped ("merge credential for cluster " ++ clusterID ++ ": ")
    (K.mergeCredential cred)
  match cred.kind with
  | .KUBECONFIG =>
    let cfg ← wrapped ("compile kubeconfig for cluster " ++ clusterID ++ ": ")
      (restConfigFromKubeconfig K cred)
    let _ ← wrapped ("unsafe kubeconfig for cluster " ++ clusterID ++ ": ")
      (validateKubeconfigRestConfig cfg)
    let _ ← pinned K cfg.host "client pool: kubeconfig server URL has no port" fault
    return ⟨cred, cfg.host⟩
  | .SERVICE_ACCOUNT =>
    let _ ← pinned K cred.host "client pool: server_url has no port" fault
    return ⟨cred, merged⟩
  | .IN_CLUSTER =>
    match fault with
    | some cause => .error (.plain cause)
    | none => return ⟨cred, K.inClusterHost⟩

def cachedClient (clients : List ClientEntry) (clusterID : String) (revision : Int) :
    Option Client :=
  match Keyed.lookup ClientEntry.clusterID clients clusterID with
  | none => none
  | some entry => if entry.revision = revision then some entry.client else none

def storeClient (clients : List ClientEntry) (entry : ClientEntry) : List ClientEntry :=
  Keyed.remove ClientEntry.clusterID clients entry.clusterID ++ [entry]

def invalidateCluster (clients : List ClientEntry) (clusterID : String) : List ClientEntry :=
  Keyed.remove ClientEntry.clusterID clients clusterID

def resolveCredential (s : KubeStore) (clusterID : String) (locator : CredentialLocator)
    (cred : Option Credential) (a : Answer) : Except HubError Credential :=
  match cred with
  | some given => .ok given
  | none =>
    match a.orFault (getCredential s.credentials locator) with
    | .ok loaded => .ok loaded
    | .error e =>
      .error ⟨e.code, "load credential for cluster " ++ clusterID ++ ": " ++ e.detail⟩

def getOrBuild (s : KubeStore) (clusterID : String) (locator : CredentialLocator)
    (cred : Option Credential) (a : Answer) : Except HubError (Client × List ClientEntry) :=
  match cachedClient s.clients clusterID locator.credentialRevision with
  | some client => .ok (client, s.clients)
  | none =>
    match resolveCredential s clusterID locator cred a with
    | .error e => .error e
    | .ok c =>
      match defaultClientFactory K clusterID c a.factoryFault with
      | .error e => .error e
      | .ok client =>
        .ok (client,
          storeClient s.clients ⟨clusterID, client, locator.credentialRevision⟩)

end

variable {K : Kubernetesx}

theorem wrapped_eq_ok {a : α} :
    wrapped text result = .ok a ↔ result = .ok a := by
  cases result <;> simp [wrapped]

variable {clusterID : String}

theorem defaultClientFactory_credential
    (built : defaultClientFactory K clusterID cred fault = .ok client) :
    client.credential = cred := by
  obtain ⟨merged, _, built⟩ := bind_eq_ok.mp built
  cases kind : cred.kind with
  | KUBECONFIG =>
    simp only [kind] at built
    obtain ⟨cfg, _, built⟩ := bind_eq_ok.mp built
    obtain ⟨_, _, built⟩ := bind_eq_ok.mp built
    obtain ⟨_, _, built⟩ := bind_eq_ok.mp built
    cases built
    rfl
  | SERVICE_ACCOUNT =>
    simp only [kind] at built
    obtain ⟨_, _, built⟩ := bind_eq_ok.mp built
    cases built
    rfl
  | IN_CLUSTER =>
    simp only [kind] at built
    cases fault with
    | some cause => cases built
    | none =>
      cases built
      rfl

theorem cachedClient_invalidate (clients : List ClientEntry) (clusterID j : String)
    (revision : Int) : cachedClient (invalidateCluster clients clusterID) j revision =
      if j = clusterID then none else cachedClient clients j revision := by
  unfold cachedClient invalidateCluster
  rw [Keyed.lookup_remove]
  by_cases same : j = clusterID <;> simp [same]

theorem resolveCredential_stored
    (resolved : resolveCredential s clusterID locator none a = .ok cred) :
    Keyed.lookup CredentialRow.ref s.credentials locator.credentialRef =
      some ⟨locator.credentialRef, locator.clusterID, locator.credentialRevision, cred⟩ := by
  simp only [resolveCredential] at resolved
  split at resolved
  · rename_i loaded read
    cases resolved
    have read := (orFault_eq_ok.mp read).2
    unfold getCredential at read
    split at read
    · cases read
    rename_i row found
    split_ifs at read with drift
    rw [not_or, not_not, not_not] at drift
    have named := Keyed.key_of_lookup found
    cases read
    rw [found, ← named, ← drift.1, ← drift.2]
  · cases resolved

/-- A client the pool returned was cached under that revision, or was built
from the resolved credential and is cached now. -/
theorem getOrBuild_eq_ok
    (served : getOrBuild K s clusterID locator cred a = .ok (client, clients)) :
    (cachedClient s.clients clusterID locator.credentialRevision = some client ∧
      clients = s.clients) ∨ ∃ c, resolveCredential s clusterID locator cred a = .ok c ∧
      defaultClientFactory K clusterID c a.factoryFault = .ok client ∧
      clients = storeClient s.clients ⟨clusterID, client, locator.credentialRevision⟩ := by
  unfold getOrBuild at served
  split at served
  · rename_i hit cached
    cases served
    exact .inl ⟨cached, rfl⟩
  · right
    split at served
    · cases served
    · rename_i c resolved
      split at served
      · cases served
      · rename_i client' built
        cases served
        exact ⟨c, resolved, built, rfl⟩

end AisphereHub
