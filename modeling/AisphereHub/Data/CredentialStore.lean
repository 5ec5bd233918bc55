import AisphereHub.Data.Store

/-! The credential store over `k8s_cluster_credentials`. Sealing and opening
under the master keys is left out: a row opens to the value it was put with. -/
namespace AisphereHub

/-- `uq_k8s_cluster_credentials_cluster_revision`. -/
def credentialCollides (clusterID : String) (credentialRevision : Int) (row : CredentialRow) :
    Bool :=
  row.clusterID == clusterID && row.credentialRevision == credentialRevision

/-- `PutWithRef` under the primary key, the foreign key to the clusters and the
unique index. -/
def putWithRef (s : KubeStore) (clusterID ref : String) (credentialRevision : Int)
    (value : Credential) : Except HubError (List CredentialRow × CredentialLocator) :=
  if ref = "" then
    .error (.plain "kubernetes credStore: PutWithRef requires non-empty ref")
  else if (Keyed.lookup CredentialRow.ref s.credentials ref).isSome then
    .error (.plain "persist credential row: duplicate key")
  else if (Keyed.lookup Cluster.id s.clusters clusterID).isNone then
    .error (.plain "persist credential row: foreign key violation")
  else if s.credentials.any (credentialCollides clusterID credentialRevision) then
    .error (.plain "persist credential row: duplicate key")
  else
    .ok (s.credentials ++ [⟨ref, clusterID, credentialRevision, value⟩],
      ⟨clusterID, ref, credentialRevision⟩)

def credentialDrift (row : CredentialRow) (locator : CredentialLocator) : String :=
  "credential row drifted (db cluster=" ++ row.clusterID ++ " rev=" ++
    toString row.credentialRevision ++ ", locator cluster=" ++ locator.clusterID ++ " rev=" ++
    toString locator.credentialRevision ++ ")"

/-- `Get`: the row under the ref, if it still is the one the locator names. -/
def getCredential (rows : List CredentialRow) (locator : CredentialLocator) :
    Except HubError Credential :=
  match Keyed.lookup CredentialRow.ref rows locator.credentialRef with
  | none =>
    .error ⟨.FAILED_PRECONDITION, "credential ref not found: " ++ locator.credentialRef⟩
  | some row =>
    if row.clusterID ≠ locator.clusterID ∨ row.credentialRevision ≠ locator.credentialRevision
    then .error ⟨.FAILED_PRECONDITION, credentialDrift row locator⟩
    else .ok row.credential

/-- `Delete`: a missing row is not an error. A delete that fails leaves the
table; no caller does more than retry on its error. -/
def deleteCredential (rows : List CredentialRow) (ref : String) (a : Answer) :
    List CredentialRow :=
  match a.fault with
  | some _ => rows
  | none => Keyed.remove CredentialRow.ref rows ref

theorem putWithRef_eq_ok
    (stored : putWithRef s clusterID ref credentialRevision value = .ok out) :
    ref ≠ "" ∧ Keyed.lookup CredentialRow.ref s.credentials ref = none ∧
      (∀ row ∈ s.credentials, row.clusterID = clusterID →
        row.credentialRevision ≠ credentialRevision) ∧
      out = (s.credentials ++ [⟨ref, clusterID, credentialRevision, value⟩],
        ⟨clusterID, ref, credentialRevision⟩) := by
  unfold putWithRef at stored
  split_ifs at stored with blank taken _ collides
  cases stored
  refine ⟨blank, by simpa using taken, ?_, rfl⟩
  intro row member sameCluster sameRevision
  apply collides
  simp only [List.any_eq_true]
  exact ⟨row, member, by simp [credentialCollides, sameCluster, sameRevision]⟩

end AisphereHub
