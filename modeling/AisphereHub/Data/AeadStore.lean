import AisphereHub.Data.CredentialStore
import Mathlib.Algebra.Ring.Int.Defs
import Mathlib.Algebra.Ring.Nat

/-! `kubernetes_credential_store.go` with its ciphertexts: a row is sealed under
the active master key, opened by `Get`, and sealed again by `RotateKey`. The
cipher is any one that opens what it sealed, and the JSON of a
`kubernetesx.Credential`, which the kernel defines, any pair of functions. The
constraints of the table other than its primary key are among the refusals. -/
namespace AisphereHub

abbrev Bytes := List UInt8

structure Aead where
  sealed : Bytes → Bytes → Bytes → Bytes → Bytes
  opened : Bytes → Bytes → Bytes → Bytes → Except String Bytes
  opened_sealed : ∀ key nonce plaintext aad,
    opened key nonce (sealed key nonce plaintext aad) aad = .ok plaintext

/-- A key that `NewCredentialStore` loads; AES takes every one of them. -/
abbrev MasterKey := { key : Bytes // key.length = 32 }

structure AeadStore where
  cipher : Aead
  keys : String → Option MasterKey
  activeVersion : String
  activeKey : MasterKey
  activeLoaded : keys activeVersion = some activeKey
  marshal : Credential → Except String Bytes
  unmarshal : Bytes → Except String Credential
  kindText : CredentialKind → String

/-- `k8sCredentialModel`. -/
structure SealedRow where
  ref : String
  clusterID : String
  credentialRevision : Int
  ciphertext : Bytes
  nonce : Bytes
  keyVersion : String
  credentialType : String
deriving DecidableEq

def bigEndian : Nat → Nat → Bytes
  | 0, _ => []
  | width + 1, n => UInt8.ofNat (n / 256 ^ width) :: bigEndian width n

def buildAAD (clusterID ref : String) (credentialRevision : Int) : Bytes :=
  let lenPrefixed (s : String) := bigEndian 4 s.utf8ByteSize ++ s.toUTF8.toList
  lenPrefixed clusterID ++ lenPrefixed ref ++ bigEndian 8 (credentialRevision % 2 ^ 64).toNat

def SealedRow.aad (row : SealedRow) : Bytes :=
  buildAAD row.clusterID row.ref row.credentialRevision

namespace AeadStore

def putWithRef (s : AeadStore) (table : List SealedRow) (clusterID ref : String)
    (credentialRevision : Int) (value : Credential) (nonce : Except String Bytes)
    (refused : Option String) : Except HubError (List SealedRow × CredentialLocator) :=
  if ref = "" then
    .error (.plain "kubernetes credStore: PutWithRef requires non-empty ref")
  else
    match s.marshal value, nonce with
    | .error e, _ => .error (.plain ("marshal credential: " ++ e))
    | .ok _, .error e => .error (.plain ("generate nonce: " ++ e))
    | .ok plaintext, .ok nonce =>
      let ciphertext := s.cipher.sealed s.activeKey.1 nonce plaintext
        (buildAAD clusterID ref credentialRevision)
      let refused := if (Keyed.lookup SealedRow.ref table ref).isSome then some "duplicate key"
        else refused
      match refused with
      | some e => .error (.plain ("persist credential row: " ++ e))
      | none =>
        .ok (table ++ [⟨ref, clusterID, credentialRevision, ciphertext, nonce, s.activeVersion,
          s.kindText value.kind⟩], ⟨clusterID, ref, credentialRevision⟩)

def unmarshalCredential (s : AeadStore) (plaintext : Bytes) (credentialType : String) :
    Except HubError Credential :=
  match s.unmarshal plaintext with
  | .error e => .error (.plain ("unmarshal credential: " ++ e))
  | .ok c =>
    if s.kindText c.kind ≠ credentialType then
      .error (.plain ("unmarshal credential: credential kind drift: row type " ++
        credentialType.quote ++ ", plaintext kind " ++ (s.kindText c.kind).quote))
    else .ok c

def drift (row : SealedRow) (locator : CredentialLocator) : String :=
  "credential row drifted (db cluster=" ++ row.clusterID ++ " rev=" ++
    toString row.credentialRevision ++ ", locator cluster=" ++ locator.clusterID ++ " rev=" ++
    toString locator.credentialRevision ++ ")"

/-- `Get`: the additional data is built from the locator. -/
def get (s : AeadStore) (table : List SealedRow) (locator : CredentialLocator) :
    Except HubError Credential :=
  match Keyed.lookup SealedRow.ref table locator.credentialRef with
  | none =>
    .error ⟨.FAILED_PRECONDITION, "credential ref not found: " ++ locator.credentialRef⟩
  | some row =>
    if row.clusterID ≠ locator.clusterID ∨ row.credentialRevision ≠ locator.credentialRevision
    then .error ⟨.FAILED_PRECONDITION, drift row locator⟩
    else
      match s.keys row.keyVersion with
      | none =>
        .error ⟨.FAILED_PRECONDITION, "master key version " ++ row.keyVersion.quote ++
          " not loaded (key retired before re-encrypt complete?)"⟩
      | some key =>
        match s.cipher.opened key.1 row.nonce row.ciphertext
          (buildAAD locator.clusterID locator.credentialRef locator.credentialRevision) with
        | .error e =>
          .error ⟨.FAILED_PRECONDITION,
            "AEAD open failed (AAD mismatch or ciphertext tampered): " ++ e⟩
        | .ok plaintext => s.unmarshalCredential plaintext row.credentialType

/-- What one round of the loop of `RotateKey` meets: the nonce read, and a failure
of the write-back, which may have taken effect all the same. -/
structure RotationAnswer where
  nonce : Except String Bytes
  failed : Option String := none
  effective : Bool := false

structure RotationOutcome where
  table : List SealedRow
  reencrypted : Nat
  error : Option HubError
deriving DecidableEq

def reseal (s : AeadStore) (newKey : MasterKey) (toVersion : String) (nonce plaintext aad : Bytes)
    (row : SealedRow) : SealedRow :=
  { row with
    ciphertext := s.cipher.sealed newKey.1 nonce plaintext aad
    nonce := nonce
    keyVersion := toVersion }

/-- The loop of `RotateKey` over the rows it read, the count so far with it. -/
def rotateRows (s : AeadStore) (oldKey newKey : MasterKey) (toVersion : String)
    (answers : Nat → RotationAnswer) :
    List SealedRow → Nat → List SealedRow → RotationOutcome
  | table, reencrypted, [] => ⟨table, reencrypted, none⟩
  | table, reencrypted, row :: rest =>
    match s.cipher.opened oldKey.1 row.nonce row.ciphertext row.aad,
      (answers reencrypted).nonce with
    | .error e, _ =>
      ⟨table, reencrypted,
        some (.plain ("rotate key: decrypt row " ++ row.ref ++ " failed: " ++ e))⟩
    | .ok _, .error e =>
      ⟨table, reencrypted, some (.plain ("rotate key: generate nonce: " ++ e))⟩
    | .ok plaintext, .ok nonce =>
      let written := Keyed.amend SealedRow.ref table row.ref
        (s.reseal newKey toVersion nonce plaintext row.aad)
      match (answers reencrypted).failed with
      | some e =>
        ⟨if (answers reencrypted).effective then written else table, reencrypted,
          some (.plain ("rotate key: write back row " ++ row.ref ++ ": " ++ e))⟩
      | none => s.rotateRows oldKey newKey toVersion answers written (reencrypted + 1) rest

def rotateKey (s : AeadStore) (table : List SealedRow) (fromVersion toVersion : String)
    (load : Option String) (answers : Nat → RotationAnswer) : RotationOutcome :=
  match s.keys fromVersion, s.keys toVersion, load with
  | none, _, _ =>
    ⟨table, 0, some (.plain ("rotate key: fromVersion " ++ fromVersion.quote ++ " not loaded"))⟩
  | some _, none, _ =>
    ⟨table, 0, some (.plain ("rotate key: toVersion " ++ toVersion.quote ++ " not loaded"))⟩
  | some _, some _, some e => ⟨table, 0, some (.plain ("load rows for rotation: " ++ e))⟩
  | some oldKey, some newKey, none =>
    s.rotateRows oldKey newKey toVersion answers table 0
      (table.filter fun row => row.keyVersion = fromVersion)

end AeadStore

end AisphereHub
