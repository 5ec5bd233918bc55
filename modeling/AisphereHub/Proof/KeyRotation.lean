import AisphereHub.Data.AeadStore
import AisphereHub.Foundation.GoStrconv

namespace AisphereHub
open Keyed

def CredentialLocator.aad (l : CredentialLocator) : Bytes :=
  buildAAD l.clusterID l.credentialRef l.credentialRevision

/-- Texts whose lengths fit their prefixes, and an `int64`. -/
structure CredentialLocator.Encodable (l : CredentialLocator) : Prop where
  cluster : l.clusterID.utf8ByteSize < 2 ^ 32
  ref : l.credentialRef.utf8ByteSize < 2 ^ 32
  revision : GoStrconv.minInt64 ≤ l.credentialRevision ∧ l.credentialRevision ≤ GoStrconv.maxInt64

def SealedRow.locator (row : SealedRow) : CredentialLocator :=
  ⟨row.clusterID, row.ref, row.credentialRevision⟩

/-- No ciphertext is opened with other additional data than it was sealed with. -/
def Aead.Ideal (cipher : Aead) : Prop := ∀ key nonce plaintext aad key' nonce' aad', aad ≠ aad' →
  ∃ e, cipher.opened key' nonce' (cipher.sealed key nonce plaintext aad) aad' = .error e

namespace AeadStore

/-- A row that `PutWithRef` wrote while some loaded key was the active one. -/
def Put (s : AeadStore) (row : SealedRow) : Prop :=
  ∃ version key, ∃ loaded : s.keys version = some key,
    ∃ before clusterID ref credentialRevision value nonce refused locator,
      { s with activeVersion := version, activeKey := key, activeLoaded := loaded }.putWithRef
        before clusterID ref credentialRevision value nonce refused = .ok (before ++ [row], locator)

def Opens (s : AeadStore) (row : SealedRow) (plaintext : Bytes) : Prop :=
  ∃ key, s.keys row.keyVersion = some key ∧
    s.cipher.opened key.1 row.nonce row.ciphertext row.aad = .ok plaintext

variable {s : AeadStore} {table : List SealedRow} {row : SealedRow} {plaintext : Bytes}

theorem Put.sealed (put : s.Put row) : ∃ key plaintext, s.keys row.keyVersion = some key ∧
    row.ciphertext = s.cipher.sealed key.1 row.nonce plaintext row.aad := by
  obtain ⟨version, key, loaded, before, clusterID, ref, rev, value, nonce, refused, locator,
    wrote⟩ := put
  simp only [putWithRef] at wrote
  repeat' split at wrote
  all_goals simp only [Except.ok.injEq, Prod.mk.injEq, List.append_cancel_left_eq,
    List.cons.injEq, and_true, reduceCtorEq] at wrote
  rw [← wrote.1]
  exact ⟨key, _, loaded, rfl⟩

theorem Put.opens (put : s.Put row) : ∃ plaintext, s.Opens row plaintext := by
  obtain ⟨key, plaintext, loaded, sealed⟩ := put.sealed
  exact ⟨plaintext, key, loaded, by rw [sealed, s.cipher.opened_sealed]⟩

variable {newKey : MasterKey} {toVersion : String} {locator : CredentialLocator}

theorem aad_of_found (found : lookup SealedRow.ref table locator.credentialRef = some row)
    (same : ¬(row.clusterID ≠ locator.clusterID ∨
      row.credentialRevision ≠ locator.credentialRevision)) :
    buildAAD locator.clusterID locator.credentialRef locator.credentialRevision = row.aad := by
  rw [not_or, not_not, not_not] at same
  rw [SealedRow.aad, same.1, same.2, key_of_lookup found]

theorem get_of_opens (found : lookup SealedRow.ref table locator.credentialRef = some row)
    (opens : s.Opens row plaintext) : s.get table locator =
      if row.clusterID ≠ locator.clusterID ∨ row.credentialRevision ≠ locator.credentialRevision
      then .error ⟨.FAILED_PRECONDITION, drift row locator⟩
      else s.unmarshalCredential plaintext row.credentialType := by
  obtain ⟨key, loaded, text⟩ := opens
  simp only [get, found]
  split
  · rfl
  · rename_i same
    simp only [loaded, aad_of_found found same, text]

theorem get_reseal (unique : (table.map SealedRow.ref).Nodup) (member : row ∈ table)
    (opens : s.Opens row plaintext) (loaded : s.keys toVersion = some newKey) (nonce : Bytes)
    (locator : CredentialLocator) : s.get (amend SealedRow.ref table row.ref
      (s.reseal newKey toVersion nonce plaintext row.aad)) locator = s.get table locator := by
  have found := (lookup_eq_some_iff unique).mpr ⟨member, rfl⟩
  have resealed : ∀ r : SealedRow,
      (s.reseal newKey toVersion nonce plaintext row.aad r).ref = r.ref := fun _ => rfl
  have after := lookup_amend resealed table locator.credentialRef row.ref
  by_cases same : locator.credentialRef = row.ref
  · rw [if_pos same, found] at after
    rw [get_of_opens after ⟨newKey, loaded, s.cipher.opened_sealed ..⟩, get_of_opens (same ▸ found) opens]
    rfl
  · rw [if_neg same] at after
    simp only [get, after]

theorem rotateRows_spec
    (oldLoaded : s.keys fromVersion = some oldKey) (newLoaded : s.keys toVersion = some newKey)
    (answers : Nat → RotationAnswer) (rows : List SealedRow) :
    ∀ table count, (table.map SealedRow.ref).Nodup → (rows.map SealedRow.ref).Nodup →
      (∀ row ∈ rows, row ∈ table ∧ row.keyVersion = fromVersion ∧ ∃ text, s.Opens row text) →
      (∀ locator, s.get (s.rotateRows oldKey newKey toVersion answers table count rows).table
        locator = s.get table locator) ∧
      ((s.rotateRows oldKey newKey toVersion answers table count rows).error = none →
        (s.rotateRows oldKey newKey toVersion answers table count rows).reencrypted =
          count + rows.length ∧ (fromVersion ≠ toVersion →
          ∀ row ∈ (s.rotateRows oldKey newKey toVersion answers table count rows).table,
            row.keyVersion = fromVersion → row ∈ table ∧ row ∉ rows)) := by
  induction rows with
  | nil => exact fun table count _ _ _ => ⟨fun _ => rfl, fun _ => ⟨rfl, fun _ row held _ =>
      ⟨held, List.not_mem_nil⟩⟩⟩
  | cons row rest ih =>
    intro table count unique distinct held
    obtain ⟨member, version, plaintext, key, loaded, text⟩ := held row (List.mem_cons_self ..)
    obtain rfl : oldKey = key := by
      rw [version, oldLoaded] at loaded
      exact Option.some.inj loaded
    have same := fun nonce => get_reseal unique member ⟨oldKey, loaded, text⟩ newLoaded nonce
    rw [List.map_cons, List.nodup_cons] at distinct
    cases drawn : (answers count).nonce with
    | error e => simp [rotateRows, text, drawn]
    | ok nonce =>
      cases failed : (answers count).failed with
      | some e =>
        simp only [rotateRows, text, drawn, failed]
        refine ⟨fun locator => ?_, nofun⟩
        split
        · exact same nonce locator
        · rfl
      | none =>
        simp only [rotateRows, text, drawn, failed]
        have others : ∀ other ∈ rest, other ≠ row := by
          rintro other among rfl
          exact distinct.1 (List.mem_map_of_mem among)
        obtain ⟨reads, done⟩ := ih (amend SealedRow.ref table row.ref
          (s.reseal newKey toVersion nonce plaintext row.aad)) (count + 1)
          (nodup_amend unique row.ref fun _ => rfl) distinct.2 (by
            intro other among
            obtain ⟨there, facts⟩ := held other (List.mem_cons_of_mem _ among)
            exact ⟨(mem_amend_iff unique member).mpr (.inr ⟨there, others other among⟩),
              facts⟩)
        refine ⟨fun locator => (reads locator).trans (same nonce locator), fun ok => ?_⟩
        refine ⟨by rw [(done ok).1, List.length_cons]; omega, fun apart last kept old => ?_⟩
        obtain ⟨there, out⟩ := (done ok).2 apart last kept old
        rcases (mem_amend_iff unique member).mp there with rfl | ⟨there, other⟩
        · exact absurd old.symm apart
        · exact ⟨there, fun among => (List.mem_cons.mp among).elim other out⟩

def summing : Aead where
  sealed key nonce plaintext aad := (key ++ nonce ++ aad).foldl UInt8.add 0 :: plaintext
  opened
    | key, nonce, tag :: plaintext, aad =>
      if tag = (key ++ nonce ++ aad).foldl UInt8.add 0 then .ok plaintext
      else .error "cipher: message authentication failed"
    | _, _, [], _ => .error "cipher: message authentication failed"
  opened_sealed _ _ _ _ := if_pos rfl

def twoKeys : AeadStore where
  cipher := summing
  keys version :=
    if version = "v1" then some ⟨List.replicate 32 1, rfl⟩
    else if version = "v2" then some ⟨List.replicate 32 2, rfl⟩
    else none
  activeVersion := "v1"
  activeKey := ⟨List.replicate 32 1, rfl⟩
  activeLoaded := rfl
  marshal c := .ok (c.token.toList.map fun c => UInt8.ofNat c.toNat)
  unmarshal text :=
    .ok ⟨.SERVICE_ACCOUNT, "", "", "", .ofList (text.map fun b => .ofNat b.toNat), ""⟩
  kindText _ := "service_account"

def tokenRow : SealedRow :=
  ⟨"ref", "cluster", 1, summing.sealed (List.replicate 32 1) [7] [116, 107]
    (buildAAD "cluster" "ref" 1), [7], "v1", "service_account"⟩

theorem bytes_loop (bytes : ByteArray) (i : Nat) (seen : List UInt8) :
    ByteArray.toList.loop bytes i seen = seen.reverse ++ bytes.data.toList.drop i := by
  induction i, seen using ByteArray.toList.loop.induct bytes with
  | case1 i seen more ih =>
    rw [ByteArray.toList.loop, if_pos more, ih, List.drop_eq_getElem_cons more]
    simp [ByteArray.get!, getElem!_pos bytes.data i more]
  | case2 i seen done =>
    rw [ByteArray.toList.loop, if_neg done, List.drop_eq_nil_of_le (Nat.le_of_not_lt done),
      List.append_nil]

theorem toUTF8_toList (s : String) : s.toUTF8.toList = s.toByteArray.data.toList := by
  rw [ByteArray.toList, bytes_loop]
  rfl

theorem length_bigEndian (width n : Nat) : (bigEndian width n).length = width := by
  induction width with
  | zero => rfl
  | succ width ih => simp [bigEndian, ih]

theorem bigEndian_inj (same : bigEndian width m = bigEndian width n) :
    m % 256 ^ width = n % 256 ^ width := by
  induction width with
  | zero => simp [Nat.mod_one]
  | succ width ih =>
    obtain ⟨first, rest⟩ := List.cons.inj same
    have digit := congrArg UInt8.toNat first
    rw [UInt8.toNat_ofNat', UInt8.toNat_ofNat'] at digit
    rw [Nat.mod_pow_succ, Nat.mod_pow_succ, ih rest, digit]

theorem lenPrefixed_inj {s : String} (small : s.utf8ByteSize < 2 ^ 32)
    (small' : t.utf8ByteSize < 2 ^ 32)
    (same : bigEndian 4 s.utf8ByteSize ++ s.toUTF8.toList ++ x =
      bigEndian 4 t.utf8ByteSize ++ t.toUTF8.toList ++ y) : s = t ∧ x = y := by
  rw [List.append_assoc, List.append_assoc] at same
  obtain ⟨sizes, rest⟩ := List.append_inj same (by simp only [length_bigEndian])
  have size : s.utf8ByteSize % 2 ^ 32 = t.utf8ByteSize % 2 ^ 32 := bigEndian_inj sizes
  rw [Nat.mod_eq_of_lt small, Nat.mod_eq_of_lt small'] at size
  rw [toUTF8_toList, toUTF8_toList] at rest
  obtain ⟨bytes, rest⟩ := List.append_inj rest size
  exact ⟨String.toByteArray_inj.mp (ByteArray.ext (Array.toList_inj.mp bytes)), rest⟩

theorem aad_inj {l' : CredentialLocator} (fits : l.Encodable) (fits' : l'.Encodable)
    (same : l.aad = l'.aad) : l = l' := by
  obtain ⟨cluster, ref, revision⟩ := l
  obtain ⟨cluster', ref', revision'⟩ := l'
  simp only [CredentialLocator.aad, buildAAD] at same
  rw [List.append_assoc, List.append_assoc (bigEndian 4 cluster'.utf8ByteSize ++ _)] at same
  obtain ⟨small, small', low, high⟩ := fits
  obtain ⟨less, less', low', high'⟩ := fits'
  obtain ⟨rfl, rest⟩ := lenPrefixed_inj small less same
  obtain ⟨rfl, last⟩ := lenPrefixed_inj small' less' rest
  have digits := bigEndian_inj last
  simp only [GoStrconv.minInt64, GoStrconv.maxInt64] at low high low' high'
  congr
  omega

/-- The rows that `PutWithRef` writes and `RotateKey` seals again. -/
inductive Stored (s : AeadStore) : SealedRow → Prop where
  | put {row : SealedRow} : s.Put row → Stored s row
  | resealed {row : SealedRow} (newKey : MasterKey) (toVersion : String) (nonce plaintext : Bytes) :
    Stored s row → Stored s (s.reseal newKey toVersion nonce plaintext row.aad row)

theorem Stored.sealed (stored : s.Stored row) : ∃ key nonce plaintext,
    row.ciphertext = s.cipher.sealed key nonce plaintext row.aad := by
  cases stored with
  | put put =>
    obtain ⟨key, plaintext, -, sealed⟩ := put.sealed
    exact ⟨key.1, row.nonce, plaintext, sealed⟩
  | resealed newKey toVersion nonce plaintext stored => exact ⟨newKey.1, nonce, plaintext, rfl⟩

/-- Different locators have different additional data, so under an ideal cipher the ciphertext
of one row is never opened in the row of another locator. -/
theorem aad_binds_locator :
    (∀ l l' : CredentialLocator, l.Encodable → l'.Encodable → l ≠ l' → l.aad ≠ l'.aad) ∧
    ∀ (s : AeadStore) source table row locator, s.cipher.Ideal → s.Stored source →
      source.locator.Encodable → row.locator.Encodable → row.locator ≠ source.locator →
      row.ciphertext = source.ciphertext →
      lookup SealedRow.ref table locator.credentialRef = some row →
      ∃ e, s.get table locator = .error e := by
  refine ⟨fun l l' fits fits' other same => other (aad_inj fits fits' same), ?_⟩
  intro s source table row locator ideal stored fits fits' other copied found
  obtain ⟨key, nonce, plaintext, sealed⟩ := stored.sealed
  have apart : source.aad ≠ row.aad := fun same => other (aad_inj fits' fits same.symm)
  simp only [get, found]
  split
  · exact ⟨_, rfl⟩
  · rename_i same
    cases s.keys row.keyVersion with
    | none => exact ⟨_, rfl⟩
    | some loaded =>
      obtain ⟨e, refused⟩ := ideal key nonce plaintext source.aad loaded.1 row.nonce row.aad apart
      simp only [aad_of_found found same, copied, sealed, refused]
      exact ⟨_, rfl⟩

/-- A cipher that carries the additional data in the text: each of its bytes after a one. -/
def frame : Bytes → Bytes → Bytes
  | [], plaintext => 0 :: plaintext
  | a :: aad, plaintext => 1 :: a :: frame aad plaintext

def unframe : Bytes → Bytes → Except String Bytes
  | 0 :: plaintext, [] => .ok plaintext
  | 1 :: b :: text, a :: aad => if b = a then unframe text aad else .error "other data"
  | _, _ => .error "other data"

theorem unframe_frame (plaintext : Bytes) (aad : Bytes) : ∀ aad', unframe (frame aad plaintext) aad' =
    if aad = aad' then .ok plaintext else .error "other data" := by
  induction aad with
  | nil => rintro (_ | _) <;> simp [frame, unframe]
  | cons a aad ih =>
    rintro (_ | ⟨a', aad'⟩)
    · simp [frame, unframe]
    · by_cases same : a = a' <;> simp [frame, unframe, ih, same]

def framing : Aead where
  sealed _ _ plaintext aad := frame aad plaintext
  opened _ _ text aad := unframe text aad
  opened_sealed _ _ plaintext aad := (unframe_frame plaintext aad aad).trans (if_pos rfl)

theorem framing_ideal : framing.Ideal := fun _ _ plaintext aad _ _ aad' apart =>
  ⟨_, (unframe_frame plaintext aad aad').trans (if_neg apart)⟩

def otherRow : SealedRow := ⟨"other", "cluster", 1, frame (buildAAD "cluster" "ref" 1) [116, 107],
  [7], "v1", "service_account"⟩

theorem copied_token_refused : ∃ e, { twoKeys with cipher := framing }.get [otherRow]
    ⟨"cluster", "other", 1⟩ = .error e :=
  aad_binds_locator.2 { twoKeys with cipher := framing } { otherRow with ref := "ref" } _ otherRow _
    framing_ideal (.put ⟨"v1", _, rfl, [], "cluster", "ref", 1,
      ⟨.SERVICE_ACCOUNT, "", "", "", "tk", ""⟩, .ok [7], none, ⟨"cluster", "ref", 1⟩, rfl⟩)
    ⟨by decide, by decide, by decide⟩ ⟨by decide, by decide, by decide⟩ (by decide) rfl rfl

end AeadStore
end AisphereHub
