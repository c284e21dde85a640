import Cerberus.Foundation.Keys
import Cerberus.MaintenanceDb.Lifecycle

namespace Cerberus.MaintenanceDb

open Std Foundation Foundation.Bytes Foundation.Keys Foundation.Wire

def colon : UInt8 := 58

def pairKey (p : ByteString × ByteString) : ByteString := p.1 ++ lit ":" ++ p.2

theorem pairKey_iff {p : ByteString × ByteString} :
    (∀ q, pairKey q = pairKey p → q = p) ↔ colon ∉ p.1 ∧ colon ∉ p.2 := by
  have hkey (q : ByteString × ByteString) : pairKey q = q.1 ++ colon :: q.2 := by
    rw [pairKey, List.append_assoc]
    rfl
  simp only [hkey]
  exact joined_iff

theorem get_overlay (m other : Fields) (k : ByteString) :
    (overlay m other)[k]? = other[k]?.or m[k]? := FiniteMap.get_insertMany_toList m other k

/-- The fields that `store_license` writes before those of the metadata. -/
def licenseFields (extensionId licenseKeyHash userId licenseType : ByteString) (expiresAt : Int) :
    List (String × ByteString) := [
  ("extension_id", extensionId),
  ("license_key_hash", licenseKeyHash),
  ("user_id", userId),
  ("license_type", licenseType),
  ("expires_at", epochSeconds expiresAt)]

def licenseRecord (extensionId licenseKeyHash userId licenseType : ByteString) (expiresAt : Int)
    (metadata : Fields) : Fields :=
  overlay (assign ∅ (licenseFields extensionId licenseKeyHash userId licenseType expiresAt))
    metadata

namespace LocalMaintenanceDB

variable {now : Int} {d : LocalMaintenanceDB} {e h u t : ByteString} {x : Int}
  {metadata record : Fields}

/-- `store_license` leaves what is loaded for every other pair. -/
def KeepsLicenses (d : LocalMaintenanceDB) (now : Int) (e h u t : ByteString) (x : Int)
    (metadata : Fields) : Prop :=
  let d' := (d.storeLicense now e h u t x metadata).1
  (∀ q : ByteString × ByteString, q ≠ (e, u) →
      d'.tables.loadLicense q.1 q.2 = d.tables.loadLicense q.1 q.2) ∧
    ∀ user token,
      d'.tables.loadCredentialRecord user token = d.tables.loadCredentialRecord user token

/-- What `load_license` returns after `store_license` has the fields that were passed. -/
def ReturnsLicense (d : LocalMaintenanceDB) (now : Int) (e h u t : ByteString) (x : Int)
    (metadata : Fields) : Prop :=
  let r := d.storeLicense now e h u t x metadata
  r.2 = true → ∀ p ∈ licenseFields e h u t x, (r.1.tables.loadLicense e u)[lit p.1]? = some p.2

/-- `store_credential_record` leaves what is loaded for every other pair. -/
def KeepsCredentials (d : LocalMaintenanceDB) (now : Int) (record : Fields) : Prop :=
  let d' := (d.storeCredentialRecord now record).1
  (∀ q : ByteString × ByteString,
      ¬ (record[lit "user_id"]? = some q.1 ∧ record[lit "token_id"]? = some q.2) →
      d'.tables.loadCredentialRecord q.1 q.2 = d.tables.loadCredentialRecord q.1 q.2) ∧
    ∀ extensionId user,
      d'.tables.loadLicense extensionId user = d.tables.loadLicense extensionId user

theorem storeLicense_eq : d.storeLicense now e h u t x metadata =
    if !d.initialized || e.isEmpty || h.isEmpty then (d, false)
    else d.store now .licenses (pairKey (e, u)) (licenseRecord e h u t x metadata) := rfl

/-- A record stored for a pair is seen for no other one exactly when the parts have no colon, or the
record was there. -/
theorem store_pair_iff {n : TableName} {p : ByteString × ByteString} :
    (∀ q, q ≠ p → ((d.store now n (pairKey p) record).1.tables.get n)[pairKey q]?.getD ∅ =
      (d.tables.get n)[pairKey q]?.getD ∅) ↔
      colon ∉ p.1 ∧ colon ∉ p.2 ∨ (d.tables.get n)[pairKey p]?.getD ∅ = record := by
  rw [store_get, insert_seen_iff, pairKey_iff, or_comm]

theorem storeLicense_guard : ¬ (!d.initialized || e.isEmpty || h.isEmpty) = true ↔
    d.initialized = true ∧ e ≠ [] ∧ h ≠ [] := by
  simp [and_assoc]

theorem keepsLicenses_iff : KeepsLicenses d now e h u t x metadata ↔
    (d.initialized = true ∧ e ≠ [] ∧ h ≠ [] → colon ∉ e ∧ colon ∉ u ∨
      d.tables.loadLicense e u = licenseRecord e h u t x metadata) := by
  have hcredentials (user token : ByteString) :
      (d.storeLicense now e h u t x metadata).1.tables.loadCredentialRecord user token =
        d.tables.loadCredentialRecord user token :=
    congrArg (fun m : Table ↦ m[user ++ lit ":" ++ token]?.getD ∅)
      (mutate_frame (n := .credentialRecords) (u := .storeLicense e h u t x metadata) now d nofun)
  rw [KeepsLicenses]
  simp only [hcredentials, implies_true, and_true]
  rw [← storeLicense_guard, storeLicense_eq]
  split
  · next hg => exact iff_of_true (fun _ _ ↦ rfl) (fun hok ↦ absurd hg hok)
  · next hg =>
    refine Iff.trans (store_pair_iff (n := .licenses) (p := (e, u))) ?_
    exact ⟨fun hc _ ↦ hc, fun hc ↦ hc hg⟩

theorem get_licenseRecord {p : String × ByteString} (hp : p ∈ licenseFields e h u t x) :
    (licenseRecord e h u t x metadata)[lit p.1]? = some p.2 ↔
      ∀ value, metadata[lit p.1]? = some value → value = p.2 := by
  have hfield : (assign ∅ (licenseFields e h u t x))[lit p.1]? = some p.2 :=
    get_assign (by simp [licenseFields]) hp
  rw [licenseRecord, get_overlay, hfield]
  cases metadata[lit p.1]? <;> simp

theorem returnsLicense_iff : ReturnsLicense d now e h u t x metadata ↔
    (d.initialized = true ∧ e ≠ [] ∧ h ≠ [] → ∀ p ∈ licenseFields e h u t x,
      ∀ value, metadata[lit p.1]? = some value → value = p.2) := by
  rw [ReturnsLicense, ← storeLicense_guard, storeLicense_eq]
  split
  · next hg => exact iff_of_true nofun (fun hok ↦ absurd hg hok)
  · next hg =>
    have hlicenses : (d.store now .licenses (pairKey (e, u))
        (licenseRecord e h u t x metadata)).1.tables.licenses = d.tables.licenses.insert
          (pairKey (e, u)) (licenseRecord e h u t x metadata) := store_get now d .licenses ..
    have hloaded : (d.store now .licenses (pairKey (e, u))
        (licenseRecord e h u t x metadata)).1.tables.loadLicense e u =
          licenseRecord e h u t x metadata := by
      have hkey : pairKey (e, u) = e ++ lit ":" ++ u := rfl
      rw [Tables.loadLicense, hlicenses, FiniteMap.get_insert, if_pos hkey, Option.getD_some]
    simp only [hloaded]
    refine ⟨fun hr _ p hp ↦ (get_licenseRecord hp).mp (hr rfl p hp),
      fun hm _ p hp ↦ (get_licenseRecord hp).mpr (hm hg p hp)⟩

theorem storeCredentialRecord_stored {user token : ByteString} (hi : d.initialized = true)
    (hu : record[lit "user_id"]? = some user) (ht : record[lit "token_id"]? = some token) :
    d.storeCredentialRecord now record =
      d.store now .credentialRecords (pairKey (user, token)) (sealCredential now record) := by
  have hsome : record.isEmpty = false := by
    by_contra he
    have hempty : record = ∅ := by simpa using he
    simp [hempty] at hu
  simp only [storeCredentialRecord, hi, hsome, hu, ht]
  rfl

theorem storeCredentialRecord_refused (h : ¬ (d.initialized = true ∧
    record[lit "user_id"]? ≠ none ∧ record[lit "token_id"]? ≠ none)) :
    (d.storeCredentialRecord now record).1 = d := by
  unfold storeCredentialRecord
  split
  · rfl
  · next hg =>
    split
    · next user token hu ht =>
      have hi : d.initialized = true := by simp_all
      exact absurd ⟨hi, by simp [hu], by simp [ht]⟩ h
    · rfl

theorem keepsCredentials_iff : KeepsCredentials d now record ↔
    (d.initialized = true → ∀ user token, record[lit "user_id"]? = some user →
      record[lit "token_id"]? = some token → colon ∉ user ∧ colon ∉ token ∨
        d.tables.loadCredentialRecord user token = sealCredential now record) := by
  have hlicenses (extensionId user : ByteString) :
      (d.storeCredentialRecord now record).1.tables.loadLicense extensionId user =
        d.tables.loadLicense extensionId user :=
    congrArg (fun m : Table ↦ m[extensionId ++ lit ":" ++ user]?.getD ∅)
      (mutate_frame (n := .licenses) (u := .storeCredentialRecord record) now d nofun)
  rw [KeepsCredentials]
  simp only [hlicenses, implies_true, and_true]
  by_cases hs : d.initialized = true ∧
      record[lit "user_id"]? ≠ none ∧ record[lit "token_id"]? ≠ none
  · obtain ⟨user, hu⟩ := Option.ne_none_iff_exists'.mp hs.2.1
    obtain ⟨token, ht⟩ := Option.ne_none_iff_exists'.mp hs.2.2
    rw [storeCredentialRecord_stored hs.1 hu ht]
    have hpair (q : ByteString × ByteString) : ¬ (record[lit "user_id"]? = some q.1 ∧
        record[lit "token_id"]? = some q.2) ↔ q ≠ (user, token) := by
      rw [hu, ht, Option.some.injEq, Option.some.injEq, ne_eq, Prod.ext_iff, eq_comm,
        eq_comm (a := token)]
    simp only [hpair]
    refine Iff.trans (store_pair_iff (n := .credentialRecords) (p := (user, token))) ?_
    refine ⟨fun hc _ user' token' hu' ht' ↦ ?_, fun hc ↦ hc hs.1 user token hu ht⟩
    obtain rfl := Option.some.inj (hu.symm.trans hu')
    obtain rfl := Option.some.inj (ht.symm.trans ht')
    exact hc
  · rw [storeCredentialRecord_refused hs]
    refine iff_of_true (fun _ _ ↦ rfl) (fun hi user token hu ht ↦ ?_)
    exact absurd ⟨hi, by simp [hu], by simp [ht]⟩ hs

end LocalMaintenanceDB

/-- What is stored for a pair is seen for that pair only, and a license comes back with its fields,
exactly when no part of the key has a colon and no metadata stands in for a field. -/
theorem records_told_apart_iff (now : Int) (d : LocalMaintenanceDB) (e h u t : ByteString) (x : Int)
    (metadata record : Fields) :
    (d.KeepsLicenses now e h u t x metadata ↔
      (d.initialized = true ∧ e ≠ [] ∧ h ≠ [] → colon ∉ e ∧ colon ∉ u ∨
        d.tables.loadLicense e u = licenseRecord e h u t x metadata)) ∧
    (d.ReturnsLicense now e h u t x metadata ↔
      (d.initialized = true ∧ e ≠ [] ∧ h ≠ [] → ∀ p ∈ licenseFields e h u t x,
        ∀ value, metadata[lit p.1]? = some value → value = p.2)) ∧
    (d.KeepsCredentials now record ↔
      (d.initialized = true → ∀ user token, record[lit "user_id"]? = some user →
        record[lit "token_id"]? = some token → colon ∉ user ∧ colon ∉ token ∨
          d.tables.loadCredentialRecord user token =
            LocalMaintenanceDB.sealCredential now record)) :=
  ⟨LocalMaintenanceDB.keepsLicenses_iff, LocalMaintenanceDB.returnsLicense_iff,
    LocalMaintenanceDB.keepsCredentials_iff⟩

def emptyDb : LocalMaintenanceDB :=
  (World.initializeDb noLfssl quietMoment { disk := ∅ } (lit "db") (List.replicate 32 7)).1.db

/-- A license of one pair is loaded for another, the metadata give it another user, and so are the
credentials of one pair loaded for another. -/
theorem records_confused :
    ¬ emptyDb.KeepsLicenses 0 (lit "a") (lit "h") (lit "b:c") (lit "pro") 0 ∅ ∧
      ¬ emptyDb.ReturnsLicense 0 (lit "a") (lit "h") (lit "u") (lit "pro") 0
        (assign ∅ [("user_id", lit "root")]) ∧
      ¬ emptyDb.KeepsCredentials 0 (assign ∅ [("user_id", lit "a"), ("token_id", lit "b:c")]) := by
  refine ⟨fun h ↦ ?_, fun h ↦ ?_, fun h ↦ ?_⟩
  · have hother := h.1 (lit "a:b", lit "c") (by decide)
    revert hother
    decide
  · have huser := h (by decide) ("user_id", lit "u") (by decide)
    revert huser
    decide
  · have hother := h.1 (lit "a:b", lit "c") (by decide)
    revert hother
    decide

end Cerberus.MaintenanceDb
