import Cerberus.MaintenanceDb.Sessions

namespace Cerberus.MaintenanceDb

open Std Foundation Foundation.Bytes Foundation.Wire

inductive Edit
  | put (n : TableName) (key : ByteString) (record : Fields)
  | revoke (licenseKeyHash reason : ByteString)
  | prefer (key value : ByteString)
  | trust (policy : TrustPolicy)
  | forgetInferences

def Edit.apply (t : Tables) : Edit → Tables
  | .put n key record => t.upsert n key record
  | .revoke licenseKeyHash reason =>
    { t with revokedHashes := t.revokedHashes.insert licenseKeyHash reason }
  | .prefer key value => { t with preferences := t.preferences.insert key value }
  | .trust policy => { t with trustPolicy := some policy }
  | .forgetInferences => { t with inferenceRecords := ∅ }

/-- The calls that change a table without marking the database dirty. -/
def Mutation.silent : Mutation → Bool
  | .consumeOnboardingGrant .. => true
  | .incrementRbpcFailedAttempts _ => true
  | .setRbpcBurned _ => true
  | _ => false

/-- The edits that a database accepts although it is not initialized. -/
def Edit.unguarded (t : Tables) : Edit → Prop
  | .put .rbpcStateRecords _ _ => True
  | .put .fileVaultRecords key _ => t.fileVaultRecords[key]? ≠ none
  | .forgetInferences => True
  | _ => False

structure Edited (d d' : LocalMaintenanceDB) (e : Edit) : Prop where
  tables : d'.tables = e.apply d.tables
  initialized : d'.initialized = d.initialized
  dbPath : d'.dbPath = d.dbPath
  dbKey : d'.dbKey = d.dbKey
  guarded : d.initialized = true ∨ e.unguarded d.tables

inductive Outcome (d : LocalMaintenanceDB) (u : Mutation) (d' : LocalMaintenanceDB) : Prop
  | refused : d' = d → Outcome d u d'
  | marked (e : Edit) : Edited d d' e → d'.dirty = true → u.silent = false → Outcome d u d'
  | silent (e : Edit) : Edited d d' e → d'.dirty = d.dirty → u.silent = true → Outcome d u d'

theorem Tables.get_upsert (t : Tables) (n n' : TableName) (key : ByteString) (record : Fields) :
    (t.upsert n key record).get n' =
      if n = n' then (t.get n).insert key record else t.get n' := by
  cases n <;> cases n' <;> rfl

def Mutation.target : Mutation → Option TableName
  | .storeLicense .. => some .licenses
  | .storeExtensionEntry _ => some .extensionEntries
  | .storeRevenueShareRecord _ => some .revenueRecords
  | .storeReview _ => some .reviews
  | .updateExtensionStats .. => some .extensionStats
  | .storeVipKey .. | .updateVipKeyStatus .. => some .vipKeys
  | .storeOnboardingGrant _ | .consumeOnboardingGrant .. => some .onboardingGrants
  | .storeCredentialRecord _ => some .credentialRecords
  | .saveRbpcState _ | .incrementRbpcFailedAttempts _ | .setRbpcBurned _ => some .rbpcStateRecords
  | .storeAuditEvent _ => some .auditEvents
  | .storeInferenceRecord _ | .clearInferenceRecords => some .inferenceRecords
  | .storeFileRecord _ | .deleteFileRecord _ | .updateFileAccessed _ | .updateFileStatus .. =>
    some .fileVaultRecords
  | .revokeLicense .. | .storeTrustPolicy _ | .storePreference .. => none

namespace LocalMaintenanceDB

variable {now : Int} {d : LocalMaintenanceDB} {u : Mutation}

section queueing

variable {table key : ByteString} {record : Fields}

@[simp] theorem queueIfOffline_tables : (d.queueIfOffline now table key record).tables = d.tables := by
  unfold queueIfOffline
  split <;> rfl

@[simp] theorem queueIfOffline_dirty : (d.queueIfOffline now table key record).dirty = d.dirty := by
  unfold queueIfOffline
  split <;> rfl

@[simp] theorem queueIfOffline_initialized :
    (d.queueIfOffline now table key record).initialized = d.initialized := by
  unfold queueIfOffline
  split <;> rfl

@[simp] theorem queueIfOffline_dbPath : (d.queueIfOffline now table key record).dbPath = d.dbPath := by
  unfold queueIfOffline
  split <;> rfl

@[simp] theorem queueIfOffline_dbKey : (d.queueIfOffline now table key record).dbKey = d.dbKey := by
  unfold queueIfOffline
  split <;> rfl

end queueing

theorem store_outcome {n : TableName} {key : ByteString} {record : Fields}
    (hu : u.silent = false) (hg : d.initialized = true ∨ (Edit.put n key record).unguarded d.tables) :
    Outcome d u (d.store now n key record).1 := by
  refine .marked (.put n key record) ⟨?_, ?_, ?_, ?_, hg⟩ ?_ hu <;>
    simp [store, upsert, markDirty, Edit.apply]

theorem checked_outcome {c : Bool} {r : LocalMaintenanceDB × Bool}
    (h : c = false → Outcome d u r.1) : Outcome d u (if c then (d, false) else r).1 := by
  cases c with
  | true => exact .refused rfl
  | false => exact h rfl

theorem opened {b : Bool} (h : (!d.initialized || b) = false) : d.initialized = true := by
  simp only [Bool.or_eq_false_iff, Bool.not_eq_false'] at h
  exact h.1

theorem stored_outcome {b : Bool} {n : TableName} {key : ByteString} {record : Fields}
    (hu : u.silent = false) :
    Outcome d u (if !d.initialized || b then (d, false) else d.store now n key record).1 :=
  checked_outcome (fun hg ↦ store_outcome hu (.inl (opened hg)))

theorem updateFileStatus_outcome {fileId status : ByteString} (hu : u.silent = false) :
    Outcome d u (d.updateFileStatus now fileId status).1 := by
  unfold updateFileStatus
  split
  · exact .refused rfl
  · next hfile => exact store_outcome hu (.inr (by simp [Edit.unguarded, hfile]))

theorem mutate_outcome (now : Int) (d : LocalMaintenanceDB) (u : Mutation) :
    Outcome d u (d.mutate now u).1 := by
  cases u with
  | storeLicense e h us t x m =>
    simp only [mutate, storeLicense, Bool.or_assoc]
    exact stored_outcome rfl
  | revokeLicense h r =>
    refine checked_outcome (fun hg ↦ .marked (.revoke h (if r.isEmpty then lit "revoked" else r))
      ⟨?_, ?_, ?_, ?_, .inl (by simpa using hg)⟩ ?_ rfl) <;> simp [markDirty, Edit.apply]
  | storeExtensionEntry e =>
    refine checked_outcome (fun hg ↦ ?_)
    split
    · exact .refused rfl
    · exact .refused rfl
    · exact store_outcome rfl (.inl (opened hg))
  | storeRevenueShareRecord r => exact stored_outcome rfl
  | storeReview r => exact stored_outcome rfl
  | updateExtensionStats e s => exact stored_outcome rfl
  | storeVipKey h m k x => exact stored_outcome rfl
  | updateVipKeyStatus h s =>
    refine checked_outcome (fun hg ↦ ?_)
    split
    · exact .refused rfl
    · exact store_outcome rfl (.inl (opened hg))
  | storeOnboardingGrant g => exact stored_outcome rfl
  | consumeOnboardingGrant g b r =>
    refine checked_outcome (fun hg ↦ ?_)
    split
    · exact .refused rfl
    · exact .silent (.put .onboardingGrants g _) ⟨rfl, rfl, rfl, rfl, .inl (opened hg)⟩ rfl rfl
  | storeTrustPolicy p =>
    refine checked_outcome (fun hg ↦ .marked (.trust p)
      ⟨?_, ?_, ?_, ?_, .inl (by simpa using hg)⟩ ?_ rfl) <;> simp [markDirty, Edit.apply]
  | storeCredentialRecord r =>
    refine checked_outcome (fun hg ↦ ?_)
    split
    · exact store_outcome rfl (.inl (opened hg))
    · exact .refused rfl
  | saveRbpcState s => exact checked_outcome (fun _ ↦ store_outcome rfl (.inr trivial))
  | incrementRbpcFailedAttempts n =>
    exact .silent (.put .rbpcStateRecords n _) ⟨rfl, rfl, rfl, rfl, .inr trivial⟩ rfl rfl
  | setRbpcBurned n =>
    exact .silent (.put .rbpcStateRecords n _) ⟨rfl, rfl, rfl, rfl, .inr trivial⟩ rfl rfl
  | storeAuditEvent e =>
    exact checked_outcome (fun hg ↦ checked_outcome (fun _ ↦
      store_outcome rfl (.inl (by simpa using hg))))
  | storePreference k v =>
    exact checked_outcome (fun hg ↦
      .marked (.prefer k v) ⟨rfl, rfl, rfl, rfl, .inl (opened hg)⟩ rfl rfl)
  | storeInferenceRecord r => exact stored_outcome rfl
  | clearInferenceRecords =>
    exact .marked .forgetInferences ⟨rfl, rfl, rfl, rfl, .inr trivial⟩ rfl rfl
  | storeFileRecord r => exact stored_outcome rfl
  | deleteFileRecord f => exact updateFileStatus_outcome rfl
  | updateFileAccessed f =>
    simp only [mutate, updateFileAccessed]
    split
    · exact .refused rfl
    · next hfile =>
      exact .marked (.put .fileVaultRecords f _)
        ⟨rfl, rfl, rfl, rfl, .inr (by simp [Edit.unguarded, hfile])⟩ rfl rfl
  | updateFileStatus f s => exact updateFileStatus_outcome rfl

section frame

variable {n n' : TableName}

theorem store_tables (now : Int) (d : LocalMaintenanceDB) (n : TableName) (key : ByteString)
    (record : Fields) : (d.store now n key record).1.tables = d.tables.upsert n key record := by
  simp [store, markDirty, upsert]

theorem store_get (now : Int) (d : LocalMaintenanceDB) (n : TableName) (key : ByteString)
    (record : Fields) :
    (d.store now n key record).1.tables.get n = (d.tables.get n).insert key record := by
  rw [store_tables, Tables.get_upsert, if_pos rfl]

theorem store_frame (hn : n' ≠ n) (key : ByteString) (record : Fields) :
    (d.store now n' key record).1.tables.get n = d.tables.get n := by
  rw [store_tables, Tables.get_upsert, if_neg hn]

theorem upsert_frame (hn : n' ≠ n) (key : ByteString) (record : Fields) :
    (d.upsert n' key record).tables.get n = d.tables.get n := by
  simp [upsert, Tables.get_upsert, hn]

theorem checked_frame {c : Bool} {r : LocalMaintenanceDB × Bool}
    (h : r.1.tables.get n = d.tables.get n) :
    (if c then (d, false) else r).1.tables.get n = d.tables.get n := by
  cases c with
  | true => rfl
  | false => exact h

theorem updateFileStatus_frame (hn : TableName.fileVaultRecords ≠ n) (fileId status : ByteString) :
    (d.updateFileStatus now fileId status).1.tables.get n = d.tables.get n := by
  unfold updateFileStatus
  split
  · rfl
  · exact store_frame hn ..

theorem mutate_frame (now : Int) (d : LocalMaintenanceDB) (hu : u.target ≠ some n) :
    (d.mutate now u).1.tables.get n = d.tables.get n := by
  have hne {n' : TableName} (ht : u.target = some n') : n' ≠ n := fun he ↦ hu (he ▸ ht)
  cases u with
  | storeLicense e h us t x m => exact checked_frame (store_frame (hne rfl) ..)
  | revokeLicense h r =>
    refine checked_frame ?_
    rw [queueIfOffline_tables]
    cases n <;> rfl
  | storeExtensionEntry e =>
    refine checked_frame ?_
    split
    · rfl
    · rfl
    · exact store_frame (hne rfl) ..
  | storeRevenueShareRecord r => exact checked_frame (store_frame (hne rfl) ..)
  | storeReview r => exact checked_frame (store_frame (hne rfl) ..)
  | updateExtensionStats e s => exact checked_frame (store_frame (hne rfl) ..)
  | storeVipKey h m k x => exact checked_frame (store_frame (hne rfl) ..)
  | updateVipKeyStatus h s =>
    refine checked_frame ?_
    split
    · rfl
    · exact store_frame (hne rfl) ..
  | storeOnboardingGrant g => exact checked_frame (store_frame (hne rfl) ..)
  | consumeOnboardingGrant g b r =>
    refine checked_frame ?_
    split
    · rfl
    · exact upsert_frame (hne rfl) ..
  | storeTrustPolicy p =>
    refine checked_frame ?_
    rw [queueIfOffline_tables]
    cases n <;> rfl
  | storeCredentialRecord r =>
    refine checked_frame ?_
    split
    · exact store_frame (hne rfl) ..
    · rfl
  | saveRbpcState s => exact checked_frame (store_frame (hne rfl) ..)
  | incrementRbpcFailedAttempts i => exact upsert_frame (hne rfl) ..
  | setRbpcBurned i => exact upsert_frame (hne rfl) ..
  | storeAuditEvent e => exact checked_frame (checked_frame (store_frame (hne rfl) ..))
  | storePreference k v =>
    refine checked_frame ?_
    cases n <;> rfl
  | storeInferenceRecord r => exact checked_frame (store_frame (hne rfl) ..)
  | clearInferenceRecords =>
    have hother := hne rfl
    cases n with
    | inferenceRecords => exact absurd rfl hother
    | _ => rfl
  | storeFileRecord r => exact checked_frame (store_frame (hne rfl) ..)
  | deleteFileRecord f => exact updateFileStatus_frame (hne rfl) ..
  | updateFileAccessed f =>
    simp only [mutate, updateFileAccessed]
    split
    · rfl
    · exact upsert_frame (hne rfl) ..
  | updateFileStatus f s => exact updateFileStatus_frame (hne rfl) ..

end frame

end LocalMaintenanceDB

end Cerberus.MaintenanceDb
