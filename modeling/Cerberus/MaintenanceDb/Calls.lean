import Cerberus.MaintenanceDb.Store

namespace Cerberus.MaintenanceDb

open Std Foundation.Bytes Foundation.Wire

def epochSeconds (t : Int) : ByteString := signedDecimal (t.tdiv 1000000000)

namespace LocalMaintenanceDB

variable (now : Int) (d : LocalMaintenanceDB)

def markDirty : LocalMaintenanceDB := { d with dirty := true }

def upsert (n : TableName) (key : ByteString) (record : Fields) : LocalMaintenanceDB :=
  { d with tables := d.tables.upsert n key record }

def queueForSync (table key : ByteString) (record : Fields) : LocalMaintenanceDB :=
  { d with syncQueue := d.syncQueue ++ [{ table, key, record, queuedAt := now }] }

/-- `if (offline_mode_) queue_for_sync(table, key, record)` -/
def queueIfOffline (table key : ByteString) (record : Fields) : LocalMaintenanceDB :=
  if d.offlineMode then d.queueForSync now table key record else d

/-- The end of the storing calls: the record is assigned, the database marked dirty, and the
record queued in offline mode. -/
def store (n : TableName) (key : ByteString) (record : Fields) : LocalMaintenanceDB × Bool :=
  ((d.upsert n key record).markDirty.queueIfOffline now n.syncName key record, true)

def storeLicense (extensionId licenseKeyHash userId licenseType : ByteString) (expiresAt : Int)
    (metadata : Fields) : LocalMaintenanceDB × Bool :=
  if !d.initialized || extensionId.isEmpty || licenseKeyHash.isEmpty then (d, false)
  else
    let rec_ := assign ∅ [
      ("extension_id", extensionId),
      ("license_key_hash", licenseKeyHash),
      ("user_id", userId),
      ("license_type", licenseType),
      ("expires_at", epochSeconds expiresAt)]
    d.store now .licenses (extensionId ++ lit ":" ++ userId) (overlay rec_ metadata)

def revokeLicense (licenseKeyHash reason : ByteString) : LocalMaintenanceDB × Bool :=
  if !d.initialized then (d, false)
  else
    let reason := if reason.isEmpty then lit "revoked" else reason
    let tables := { d.tables with
      revokedHashes := d.tables.revokedHashes.insert licenseKeyHash reason }
    let record := assign ∅ [("hash", licenseKeyHash), ("reason", reason)]
    ({ d with tables }.markDirty.queueIfOffline now (lit "license_revocations") licenseKeyHash
      record, true)

def storeExtensionEntry (entry : Fields) : LocalMaintenanceDB × Bool :=
  if !d.initialized || entry.isEmpty then (d, false)
  else
    match entry[lit "extension_id"]? with
    | none | some [] => (d, false)
    | some id => d.store now .extensionEntries id entry

/-- The key of a record that may carry its own id; otherwise the size of the table is
appended to a stem. -/
def keyFor (n : TableName) (idField stem : String) (record : Fields) : ByteString :=
  record[lit idField]?.getD (lit stem ++ decimal (d.tables.get n).size)

def storeRevenueShareRecord (record : Fields) : LocalMaintenanceDB × Bool :=
  if !d.initialized || record.isEmpty then (d, false)
  else d.store now .revenueRecords (d.keyFor .revenueRecords "record_id" "rev_" record) record

def storeReview (review : Fields) : LocalMaintenanceDB × Bool :=
  if !d.initialized || review.isEmpty then (d, false)
  else d.store now .reviews (d.keyFor .reviews "review_id" "review_" review) review

def updateExtensionStats (extensionId : ByteString) (stats : Fields) :
    LocalMaintenanceDB × Bool :=
  if !d.initialized || extensionId.isEmpty then (d, false)
  else d.store now .extensionStats extensionId stats

def storeVipKey (keyHash encryptedMetadata encryptedKey : ByteString)
    (expirationTimestamp : Int) : LocalMaintenanceDB × Bool :=
  if !d.initialized || keyHash.isEmpty then (d, false)
  else d.store now .vipKeys keyHash (assign ∅ [
    ("key_hash", keyHash),
    ("encrypted_metadata", encryptedMetadata),
    ("encrypted_key", encryptedKey),
    ("expiration_timestamp", signedDecimal expirationTimestamp),
    ("record_class", lit "vip_key"),
    ("plaintext_storage", lit "forbidden")])

def updateVipKeyStatus (keyHash : ByteString) (statusData : Fields) :
    LocalMaintenanceDB × Bool :=
  if !d.initialized || keyHash.isEmpty then (d, false)
  else
    match d.tables.vipKeys[keyHash]? with
    | none => (d, false)
    | some record => d.store now .vipKeys keyHash (overlay record statusData)

/-- `if (!record.count(name)) record[name] = value` -/
def assignIfAbsent (record : Fields) (name : String) (value : ByteString) : Fields :=
  record.insertIfNew (lit name) value

def storeOnboardingGrant (grant : Fields) : LocalMaintenanceDB × Bool :=
  if !d.initialized || grant.isEmpty then (d, false)
  else
    let safe := assign grant [
      ("record_class", lit "rbpc_onboarding_grant"),
      ("plaintext_storage", lit "forbidden")]
    d.store now .onboardingGrants (d.keyFor .onboardingGrants "grant_id" "grant_" grant)
      (assignIfAbsent safe "consumed" (lit "false"))

/-- The fields that `consume_onboarding_grant` writes. -/
def consumption (consumedBy reason : ByteString) : List (String × ByteString) := [
  ("consumed", lit "true"),
  ("consumed_by", consumedBy),
  ("consumed_reason", if reason.isEmpty then lit "consumed" else reason),
  ("consumed_at", epochSeconds now)]

/-- Neither marks the database dirty nor queues the record. -/
def consumeOnboardingGrant (grantId consumedBy reason : ByteString) :
    LocalMaintenanceDB × Bool :=
  if !d.initialized || grantId.isEmpty then (d, false)
  else
    match d.tables.onboardingGrants[grantId]? with
    | none => (d, false)
    | some grant =>
      (d.upsert .onboardingGrants grantId (assign grant (consumption now consumedBy reason)), true)

def storeTrustPolicy (policy : TrustPolicy) : LocalMaintenanceDB × Bool :=
  if !d.initialized then (d, false)
  else
    ({ d with tables := { d.tables with trustPolicy := some policy } }.markDirty.queueIfOffline
      now (lit "trust_policy") (lit "trust_policy") policy.toMap, true)

/-- The record that `store_credential_record` seals. -/
def sealCredential (record : Fields) : Fields :=
  let safe := assign record [
    ("plaintext_storage", lit "forbidden"),
    ("credential_authority", lit "server_isolated"),
    ("proprietary_boundary", lit "sealed_vault_private"),
    ("record_class", lit "rbpc_credential_commitments")]
  let safe := assignIfAbsent safe "hash_suite" (lit "BLAKE3+SHA256")
  let safe := assignIfAbsent safe "pqc_profile" (lit "hybrid_pqc_required")
  let safe := assign safe [
    ("hardware_binding", lit "required"),
    ("step_up_model", lit "partial_disclosure_rbpc")]
  let safe := assignIfAbsent safe "created_at" (epochSeconds now)
  assign safe [("updated_at", epochSeconds now)]

def storeCredentialRecord (record : Fields) : LocalMaintenanceDB × Bool :=
  if !d.initialized || record.isEmpty then (d, false)
  else
    match record[lit "user_id"]?, record[lit "token_id"]? with
    | some user, some token =>
      d.store now .credentialRecords (user ++ lit ":" ++ token) (sealCredential now record)
    | _, _ => (d, false)

def saveRbpcState (state : RBPCState) : LocalMaintenanceDB × Bool :=
  if !d.initialized || state.nodeId.isEmpty || state.pinHash.isEmpty then (d, false)
  else d.store now .rbpcStateRecords state.nodeId (assign ∅ [
    ("node_id", state.nodeId),
    ("pin_hash", state.pinHash),
    ("salt", state.salt),
    ("failed_attempts", signedDecimal state.failedAttempts),
    ("burned", if state.burned then lit "true" else lit "false"),
    ("last_auth_timestamp", signedDecimal state.lastAuthTimestamp),
    ("created_at", signedDecimal state.createdAt),
    ("plaintext_storage", lit "forbidden"),
    ("record_class", lit "rbpc_state")])

/-- The record after one more failed attempt. Reading `rec["burn_threshold"]` adds the field
when it is absent, and the addition wraps. -/
def failAgain (rec_ : Fields) : Fields :=
  let attempts := (stoi (rec_.text "failed_attempts")).getD 0
  let next := (attempts + 1).bmod (2 ^ 32)
  let rec_ := assign rec_ [("failed_attempts", signedDecimal next)]
  let rec_ := assignIfAbsent rec_ "burn_threshold" []
  let threshold := (stoi (rec_.text "burn_threshold")).getD 3
  if next ≥ threshold then assign rec_ [("burned", lit "true")] else rec_

/-- Does not ask whether the database is initialized, does not mark it dirty, and queues
nothing. -/
def incrementRbpcFailedAttempts (nodeId : ByteString) : LocalMaintenanceDB × Bool :=
  let rec_ := d.tables.rbpcStateRecords[nodeId]?.getD ∅
  let rec_ :=
    if rec_.isEmpty then
      assign rec_ [
        ("node_id", nodeId),
        ("failed_attempts", lit "1"),
        ("burned", lit "false"),
        ("plaintext_storage", lit "forbidden"),
        ("record_class", lit "rbpc_state")]
    else failAgain rec_
  (d.upsert .rbpcStateRecords nodeId rec_, true)

/-- The fields that `set_rbpc_burned` writes into every record. -/
def burn : List (String × ByteString) := [
  ("burned", lit "true"),
  ("plaintext_storage", lit "forbidden"),
  ("record_class", lit "rbpc_state")]

/-- As `increment_rbpc_failed_attempts`, it marks nothing. -/
def setRbpcBurned (nodeId : ByteString) : LocalMaintenanceDB × Bool :=
  let rec_ := d.tables.rbpcStateRecords[nodeId]?.getD ∅
  let rec_ :=
    if rec_.isEmpty then assign rec_ [("node_id", nodeId), ("failed_attempts", lit "3")]
    else rec_
  (d.upsert .rbpcStateRecords nodeId (assign rec_ burn), true)

/-- Unlike the other records, an event whose id is empty gets one of its own. -/
def auditEventId (event : Fields) : ByteString :=
  match event[lit "event_id"]? with
  | none | some [] => lit "audit_" ++ decimal d.tables.auditEvents.size
  | some id => id

def storeAuditEvent (event : Fields) : LocalMaintenanceDB × Bool :=
  if !d.initialized then (d, false)
  else if !event.contains (lit "user_id") || !event.contains (lit "event_type") then (d, false)
  else
    let eventId := d.auditEventId event
    let rec_ := assign event [
      ("event_id", eventId),
      ("record_class", lit "rbpc_audit_event"),
      ("audit_scope", lit "local_psmdb"),
      ("plaintext_storage", lit "forbidden"),
      ("credential_material_present", lit "false")]
    d.store now .auditEvents eventId (assignIfAbsent rec_ "timestamp" (epochSeconds now))

/-- Preferences are never queued. -/
def storePreference (key value : ByteString) : LocalMaintenanceDB × Bool :=
  if !d.initialized || key.isEmpty then (d, false)
  else
    let tables := { d.tables with preferences := d.tables.preferences.insert key value }
    ({ d with tables }.markDirty, true)

def storeInferenceRecord (record : InferenceRecord) : LocalMaintenanceDB × Bool :=
  if !d.initialized || record.inferenceId.isEmpty then (d, false)
  else d.store now .inferenceRecords record.inferenceId record.toMap

def clearInferenceRecords : LocalMaintenanceDB × Bool :=
  ({ d with tables := { d.tables with inferenceRecords := ∅ } }.markDirty, true)

def storeFileRecord (record : FileVaultRecord) : LocalMaintenanceDB × Bool :=
  if !d.initialized || record.fileId.isEmpty then (d, false)
  else d.store now .fileVaultRecords record.fileId record.toMap

def updateFileStatus (fileId status : ByteString) : LocalMaintenanceDB × Bool :=
  match d.tables.fileVaultRecords[fileId]? with
  | none => (d, false)
  | some record => d.store now .fileVaultRecords fileId (assign record [("status", status)])

def deleteFileRecord (fileId : ByteString) : LocalMaintenanceDB × Bool :=
  d.updateFileStatus now fileId (lit "deleted")

def updateFileAccessed (fileId : ByteString) : LocalMaintenanceDB × Bool :=
  match d.tables.fileVaultRecords[fileId]? with
  | none => (d, false)
  | some record =>
    ((d.upsert .fileVaultRecords fileId
      (assign record [("last_accessed", epochSeconds now)])).markDirty, true)

end LocalMaintenanceDB

end Cerberus.MaintenanceDb
