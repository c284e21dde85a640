import Cerberus.Foundation.Trace
import Cerberus.MaintenanceDb.Calls

namespace Cerberus.MaintenanceDb

open Std Foundation.Bytes Foundation.Wire

def Table.select (t : Table) (keep : Fields → Bool) : List Fields := t.values.filter keep

/-- The loop stops when a positive limit is reached. -/
def limited {α : Type} (limit : Int) (l : List α) : List α :=
  if limit > 0 then l.take limit.toNat else l

/-- `text.find(query) != std::string::npos` -/
def mentions (text query : ByteString) : Bool := decide (query <:+: text)

namespace Tables

variable (t : Tables)

def loadLicense (extensionId userId : ByteString) : Fields :=
  t.licenses[extensionId ++ lit ":" ++ userId]?.getD ∅

def isLicenseRevoked (licenseKeyHash : ByteString) : Bool :=
  t.revokedHashes.contains licenseKeyHash

def loadExtensionEntry (extensionId : ByteString) : Fields :=
  t.extensionEntries[extensionId]?.getD ∅

def searchExtensionEntries (query : ByteString) (filters : Fields) : List Fields :=
  t.extensionEntries.select (fun entry ↦
    filters.toList.all (fun f ↦ entry[f.1]? == some f.2) &&
    (query.isEmpty || entry.toList.any (fun e ↦ mentions e.1 query || mentions e.2 query)))

def loadRevenueShareRecords (extensionId userId : ByteString) : List Fields :=
  t.revenueRecords.select (fun record ↦
    (extensionId.isEmpty || record.holds "extension_id" extensionId) &&
    (userId.isEmpty || record.holds "user_id" userId))

def loadReviews (extensionId : ByteString) (limit : Int) : List Fields :=
  limited limit (t.reviews.select (fun record ↦
    extensionId.isEmpty || record.holds "extension_id" extensionId))

def getExtensionStats (extensionId : ByteString) : Fields :=
  t.extensionStats[extensionId]?.getD ∅

def loadVipKey (keyHash : ByteString) : Fields := t.vipKeys[keyHash]?.getD ∅

def vipKeyExists (keyHash : ByteString) : Bool := t.vipKeys.contains keyHash

def getAllVipKeyHashes : List ByteString := t.vipKeys.keys

def loadOnboardingGrant (grantId : ByteString) : Fields := t.onboardingGrants[grantId]?.getD ∅

def loadOnboardingGrantsForUser (userId : ByteString) (includeConsumed : Bool) : List Fields :=
  t.onboardingGrants.select (fun grant ↦
    grant.holds "user_id" userId && (includeConsumed || !grant.holds "consumed" (lit "true")))

def loadTrustPolicy : TrustPolicy := t.trustPolicy.getD .defaultPolicy

def loadCredentialRecord (userId tokenId : ByteString) : Fields :=
  t.credentialRecords[userId ++ lit ":" ++ tokenId]?.getD ∅

def loadRbpcState (nodeId : ByteString) : Option RBPCState :=
  t.rbpcStateRecords[nodeId]?.map (fun record ↦
    { nodeId
      pinHash := record.text "pin_hash"
      salt := record.text "salt"
      failedAttempts := (stoi (record.text "failed_attempts")).getD 0
      burned := record.text "burned" == lit "true"
      lastAuthTimestamp := (stoll (record.text "last_auth_timestamp")).getD 0
      createdAt := (stoll (record.text "created_at")).getD 0 })

def loadAuditEvents (userId tokenId : ByteString) (limit : Int) : List Fields :=
  limited limit (t.auditEvents.select (fun event ↦
    (userId.isEmpty || event.holds "user_id" userId) &&
    (tokenId.isEmpty || event.holds "token_id" tokenId)))

def loadPreference (key : ByteString) : ByteString := t.preferences[key]?.getD []

def loadInferenceRecord (inferenceId : ByteString) : Option InferenceRecord :=
  t.inferenceRecords[inferenceId]?.map .fromMap

def queryInferenceRecords (since until_ : Int) (limit : Nat) : List InferenceRecord :=
  limited limit ((t.inferenceRecords.select (fun record ↦
    match record[lit "timestamp"]?.bind stoll with
    | none => false
    | some ts => since ≤ ts && ts ≤ until_)).map .fromMap)

def loadFileRecord (fileId : ByteString) : Option FileVaultRecord :=
  t.fileVaultRecords[fileId]?.map .fromMap

def queryFilesByProject (projectName folderPath statusFilter : ByteString) :
    List FileVaultRecord :=
  (t.fileVaultRecords.select (fun record ↦
    record.holds "project_name" projectName &&
    (folderPath.isEmpty || record.holds "folder_path" folderPath) &&
    (statusFilter.isEmpty || record.holds "status" statusFilter))).map .fromMap

/-- The projects of the files that are not deleted, each at its first occurrence. -/
def listProjects : List ByteString :=
  let names := (t.fileVaultRecords.select (fun record ↦
    !record.holds "status" (lit "deleted"))).filterMap (fun record ↦ record[lit "project_name"]?)
  names.foldl (fun out name ↦ if out.contains name then out else out ++ [name]) []

end Tables

inductive Query
  | loadLicense (extensionId userId : ByteString)
  | isLicenseRevoked (licenseKeyHash : ByteString)
  | loadExtensionEntry (extensionId : ByteString)
  | searchExtensionEntries (query : ByteString) (filters : Fields)
  | loadRevenueShareRecords (extensionId userId : ByteString)
  | loadReviews (extensionId : ByteString) (limit : Int)
  | getExtensionStats (extensionId : ByteString)
  | loadVipKey (keyHash : ByteString)
  | vipKeyExists (keyHash : ByteString)
  | getAllVipKeyHashes
  | loadOnboardingGrant (grantId : ByteString)
  | loadOnboardingGrantsForUser (userId : ByteString) (includeConsumed : Bool)
  | loadTrustPolicy
  | loadCredentialRecord (userId tokenId : ByteString)
  | loadRbpcState (nodeId : ByteString)
  | loadAuditEvents (userId tokenId : ByteString) (limit : Int)
  | loadPreference (key : ByteString)
  | loadInferenceRecord (inferenceId : ByteString)
  | queryInferenceRecords (since until_ : Int) (limit : Nat)
  | loadFileRecord (fileId : ByteString)
  | queryFilesByProject (projectName folderPath statusFilter : ByteString)
  | listProjects

inductive Answer
  | record (r : Fields)
  | records (l : List Fields)
  | flag (b : Bool)
  | text (s : ByteString)
  | texts (l : List ByteString)
  | policy (p : TrustPolicy)
  | state (s : Option RBPCState)
  | inference (r : Option InferenceRecord)
  | inferences (l : List InferenceRecord)
  | file (r : Option FileVaultRecord)
  | files (l : List FileVaultRecord)
  deriving DecidableEq

def Tables.answer (t : Tables) : Query → Answer
  | .loadLicense e u => .record (t.loadLicense e u)
  | .isLicenseRevoked h => .flag (t.isLicenseRevoked h)
  | .loadExtensionEntry e => .record (t.loadExtensionEntry e)
  | .searchExtensionEntries q f => .records (t.searchExtensionEntries q f)
  | .loadRevenueShareRecords e u => .records (t.loadRevenueShareRecords e u)
  | .loadReviews e n => .records (t.loadReviews e n)
  | .getExtensionStats e => .record (t.getExtensionStats e)
  | .loadVipKey h => .record (t.loadVipKey h)
  | .vipKeyExists h => .flag (t.vipKeyExists h)
  | .getAllVipKeyHashes => .texts t.getAllVipKeyHashes
  | .loadOnboardingGrant g => .record (t.loadOnboardingGrant g)
  | .loadOnboardingGrantsForUser u b => .records (t.loadOnboardingGrantsForUser u b)
  | .loadTrustPolicy => .policy t.loadTrustPolicy
  | .loadCredentialRecord u k => .record (t.loadCredentialRecord u k)
  | .loadRbpcState n => .state (t.loadRbpcState n)
  | .loadAuditEvents u k n => .records (t.loadAuditEvents u k n)
  | .loadPreference k => .text (t.loadPreference k)
  | .loadInferenceRecord i => .inference (t.loadInferenceRecord i)
  | .queryInferenceRecords s u n => .inferences (t.queryInferenceRecords s u n)
  | .loadFileRecord f => .file (t.loadFileRecord f)
  | .queryFilesByProject p f s => .files (t.queryFilesByProject p f s)
  | .listProjects => .texts t.listProjects

inductive Reply
  | accepted
  | refused
  | threw
  deriving DecidableEq

/-- The loop of `replay_sync_queue`: the records that remain and the number replayed. The
callback is told how many records were offered before. -/
def replayLoop (callback : Nat → SyncRecord → Reply) (limit : Nat) :
    Nat → Nat → List SyncRecord → List SyncRecord × Nat
  | _, replayed, [] => ([], replayed)
  | offered, replayed, r :: rs =>
    if replayed < limit then
      match callback offered r with
      | .accepted => replayLoop callback limit (offered + 1) (replayed + 1) rs
      | .refused | .threw =>
        let (remaining, n) := replayLoop callback limit (offered + 1) replayed rs
        (r :: remaining, n)
    else
      let (remaining, n) := replayLoop callback limit offered replayed rs
      (r :: remaining, n)

def LocalMaintenanceDB.replaySyncQueue (d : LocalMaintenanceDB)
    (callback : Nat → SyncRecord → Reply) (maxRecords : Nat) : LocalMaintenanceDB × Nat :=
  if d.syncQueue.isEmpty then (d, 0)
  else
    let limit := if maxRecords = 0 then d.syncQueue.length else min maxRecords d.syncQueue.length
    let (remaining, replayed) := replayLoop callback limit 0 0 d.syncQueue
    ({ d with syncQueue := remaining }, replayed)

inductive Mutation
  | storeLicense (extensionId licenseKeyHash userId licenseType : ByteString)
      (expiresAt : Int) (metadata : Fields)
  | revokeLicense (licenseKeyHash reason : ByteString)
  | storeExtensionEntry (entry : Fields)
  | storeRevenueShareRecord (record : Fields)
  | storeReview (review : Fields)
  | updateExtensionStats (extensionId : ByteString) (stats : Fields)
  | storeVipKey (keyHash encryptedMetadata encryptedKey : ByteString)
      (expirationTimestamp : Int)
  | updateVipKeyStatus (keyHash : ByteString) (statusData : Fields)
  | storeOnboardingGrant (grant : Fields)
  | consumeOnboardingGrant (grantId consumedBy reason : ByteString)
  | storeTrustPolicy (policy : TrustPolicy)
  | storeCredentialRecord (record : Fields)
  | saveRbpcState (state : RBPCState)
  | incrementRbpcFailedAttempts (nodeId : ByteString)
  | setRbpcBurned (nodeId : ByteString)
  | storeAuditEvent (event : Fields)
  | storePreference (key value : ByteString)
  | storeInferenceRecord (record : InferenceRecord)
  | clearInferenceRecords
  | storeFileRecord (record : FileVaultRecord)
  | deleteFileRecord (fileId : ByteString)
  | updateFileAccessed (fileId : ByteString)
  | updateFileStatus (fileId status : ByteString)

def LocalMaintenanceDB.mutate (now : Int) (d : LocalMaintenanceDB) :
    Mutation → LocalMaintenanceDB × Bool
  | .storeLicense e h u t x m => d.storeLicense now e h u t x m
  | .revokeLicense h r => d.revokeLicense now h r
  | .storeExtensionEntry e => d.storeExtensionEntry now e
  | .storeRevenueShareRecord r => d.storeRevenueShareRecord now r
  | .storeReview r => d.storeReview now r
  | .updateExtensionStats e s => d.updateExtensionStats now e s
  | .storeVipKey h m k x => d.storeVipKey now h m k x
  | .updateVipKeyStatus h s => d.updateVipKeyStatus now h s
  | .storeOnboardingGrant g => d.storeOnboardingGrant now g
  | .consumeOnboardingGrant g b r => d.consumeOnboardingGrant now g b r
  | .storeTrustPolicy p => d.storeTrustPolicy now p
  | .storeCredentialRecord r => d.storeCredentialRecord now r
  | .saveRbpcState s => d.saveRbpcState now s
  | .incrementRbpcFailedAttempts n => d.incrementRbpcFailedAttempts n
  | .setRbpcBurned n => d.setRbpcBurned n
  | .storeAuditEvent e => d.storeAuditEvent now e
  | .storePreference k v => d.storePreference k v
  | .storeInferenceRecord r => d.storeInferenceRecord now r
  | .clearInferenceRecords => d.clearInferenceRecords
  | .storeFileRecord r => d.storeFileRecord now r
  | .deleteFileRecord f => d.deleteFileRecord now f
  | .updateFileAccessed f => d.updateFileAccessed now f
  | .updateFileStatus f s => d.updateFileStatus now f s

inductive Call
  | initializeDb (dbPath dbKey : ByteString)
  | shutdown
  | mutate (u : Mutation)
  | query (q : Query)
  | setOfflineMode (offline : Bool)
  | queueForSync (table key : ByteString) (record : Fields)
  | replaySyncQueue (callback : Nat → SyncRecord → Reply) (maxRecords : Nat)

def World.serve (L : Lfssl) (w : World) (mo : Moment) : Call → World
  | .initializeDb dbPath dbKey => (w.initializeDb L mo dbPath dbKey).1
  | .shutdown => w.shutdown L mo
  | .mutate u => { w with db := (w.db.mutate mo.now u).1 }
  | .query _ => w
  | .setOfflineMode offline => { w with db := { w.db with offlineMode := offline } }
  | .queueForSync table key record => { w with db := w.db.queueForSync mo.now table key record }
  | .replaySyncQueue callback maxRecords =>
    { w with db := (w.db.replaySyncQueue callback maxRecords).1 }

def Step (L : Lfssl) (w : World) (e : Moment × Call) (w' : World) : Prop :=
  w' = w.serve L e.1 e.2

end Cerberus.MaintenanceDb
