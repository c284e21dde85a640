import Cerberus.MaintenanceDb.Records

namespace Cerberus.MaintenanceDb

open Std Foundation.Bytes Foundation.Wire

abbrev Table := Dict Fields

/-- The members that are written to the file, in the order of the file. -/
structure Tables where
  licenses : Table := ∅
  extensionEntries : Table := ∅
  revenueRecords : Table := ∅
  reviews : Table := ∅
  extensionStats : Table := ∅
  credentialRecords : Table := ∅
  auditEvents : Table := ∅
  rbpcStateRecords : Table := ∅
  vipKeys : Table := ∅
  onboardingGrants : Table := ∅
  inferenceRecords : Table := ∅
  fileVaultRecords : Table := ∅
  preferences : Fields := ∅
  revokedHashes : Fields := ∅
  trustPolicy : Option TrustPolicy := none
  deriving DecidableEq

/-- The tables of records, as opposed to the two flat ones. -/
inductive TableName
  | licenses
  | extensionEntries
  | revenueRecords
  | reviews
  | extensionStats
  | credentialRecords
  | auditEvents
  | rbpcStateRecords
  | vipKeys
  | onboardingGrants
  | inferenceRecords
  | fileVaultRecords
  deriving DecidableEq

def TableName.syncName : TableName → ByteString
  | .licenses => lit "licenses"
  | .extensionEntries => lit "extension_entries"
  | .revenueRecords => lit "revenue_records"
  | .reviews => lit "reviews"
  | .extensionStats => lit "extension_stats"
  | .credentialRecords => lit "credential_records"
  | .auditEvents => lit "audit_events"
  | .rbpcStateRecords => lit "rbpc_state"
  | .vipKeys => lit "vip_keys"
  | .onboardingGrants => lit "onboarding_grants"
  | .inferenceRecords => lit "inference_records"
  | .fileVaultRecords => lit "file_vault"

def Tables.get (t : Tables) : TableName → Table
  | .licenses => t.licenses
  | .extensionEntries => t.extensionEntries
  | .revenueRecords => t.revenueRecords
  | .reviews => t.reviews
  | .extensionStats => t.extensionStats
  | .credentialRecords => t.credentialRecords
  | .auditEvents => t.auditEvents
  | .rbpcStateRecords => t.rbpcStateRecords
  | .vipKeys => t.vipKeys
  | .onboardingGrants => t.onboardingGrants
  | .inferenceRecords => t.inferenceRecords
  | .fileVaultRecords => t.fileVaultRecords

def Tables.set (t : Tables) (n : TableName) (x : Table) : Tables :=
  match n with
  | .licenses => { t with licenses := x }
  | .extensionEntries => { t with extensionEntries := x }
  | .revenueRecords => { t with revenueRecords := x }
  | .reviews => { t with reviews := x }
  | .extensionStats => { t with extensionStats := x }
  | .credentialRecords => { t with credentialRecords := x }
  | .auditEvents => { t with auditEvents := x }
  | .rbpcStateRecords => { t with rbpcStateRecords := x }
  | .vipKeys => { t with vipKeys := x }
  | .onboardingGrants => { t with onboardingGrants := x }
  | .inferenceRecords => { t with inferenceRecords := x }
  | .fileVaultRecords => { t with fileVaultRecords := x }

/-- `table[key] = record` -/
def Tables.upsert (t : Tables) (n : TableName) (key : ByteString) (record : Fields) : Tables :=
  t.set n ((t.get n).insert key record)

structure SyncRecord where
  table : ByteString
  key : ByteString
  record : Fields
  queuedAt : Int
  deriving DecidableEq

/-- The object. Times are in nanoseconds since the epoch. -/
structure LocalMaintenanceDB where
  initialized : Bool := false
  dbPath : ByteString := []
  dbKey : ByteString := []
  offlineMode : Bool := false
  dirty : Bool := false
  tables : Tables := {}
  syncQueue : List SyncRecord := []
  deriving DecidableEq

/-- The AES-256-GCM functions of the LFSSL library, applied to a key, a nonce and a text;
`none` is a non-zero return code. -/
structure Lfssl where
  encrypt : ByteString → ByteString → ByteString → Option ByteString
  decrypt : ByteString → ByteString → ByteString → Option ByteString

/-- What the host answers while one call runs. A write that is cut short leaves the given
number of bytes in the file. -/
structure Moment where
  now : Int := 0
  lfsslAvailable : Bool := true
  randomBytes : Option (Vector UInt8 12)
  opensForWriting : Bool := true
  cutAt : Option Nat := none
  opensForReading : Bool := true

abbrev Disk := Dict ByteString

structure World where
  db : LocalMaintenanceDB := {}
  disk : Disk := ∅
  deriving DecidableEq

/-- `serialize_table_` of a flat table. -/
def serializeFields : Fields → ByteString := writeMap writeStr

/-- `serialize_table_` of a table of records. -/
def serializeTable : Table → ByteString := writeMap serializeFields

def kMagic : Nat := 0x4C434D44

def kVersion : Nat := 1

def serializePolicy : Option TrustPolicy → ByteString
  | some policy => packU32 1 ++ serializeFields policy.toMap
  | none => packU32 0

/-- The buffer that `flush_to_disk_` encrypts. -/
def plaintext (t : Tables) : ByteString := [
  packU32 kMagic,
  packU32 kVersion,
  serializeTable t.licenses,
  serializeTable t.extensionEntries,
  serializeTable t.revenueRecords,
  serializeTable t.reviews,
  serializeTable t.extensionStats,
  serializeTable t.credentialRecords,
  serializeTable t.auditEvents,
  serializeTable t.rbpcStateRecords,
  serializeTable t.vipKeys,
  serializeTable t.onboardingGrants,
  serializeTable t.inferenceRecords,
  serializeTable t.fileVaultRecords,
  serializeFields t.preferences,
  serializeFields t.revokedHashes,
  serializePolicy t.trustPolicy].flatten

def readFields : Reader Fields := readMap readStr

def readMapOfMaps : Reader Table := readMap readFields

/-- The trust policy stays as it was when the file has none. -/
def readPolicy (current : Option TrustPolicy) : Reader (Option TrustPolicy) := do
  let hasPolicy ← readU32
  if hasPolicy ≠ 0 then
    let m ← readFields
    return some (TrustPolicy.fromMap m)
  else return current

/-- The part of `deserialize_all_` that follows the magic number. -/
def readTables (t : Tables) : Reader Tables := do
  let _version ← readU32
  let licenses ← readMapOfMaps
  let extensionEntries ← readMapOfMaps
  let revenueRecords ← readMapOfMaps
  let reviews ← readMapOfMaps
  let extensionStats ← readMapOfMaps
  let credentialRecords ← readMapOfMaps
  let auditEvents ← readMapOfMaps
  let rbpcStateRecords ← readMapOfMaps
  let vipKeys ← readMapOfMaps
  let onboardingGrants ← readMapOfMaps
  let inferenceRecords ← readMapOfMaps
  let fileVaultRecords ← readMapOfMaps
  let preferences ← readFields
  let revokedHashes ← readFields
  let trustPolicy ← readPolicy t.trustPolicy
  return {
    licenses, extensionEntries, revenueRecords, reviews, extensionStats, credentialRecords,
    auditEvents, rbpcStateRecords, vipKeys, onboardingGrants, inferenceRecords,
    fileVaultRecords, preferences, revokedHashes, trustPolicy }

/-- The tables after `deserialize_all_`, or `none` when it returns false; nothing is assigned
then. -/
def deserializeAll (t : Tables) (input : ByteString) : Option Tables :=
  if input.length < 4 then none
  else
    let (magic, r) := readU32 input
    if magic ≠ kMagic then none else some (readTables t r).1

def frame (nonce ciphertext : ByteString) : ByteString :=
  packU32 nonce.length ++ nonce ++ packU32 ciphertext.length ++ ciphertext

/-- `flush_to_disk_`: the disk it leaves and its result. -/
def flushToDisk (L : Lfssl) (mo : Moment) (d : LocalMaintenanceDB) (disk : Disk) :
    Disk × Bool :=
  if d.dbPath.isEmpty then (disk, true)
  else if !mo.lfsslAvailable then (disk, false)
  else match mo.randomBytes with
    | none => (disk, false)
    | some nonce =>
      match L.encrypt d.dbKey nonce.toList (plaintext d.tables) with
      | none | some [] => (disk, false)
      | some ciphertext =>
        if !mo.opensForWriting then (disk, false)
        else
          let outBuf := frame nonce.toList ciphertext
          match mo.cutAt with
          | none => (disk.insert d.dbPath outBuf, true)
          | some n => (disk.insert d.dbPath (outBuf.take n), false)

def Disk.exists (disk : Disk) (path : ByteString) : Bool := !path.isEmpty && disk.contains path

/-- `ifs.read` into a buffer of zeros; what a short read does not reach keeps its zeros. -/
def readInto (n : Nat) (r : ByteString) : ByteString × ByteString :=
  (r.take n ++ List.replicate (n - r.length) 0, r.drop n)

def readBe32 (r : ByteString) : Nat × ByteString :=
  let (buf, r) := readInto 4 r
  ((readU32 buf).1, r)

def kMaxCipherLen : Nat := 0x0FFFFFFF

/-- The nonce and the ciphertext of a file that passes the checks of `load_from_disk_`. -/
def unframe (file : ByteString) : Option (ByteString × ByteString) :=
  let (nonceLen, r) := readBe32 file
  if nonceLen ≠ 12 then none
  else
    let (nonce, r) := readInto 12 r
    let (cipherLen, r) := readBe32 r
    if cipherLen < 16 || cipherLen > kMaxCipherLen then none
    else if r.length < cipherLen then none
    else some (nonce, r.take cipherLen)

/-- `load_from_disk_`: the tables it leaves, or `none` when it returns false and assigns
nothing. -/
def loadFromDisk (L : Lfssl) (mo : Moment) (d : LocalMaintenanceDB) (disk : Disk) :
    Option Tables :=
  if !disk.exists d.dbPath then some d.tables
  else if !mo.opensForReading then none
  else do
    let file ← disk[d.dbPath]?
    let (nonce, ciphertext) ← unframe file
    if !mo.lfsslAvailable then none
    else
      match L.decrypt d.dbKey nonce ciphertext with
      | none | some [] => none
      | some text => deserializeAll d.tables text

/-- `initialize`: the object it leaves and its result. -/
def LocalMaintenanceDB.initializeDb (L : Lfssl) (mo : Moment) (disk : Disk)
    (d : LocalMaintenanceDB) (dbPath dbKey : ByteString) : LocalMaintenanceDB × Bool :=
  if d.initialized then (d, true)
  else if dbKey.length ≠ 32 then (d, false)
  else
    let d := { d with dbPath, dbKey }
    if disk.exists dbPath then
      match loadFromDisk L mo d disk with
      | some tables => ({ d with tables, initialized := true }, true)
      | none => ({ d with dbPath := [], dbKey := [] }, false)
    else ({ d with initialized := true }, true)

/-- The members that `shutdown` clears. The other six tables stay. -/
def Tables.clear (t : Tables) : Tables :=
  { t with
    licenses := ∅
    credentialRecords := ∅
    auditEvents := ∅
    rbpcStateRecords := ∅
    preferences := ∅
    revokedHashes := ∅
    trustPolicy := none
    inferenceRecords := ∅
    fileVaultRecords := ∅ }

def World.shutdown (L : Lfssl) (mo : Moment) (w : World) : World :=
  if !w.db.initialized then w
  else
    { db := { w.db with
        dirty := false, dbKey := [], tables := w.db.tables.clear, syncQueue := []
        initialized := false }
      disk := if w.db.dirty then (flushToDisk L mo w.db w.disk).1 else w.disk }

def World.initializeDb (L : Lfssl) (mo : Moment) (w : World) (dbPath dbKey : ByteString) :
    World × Bool :=
  let (db, ok) := w.db.initializeDb L mo w.disk dbPath dbKey
  ({ w with db }, ok)

end Cerberus.MaintenanceDb
