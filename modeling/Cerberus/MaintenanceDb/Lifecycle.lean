import Cerberus.MaintenanceDb.Codec
import Cerberus.MaintenanceDb.Effects

namespace Cerberus.MaintenanceDb

open Std Foundation Foundation.Bytes Foundation.Trace Foundation.Wire

/-- The ways `initialize` can end. -/
inductive Opening (L : Lfssl) (mo : Moment) (disk : Disk) (d : LocalMaintenanceDB)
    (dbPath dbKey : ByteString) : LocalMaintenanceDB × Bool → Prop
  | already : d.initialized = true → Opening L mo disk d dbPath dbKey (d, true)
  | badKey : d.initialized = false → dbKey.length ≠ 32 → Opening L mo disk d dbPath dbKey (d, false)
  | empty : d.initialized = false → dbKey.length = 32 → disk.exists dbPath = false →
      Opening L mo disk d dbPath dbKey ({ d with dbPath, dbKey, initialized := true }, true)
  | loaded (tables : Tables) : d.initialized = false → dbKey.length = 32 →
      disk.exists dbPath = true → loadFromDisk L mo { d with dbPath, dbKey } disk = some tables →
      Opening L mo disk d dbPath dbKey
        ({ d with dbPath, dbKey, tables, initialized := true }, true)
  | failed : d.initialized = false → dbKey.length = 32 → disk.exists dbPath = true →
      loadFromDisk L mo { d with dbPath, dbKey } disk = none →
      Opening L mo disk d dbPath dbKey ({ d with dbPath := [], dbKey := [] }, false)

theorem LocalMaintenanceDB.initializeDb_opening (L : Lfssl) (mo : Moment) (disk : Disk)
    (d : LocalMaintenanceDB) (dbPath dbKey : ByteString) :
    Opening L mo disk d dbPath dbKey (d.initializeDb L mo disk dbPath dbKey) := by
  unfold LocalMaintenanceDB.initializeDb
  by_cases hopen : d.initialized = true
  · rw [if_pos hopen]
    exact .already hopen
  · rw [if_neg hopen]
    have hclosed : d.initialized = false := by simpa using hopen
    by_cases hkey : dbKey.length = 32
    · rw [if_neg (by simpa using hkey)]
      by_cases hfile : disk.exists dbPath = true
      · simp only [hfile, if_true]
        split
        · next t hload => exact .loaded t hclosed hkey hfile hload
        · next hload => exact .failed hclosed hkey hfile hload
      · simp only [hfile]
        exact .empty hclosed hkey (by simpa using hfile)
    · rw [if_pos hkey]
      exact .badKey hclosed hkey

theorem deserializeAll_of_load {L : Lfssl} {mo : Moment} {disk : Disk} {d : LocalMaintenanceDB}
    {t : Tables} (hfile : disk.exists d.dbPath = true) (h : loadFromDisk L mo d disk = some t) :
    ∃ text, deserializeAll d.tables text = some t := by
  simp only [loadFromDisk, hfile, Bool.not_true, Bool.false_eq_true, if_false] at h
  split at h
  · cases h
  · obtain ⟨file, -, h⟩ := Option.bind_eq_some_iff.mp h
    obtain ⟨⟨nonce, ciphertext⟩, -, h⟩ := Option.bind_eq_some_iff.mp h
    simp only at h
    split at h
    · cases h
    · split at h
      · cases h
      · cases h
      · exact ⟨_, h⟩

/-- What `shutdown` leaves in the tables. -/
def World.residue (w : World) : Tables :=
  if w.db.initialized then w.db.tables.clear else w.db.tables

theorem World.shutdown_db (L : Lfssl) (mo : Moment) (w : World) :
    (w.shutdown L mo).db.initialized = false ∧ (w.shutdown L mo).db.tables = w.residue := by
  unfold World.shutdown World.residue
  cases h : w.db.initialized <;> simp [h]

theorem World.initializeDb_empty {L : Lfssl} {mo : Moment} {w : World} {dbPath dbKey : ByteString}
    (hclosed : w.db.initialized = false) (hkey : dbKey.length = 32)
    (hfile : w.disk.exists dbPath = false) :
    w.initializeDb L mo dbPath dbKey =
      ({ w with db := { w.db with dbPath, dbKey, initialized := true } }, true) := by
  simp [World.initializeDb, LocalMaintenanceDB.initializeDb, hclosed, hkey, hfile]

/-- After `initialize` the tables are those that were there, or those of the file. -/
theorem World.initializeDb_tables_iff {L : Lfssl} {mo : Moment} {w : World}
    {dbPath dbKey : ByteString} {P : Tables → Prop} (h : P w.db.tables) :
    P (w.initializeDb L mo dbPath dbKey).1.db.tables ↔
      (w.db.initialized = false → dbKey.length = 32 → w.disk.exists dbPath = true →
        ∀ t, loadFromDisk L mo { w.db with dbPath, dbKey } w.disk = some t → P t) := by
  have ho := w.db.initializeDb_opening L mo w.disk dbPath dbKey
  simp only [World.initializeDb]
  generalize w.db.initializeDb L mo w.disk dbPath dbKey = r at ho ⊢
  cases ho with
  | already hopen => exact iff_of_true h (fun hc ↦ by simp [hopen] at hc)
  | badKey _ hkey => exact iff_of_true h (fun _ hk ↦ absurd hk hkey)
  | empty _ _ hfile => exact iff_of_true h (fun _ _ hf ↦ by simp [hfile] at hf)
  | loaded t hclosed hkey hfile hload =>
    refine ⟨fun ht _ _ _ t' hload' ↦ ?_, fun hok ↦ hok hclosed hkey hfile t hload⟩
    exact Option.some.inj (hload.symm.trans hload') ▸ ht
  | failed _ _ _ hload => exact iff_of_true h (fun _ _ _ t ht ↦ by simp [hload] at ht)

/-- What is left in memory of a database that is not open: only the record of failed PIN
attempts and the six tables that `shutdown` forgets. -/
structure Tables.Spent (t : Tables) : Prop where
  licenses : t.licenses = ∅
  credentialRecords : t.credentialRecords = ∅
  auditEvents : t.auditEvents = ∅
  inferenceRecords : t.inferenceRecords = ∅
  fileVaultRecords : t.fileVaultRecords = ∅
  preferences : t.preferences = ∅
  revokedHashes : t.revokedHashes = ∅
  trustPolicy : t.trustPolicy = none

theorem Tables.clear_spent (t : Tables) : t.clear.Spent := ⟨rfl, rfl, rfl, rfl, rfl, rfl, rfl, rfl⟩

theorem Tables.Spent.edit {t : Tables} (h : t.Spent) {e : Edit} (he : e.unguarded t) :
    (e.apply t).Spent := by
  cases e with
  | put n key record =>
    cases n with
    | rbpcStateRecords =>
      exact ⟨h.licenses, h.credentialRecords, h.auditEvents, h.inferenceRecords,
        h.fileVaultRecords, h.preferences, h.revokedHashes, h.trustPolicy⟩
    | fileVaultRecords => simp [Edit.unguarded, h.fileVaultRecords] at he
    | _ => exact he.elim
  | forgetInferences =>
    exact ⟨h.licenses, h.credentialRecords, h.auditEvents, rfl, h.fileVaultRecords,
      h.preferences, h.revokedHashes, h.trustPolicy⟩
  | _ => exact he.elim

/-- A database that is not open holds no more than that. -/
def Dormant (w : World) : Prop := w.db.initialized = false → w.db.tables.Spent

theorem dormant_new (disk : Disk) : Dormant { disk } := fun _ ↦ ⟨rfl, rfl, rfl, rfl, rfl, rfl, rfl, rfl⟩

theorem mutate_dormant {w : World} (hw : Dormant w) (now : Int) (u : Mutation) :
    Dormant { w with db := (w.db.mutate now u).1 } := by
  have hedit {e : Edit} (he : Edited w.db (w.db.mutate now u).1 e) :
      Dormant { w with db := (w.db.mutate now u).1 } := by
    intro hclosed
    have hc : w.db.initialized = false := he.initialized.symm.trans hclosed
    have hg : e.unguarded w.db.tables := he.guarded.resolve_left (by simp [hc])
    exact he.tables ▸ (hw hc).edit hg
  cases w.db.mutate_outcome now u with
  | refused h =>
    rw [h]
    exact hw
  | marked e he => exact hedit he
  | silent e he => exact hedit he

theorem step_dormant {L : Lfssl} {w w' : World} {e : Moment × Call} (hw : Dormant w)
    (h : Step L w e w') : Dormant w' := by
  obtain ⟨mo, call⟩ := e
  subst h
  cases call with
  | initializeDb dbPath dbKey =>
    have ho := w.db.initializeDb_opening L mo w.disk dbPath dbKey
    simp only [World.serve, World.initializeDb, Dormant]
    generalize w.db.initializeDb L mo w.disk dbPath dbKey = r at ho ⊢
    cases ho with
    | already => exact hw
    | badKey => exact hw
    | empty => simp
    | loaded => simp
    | failed => exact hw
  | shutdown =>
    simp only [World.serve, World.shutdown]
    split
    · exact hw
    · exact fun _ ↦ w.db.tables.clear_spent
  | mutate u => exact mutate_dormant hw mo.now u
  | query q => exact hw
  | setOfflineMode offline => exact hw
  | queueForSync table key record => exact hw
  | replaySyncQueue callback maxRecords =>
    simp only [World.serve, LocalMaintenanceDB.replaySyncQueue]
    split <;> exact hw

theorem run_dormant {L : Lfssl} {disk : Disk} {tr : List (World × Moment × Call)} {w : World}
    (h : Run (Step L) { disk } tr w) : Dormant w :=
  (h.invariant (fun _ _ _ hi hs ↦ step_dormant hi hs) (dormant_new disk)).2

/-- The decoder gets back every table and the trust policy from the buffer that is encrypted,
in any database that may call it: one that is not open. -/
theorem tables_recovered {L : Lfssl} {disk : Disk} {tr : List (World × Moment × Call)} {w : World}
    (hr : Run (Step L) { disk } tr w) (hclosed : w.db.initialized = false) {t : Tables}
    (ht : t.Expressible) :
    deserializeAll w.db.tables (plaintext t) = some t ∧
      ∀ p : TrustPolicy, TrustPolicy.fromMap p.toMap = p :=
  ⟨deserializeAll_plaintext ht (run_dormant hr hclosed).trustPolicy, TrustPolicy.fromMap_toMap⟩

def noLfssl : Lfssl := ⟨fun _ _ _ ↦ none, fun _ _ _ ↦ none⟩

def quietMoment : Moment := { lfsslAvailable := false, randomBytes := none }

def sampleTables : Tables where
  licenses := (∅ : Table).insert (lit "ext:user") ((∅ : Fields).insert (lit "license_type") (lit "pro"))
  trustPolicy := some { policyId := lit "p" }

theorem tables_recovered_sample :
    ∃ t : Tables, t.licenses ≠ ∅ ∧ t.trustPolicy ≠ none ∧
      deserializeAll {} (plaintext t) = some t := by
  have hnamed : sampleTables.Named := by
    refine ⟨fun n ↦ ?_, each_empty, each_empty⟩
    cases n with
    | licenses => exact each_empty.insert ⟨by decide, each_empty.insert (by decide)⟩
    | _ => exact each_empty
  have hshort : Short (plaintext sampleTables).length := by
    change (plaintext sampleTables).length < 2 ^ 32
    decide +kernel
  have hrun : Run (Step noLfssl) { disk := ∅ } [] {} := .nil _
  exact ⟨sampleTables, by decide, by decide,
    (tables_recovered hrun rfl (hnamed.expressible hshort)).1⟩

end Cerberus.MaintenanceDb
