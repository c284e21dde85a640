import Cerberus.MaintenanceDb.Lifecycle

namespace Cerberus.MaintenanceDb

open Std Foundation Foundation.Bytes Foundation.Trace Foundation.Wire

structure Alike (d₁ d₂ : LocalMaintenanceDB) : Prop where
  tables : d₁.tables = d₂.tables
  initialized : d₁.initialized = d₂.initialized

namespace LocalMaintenanceDB

variable {now : Int} {d₁ d₂ : LocalMaintenanceDB}

theorem store_alike (h : Alike d₁ d₂) (n : TableName) (key : ByteString) (record : Fields) :
    Alike (d₁.store now n key record).1 (d₂.store now n key record).1 := by
  refine ⟨?_, ?_⟩ <;> simp [store, upsert, markDirty, h.tables, h.initialized]

theorem checked_alike {c₁ c₂ : Bool} {r₁ r₂ : LocalMaintenanceDB × Bool} (h : Alike d₁ d₂)
    (hc : c₁ = c₂) (hr : Alike r₁.1 r₂.1) :
    Alike (if c₁ then (d₁, false) else r₁).1 (if c₂ then (d₂, false) else r₂).1 := by
  subst hc
  cases c₁ with
  | true => exact h
  | false => exact hr

theorem updateFileStatus_alike (h : Alike d₁ d₂) (fileId status : ByteString) :
    Alike (d₁.updateFileStatus now fileId status).1 (d₂.updateFileStatus now fileId status).1 := by
  unfold updateFileStatus
  rw [h.tables]
  split
  · exact h
  · exact store_alike h ..

/-- A call reads the object only through its tables and whether it is open. -/
theorem mutate_alike (h : Alike d₁ d₂) (u : Mutation) :
    Alike (d₁.mutate now u).1 (d₂.mutate now u).1 := by
  have hi := h.initialized
  have hkey (n : TableName) (idField stem : String) (record : Fields) :
      d₁.keyFor n idField stem record = d₂.keyFor n idField stem record := by
    simp only [keyFor, h.tables]
  cases u with
  | storeLicense e k us t x m => exact checked_alike h (by rw [hi]) (store_alike h ..)
  | revokeLicense k r =>
    refine checked_alike h (by rw [hi]) ⟨?_, ?_⟩ <;> simp [markDirty, h.tables, hi]
  | storeExtensionEntry e =>
    refine checked_alike h (by rw [hi]) ?_
    split
    · exact h
    · exact h
    · exact store_alike h ..
  | storeRevenueShareRecord r =>
    refine checked_alike h (by rw [hi]) ?_
    rw [hkey]
    exact store_alike h ..
  | storeReview r =>
    refine checked_alike h (by rw [hi]) ?_
    rw [hkey]
    exact store_alike h ..
  | updateExtensionStats e s => exact checked_alike h (by rw [hi]) (store_alike h ..)
  | storeVipKey k m e x => exact checked_alike h (by rw [hi]) (store_alike h ..)
  | updateVipKeyStatus k s =>
    refine checked_alike h (by rw [hi]) ?_
    rw [h.tables]
    split
    · exact h
    · exact store_alike h ..
  | storeOnboardingGrant g =>
    refine checked_alike h (by rw [hi]) ?_
    rw [hkey]
    exact store_alike h ..
  | consumeOnboardingGrant g b r =>
    refine checked_alike h (by rw [hi]) ?_
    rw [h.tables]
    split
    · exact h
    · refine ⟨?_, ?_⟩ <;> simp [upsert, h.tables, hi]
  | storeTrustPolicy p =>
    refine checked_alike h (by rw [hi]) ⟨?_, ?_⟩ <;> simp [markDirty, h.tables, hi]
  | storeCredentialRecord r =>
    refine checked_alike h (by rw [hi]) ?_
    split
    · exact store_alike h ..
    · exact h
  | saveRbpcState s => exact checked_alike h (by rw [hi]) (store_alike h ..)
  | incrementRbpcFailedAttempts n =>
    refine ⟨?_, ?_⟩ <;> simp [mutate, incrementRbpcFailedAttempts, upsert, h.tables, hi]
  | setRbpcBurned n => refine ⟨?_, ?_⟩ <;> simp [mutate, setRbpcBurned, upsert, h.tables, hi]
  | storeAuditEvent e =>
    have hid : d₁.auditEventId e = d₂.auditEventId e := by simp only [auditEventId, h.tables]
    exact checked_alike h (by rw [hi]) (checked_alike h rfl (hid ▸ store_alike h ..))
  | storePreference k v =>
    refine checked_alike h (by rw [hi]) ⟨?_, ?_⟩ <;> simp [markDirty, h.tables, hi]
  | storeInferenceRecord r => exact checked_alike h (by rw [hi]) (store_alike h ..)
  | clearInferenceRecords =>
    refine ⟨?_, ?_⟩ <;> simp [mutate, clearInferenceRecords, markDirty, h.tables, hi]
  | storeFileRecord r => exact checked_alike h (by rw [hi]) (store_alike h ..)
  | deleteFileRecord f => exact updateFileStatus_alike h ..
  | updateFileAccessed f =>
    simp only [mutate, updateFileAccessed]
    rw [h.tables]
    split
    · exact h
    · refine ⟨?_, ?_⟩ <;> simp [upsert, markDirty, h.tables, hi]
  | updateFileStatus f s => exact updateFileStatus_alike h ..

def mutateAll (d : LocalMaintenanceDB) (l : List (Int × Mutation)) : LocalMaintenanceDB :=
  l.foldl (fun d e ↦ (d.mutate e.1 e.2).1) d

theorem mutateAll_alike (h : Alike d₁ d₂) (l : List (Int × Mutation)) :
    Alike (d₁.mutateAll l) (d₂.mutateAll l) := by
  induction l generalizing d₁ d₂ with
  | nil => exact h
  | cons e l ih => exact ih (mutate_alike h e.2)

end LocalMaintenanceDB

theorem eq_empty_of_plaintext {t : Tables} (h : plaintext t = plaintext {}) : t = {} := by
  have hlength := congrArg List.length h
  have hempty : (plaintext {}).length = 68 := by decide
  rw [length_plaintext, hempty] at hlength
  have hle (n : TableName) : 4 ≤ (serializeTable (t.get n)).length := four_le_length_writeMap
  have hpreferences : 4 ≤ (serializeFields t.preferences).length := four_le_length_writeMap
  have hrevoked : 4 ≤ (serializeFields t.revokedHashes).length := four_le_length_writeMap
  have hpolicy : 4 ≤ (serializePolicy t.trustPolicy).length := by
    cases t.trustPolicy <;> simp [serializePolicy]
  have h1 : 4 ≤ (serializeTable t.licenses).length := hle .licenses
  have h2 : 4 ≤ (serializeTable t.extensionEntries).length := hle .extensionEntries
  have h3 : 4 ≤ (serializeTable t.revenueRecords).length := hle .revenueRecords
  have h4 : 4 ≤ (serializeTable t.reviews).length := hle .reviews
  have h5 : 4 ≤ (serializeTable t.extensionStats).length := hle .extensionStats
  have h6 : 4 ≤ (serializeTable t.credentialRecords).length := hle .credentialRecords
  have h7 : 4 ≤ (serializeTable t.auditEvents).length := hle .auditEvents
  have h8 : 4 ≤ (serializeTable t.rbpcStateRecords).length := hle .rbpcStateRecords
  have h9 : 4 ≤ (serializeTable t.vipKeys).length := hle .vipKeys
  have h10 : 4 ≤ (serializeTable t.onboardingGrants).length := hle .onboardingGrants
  have h11 : 4 ≤ (serializeTable t.inferenceRecords).length := hle .inferenceRecords
  have h12 : 4 ≤ (serializeTable t.fileVaultRecords).length := hle .fileVaultRecords
  have htable (n : TableName) : t.get n = ∅ := by
    have hfour : (serializeTable (t.get n)).length = 4 := by
      cases n <;> simp only [Tables.get] <;> omega
    exact length_writeMap_eq_four hfour
  have hnone : t.trustPolicy = none := by
    cases hp : t.trustPolicy with
    | none => rfl
    | some p =>
      have hmap : 4 ≤ (serializeFields p.toMap).length := four_le_length_writeMap
      simp only [hp, serializePolicy, List.length_append, length_packU32] at hlength
      omega
  have hfour : (serializeFields t.preferences).length = 4 := by omega
  have hpref : t.preferences = ∅ := length_writeMap_eq_four hfour
  have hfour' : (serializeFields t.revokedHashes).length = 4 := by omega
  have hrev : t.revokedHashes = ∅ := length_writeMap_eq_four hfour'
  obtain ⟨⟩ := t
  simp only [Tables.mk.injEq]
  exact ⟨htable .licenses, htable .extensionEntries, htable .revenueRecords, htable .reviews,
    htable .extensionStats, htable .credentialRecords, htable .auditEvents,
    htable .rbpcStateRecords, htable .vipKeys, htable .onboardingGrants, htable .inferenceRecords,
    htable .fileVaultRecords, hpref, hrev, hnone⟩

/-- After `shutdown`, and `initialize` at a path without a file, the object answers every
query as a new one, and writes what a new one writes after any further calls. -/
def Isolated (L : Lfssl) (w : World) : Prop :=
  ∀ (mo mo' : Moment) (dbPath dbKey : ByteString), dbKey.length = 32 →
    (w.shutdown L mo).disk.exists dbPath = false →
    let reused := ((w.shutdown L mo).initializeDb L mo' dbPath dbKey).1.db
    let new := (World.initializeDb L mo' { disk := (w.shutdown L mo).disk } dbPath dbKey).1.db
    (∀ q, reused.tables.answer q = new.tables.answer q) ∧
      ∀ later, plaintext (reused.mutateAll later).tables = plaintext (new.mutateAll later).tables

theorem isolated_iff_residue {L : Lfssl} {w : World} : Isolated L w ↔ w.residue = {} := by
  constructor
  · intro h
    let mo : Moment := { randomBytes := none }
    obtain ⟨hclosed, htables⟩ := w.shutdown_db L mo
    have hfile : (w.shutdown L mo).disk.exists [] = false := rfl
    -- the empty path is one at which no file exists
    have hflush := (h mo mo [] (List.replicate 32 0) (by decide) hfile).2 []
    rw [World.initializeDb_empty hclosed (by decide) hfile, World.initializeDb_empty
      (w := { disk := (w.shutdown L mo).disk }) rfl (by decide) hfile] at hflush
    exact eq_empty_of_plaintext (htables ▸ hflush)
  · intro h mo mo' dbPath dbKey hkey hfile
    obtain ⟨hclosed, htables⟩ := w.shutdown_db L mo
    rw [World.initializeDb_empty hclosed hkey hfile, World.initializeDb_empty
      (w := { disk := (w.shutdown L mo).disk }) rfl hkey hfile]
    have hsame : (w.shutdown L mo).db.tables = {} := htables.trans h
    refine ⟨fun q ↦ congrArg (fun t : Tables ↦ t.answer q) hsame, fun later ↦ ?_⟩
    have hstart : Alike
        { (w.shutdown L mo).db with dbPath, dbKey, initialized := true }
        { dbPath, dbKey, initialized := true } := ⟨hsame, rfl⟩
    exact congrArg plaintext (LocalMaintenanceDB.mutateAll_alike hstart later).tables

/-- The tables that `shutdown` does not clear hold nothing. -/
structure Tables.NothingKept (t : Tables) : Prop where
  extensionEntries : t.extensionEntries = ∅
  revenueRecords : t.revenueRecords = ∅
  reviews : t.reviews = ∅
  extensionStats : t.extensionStats = ∅
  vipKeys : t.vipKeys = ∅
  onboardingGrants : t.onboardingGrants = ∅

theorem Tables.clear_eq_empty {t : Tables} : t.clear = {} ↔ t.NothingKept := by
  constructor
  · intro h
    exact ⟨congrArg Tables.extensionEntries h, congrArg Tables.revenueRecords h,
      congrArg Tables.reviews h, congrArg Tables.extensionStats h, congrArg Tables.vipKeys h,
      congrArg Tables.onboardingGrants h⟩
  · rintro ⟨h1, h2, h3, h4, h5, h6⟩
    simp only [Tables.clear, h1, h2, h3, h4, h5, h6]

theorem Tables.Spent.eq_empty {t : Tables} (h : t.Spent) :
    t = {} ↔ t.NothingKept ∧ t.rbpcStateRecords = ∅ := by
  constructor
  · rintro rfl
    exact ⟨⟨rfl, rfl, rfl, rfl, rfl, rfl⟩, rfl⟩
  · rintro ⟨hk, hr⟩
    obtain ⟨h1, h2, h3, h4, h5, h6, h7, h8⟩ := h
    obtain ⟨⟩ := t
    simp only at h1 h2 h3 h4 h5 h6 h7 h8 hr
    subst h1 h2 h3 h4 h5 h6 h7 h8 hr
    exact Tables.clear_eq_empty.mpr hk

/-- A database object can be handed to another user exactly when nothing is in the six
tables that `shutdown` does not clear, and, if the object is not open, no PIN attempt has
been recorded on it. -/
theorem isolated_iff {L : Lfssl} {disk : Disk} {tr : List (World × Moment × Call)} {w : World}
    (hr : Run (Step L) { disk } tr w) :
    Isolated L w ↔ w.db.tables.NothingKept ∧
      (w.db.initialized = false → w.db.tables.rbpcStateRecords = ∅) := by
  rw [isolated_iff_residue, World.residue]
  cases hopen : w.db.initialized with
  | true => simpa using Tables.clear_eq_empty
  | false => simpa using (run_dormant hr hopen).eq_empty

theorem isolated_iff_license :
    ∃ tr w, Run (Step noLfssl) { disk := ∅ } tr w ∧ w.db.tables.licenses ≠ ∅ ∧
      Isolated noLfssl w := by
  have hr : Run (Step noLfssl) { disk := ∅ } _ _ :=
    .cons (a := (quietMoment, .initializeDb (lit "db") (List.replicate 32 7))) rfl
      (.cons (a := (quietMoment, .mutate (.storeLicense (lit "e") (lit "h") (lit "u") [] 0 ∅))) rfl
        (.nil _))
  exact ⟨_, _, hr, by decide, (isolated_iff hr).mpr
    ⟨⟨by decide, by decide, by decide, by decide,
      by decide, by decide⟩, fun h ↦ absurd h (by decide)⟩⟩

/-- The review of one user is still listed after the object was opened for another. -/
theorem review_outlives_shutdown :
    ∃ tr w, Run (Step noLfssl) { disk := ∅ } tr w ∧ ¬ Isolated noLfssl w := by
  have hr : Run (Step noLfssl) { disk := ∅ } _ _ :=
    .cons (a := (quietMoment, .initializeDb (lit "db") (List.replicate 32 7))) rfl
      (.cons (a := (quietMoment, .mutate (.storeReview ((∅ : Fields).insert (lit "text") (lit "ok")))))
        rfl (.nil _))
  refine ⟨_, _, hr, fun h ↦ ?_⟩
  have hanswer := (h quietMoment quietMoment (lit "other") (List.replicate 32 8) (by decide)
    (by decide)).1 (.loadReviews [] 20)
  revert hanswer
  decide

end Cerberus.MaintenanceDb
