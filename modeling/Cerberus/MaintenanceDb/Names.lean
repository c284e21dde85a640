import Cerberus.MaintenanceDb.Lifecycle

namespace Cerberus.MaintenanceDb

open Std Foundation Foundation.Bytes Foundation.Trace Foundation.Wire

@[simp] theorem lit_eq_nil {s : String} : lit s = [] ↔ s = "" := by
  rw [← lit_injective.eq_iff]
  rfl

section fields

variable {m other : Fields}

theorem named_iff : Named m ↔ [] ∉ m := by
  rw [ExtTreeMap.mem_iff_isSome_getElem?]
  constructor
  · intro h hm
    obtain ⟨v, hv⟩ := Option.isSome_iff_exists.mp hm
    exact h [] v hv rfl
  · rintro h k v hk rfl
    exact h (by simp [hk])

theorem named_assign {l : List (String × ByteString)} (hl : ∀ e ∈ l, e.1 ≠ "") :
    Named (assign m l) ↔ Named m := by
  simp only [named_iff, assign, ExtTreeMap.mem_insertMany_list, List.contains_iff_mem]
  refine not_congr (or_iff_left ?_)
  simp only [List.map_map, List.mem_map, Function.comp_apply, not_exists, not_and]
  intro e he hnil
  exact hl e he (lit_eq_nil.mp hnil)

theorem named_overlay : Named (overlay m other) ↔ Named m ∧ Named other := by
  simp only [named_iff, overlay, ExtTreeMap.mem_insertMany_list, List.contains_iff_mem,
    ExtTreeMap.map_fst_toList_eq_keys, ExtTreeMap.mem_keys, not_or]

theorem named_assignIfAbsent {name : String} {value : ByteString} (h : name ≠ "") :
    Named (LocalMaintenanceDB.assignIfAbsent m name value) ↔ Named m := by
  simp only [named_iff, LocalMaintenanceDB.assignIfAbsent, ExtTreeMap.mem_insertIfNew,
    Std.compare_eq_iff_eq, lit_eq_nil, h, false_or]

theorem named_empty : Named ∅ := each_empty

end fields

theorem Tables.upsert_flat (t : Tables) (n : TableName) (key : ByteString) (record : Fields) :
    (t.upsert n key record).preferences = t.preferences ∧
      (t.upsert n key record).revokedHashes = t.revokedHashes ∧
      (t.upsert n key record).trustPolicy = t.trustPolicy := by
  cases n <;> exact ⟨rfl, rfl, rfl⟩

def Edit.named : Edit → Prop
  | .put _ key record => key ≠ [] ∧ Named record
  | .revoke licenseKeyHash _ => licenseKeyHash ≠ []
  | .prefer key _ => key ≠ []
  | .trust _ | .forgetInferences => True

theorem Tables.Named.edit {t : Tables} (h : t.Named) (e : Edit) :
    (e.apply t).Named ↔ e.named := by
  cases e with
  | put n key record =>
    obtain ⟨hp, hr, -⟩ := t.upsert_flat n key record
    constructor
    · intro hn
      have htable := hn.table n
      rw [Edit.apply, Tables.get_upsert, if_pos rfl] at htable
      exact htable key record (by simp)
    · intro hk
      refine ⟨fun n' ↦ ?_, hp ▸ h.preferences, hr ▸ h.revokedHashes⟩
      rw [Edit.apply, Tables.get_upsert]
      split
      · exact (h.table n).insert hk
      · exact h.table n'
  | revoke licenseKeyHash reason =>
    refine Iff.trans ?_ (each_insert h.revokedHashes (v := reason))
    exact ⟨fun hn ↦ hn.revokedHashes, fun hk ↦ ⟨h.table, h.preferences, hk⟩⟩
  | prefer key value =>
    refine Iff.trans ?_ (each_insert h.preferences (v := value))
    exact ⟨fun hn ↦ hn.preferences, fun hk ↦ ⟨h.table, hk, h.revokedHashes⟩⟩
  | trust policy => exact iff_of_true ⟨h.table, h.preferences, h.revokedHashes⟩ trivial
  | forgetInferences =>
    refine iff_of_true ⟨fun n ↦ ?_, h.preferences, h.revokedHashes⟩ trivial
    have htable := h.table n
    cases n with
    | inferenceRecords => exact each_empty
    | _ => exact htable

/-- The arguments of a call leave no name empty: every key it would create, and every field
of a map it would copy. -/
def Mutation.named (d : LocalMaintenanceDB) : Mutation → Prop
  | .storeLicense extensionId licenseKeyHash _ _ _ metadata =>
    d.initialized = true → extensionId ≠ [] → licenseKeyHash ≠ [] → Named metadata
  | .revokeLicense licenseKeyHash _ => d.initialized = true → licenseKeyHash ≠ []
  | .storeExtensionEntry entry =>
    d.initialized = true → entry.text "extension_id" ≠ [] → Named entry
  | .storeRevenueShareRecord record =>
    d.initialized = true → record[lit "record_id"]? ≠ some [] ∧ Named record
  | .storeReview review =>
    d.initialized = true → review[lit "review_id"]? ≠ some [] ∧ Named review
  | .updateExtensionStats extensionId stats =>
    d.initialized = true → extensionId ≠ [] → Named stats
  | .updateVipKeyStatus keyHash statusData =>
    d.initialized = true → d.tables.vipKeys[keyHash]? ≠ none → Named statusData
  | .storeOnboardingGrant grant =>
    d.initialized = true → grant[lit "grant_id"]? ≠ some [] ∧ Named grant
  | .storeCredentialRecord record =>
    d.initialized = true → record[lit "user_id"]? ≠ none → record[lit "token_id"]? ≠ none →
      Named record
  | .incrementRbpcFailedAttempts nodeId => nodeId ≠ []
  | .setRbpcBurned nodeId => nodeId ≠ []
  | .storeAuditEvent event =>
    d.initialized = true → lit "user_id" ∈ event → lit "event_type" ∈ event → Named event
  | _ => True

namespace LocalMaintenanceDB

variable {now : Int} {d : LocalMaintenanceDB}

theorem upsert_named (h : d.tables.Named) {n : TableName} {key : ByteString} {record : Fields} :
    (d.upsert n key record).tables.Named ↔ key ≠ [] ∧ Named record := h.edit (.put n key record)

theorem store_named (h : d.tables.Named) {n : TableName} {key : ByteString} {record : Fields} :
    (d.store now n key record).1.tables.Named ↔ key ≠ [] ∧ Named record := by
  rw [store_tables]
  exact upsert_named h

theorem checked_named (h : d.tables.Named) {c : Bool} {r : LocalMaintenanceDB × Bool} :
    (if c then (d, false) else r).1.tables.Named ↔ (c = false → r.1.tables.Named) := by
  cases c with
  | true => simpa using h
  | false => simp

/-- A record that may carry its own id is stored under a key that is empty only when the id
is. -/
theorem keyFor_eq_nil {n : TableName} {idField stem : String} {record : Fields}
    (hstem : stem ≠ "") :
    d.keyFor n idField stem record = [] ↔ record[lit idField]? = some [] := by
  unfold keyFor
  cases record[lit idField]? with
  | none => simp [hstem]
  | some id => simp

theorem keyed_named (h : d.tables.Named) {n : TableName} {idField stem : String}
    {record safe : Fields} (hstem : stem ≠ "") (hsafe : Named safe ↔ Named record) :
    (if !d.initialized || record.isEmpty then (d, false)
      else d.store now n (d.keyFor n idField stem record) safe).1.tables.Named ↔
      (d.initialized = true → record[lit idField]? ≠ some [] ∧ Named record) := by
  rw [checked_named h, store_named h, hsafe, ne_eq, keyFor_eq_nil hstem]
  by_cases he : record = ∅
  · simp [he, named_empty]
  · simp [he]

theorem updateFileStatus_named (h : d.tables.Named) (fileId status : ByteString) :
    (d.updateFileStatus now fileId status).1.tables.Named := by
  unfold updateFileStatus
  split
  · exact h
  · next record hfile =>
    obtain ⟨hkey, hrecord⟩ := h.table .fileVaultRecords fileId record hfile
    exact (store_named h).mpr ⟨hkey, (named_assign (by simp)).mpr hrecord⟩

theorem failAgain_named {record : Fields} : Named (failAgain record) ↔ Named record := by
  simp only [failAgain]
  split <;> simp [named_assign, named_assignIfAbsent]

theorem sealCredential_named {record : Fields} : Named (sealCredential now record) ↔ Named record := by
  simp [sealCredential, named_assign, named_assignIfAbsent]

theorem rbpcRecord_named (h : d.tables.Named) (nodeId : ByteString) :
    Named (d.tables.rbpcStateRecords[nodeId]?.getD ∅) := by
  cases hrec : d.tables.rbpcStateRecords[nodeId]? with
  | none => exact named_empty
  | some record => exact (h.table .rbpcStateRecords nodeId record hrec).2

theorem mutate_named (h : d.tables.Named) (u : Mutation) :
    (d.mutate now u).1.tables.Named ↔ u.named d := by
  cases u with
  | storeLicense e k us t x m =>
    simp only [mutate, storeLicense, Mutation.named]
    rw [checked_named h, store_named h, named_overlay, named_assign (by simp)]
    simp [named_empty]
  | revokeLicense k r =>
    simp only [mutate, revokeLicense, Mutation.named]
    rw [checked_named h, queueIfOffline_tables, Bool.not_eq_false']
    exact imp_congr_right (fun _ ↦ h.edit (.revoke k _))
  | storeExtensionEntry e =>
    simp only [mutate, storeExtensionEntry, Mutation.named]
    rw [checked_named h]
    by_cases he : e = ∅
    · simp [he, named_empty]
    · cases hid : e[lit "extension_id"]? with
      | none => simp [Fields.text, hid, h]
      | some id =>
        cases id with
        | nil => simp [Fields.text, hid, h]
        | cons c cs => simp [Fields.text, hid, he, store_named h]
  | storeRevenueShareRecord r => exact keyed_named h (by simp) Iff.rfl
  | storeReview r => exact keyed_named h (by simp) Iff.rfl
  | updateExtensionStats e s =>
    simp only [mutate, updateExtensionStats, Mutation.named]
    rw [checked_named h, store_named h]
    by_cases he : e = [] <;> simp [he]
  | storeVipKey k m e x =>
    simp only [mutate, storeVipKey, Mutation.named]
    rw [checked_named h, store_named h, named_assign (by simp)]
    simp [named_empty]
  | updateVipKeyStatus k s =>
    simp only [mutate, updateVipKeyStatus, Mutation.named]
    rw [checked_named h]
    cases hrec : d.tables.vipKeys[k]? with
    | none => simp [h]
    | some record =>
      obtain ⟨hk, hn⟩ := h.table .vipKeys k record hrec
      simp [store_named h, named_overlay, hk, hn]
  | storeOnboardingGrant g =>
    refine keyed_named h (by simp) ?_
    rw [named_assignIfAbsent (by simp), named_assign (by simp)]
  | consumeOnboardingGrant g b r =>
    simp only [mutate, consumeOnboardingGrant, Mutation.named]
    rw [checked_named h]
    refine iff_of_true (fun _ ↦ ?_) trivial
    split
    · exact h
    · next grant hgrant =>
      obtain ⟨hk, hn⟩ := h.table .onboardingGrants g grant hgrant
      rw [upsert_named h, named_assign (by simp [consumption])]
      exact ⟨hk, hn⟩
  | storeTrustPolicy p =>
    simp only [mutate, storeTrustPolicy, Mutation.named]
    rw [checked_named h, queueIfOffline_tables]
    exact iff_of_true (fun _ ↦ (h.edit (.trust p)).mpr trivial) trivial
  | storeCredentialRecord r =>
    simp only [mutate, storeCredentialRecord, Mutation.named]
    rw [checked_named h]
    by_cases he : r = ∅
    · simp [he, named_empty]
    · cases hu : r[lit "user_id"]? <;> cases ht : r[lit "token_id"]? <;>
        simp [he, h, store_named h, sealCredential_named]
  | saveRbpcState s =>
    simp only [mutate, saveRbpcState, Mutation.named]
    rw [checked_named h, store_named h, named_assign (by simp)]
    simp +contextual [named_empty]
  | incrementRbpcFailedAttempts n =>
    simp only [mutate, incrementRbpcFailedAttempts, Mutation.named]
    rw [upsert_named h, and_iff_left]
    split
    · exact (named_assign (by simp)).mpr (rbpcRecord_named h n)
    · exact failAgain_named.mpr (rbpcRecord_named h n)
  | setRbpcBurned n =>
    simp only [mutate, setRbpcBurned, Mutation.named]
    rw [upsert_named h, named_assign (by simp [burn]), and_iff_left]
    split
    · exact (named_assign (by simp)).mpr (rbpcRecord_named h n)
    · exact rbpcRecord_named h n
  | storeAuditEvent e =>
    have hid : d.auditEventId e ≠ [] := by
      unfold auditEventId
      split <;> simp_all
    simp only [mutate, storeAuditEvent, Mutation.named]
    rw [checked_named h, checked_named h, store_named h, named_assignIfAbsent (by simp),
      named_assign (by simp)]
    simp [hid]
  | storePreference k v =>
    simp only [mutate, storePreference, Mutation.named]
    rw [checked_named h]
    refine iff_of_true (fun hg ↦ (h.edit (.prefer k v)).mpr ?_) trivial
    simp only [Bool.or_eq_false_iff, List.isEmpty_eq_false_iff] at hg
    exact hg.2
  | storeInferenceRecord r =>
    simp only [mutate, storeInferenceRecord, Mutation.named]
    rw [checked_named h, store_named h, InferenceRecord.toMap,
      named_assign (by simp [InferenceRecord.entries])]
    simp [named_empty]
  | clearInferenceRecords => exact iff_of_true ((h.edit .forgetInferences).mpr trivial) trivial
  | storeFileRecord r =>
    simp only [mutate, storeFileRecord, Mutation.named]
    rw [checked_named h, store_named h, FileVaultRecord.toMap,
      named_assign (by simp [FileVaultRecord.entries])]
    simp [named_empty]
  | deleteFileRecord f => exact iff_of_true (updateFileStatus_named h ..) trivial
  | updateFileAccessed f =>
    refine iff_of_true ?_ trivial
    simp only [mutate, updateFileAccessed]
    split
    · exact h
    · next record hfile =>
      obtain ⟨hkey, hn⟩ := h.table .fileVaultRecords f record hfile
      simp only [markDirty]
      rw [upsert_named h, named_assign (by simp)]
      exact ⟨hkey, hn⟩
  | updateFileStatus f s => exact iff_of_true (updateFileStatus_named h ..) trivial

end LocalMaintenanceDB

def Call.named (w : World) : Call → Prop
  | .mutate u => u.named w.db
  | _ => True

theorem initializeDb_named {L : Lfssl} {mo : Moment} {w : World} {dbPath dbKey : ByteString}
    (h : w.db.tables.Named) : (w.initializeDb L mo dbPath dbKey).1.db.tables.Named := by
  refine (World.initializeDb_tables_iff h).mpr (fun _ _ hfile t hload ↦ ?_)
  have hfile' : w.disk.exists { w.db with dbPath, dbKey }.dbPath = true := hfile
  obtain ⟨text, htext⟩ := deserializeAll_of_load hfile' hload
  exact deserializeAll_named htext

theorem Tables.Named.clear {t : Tables} (h : t.Named) : t.clear.Named := by
  refine ⟨fun n ↦ ?_, each_empty, each_empty⟩
  have htable := h.table n
  cases n <;> first | exact htable | exact each_empty

theorem serve_named {L : Lfssl} {w : World} {mo : Moment} {call : Call}
    (h : w.db.tables.Named) : (w.serve L mo call).db.tables.Named ↔ call.named w := by
  cases call with
  | initializeDb dbPath dbKey => exact iff_of_true (initializeDb_named h) trivial
  | shutdown =>
    refine iff_of_true ?_ trivial
    simp only [World.serve, World.shutdown]
    split
    · exact h
    · exact h.clear
  | mutate u => exact LocalMaintenanceDB.mutate_named h u
  | query q => exact iff_of_true h trivial
  | setOfflineMode offline => exact iff_of_true h trivial
  | queueForSync table key record => exact iff_of_true h trivial
  | replaySyncQueue callback maxRecords =>
    refine iff_of_true ?_ trivial
    simp only [World.serve, LocalMaintenanceDB.replaySyncQueue]
    split <;> exact h

/-- No empty key and no empty field name appears in a run exactly when no call of the run is
given one that it would store. -/
theorem names_kept_iff {L : Lfssl} {disk : Disk} {tr : List (World × Moment × Call)} {w : World}
    (hr : Run (Step L) { disk } tr w) :
    Throughout (fun w ↦ w.db.tables.Named) tr w ↔ ∀ e ∈ tr, e.2.2.named e.1 := by
  have hstep (w : World) (e : Moment × Call) (w' : World) (h : w.db.tables.Named)
      (hs : Step L w e w') : w'.db.tables.Named ↔ e.2.named w := by
    rw [hs]
    exact serve_named h
  have hstart : ({} : Tables).Named :=
    ⟨fun n ↦ by cases n <;> exact each_empty, each_empty, each_empty⟩
  exact hr.step_iff hstep hstart

theorem names_kept_iff_preference :
    ∃ tr w, Run (Step noLfssl) { disk := ∅ } tr w ∧ w.db.tables.preferences ≠ ∅ ∧
      Throughout (fun w ↦ w.db.tables.Named) tr w := by
  have hr : Run (Step noLfssl) { disk := ∅ } _ _ :=
    .cons (a := (quietMoment, .initializeDb (lit "db") (List.replicate 32 7))) rfl
      (.cons (a := (quietMoment, .mutate (.storePreference (lit "k") (lit "v")))) rfl (.nil _))
  exact ⟨_, _, hr, by decide, (names_kept_iff hr).mpr (by simp [Call.named, Mutation.named])⟩

/-- A revocation without a hash is stored under the empty key. -/
theorem empty_hash_revoked :
    ∃ tr w, Run (Step noLfssl) { disk := ∅ } tr w ∧ ¬ w.db.tables.Named := by
  have hr : Run (Step noLfssl) { disk := ∅ } _ _ :=
    .cons (a := (quietMoment, .initializeDb (lit "db") (List.replicate 32 7))) rfl
      (.cons (a := (quietMoment, .mutate (.revokeLicense [] []))) rfl (.nil _))
  refine ⟨_, _, hr, fun h ↦ ?_⟩
  have hentry := h.revokedHashes [] (lit "revoked")
  revert hentry
  decide

end Cerberus.MaintenanceDb
