import Cerberus.MaintenanceDb.SyncQueue

namespace Cerberus.MaintenanceDb

open Std Foundation Foundation.Bytes Foundation.Trace Foundation.Wire

def Mutation.mirrored (now : Int) (d : LocalMaintenanceDB) : Mutation → Prop
  | .consumeOnboardingGrant grantId consumedBy reason =>
    d.initialized = true → grantId ≠ [] →
      ∀ grant, d.tables.onboardingGrants[grantId]? = some grant →
        ∀ e ∈ LocalMaintenanceDB.consumption now consumedBy reason, grant[lit e.1]? = some e.2
  | .incrementRbpcFailedAttempts _ => False
  | .setRbpcBurned nodeId =>
    ∃ record, d.tables.rbpcStateRecords[nodeId]? = some record ∧
      ∀ e ∈ LocalMaintenanceDB.burn, record[lit e.1]? = some e.2
  | .storePreference key value =>
    d.initialized = true → key ≠ [] → d.tables.preferences[key]? = some value
  | .clearInferenceRecords => d.tables.inferenceRecords = ∅
  | .updateFileAccessed fileId =>
    ∀ record, d.tables.fileVaultRecords[fileId]? = some record →
      record[lit "last_accessed"]? = some (epochSeconds now)
  | _ => True

/-- The queued records, applied in order to a copy of the tables taken at the start, give the
tables. -/
def Mirrors (start d : LocalMaintenanceDB) : Prop :=
  ∃ queued, d.syncQueue = start.syncQueue ++ queued ∧
    queued.foldl SyncRecord.apply start.tables = d.tables

def Mutated (d : LocalMaintenanceDB) (e : Int × Mutation) (d' : LocalMaintenanceDB) : Prop :=
  d' = (d.mutate e.1 e.2).1

namespace LocalMaintenanceDB

variable {now : Int} {d : LocalMaintenanceDB} {u : Mutation}

theorem get_assign_other {m : Fields} {l : List (String × ByteString)} {name : String}
    (h : name ∉ l.map Prod.fst) : (assign m l)[lit name]? = m[lit name]? := by
  apply ExtTreeMap.getElem?_insertMany_list_of_contains_eq_false
  simpa [lit_injective.eq_iff] using h

theorem failAgain_attempts (record : Fields) :
    (failAgain record)[lit "failed_attempts"]? =
      some (signedDecimal (((stoi (record.text "failed_attempts")).getD 0 + 1).bmod (2 ^ 32))) := by
  have hother : lit "burn_threshold" ≠ lit "failed_attempts" := by decide
  have hkept (m : Fields) : (assignIfAbsent m "burn_threshold" [])[lit "failed_attempts"]? =
      m[lit "failed_attempts"]? := by
    rw [assignIfAbsent, ExtTreeMap.getElem?_insertIfNew]
    simp [hother]
  simp only [failAgain]
  split
  · rw [get_assign_other (by simp), hkept]
    exact get_assign (by simp) (by simp)
  · rw [hkept]
    exact get_assign (by simp) (by simp)

theorem failAgain_ne (record : Fields) : failAgain record ≠ record := by
  intro h
  have hfield := failAgain_attempts record
  generalize hnext : ((stoi (record.text "failed_attempts")).getD 0 + 1).bmod (2 ^ 32) = next at hfield
  have hfits : fits 32 next = true := by
    have hlow := Int.le_bmod (x := (stoi (record.text "failed_attempts")).getD 0 + 1)
      (m := 2 ^ 32) (by decide)
    have hhigh := Int.bmod_lt (x := (stoi (record.text "failed_attempts")).getD 0 + 1)
      (m := 2 ^ 32) (by decide)
    simp only [fits, Bool.and_eq_true, decide_eq_true_eq]
    omega
  rw [h] at hfield
  have hread : stoi (record.text "failed_attempts") = some next := by
    simp [Fields.text, hfield, stoi_signedDecimal hfits]
  rw [hread, Option.getD_some] at hnext
  have hmod := Int.bmod_emod (x := next + 1) (m := 2 ^ 32)
  omega

theorem increment_ne (nodeId : ByteString) :
    (d.incrementRbpcFailedAttempts nodeId).1.tables ≠ d.tables := by
  intro h
  have hrow := (Tables.upsert_eq_self (n := .rbpcStateRecords)).mp h
  simp only [Tables.get] at hrow
  cases hrec : d.tables.rbpcStateRecords[nodeId]? with
  | none => simp [hrec] at hrow
  | some record =>
    rw [hrec, Option.getD_some, Option.some.injEq] at hrow
    split at hrow
    · next hempty =>
      have hfield : (assign record [
          ("node_id", nodeId),
          ("failed_attempts", lit "1"),
          ("burned", lit "false"),
          ("plaintext_storage", lit "forbidden"),
          ("record_class", lit "rbpc_state")])[lit "node_id"]? = some nodeId :=
        get_assign (by simp) (by simp)
      rw [← hrow] at hfield
      simp [ExtTreeMap.isEmpty_iff.mp hempty] at hfield
    · exact failAgain_ne record hrow.symm

theorem setRbpcBurned_iff (nodeId : ByteString) :
    (d.setRbpcBurned nodeId).1.tables = d.tables ↔
      ∃ record, d.tables.rbpcStateRecords[nodeId]? = some record ∧
        ∀ e ∈ burn, record[lit e.1]? = some e.2 := by
  simp only [setRbpcBurned, upsert]
  rw [Tables.upsert_eq_self]
  simp only [Tables.get]
  cases hrec : d.tables.rbpcStateRecords[nodeId]? with
  | none => simp
  | some record =>
    simp only [Option.getD_some, Option.some.injEq, exists_eq_left']
    rw [eq_comm]
    split
    · next hempty =>
      obtain rfl := ExtTreeMap.isEmpty_iff.mp hempty
      refine iff_of_false (fun h ↦ ?_) (fun h ↦ ?_)
      · have hburned := get_assign (m := assign ∅ [("node_id", nodeId), ("failed_attempts", lit "3")])
          (l := burn) (by simp [burn]) (List.mem_cons_self ..)
        rw [h] at hburned
        simp at hburned
      · simpa using h ("burned", lit "true") (by simp [burn])
    · exact assign_eq_self (by simp [burn])

theorem checked_tables {c : Bool} {r : LocalMaintenanceDB × Bool} :
    (if c then (d, false) else r).1.tables = d.tables ↔ (c = false → r.1.tables = d.tables) := by
  cases c <;> simp

theorem unqueued_iff (hu : u.unqueued = true) :
    (d.mutate now u).1.tables = d.tables ↔ u.mirrored now d := by
  cases u with
  | consumeOnboardingGrant g b r =>
    simp only [mutate, consumeOnboardingGrant, Mutation.mirrored]
    rw [checked_tables]
    simp only [Bool.or_eq_false_iff, Bool.not_eq_false', List.isEmpty_eq_false_iff, and_imp]
    refine imp_congr_right (fun _ ↦ imp_congr_right (fun _ ↦ ?_))
    cases hgrant : d.tables.onboardingGrants[g]? with
    | none => simp
    | some grant =>
      have hrow : (d.tables.get .onboardingGrants)[g]? = some grant := hgrant
      simp only [upsert, Option.some.injEq, forall_eq']
      rw [Tables.upsert_eq_self, hrow, Option.some.injEq, eq_comm,
        assign_eq_self (by simp [consumption])]
  | incrementRbpcFailedAttempts n => exact iff_of_false (increment_ne n) id
  | setRbpcBurned n => exact setRbpcBurned_iff n
  | storePreference k v =>
    simp only [mutate, storePreference, Mutation.mirrored]
    rw [checked_tables]
    simp only [Bool.or_eq_false_iff, Bool.not_eq_false', List.isEmpty_eq_false_iff, and_imp]
    refine imp_congr_right (fun _ ↦ imp_congr_right (fun _ ↦ ?_))
    rw [← FiniteMap.insert_eq_self]
    exact ⟨fun h ↦ congrArg Tables.preferences h, fun h ↦ by simp [markDirty, h]⟩
  | clearInferenceRecords =>
    refine ⟨fun h ↦ (congrArg Tables.inferenceRecords h).symm, fun h ↦ ?_⟩
    change { d.tables with inferenceRecords := ∅ } = d.tables
    rw [← h]
  | updateFileAccessed f =>
    simp only [mutate, updateFileAccessed, Mutation.mirrored]
    cases hfile : d.tables.fileVaultRecords[f]? with
    | none => simp
    | some record =>
      have hrow : (d.tables.get .fileVaultRecords)[f]? = some record := hfile
      simp only [upsert, markDirty, Option.some.injEq, forall_eq']
      rw [Tables.upsert_eq_self, hrow, Option.some.injEq, eq_comm, assign_eq_self (by simp)]
      simp
  | _ => cases hu

theorem mirrored_of_queued (hu : u.unqueued = false) : u.mirrored now d := by
  cases u with
  | consumeOnboardingGrant => cases hu
  | incrementRbpcFailedAttempts => cases hu
  | setRbpcBurned => cases hu
  | storePreference => cases hu
  | clearInferenceRecords => cases hu
  | updateFileAccessed => cases hu
  | _ => trivial

theorem mutate_offlineMode (now : Int) (d : LocalMaintenanceDB) (u : Mutation) :
    (d.mutate now u).1.offlineMode = d.offlineMode := by
  cases d.mutate_echo now u with
  | refused h => rw [h]
  | queued _ _ _ h => exact h
  | unqueued _ h => exact h

theorem mutate_mirrors {start : LocalMaintenanceDB} (hd : d.offlineMode = true)
    (h : Mirrors start d) : Mirrors start (d.mutate now u).1 ↔ u.mirrored now d := by
  obtain ⟨queued, hq, ht⟩ := h
  have hgrown {r : SyncRecord} (htables : (d.mutate now u).1.tables = r.apply d.tables)
      (hqueue : (d.mutate now u).1.syncQueue = d.syncQueue ++ if d.offlineMode then [r] else []) :
      Mirrors start (d.mutate now u).1 := by
    refine ⟨queued ++ [r], ?_, ?_⟩
    · simp [hqueue, hd, hq]
    · simp [ht, htables]
  have hsame (hqueue : (d.mutate now u).1.syncQueue = d.syncQueue) :
      Mirrors start (d.mutate now u).1 ↔ (d.mutate now u).1.tables = d.tables := by
    constructor
    · rintro ⟨queued', hq', ht'⟩
      have heq : queued' = queued := List.append_cancel_left (hq'.symm.trans (hqueue.trans hq))
      rw [← ht', heq, ht]
    · intro h
      exact ⟨queued, hqueue.trans hq, ht.trans h.symm⟩
  cases d.mutate_echo now u with
  | refused h =>
    cases hu : u.unqueued with
    | true => rw [hsame (by rw [h]), unqueued_iff hu]
    | false =>
      refine iff_of_true ⟨queued, ?_, ?_⟩ (mirrored_of_queued hu)
      · rw [h, hq]
      · rw [h, ht]
  | queued r hu htables _ hqueue =>
    exact iff_of_true (hgrown htables hqueue) (mirrored_of_queued hu)
  | unqueued hu _ hqueue => rw [hsame hqueue, unqueued_iff hu]

end LocalMaintenanceDB

/-- While the database is offline, the records queued since it went offline, applied in order
to the tables as they were then, give the tables in every state exactly when no call that
queues nothing changes a table. -/
theorem replica_exact_iff {d d' : LocalMaintenanceDB}
    {tr : List (LocalMaintenanceDB × Int × Mutation)}
    (hr : Run Mutated { d with offlineMode := true } tr d') :
    Throughout (Mirrors d) tr d' ↔ ∀ e ∈ tr, e.2.2.mirrored e.2.1 e.1 := by
  have hstart : Mirrors d { d with offlineMode := true } := ⟨[], by simp, rfl⟩
  have hoffline (d : LocalMaintenanceDB) (e : Int × Mutation) (d' : LocalMaintenanceDB)
      (hd : d.offlineMode = true) (hs : Mutated d e d') : d'.offlineMode = true := by
    rw [hs, LocalMaintenanceDB.mutate_offlineMode, hd]
  have hstep {d₀ d d' : LocalMaintenanceDB} {e : Int × Mutation} (hd : d.offlineMode = true)
      (h : Mirrors d₀ d) (hs : Mutated d e d') : Mirrors d₀ d' ↔ e.2.mirrored e.1 d := by
    rw [hs]
    exact LocalMaintenanceDB.mutate_mirrors hd h
  exact hr.throughout_iff hoffline (fun d e d' hd h he hs ↦ (hstep hd h hs).mpr he)
    (fun d e d' hd h he hs h' ↦ he ((hstep hd h hs).mp h')) rfl hstart

theorem replica_exact_iff_stats :
    ∃ tr d', Run Mutated { initialized := true, offlineMode := true } tr d' ∧
      d'.tables.extensionStats ≠ ∅ ∧ Throughout (Mirrors { initialized := true }) tr d' := by
  have hr : Run Mutated { initialized := true, offlineMode := true } _ _ :=
    .cons (a := (0, .updateExtensionStats (lit "ext") ∅)) rfl
      (.cons (a := (1, .updateExtensionStats (lit "ext")
        ((∅ : Fields).insert (lit "downloads") (lit "2")))) rfl (.nil _))
  refine ⟨_, _, hr, by decide, (replica_exact_iff (d := { initialized := true }) hr).mpr ?_⟩
  simp [Mutation.mirrored]

/-- A preference that is set offline never reaches the other side. -/
theorem preference_not_queued :
    ∃ tr d', Run Mutated { initialized := true, offlineMode := true } tr d' ∧
      tr.map (fun e ↦ e.2) = [(0, .storePreference (lit "theme") (lit "dark"))] ∧
      ¬ Mirrors { initialized := true } d' := by
  have hr : Run Mutated { initialized := true, offlineMode := true } _ _ :=
    .cons (a := (0, .storePreference (lit "theme") (lit "dark"))) rfl (.nil _)
  refine ⟨_, _, hr, rfl, ?_⟩
  rintro ⟨queued, hq, ht⟩
  have hnone : queued = [] := hq.symm
  subst hnone
  revert ht
  decide

end Cerberus.MaintenanceDb
