import Cerberus.MaintenanceDb.Durability

namespace Cerberus.MaintenanceDb

open Std Foundation Foundation.Bytes Foundation.Trace Foundation.Wire

def TableName.all : List TableName := [
  .licenses, .extensionEntries, .revenueRecords, .reviews, .extensionStats, .credentialRecords,
  .auditEvents, .rbpcStateRecords, .vipKeys, .onboardingGrants, .inferenceRecords,
  .fileVaultRecords]

def TableName.ofSyncName (s : ByteString) : Option TableName :=
  all.find? (fun n ↦ n.syncName == s)

/-- The upsert that a queued record asks of a replica. Revocations go to the flat table of
revoked hashes, and there is one trust policy. -/
def SyncRecord.apply (t : Tables) (r : SyncRecord) : Tables :=
  match TableName.ofSyncName r.table with
  | some n => t.upsert n r.key r.record
  | none =>
    if r.table = lit "license_revocations" then
      { t with revokedHashes := t.revokedHashes.insert r.key (r.record.text "reason") }
    else if r.table = lit "trust_policy" then
      { t with trustPolicy := some (.fromMap r.record) }
    else t

def Mutation.unqueued : Mutation → Bool
  | .consumeOnboardingGrant .. => true
  | .incrementRbpcFailedAttempts _ => true
  | .setRbpcBurned _ => true
  | .storePreference .. => true
  | .clearInferenceRecords => true
  | .updateFileAccessed _ => true
  | _ => false

inductive Echo (d : LocalMaintenanceDB) (u : Mutation) (d' : LocalMaintenanceDB) : Prop
  | refused : d' = d → Echo d u d'
  | queued (r : SyncRecord) : u.unqueued = false → d'.tables = r.apply d.tables →
      d'.offlineMode = d.offlineMode →
      d'.syncQueue = d.syncQueue ++ (if d.offlineMode then [r] else []) → Echo d u d'
  | unqueued : u.unqueued = true → d'.offlineMode = d.offlineMode →
      d'.syncQueue = d.syncQueue → Echo d u d'

theorem TableName.ofSyncName_syncName (n : TableName) : ofSyncName n.syncName = some n := by
  cases n <;> decide

namespace LocalMaintenanceDB

variable {now : Int} {d : LocalMaintenanceDB} {u : Mutation}

section queueing

variable {table key : ByteString} {record : Fields}

@[simp] theorem queueIfOffline_offlineMode :
    (d.queueIfOffline now table key record).offlineMode = d.offlineMode := by
  unfold queueIfOffline
  split <;> rfl

theorem queueIfOffline_syncQueue :
    (d.queueIfOffline now table key record).syncQueue =
      d.syncQueue ++ if d.offlineMode then [⟨table, key, record, now⟩] else [] := by
  unfold queueIfOffline
  split <;> simp [queueForSync]

end queueing

theorem store_echo {n : TableName} {key : ByteString} {record : Fields}
    (hu : u.unqueued = false) : Echo d u (d.store now n key record).1 := by
  refine .queued ⟨n.syncName, key, record, now⟩ hu ?_ ?_ ?_
  · simp [store, upsert, markDirty, SyncRecord.apply, TableName.ofSyncName_syncName]
  · simp [store, upsert, markDirty]
  · rw [store, queueIfOffline_syncQueue]
    rfl

theorem checked_echo {c : Bool} {r : LocalMaintenanceDB × Bool} (h : Echo d u r.1) :
    Echo d u (if c then (d, false) else r).1 := by
  cases c with
  | true => exact .refused rfl
  | false => exact h

theorem updateFileStatus_echo {fileId status : ByteString} (hu : u.unqueued = false) :
    Echo d u (d.updateFileStatus now fileId status).1 := by
  unfold updateFileStatus
  split
  · exact .refused rfl
  · exact store_echo hu

theorem revokeLicense_echo {h reason : ByteString} (hu : u.unqueued = false) :
    Echo d u (d.revokeLicense now h reason).1 := by
  refine checked_echo (.queued ⟨lit "license_revocations", h, _, now⟩ hu ?_ ?_
    queueIfOffline_syncQueue)
  · have hname : TableName.ofSyncName (lit "license_revocations") = none := by decide
    have hreason (s : ByteString) :
        Fields.text (assign ∅ [("hash", h), ("reason", s)]) "reason" = s := by
      have hget : (assign ∅ [("hash", h), ("reason", s)])[lit "reason"]? = some s :=
        get_assign (by simp) (by simp)
      simp [Fields.text, hget]
    simp [SyncRecord.apply, hname, hreason, markDirty]
  · simp [markDirty]

theorem storeTrustPolicy_echo {p : TrustPolicy} (hu : u.unqueued = false) :
    Echo d u (d.storeTrustPolicy now p).1 := by
  refine checked_echo (.queued ⟨lit "trust_policy", lit "trust_policy", p.toMap, now⟩ hu ?_ ?_
    queueIfOffline_syncQueue)
  · have hname : TableName.ofSyncName (lit "trust_policy") = none := by decide
    have hother : lit "trust_policy" ≠ lit "license_revocations" := by decide
    simp [SyncRecord.apply, hname, hother, markDirty, TrustPolicy.fromMap_toMap]
  · simp [markDirty]

theorem mutate_echo (now : Int) (d : LocalMaintenanceDB) (u : Mutation) :
    Echo d u (d.mutate now u).1 := by
  cases u with
  | storeLicense e h us t x m => exact checked_echo (store_echo rfl)
  | revokeLicense h r => exact revokeLicense_echo rfl
  | storeExtensionEntry e =>
    refine checked_echo ?_
    split
    · exact .refused rfl
    · exact .refused rfl
    · exact store_echo rfl
  | storeRevenueShareRecord r => exact checked_echo (store_echo rfl)
  | storeReview r => exact checked_echo (store_echo rfl)
  | updateExtensionStats e s => exact checked_echo (store_echo rfl)
  | storeVipKey h m k x => exact checked_echo (store_echo rfl)
  | updateVipKeyStatus h s =>
    refine checked_echo ?_
    split
    · exact .refused rfl
    · exact store_echo rfl
  | storeOnboardingGrant g => exact checked_echo (store_echo rfl)
  | consumeOnboardingGrant g b r =>
    refine checked_echo ?_
    split
    · exact .refused rfl
    · exact .unqueued rfl rfl rfl
  | storeTrustPolicy p => exact storeTrustPolicy_echo rfl
  | storeCredentialRecord r =>
    refine checked_echo ?_
    split
    · exact store_echo rfl
    · exact .refused rfl
  | saveRbpcState s => exact checked_echo (store_echo rfl)
  | incrementRbpcFailedAttempts n => exact .unqueued rfl rfl rfl
  | setRbpcBurned n => exact .unqueued rfl rfl rfl
  | storeAuditEvent e => exact checked_echo (checked_echo (store_echo rfl))
  | storePreference k v => exact checked_echo (.unqueued rfl rfl rfl)
  | storeInferenceRecord r => exact checked_echo (store_echo rfl)
  | clearInferenceRecords => exact .unqueued rfl rfl rfl
  | storeFileRecord r => exact checked_echo (store_echo rfl)
  | deleteFileRecord f => exact updateFileStatus_echo rfl
  | updateFileAccessed f =>
    simp only [mutate, updateFileAccessed]
    split
    · exact .refused rfl
    · exact .unqueued rfl rfl rfl
  | updateFileStatus f s => exact updateFileStatus_echo rfl

end LocalMaintenanceDB

/-- The records that the loop of `replay_sync_queue` hands over, in that order. -/
def replayAccepted (callback : Nat → SyncRecord → Reply) (limit : Nat) :
    Nat → Nat → List SyncRecord → List SyncRecord
  | _, _, [] => []
  | offered, replayed, r :: rs =>
    if replayed < limit then
      match callback offered r with
      | .accepted => r :: replayAccepted callback limit (offered + 1) (replayed + 1) rs
      | .refused | .threw => replayAccepted callback limit (offered + 1) replayed rs
    else []

/-- The bound of `replay_sync_queue`: zero means all records. -/
def replayLimit (maxRecords : Nat) (queue : List SyncRecord) : Nat :=
  if maxRecords = 0 then queue.length else min maxRecords queue.length

/-- The records that `queue_for_sync` appends while a call is served. -/
def Call.queues (w : World) (mo : Moment) : Call → List SyncRecord
  | .mutate u => (w.db.mutate mo.now u).1.syncQueue.drop w.db.syncQueue.length
  | .queueForSync table key record => [⟨table, key, record, mo.now⟩]
  | _ => []

def Call.accepts (w : World) : Call → List SyncRecord
  | .replaySyncQueue callback maxRecords =>
    replayAccepted callback (replayLimit maxRecords w.db.syncQueue) 0 0 w.db.syncQueue
  | _ => []

/-- A world, and the record of what was queued in it and what the other side has accepted. -/
structure Book where
  world : World
  queued : List SyncRecord := []
  accepted : List SyncRecord := []

def Booked (L : Lfssl) (b : Book) (e : Moment × Call) (b' : Book) : Prop :=
  b' = {
    world := b.world.serve L e.1 e.2
    queued := b.queued ++ e.2.queues b.world e.1
    accepted := b.accepted ++ e.2.accepts b.world }

section replay

variable {callback : Nat → SyncRecord → Reply} {limit : Nat}

theorem replayLoop_spent (offered replayed : Nat) (q : List SyncRecord) (h : limit ≤ replayed) :
    (replayLoop callback limit offered replayed q).1 = q := by
  induction q with
  | nil => rfl
  | cons r rs ih => simp [replayLoop, Nat.not_lt.mpr h, ih]

theorem replayLoop_perm (offered replayed : Nat) (q : List SyncRecord) :
    (replayAccepted callback limit offered replayed q ++
      (replayLoop callback limit offered replayed q).1).Perm q := by
  induction q generalizing offered replayed with
  | nil => exact .nil
  | cons r rs ih =>
    rw [replayAccepted, replayLoop]
    split
    · cases callback offered r with
      | accepted => exact (ih _ _).cons r
      | refused => exact List.perm_middle.trans ((ih _ _).cons r)
      | threw => exact List.perm_middle.trans ((ih _ _).cons r)
    · next h => simp [replayLoop_spent _ _ _ (Nat.not_lt.mp h)]

theorem replayLoop_sublist (offered replayed : Nat) (q : List SyncRecord) :
    (replayLoop callback limit offered replayed q).1.Sublist q := by
  induction q generalizing offered replayed with
  | nil => exact .slnil
  | cons r rs ih =>
    rw [replayLoop]
    split
    · cases callback offered r with
      | accepted => exact (ih _ _).cons r
      | refused => exact (ih _ _).cons_cons r
      | threw => exact (ih _ _).cons_cons r
    · exact (ih _ _).cons_cons r

end replay

theorem LocalMaintenanceDB.replaySyncQueue_syncQueue (d : LocalMaintenanceDB)
    (callback : Nat → SyncRecord → Reply) (maxRecords : Nat) :
    (d.replaySyncQueue callback maxRecords).1.syncQueue =
      (replayLoop callback (replayLimit maxRecords d.syncQueue) 0 0 d.syncQueue).1 := by
  unfold replaySyncQueue
  split
  · next h => simp [List.isEmpty_iff.mp h, replayLoop]
  · rfl

theorem mutate_queues (w : World) (mo : Moment) (u : Mutation) :
    (w.db.mutate mo.now u).1.syncQueue = w.db.syncQueue ++ (Call.mutate u).queues w mo := by
  have hshape : ∃ l, (w.db.mutate mo.now u).1.syncQueue = w.db.syncQueue ++ l := by
    cases w.db.mutate_echo mo.now u with
    | refused h => exact ⟨[], by simp [h]⟩
    | queued r _ _ _ h => exact ⟨_, h⟩
    | unqueued _ _ h => exact ⟨[], by simp [h]⟩
  obtain ⟨l, hl⟩ := hshape
  simp [Call.queues, hl]

theorem initializeDb_syncQueue (L : Lfssl) (mo : Moment) (w : World) (dbPath dbKey : ByteString) :
    (w.initializeDb L mo dbPath dbKey).1.db.syncQueue = w.db.syncQueue := by
  have ho := w.db.initializeDb_opening L mo w.disk dbPath dbKey
  simp only [World.initializeDb]
  generalize w.db.initializeDb L mo w.disk dbPath dbKey = r at ho ⊢
  cases ho <;> rfl

/-- What is queued and not accepted is in the queue, in the order in which it was queued. -/
structure Pending (b : Book) : Prop where
  perm : (b.accepted ++ b.world.db.syncQueue).Perm b.queued
  order : b.world.db.syncQueue.Sublist b.queued

/-- An open database is shut down only when nothing waits in its queue. -/
def Call.drained (w : World) : Call → Prop
  | .shutdown => w.db.initialized = true → w.db.syncQueue = []
  | _ => True

theorem shutdown_syncQueue (L : Lfssl) (mo : Moment) (w : World) :
    (w.shutdown L mo).db.syncQueue = if w.db.initialized then [] else w.db.syncQueue := by
  unfold World.shutdown
  cases h : w.db.initialized <;> simp

/-- A call that drops nothing appends to the queue, unless it replays it. -/
theorem serve_syncQueue (L : Lfssl) {w : World} (mo : Moment) {call : Call} (h : call.drained w) :
    (w.serve L mo call).db.syncQueue = w.db.syncQueue ++ call.queues w mo ∧ call.accepts w = [] ∨
      ∃ callback maxRecords, call = .replaySyncQueue callback maxRecords ∧
        (w.serve L mo call).db.syncQueue =
          (replayLoop callback (replayLimit maxRecords w.db.syncQueue) 0 0 w.db.syncQueue).1 := by
  have hquiet {q : List SyncRecord} (hq : q = w.db.syncQueue) : q = w.db.syncQueue ++ [] := by
    simpa using hq
  cases call with
  | initializeDb dbPath dbKey => exact .inl ⟨hquiet (initializeDb_syncQueue L mo w dbPath dbKey), rfl⟩
  | shutdown =>
    refine .inl ⟨hquiet ?_, rfl⟩
    simp only [World.serve, shutdown_syncQueue]
    split
    · next hopen => exact (h hopen).symm
    · rfl
  | mutate u => exact .inl ⟨mutate_queues w mo u, rfl⟩
  | query q => exact .inl ⟨hquiet rfl, rfl⟩
  | setOfflineMode offline => exact .inl ⟨hquiet rfl, rfl⟩
  | queueForSync table key record => exact .inl ⟨rfl, rfl⟩
  | replaySyncQueue callback maxRecords =>
    exact .inr ⟨callback, maxRecords, rfl, w.db.replaySyncQueue_syncQueue callback maxRecords⟩

theorem booked_pending {L : Lfssl} {b b' : Book} {e : Moment × Call} (h : Pending b)
    (he : e.2.drained b.world) (hs : Booked L b e b') : Pending b' := by
  obtain ⟨mo, call⟩ := e
  subst hs
  rcases serve_syncQueue L mo he with ⟨hq, ha⟩ | ⟨callback, maxRecords, rfl, hq⟩
  · constructor
    · simp only [hq, ha, List.append_nil, ← List.append_assoc]
      exact h.perm.append_right _
    · simp only [hq]
      exact h.order.append (List.Sublist.refl _)
  · constructor
    · simp only [hq, Call.accepts, Call.queues, List.append_nil, List.append_assoc]
      exact ((replayLoop_perm 0 0 _).append_left _).trans h.perm
    · simp only [hq, Call.queues, List.append_nil]
      exact (replayLoop_sublist 0 0 _).trans h.order

theorem booked_lost {L : Lfssl} {b b' : Book} {e : Moment × Call} (h : Pending b)
    (he : ¬ e.2.drained b.world) (hs : Booked L b e b') : ¬ Pending b' := by
  obtain ⟨mo, call⟩ := e
  subst hs
  cases call with
  | shutdown =>
    simp only [Call.drained, Classical.not_imp] at he
    intro h'
    have hbefore := h.perm.length_eq
    have hafter := h'.perm.length_eq
    have hsome := List.length_pos_iff.mpr he.2
    simp only [World.serve, shutdown_syncQueue, he.1, if_true, Call.queues, Call.accepts,
      List.append_nil, List.length_append] at hbefore hafter
    omega
  | _ => exact absurd trivial he

/-- In every run of public calls, whatever was queued and not accepted is pending in every
state, after any number of restarts, exactly when no open database with a record in its queue
is shut down. -/
theorem pending_iff {L : Lfssl} {disk : Disk} {tr : List (Book × Moment × Call)} {b : Book}
    (hr : Run (Booked L) { world := { disk } } tr b) :
    Throughout Pending tr b ↔ ∀ e ∈ tr, e.2.2.drained e.1.world :=
  hr.throughout_iff (B := fun _ ↦ True) (fun _ _ _ _ _ ↦ trivial)
    (fun _ _ _ _ h he hs ↦ booked_pending h he hs) (fun _ _ _ _ h he hs ↦ booked_lost h he hs)
    trivial ⟨.nil, .slnil⟩

/-- A database that goes offline, keeps a review, and hands it over before it closes. -/
theorem pending_iff_handed_over :
    ∃ tr b, Run (Booked tagLfssl) { world := { disk := ∅ } } tr b ∧ b.queued ≠ [] ∧
      b.world.db.offlineMode = true ∧ Throughout Pending tr b := by
  let key : ByteString := List.replicate 32 7
  let review : Fields := (∅ : Fields).insert (lit "extension_id") (lit "ext")
  have hr : Run (Booked tagLfssl) { world := { disk := ∅ } } _ _ :=
    .cons (a := (workingMoment, .initializeDb (lit "db") key)) rfl
      (.cons (a := (workingMoment, .setOfflineMode true)) rfl
        (.cons (a := (workingMoment, .mutate (.storeReview review))) rfl
          (.cons (a := (workingMoment, .replaySyncQueue (fun _ _ ↦ .accepted) 0)) rfl
            (.cons (a := (workingMoment, .shutdown)) rfl
              (.cons (a := (workingMoment, .initializeDb (lit "db") key)) rfl (.nil _))))))
  refine ⟨_, _, hr, by decide +kernel, by decide +kernel, (pending_iff hr).mpr ?_⟩
  simp only [List.mem_cons, List.not_mem_nil, or_false, forall_eq_or_imp, forall_eq, Call.drained,
    true_and, and_true]
  exact fun _ ↦ by decide

/-- A review that is stored offline is not queued any more after a restart. -/
theorem queue_forgotten :
    ∃ tr b, Run (Booked tagLfssl) { world := { disk := ∅ } } tr b ∧
      tr.map (fun e ↦ e.2) = [
        (workingMoment, .initializeDb (lit "db") (List.replicate 32 7)),
        (workingMoment, .setOfflineMode true),
        (workingMoment, .mutate (.storeReview ((∅ : Fields).insert (lit "extension_id") (lit "ext")))),
        (workingMoment, .shutdown),
        (workingMoment, .initializeDb (lit "db") (List.replicate 32 7))] ∧
      b.world.db.offlineMode = true ∧ b.accepted = [] ∧ b.queued ≠ [] ∧
      b.world.db.syncQueue = [] ∧ ¬ Pending b := by
  have hr : Run (Booked tagLfssl) { world := { disk := ∅ } } _ _ :=
    .cons (a := (workingMoment, .initializeDb (lit "db") (List.replicate 32 7))) rfl
      (.cons (a := (workingMoment, .setOfflineMode true)) rfl
        (.cons (a := (workingMoment, .mutate
            (.storeReview ((∅ : Fields).insert (lit "extension_id") (lit "ext"))))) rfl
          (.cons (a := (workingMoment, .shutdown)) rfl
            (.cons (a := (workingMoment, .initializeDb (lit "db") (List.replicate 32 7))) rfl
              (.nil _)))))
  refine ⟨_, _, hr, rfl, by decide +kernel, rfl, by decide +kernel, by decide +kernel, fun h ↦ ?_⟩
  have hlength := h.perm.length_eq
  revert hlength
  decide +kernel

end Cerberus.MaintenanceDb
