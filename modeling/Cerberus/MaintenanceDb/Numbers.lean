import Cerberus.Foundation.Keys
import Cerberus.MaintenanceDb.Names

namespace Cerberus.MaintenanceDb

open Std Foundation Foundation.Bytes Foundation.Keys Foundation.Trace

def TableName.stem : TableName → Option String
  | .revenueRecords => some "rev_"
  | .reviews => some "review_"
  | .onboardingGrants => some "grant_"
  | .auditEvents => some "audit_"
  | _ => none

def numberedId (stem : String) (j : Nat) : ByteString := lit stem ++ decimal j

/-- No made-up id is in use whose number the size of its table has yet to reach. -/
def Tables.Numbered (t : Tables) : Prop :=
  ∀ n stem, n.stem = some stem → NamesBelow (numberedId stem) (t.get n)

def Mutation.anonymous : Mutation → Option TableName
  | .storeRevenueShareRecord r => if r[lit "record_id"]? = none then some .revenueRecords else none
  | .storeReview r => if r[lit "review_id"]? = none then some .reviews else none
  | .storeOnboardingGrant g => if g[lit "grant_id"]? = none then some .onboardingGrants else none
  | .storeAuditEvent e => if e.text "event_id" = [] then some .auditEvents else none
  | _ => none

def Appends (now : Int) (d : LocalMaintenanceDB) (u : Mutation) : Prop :=
  ∀ n, u.anonymous = some n → (d.mutate now u).2 = true →
    ((d.mutate now u).1.tables.get n).size = (d.tables.get n).size + 1 ∧
      ∀ (key : ByteString) (record : Fields), (d.tables.get n)[key]? = some record →
        ((d.mutate now u).1.tables.get n)[key]? = some record

/-- The id that a record carries, if it is one that the class could make up, has a number that the
size of the table has reached. -/
def LocalMaintenanceDB.Reached (d : LocalMaintenanceDB) (n : TableName) (idField : String)
    (record : Fields) : Prop :=
  ∀ stem j, n.stem = some stem → record[lit idField]? = some (numberedId stem j) →
    j ≤ (d.tables.get n).size

def Mutation.numbered (d : LocalMaintenanceDB) : Mutation → Prop
  | .storeRevenueShareRecord r => d.initialized = true → d.Reached .revenueRecords "record_id" r
  | .storeReview r => d.initialized = true → d.Reached .reviews "review_id" r
  | .storeOnboardingGrant g => d.initialized = true → d.Reached .onboardingGrants "grant_id" g
  | .storeAuditEvent e =>
    d.initialized = true → lit "user_id" ∈ e → lit "event_type" ∈ e →
      d.Reached .auditEvents "event_id" e
  | _ => True

theorem numberedId_injective (stem : String) : Function.Injective (numberedId stem) :=
  fun _ _ h ↦ decimal_injective (List.append_cancel_left h)

theorem TableName.stem_ne_empty {n : TableName} {stem : String} (h : n.stem = some stem) :
    stem ≠ "" := by
  cases n <;> cases h <;> decide

theorem numberedId_ne_nil {n : TableName} {stem : String} (h : n.stem = some stem) (j : Nat) :
    numberedId stem j ≠ [] := by
  intro he
  exact TableName.stem_ne_empty h (lit_eq_nil.mp (List.append_eq_nil_iff.mp he).1)

theorem numbered_empty : ({} : Tables).Numbered := by
  intro n stem _
  have htable : ({} : Tables).get n = ∅ := by cases n <;> rfl
  rw [htable]
  exact namesBelow_empty

theorem Tables.Numbered.clear {t : Tables} (h : t.Numbered) : t.clear.Numbered := by
  intro n stem hn
  have htable := h n stem hn
  cases n with
  | auditEvents => exact namesBelow_empty
  | revenueRecords => exact htable
  | reviews => exact htable
  | onboardingGrants => exact htable
  | _ => cases hn

theorem Tables.Numbered.upsert_iff {t : Tables} (h : t.Numbered) {n : TableName} {key : ByteString}
    {record : Fields} : (t.upsert n key record).Numbered ↔
      ∀ stem j, n.stem = some stem → numberedId stem j = key → j ≤ (t.get n).size := by
  constructor
  · intro hu stem j hn
    have htable := hu n stem hn
    rw [Tables.get_upsert, if_pos rfl] at htable
    exact (h n stem hn).insert_iff.mp htable j
  · intro hk n' stem hn
    rw [Tables.get_upsert]
    split
    · next he =>
      subst he
      exact (h n stem hn).insert_iff.mpr (fun j ↦ hk stem j hn)
    · exact h n' stem hn

namespace LocalMaintenanceDB

variable {now : Int} {d : LocalMaintenanceDB} {u : Mutation} {n : TableName}

theorem store_numbered (h : d.tables.Numbered) {key : ByteString} {record : Fields} :
    (d.store now n key record).1.tables.Numbered ↔
      ∀ stem j, n.stem = some stem → numberedId stem j = key → j ≤ (d.tables.get n).size := by
  rw [store_tables, h.upsert_iff]

theorem checked_numbered (h : d.tables.Numbered) {c : Bool} {r : LocalMaintenanceDB × Bool} :
    (if c then (d, false) else r).1.tables.Numbered ↔ (c = false → r.1.tables.Numbered) := by
  cases c with
  | true => simpa using h
  | false => simp

theorem keyFor_stem {idField stem : String} (record : Fields) (hid : record[lit idField]? = none) :
    d.keyFor n idField stem record = numberedId stem (d.tables.get n).size := by
  rw [keyFor, hid]
  rfl

theorem keyed_numbered (h : d.tables.Numbered) {idField stem : String} {record safe : Fields}
    (hn : n.stem = some stem) :
    (if !d.initialized || record.isEmpty then (d, false)
      else d.store now n (d.keyFor n idField stem record) safe).1.tables.Numbered ↔
      (d.initialized = true → d.Reached n idField record) := by
  rw [checked_numbered h, store_numbered h]
  simp only [Bool.or_eq_false_iff, Bool.not_eq_false', and_imp]
  refine imp_congr_right (fun _ ↦ ?_)
  cases hid : record[lit idField]? with
  | none =>
    rw [keyFor_stem record hid]
    refine iff_of_true (fun _ stem' j hs hj ↦ ?_) (fun stem' j _ hj ↦ by simp [hid] at hj)
    obtain rfl := Option.some.inj (hs.symm.trans hn)
    exact (numberedId_injective stem' hj).le
  | some id =>
    have hsome : record.isEmpty = false := by
      by_contra he
      have hempty : record = ∅ := by simpa using he
      simp [hempty] at hid
    simp only [hsome, true_imp_iff, keyFor, hid, Option.getD_some, Reached, Option.some.injEq,
      eq_comm]

theorem auditEventId_anonymous {e : Fields} (h : e.text "event_id" = []) :
    d.auditEventId e = numberedId "audit_" d.tables.auditEvents.size := by
  unfold auditEventId
  split
  · rfl
  · rfl
  · next id hne hid =>
    have hnil : id = [] := by simpa [Fields.text, hid] using h
    exact (hne hnil).elim

theorem auditEventId_own {e : Fields} {id : ByteString} (hid : e[lit "event_id"]? = some id)
    (hne : id ≠ []) : d.auditEventId e = id := by
  unfold auditEventId
  split
  · next hnone => simp [hid] at hnone
  · next hnil => exact absurd (Option.some.inj (hid.symm.trans hnil)) hne
  · next id' _ hid' => exact Option.some.inj (hid'.symm.trans hid)

theorem storeAuditEvent_numbered (h : d.tables.Numbered) (e : Fields) :
    (d.storeAuditEvent now e).1.tables.Numbered ↔ (Mutation.storeAuditEvent e).numbered d := by
  rw [storeAuditEvent, checked_numbered h, checked_numbered h, store_numbered h]
  simp only [Mutation.numbered, Bool.not_eq_false', Bool.or_eq_false_iff, and_imp,
    ExtTreeMap.contains_iff_mem]
  refine imp_congr_right (fun _ ↦ imp_congr_right (fun _ ↦ imp_congr_right (fun _ ↦ ?_)))
  refine forall_congr' (fun stem ↦ forall_congr' (fun j ↦ imp_congr_right (fun hn ↦ ?_)))
  have hne := numberedId_ne_nil hn j
  obtain rfl : "audit_" = stem := Option.some.inj hn
  by_cases hid : e.text "event_id" = []
  · rw [auditEventId_anonymous hid]
    refine iff_of_true (fun hj ↦ (numberedId_injective _ hj).le) (fun hj ↦ ?_)
    exact absurd (by simpa [Fields.text, hj] using hid) hne
  · obtain ⟨id, hid', hid''⟩ : ∃ id, e[lit "event_id"]? = some id ∧ id ≠ [] := by
      cases hc : e[lit "event_id"]? with
      | none => simp [Fields.text, hc] at hid
      | some id => exact ⟨id, rfl, by simpa [Fields.text, hc] using hid⟩
    rw [auditEventId_own hid' hid'', hid', Option.some.injEq, eq_comm]

theorem mutate_numbered (h : d.tables.Numbered) (u : Mutation) :
    (d.mutate now u).1.tables.Numbered ↔ u.numbered d := by
  have hframe (hu : ∀ n, u.target = some n → n.stem = none) :
      (d.mutate now u).1.tables.Numbered := by
    intro n stem hn
    rw [mutate_frame now d (fun ht ↦ by simp [hu n ht] at hn)]
    exact h n stem hn
  cases u with
  | storeRevenueShareRecord r => exact keyed_numbered h rfl
  | storeReview r => exact keyed_numbered h rfl
  | storeOnboardingGrant g => exact keyed_numbered h rfl
  | storeAuditEvent e => exact storeAuditEvent_numbered h e
  | consumeOnboardingGrant g b r =>
    refine iff_of_true ?_ trivial
    simp only [mutate, consumeOnboardingGrant]
    rw [checked_numbered h]
    intro _
    split
    · exact h
    · next grant hgrant =>
      refine h.upsert_iff.mpr (fun stem j hn hj ↦ ?_)
      have hmem : numberedId stem j ∈ d.tables.get .onboardingGrants := by
        rw [hj, ExtTreeMap.mem_iff_isSome_getElem?]
        exact Option.isSome_of_eq_some hgrant
      exact (h .onboardingGrants stem hn j hmem).le
  | _ => exact iff_of_true (hframe (by simp [Mutation.target, TableName.stem])) trivial

theorem store_adds {stem : String} {record : Fields} :
    Adds (numberedId stem) (d.tables.get n)
      ((d.store now n (numberedId stem (d.tables.get n).size) record).1.tables.get n) :=
  ⟨record, store_get ..⟩

theorem keyed_adds {idField stem : String} {record safe : Fields}
    (hid : record[lit idField]? = none) (hacc : (if !d.initialized || record.isEmpty then (d, false)
      else d.store now n (d.keyFor n idField stem record) safe).2 = true) :
    Adds (numberedId stem) (d.tables.get n) ((if !d.initialized || record.isEmpty then (d, false)
      else d.store now n (d.keyFor n idField stem record) safe).1.tables.get n) := by
  split at hacc
  · cases hacc
  · next hc =>
    rw [if_neg hc, keyFor_stem record hid]
    exact store_adds

/-- Without an id of its own a record is stored under the one that the size of the table gives. -/
theorem mutate_adds (hu : u.anonymous = some n) (hacc : (d.mutate now u).2 = true) :
    ∃ stem, n.stem = some stem ∧
      Adds (numberedId stem) (d.tables.get n) ((d.mutate now u).1.tables.get n) := by
  cases u with
  | storeRevenueShareRecord r =>
    obtain ⟨hid, ⟨⟩⟩ := Option.ite_none_right_eq_some.mp hu
    exact ⟨_, rfl, keyed_adds hid hacc⟩
  | storeReview r =>
    obtain ⟨hid, ⟨⟩⟩ := Option.ite_none_right_eq_some.mp hu
    exact ⟨_, rfl, keyed_adds hid hacc⟩
  | storeOnboardingGrant g =>
    obtain ⟨hid, ⟨⟩⟩ := Option.ite_none_right_eq_some.mp hu
    exact ⟨_, rfl, keyed_adds hid hacc⟩
  | storeAuditEvent e =>
    obtain ⟨hid, ⟨⟩⟩ := Option.ite_none_right_eq_some.mp hu
    refine ⟨_, rfl, ?_⟩
    simp only [mutate, storeAuditEvent] at hacc ⊢
    split at hacc
    · cases hacc
    · next hopen =>
      split at hacc
      · cases hacc
      · next hfields =>
        rw [if_neg hopen, if_neg hfields, auditEventId_anonymous hid]
        exact store_adds
  | _ => cases hu

theorem mutate_initialized (now : Int) (d : LocalMaintenanceDB) (u : Mutation) :
    (d.mutate now u).1.initialized = d.initialized := by
  cases d.mutate_outcome now u with
  | refused h => rw [h]
  | marked e he => exact he.initialized
  | silent e he => exact he.initialized

theorem mutate_appends (h : d.tables.Numbered) (u : Mutation) : Appends now d u := by
  intro n hu hacc
  obtain ⟨stem, hn, hadds⟩ := mutate_adds hu hacc
  exact hadds.extends (h n stem hn).free

end LocalMaintenanceDB

section exact

def OpenDB : Type := { d : LocalMaintenanceDB // d.initialized = true }

def StoredAnonymous (n : TableName) (d d' : OpenDB) : Prop :=
  ∃ now u, u.anonymous = some n ∧ d.1.mutate now u = (d'.1, true)

def anonymousRecord : Fields := assign ∅ [("user_id", lit "u"), ("event_type", lit "t")]

theorem exists_stored {n : TableName} {stem : String} (hn : n.stem = some stem) (d : OpenDB) :
    ∃ d', StoredAnonymous n d d' := by
  obtain ⟨d, hopen⟩ := d
  have hstored {u : Mutation} (hu : u.anonymous = some n) (hacc : (d.mutate 0 u).2 = true) :
      ∃ d', StoredAnonymous n ⟨d, hopen⟩ d' :=
    ⟨⟨(d.mutate 0 u).1, (d.mutate_initialized 0 u).trans hopen⟩, 0, u, hu, Prod.ext rfl hacc⟩
  have hsome : anonymousRecord.isEmpty = false := by decide
  cases n with
  | revenueRecords =>
    refine hstored (u := .storeRevenueShareRecord anonymousRecord) (by decide) ?_
    simp [LocalMaintenanceDB.mutate, LocalMaintenanceDB.storeRevenueShareRecord, hopen, hsome,
      LocalMaintenanceDB.store]
  | reviews =>
    refine hstored (u := .storeReview anonymousRecord) (by decide) ?_
    simp [LocalMaintenanceDB.mutate, LocalMaintenanceDB.storeReview, hopen, hsome,
      LocalMaintenanceDB.store]
  | onboardingGrants =>
    refine hstored (u := .storeOnboardingGrant anonymousRecord) (by decide) ?_
    simp [LocalMaintenanceDB.mutate, LocalMaintenanceDB.storeOnboardingGrant, hopen, hsome,
      LocalMaintenanceDB.store]
  | auditEvents =>
    have huser : anonymousRecord.contains (lit "user_id") = true := by decide
    have htype : anonymousRecord.contains (lit "event_type") = true := by decide
    refine hstored (u := .storeAuditEvent anonymousRecord) (by decide) ?_
    simp [LocalMaintenanceDB.mutate, LocalMaintenanceDB.storeAuditEvent, hopen, huser, htype,
      LocalMaintenanceDB.store]
  | _ => cases hn

/-- The made-up ids of a table are below its size exactly when no sequence of records without ids
comes to an id that is in use. -/
theorem numbered_iff_free {n : TableName} {stem : String} (hn : n.stem = some stem) (d : OpenDB) :
    NamesBelow (numberedId stem) (d.1.tables.get n) ↔
      ∀ d', Relation.ReflTransGen (StoredAnonymous n) d d' →
        numberedId stem (d'.1.tables.get n).size ∉ d'.1.tables.get n := by
  refine namesBelow_iff_free (f := fun d : OpenDB ↦ d.1.tables.get n)
    (numberedId_injective stem) ?_ (exists_stored hn) d
  rintro d d' ⟨now, u, hu, hd⟩
  have hacc : (d.1.mutate now u).2 = true := by rw [hd]
  obtain ⟨stem', hn', hadds⟩ := LocalMaintenanceDB.mutate_adds hu hacc
  obtain rfl := Option.some.inj (hn'.symm.trans hn)
  rwa [hd] at hadds

end exact

section runs

variable {L : Lfssl} {w : World} {mo : Moment}

def Call.numbered (L : Lfssl) (w : World) (mo : Moment) : Call → Prop
  | .initializeDb dbPath dbKey =>
    w.db.initialized = false → dbKey.length = 32 → w.disk.exists dbPath = true →
      ∀ t, loadFromDisk L mo { w.db with dbPath, dbKey } w.disk = some t → t.Numbered
  | .mutate u => u.numbered w.db
  | _ => True

theorem serve_numbered {call : Call} (h : w.db.tables.Numbered) :
    (w.serve L mo call).db.tables.Numbered ↔ call.numbered L w mo := by
  cases call with
  | initializeDb dbPath dbKey => exact World.initializeDb_tables_iff h
  | shutdown =>
    refine iff_of_true ?_ trivial
    rw [World.serve, (w.shutdown_db L mo).2, World.residue]
    split
    · exact h.clear
    · exact h
  | mutate u => exact LocalMaintenanceDB.mutate_numbered h u
  | query q => exact iff_of_true h trivial
  | setOfflineMode offline => exact iff_of_true h trivial
  | queueForSync table key record => exact iff_of_true h trivial
  | replaySyncQueue callback maxRecords =>
    refine iff_of_true ?_ trivial
    simp only [World.serve, LocalMaintenanceDB.replaySyncQueue]
    split <;> exact h

/-- The made-up ids stay below the sizes of their tables exactly when no call of the run puts one
ahead. -/
theorem numbered_iff {disk : Disk} {tr : List (World × Moment × Call)}
    (hr : Run (Step L) { disk } tr w) :
    Throughout (fun w ↦ w.db.tables.Numbered) tr w ↔
      ∀ e ∈ tr, e.2.2.numbered L e.1 e.2.1 := by
  have hstep (w : World) (e : Moment × Call) (w' : World) (h : w.db.tables.Numbered)
      (hs : Step L w e w') : w'.db.tables.Numbered ↔ e.2.numbered L w e.1 := by
    rw [hs]
    exact serve_numbered h
  exact hr.step_iff hstep numbered_empty

/-- In a run in which no id of the form that the class makes up is given, or read from a file,
before its number is reached, a record without an id never replaces another. -/
theorem anonymous_records_added {disk : Disk} {tr : List (World × Moment × Call)}
    (hr : Run (Step L) { disk } tr w) (hok : ∀ e ∈ tr, e.2.2.numbered L e.1 e.2.1) :
    ∀ w' mo u, (w', mo, Call.mutate u) ∈ tr → Appends mo.now w'.db u :=
  fun _ _ u he ↦ LocalMaintenanceDB.mutate_appends (((numbered_iff hr).mpr hok).1 _ he) u

def namedEvent (id : String) : Fields := assign anonymousRecord [("event_id", lit id)]

theorem anonymous_records_added_again :
    ∃ tr w, Run (Step noLfssl) { disk := ∅ } tr w ∧
      ∃ w' mo u, (w', mo, Call.mutate u) ∈ tr ∧ w'.db.tables.auditEvents ≠ ∅ ∧
        u.anonymous = some .auditEvents ∧ Appends mo.now w'.db u := by
  have hr : Run (Step noLfssl) { disk := ∅ } _ _ :=
    .cons (a := (quietMoment, .initializeDb (lit "db") (List.replicate 32 7))) rfl
      (.cons (a := (quietMoment, .mutate (.storeAuditEvent (namedEvent "audit_0")))) rfl
        (.cons (a := (quietMoment, .mutate (.storeAuditEvent anonymousRecord))) rfl (.nil _)))
  have hreached (d : LocalMaintenanceDB) :
      d.Reached .auditEvents "event_id" (namedEvent "audit_0") := by
    intro stem j hn hid
    obtain rfl : "audit_" = stem := Option.some.inj hn
    have hgiven : (namedEvent "audit_0")[lit "event_id"]? = some (numberedId "audit_" 0) := by
      decide
    have hj := numberedId_injective _ (Option.some.inj (hid.symm.trans hgiven))
    omega
  have hnone (d : LocalMaintenanceDB) : d.Reached .auditEvents "event_id" anonymousRecord := by
    intro stem j _ hid
    have habsent : anonymousRecord[lit "event_id"]? = none := by decide
    simp [habsent] at hid
  have hok := anonymous_records_added hr (by
    simp only [List.forall_mem_cons, Call.numbered, Mutation.numbered]
    exact ⟨fun _ _ hfile ↦ absurd hfile (by decide), fun _ _ _ ↦ hreached _, fun _ _ _ ↦ hnone _,
      by simp⟩)
  exact ⟨_, _, hr, _, _, _, .tail _ (.tail _ (.head _)), by decide, by decide,
    hok _ _ _ (.tail _ (.tail _ (.head _)))⟩

/-- An event without an id replaces one that was given the id that is made up for it. -/
theorem audit_event_replaced :
    ∃ tr w, Run (Step noLfssl) { disk := ∅ } tr w ∧
      ∃ w' mo u, (w', mo, Call.mutate u) ∈ tr ∧ ¬ Appends mo.now w'.db u := by
  have hr : Run (Step noLfssl) { disk := ∅ } _ _ :=
    .cons (a := (quietMoment, .initializeDb (lit "db") (List.replicate 32 7))) rfl
      (.cons (a := (quietMoment, .mutate (.storeAuditEvent (namedEvent "audit_1")))) rfl
        (.cons (a := (quietMoment, .mutate (.storeAuditEvent anonymousRecord))) rfl (.nil _)))
  refine ⟨_, _, hr, _, _, _, .tail _ (.tail _ (.head _)), fun h ↦ ?_⟩
  have hsize := (h .auditEvents (by decide) (by decide)).1
  revert hsize
  decide

end runs

end Cerberus.MaintenanceDb
