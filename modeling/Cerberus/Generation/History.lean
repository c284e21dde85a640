import Cerberus.Generation.Audit

namespace Cerberus.Generation

open Std Foundation Foundation.Bytes Foundation.Trace Foundation.Wire MaintenanceDb

/-- The life of one pipeline object: how it is configured, what is called on it, and the
moments at which the database is opened and closed. -/
structure Session where
  cfg : PipelineConfig
  opening : Moment
  transportStarts : Bool := false
  events : List Event
  closing : Moment

def Session.started (L : Lfssl) (disk : Disk) (x : Session) : Pipeline :=
  .construct L x.opening disk x.cfg x.transportStarts

def Session.ended (L : Lfssl) (disk : Disk) (x : Session) : Pipeline :=
  x.events.foldl Pipeline.serve (x.started L disk)

def Session.left (L : Lfssl) (disk : Disk) (x : Session) : Disk :=
  (x.ended L disk).destroy L x.closing disk

def storedBy (p : Pipeline) : List Event → Nat
  | [] => 0
  | e :: es =>
    (if (p.serve e).inferenceCounter = p.inferenceCounter then 0 else 1) + storedBy (p.serve e) es

def Session.stores (L : Lfssl) (disk : Disk) (x : Session) : Nat :=
  storedBy (x.started L disk) x.events

structure Era where
  disk : Disk
  stored : Nat := 0

/-- A lifetime on the database at a path, with a key. The file can be written and read, and
stays within the size that is accepted when it is opened again. -/
structure Lived (L : Lfssl) (path key : ByteString) (a : Era) (x : Session) (b : Era) : Prop where
  lcmdDbPath : x.cfg.lcmdDbPath = path
  lcmdDbKey : x.cfg.lcmdDbKey = key
  history : x.cfg.enableInferenceHistory = true
  opening : x.opening.Works
  closing : x.closing.Works
  fits : ∀ db, (x.ended L a.disk).lcmdDb = some db → db.tables.Fits
  disk : b.disk = x.left L a.disk
  stored : b.stored = a.stored + x.stores L a.disk

def Contains (L : Lfssl) (path key : ByteString) (disk : Disk) (t : Tables) : Prop :=
  ∀ mo : Moment, mo.Works →
    ∃ w, World.initializeDb L mo { disk } path key = (w, true) ∧ w.db.tables = t

def Numbered (n : Nat) (t : Table) : Prop := ∀ k, k ∈ t ↔ ∃ i, 1 ≤ i ∧ i ≤ n ∧ k = decimal i

theorem numbered_size {n : Nat} {t : Table} (h : Numbered n t) : t.size = n := by
  have hnodup : ((List.range' 1 n).map decimal).Nodup :=
    (List.nodup_range' ..).map decimal_injective
  rw [FiniteMap.size_eq_length hnodup, List.length_map, List.length_range']
  intro k
  rw [h k]
  simp only [List.mem_map, List.mem_range'_1]
  constructor
  · rintro ⟨i, hi, hn, rfl⟩
    exact ⟨i, ⟨hi, by omega⟩, rfl⟩
  · rintro ⟨i, ⟨hi, hn⟩, rfl⟩
    exact ⟨i, hi, by omega, rfl⟩

theorem Numbered.insert {n : Nat} {t : Table} (h : Numbered n t) {i : Nat} (hi : 1 ≤ i)
    (hn : i ≤ n + 1) (r : Fields) : Numbered (max n i) (t.insert (decimal i) r) := by
  intro k
  rw [ExtTreeMap.mem_insert, Std.compare_eq_iff_eq, h k]
  constructor
  · rintro (rfl | ⟨j, hj, hj', rfl⟩)
    · exact ⟨i, hi, Nat.le_max_right .., rfl⟩
    · exact ⟨j, hj, hj'.trans (Nat.le_max_left ..), rfl⟩
  · rintro ⟨j, hj, hj', rfl⟩
    by_cases hij : i = j
    · exact .inl (by rw [hij])
    · exact .inr ⟨j, hj, by omega, rfl⟩

/-- A table that fits into the file has far fewer records than the counter has values. -/
theorem size_of_fits {t : Tables} (h : t.Fits) : t.inferenceRecords.size < 2 ^ 32 := by
  have hsection : (serializeTable t.inferenceRecords).length ≤ (plaintext t).length :=
    length_section_le t .inferenceRecords
  have hsize : t.inferenceRecords.size ≤ (serializeTable t.inferenceRecords).length :=
    size_le_length_writeMap
  simp only [Tables.Fits, kMaxCipherLen] at h
  omega

/-- After `c` records were stored on top of the numbers up to `m`. Should the counter wrap, all
its values are there. -/
structure Reaches (m c : Nat) (t : Table) : Prop where
  below : c < 2 ^ 64 → Numbered (max m c) t
  wrapped : 2 ^ 64 ≤ c → ∀ i, 1 ≤ i → i < 2 ^ 64 → decimal i ∈ t

theorem Reaches.insert {m c : Nat} {t : Table} (h : Reaches m c t) (r : Fields) :
    Reaches m (c + 1) (t.insert (decimal ((c + 1) % 2 ^ 64)) r) := by
  constructor
  · intro hc
    have hmod : (c + 1) % 2 ^ 64 = c + 1 := Nat.mod_eq_of_lt hc
    have hmax : max (max m c) (c + 1) = max m (c + 1) := by omega
    rw [hmod, ← hmax]
    exact (h.below (by omega)).insert (by omega) (by omega) r
  · intro hc i hi hi'
    rw [ExtTreeMap.mem_insert]
    by_cases hlast : c + 1 = 2 ^ 64
    · exact .inr ((h.below (by omega) _).mpr ⟨i, hi, by omega, rfl⟩)
    · exact .inr (h.wrapped (by omega) i hi hi')

theorem Reaches.numbered {m c : Nat} {t : Table} (h : Reaches m c t) (ht : t.size < 2 ^ 32) :
    Numbered (max m c) t := by
  apply h.below
  by_contra hc
  have hnodup : ((List.range' 1 (2 ^ 64 - 1)).map decimal).Nodup :=
    (List.nodup_range' ..).map decimal_injective
  have hall : ∀ k ∈ (List.range' 1 (2 ^ 64 - 1)).map decimal, k ∈ t := by
    intro k hk
    simp only [List.mem_map, List.mem_range'_1] at hk
    obtain ⟨i, ⟨hi, hi'⟩, rfl⟩ := hk
    exact h.wrapped (by omega) i hi (by omega)
  have hle := FiniteMap.length_le_size hnodup hall
  rw [List.length_map, List.length_range'] at hle
  omega

/-- A pipeline in the middle of a lifetime, after `c` records were stored. -/
structure Live (L : Lfssl) (path key : ByteString) (disk : Disk) (t₀ : Table) (m c : Nat)
    (p : Pipeline) (db : LocalMaintenanceDB) : Prop where
  history : p.cfg.enableInferenceHistory = true
  lcmdDb : p.lcmdDb = some db
  counter : p.inferenceCounter = c % 2 ^ 64
  initialized : db.initialized = true
  dbPath : db.dbPath = path
  dbKey : db.dbKey = key
  safe : Safe L { db, disk }
  tables : db.tables = { inferenceRecords := db.tables.inferenceRecords }
  reaches : Reaches m c db.tables.inferenceRecords
  start : c = 0 → db.tables.inferenceRecords = t₀

variable {L : Lfssl} {path key : ByteString} {disk : Disk} {t₀ : Table} {m c : Nat} {p : Pipeline}
  {db : LocalMaintenanceDB}

theorem Live.historic (h : Live L path key disk t₀ m c p db) : Historic p :=
  ⟨h.history, db, h.lcmdDb, h.initialized⟩

theorem storeInferenceRecord_live (h : Live L path key disk t₀ m c p db) {p' : Pipeline}
    {req : GenerationRequest} {status : ByteString} (hr : Recorded p req status p') :
    ∃ db', Live L path key disk t₀ m (c + 1) p' db' := by
  obtain ⟨db', now, record, hdb', hstored, -, -, hid, htables⟩ := hr.stored
  obtain rfl : db' = db := Option.some.inj (hdb'.symm.trans h.lcmdDb)
  have hcounter : p'.inferenceCounter = (c + 1) % 2 ^ 64 := by
    rw [hr.counter, h.counter]
    omega
  have hsafe : Safe L { db := (db'.storeInferenceRecord now record).1, disk } :=
    @mutate_safe L { db := db', disk } { now, randomBytes := none } (.storeInferenceRecord record)
      h.safe trivial trivial
  have hid' : record.inferenceId ≠ [] := hid ▸ decimal_ne_nil _
  have hopen := (storeInferenceRecord_accepts h.initialized now hid').1
  have hplace : (db'.storeInferenceRecord now record).1.dbPath = db'.dbPath ∧
      (db'.storeInferenceRecord now record).1.dbKey = db'.dbKey := by
    simp [LocalMaintenanceDB.storeInferenceRecord, h.initialized, hid', LocalMaintenanceDB.store,
      LocalMaintenanceDB.upsert, LocalMaintenanceDB.markDirty]
  have hrecords : (db'.storeInferenceRecord now record).1.tables.inferenceRecords =
      db'.tables.inferenceRecords.insert (decimal ((c + 1) % 2 ^ 64)) record.toMap := by
    rw [htables, hid, hcounter]
    rfl
  refine ⟨_, ⟨hr.cfg ▸ h.history, hstored, hcounter, hopen, hplace.1.trans h.dbPath,
    hplace.2.trans h.dbKey, hsafe, ?_, ?_, fun hc ↦ absurd hc (Nat.succ_ne_zero c)⟩⟩
  · rw [hrecords, htables, h.tables, hid, hcounter]
    rfl
  · rw [hrecords]
    exact h.reaches.insert _

theorem serve_live (h : Live L path key disk t₀ m c p db) (e : Event) :
    ∃ db', Live L path key disk t₀ m
      (c + if (p.serve e).inferenceCounter = p.inferenceCounter then 0 else 1) (p.serve e) db' := by
  cases e with
  | generate req s =>
    have hend := generate_end req s h.historic
    rw [Pipeline.serve]
    generalize p.generate req s = r at hend ⊢
    cases hend with
    | untouched r hu =>
      rw [if_pos hu.counter]
      exact ⟨db, hu.cfg ▸ h.history, hu.lcmdDb ▸ h.lcmdDb, hu.counter ▸ h.counter, h.initialized,
        h.dbPath, h.dbKey, h.safe, h.tables, h.reaches, h.start⟩
    | recorded r hr =>
      rw [if_neg (fun he ↦ by
        have hnext := hr.counter.symm.trans he
        omega)]
      exact storeInferenceRecord_live h hr
  | shutdown =>
    have hsame : (p.serve .shutdown).inferenceCounter = p.inferenceCounter := rfl
    rw [if_pos hsame]
    exact ⟨db, h.history, h.lcmdDb, h.counter, h.initialized, h.dbPath, h.dbKey, h.safe, h.tables,
      h.reaches, h.start⟩

theorem events_live (h : Live L path key disk t₀ m c p db) (es : List Event) :
    ∃ db', Live L path key disk t₀ m (c + storedBy p es) (es.foldl Pipeline.serve p) db' := by
  induction es generalizing c p db with
  | nil => exact ⟨db, h⟩
  | cons e es ih =>
    obtain ⟨db', h'⟩ := serve_live h e
    obtain ⟨db'', h''⟩ := ih h'
    rw [storedBy, ← Nat.add_assoc]
    exact ⟨db'', h''⟩

/-- A new object finds in the file what the object before it had, if there was nothing but
inference records. -/
theorem reopens {w : World} (hL : L.Sound) (h : Safe L w) (hopen : w.db.initialized = true)
    (hpath : w.db.dbPath ≠ []) (hfit : w.db.tables.Fits)
    (ht : w.db.tables = { inferenceRecords := w.db.tables.inferenceRecords }) {mo : Moment}
    (hm : mo.Works) :
    Contains L w.db.dbPath w.db.dbKey (w.shutdown L mo).disk w.db.tables := by
  intro mo' hm'
  have hkey := h.key hopen
  have hnew {disk : Disk} (hload : Loads L disk w.db.dbPath w.db.dbKey w.db.tables) :
      ∃ w', World.initializeDb L mo' { disk } w.db.dbPath w.db.dbKey = (w', true) ∧
        w'.db.tables = w.db.tables :=
    Loads.reopen (w := { disk }) hload rfl hkey hpath hm' rfl
  cases hdirty : w.db.dirty with
  | true =>
    apply hnew
    simpa [World.shutdown, hopen, hdirty] using flush_loads hL hm hpath hkey h.named hfit
  | false =>
    have hdisk : (w.shutdown L mo).disk = w.disk := by simp [World.shutdown, hopen, hdirty]
    rw [hdisk]
    rcases h.synced hopen hdirty with ⟨hload, -⟩ | ⟨hfile, hclear⟩
    · exact hnew hload
    · -- there is no file, so there are no records
      have hempty : w.db.tables = {} := by
        rw [ht] at hclear ⊢
        exact hclear.symm
      rw [World.initializeDb_empty (w := { disk := w.disk }) rfl hkey hfile, hempty]
      exact ⟨_, rfl, rfl⟩

theorem Contains.unique {t t' : Tables} (h : Contains L path key disk t)
    (h' : Contains L path key disk t') : t = t' := by
  obtain ⟨w, hw, rfl⟩ := h workingMoment workingMoment_works
  obtain ⟨w', hw', rfl⟩ := h' workingMoment workingMoment_works
  rw [hw] at hw'
  obtain ⟨rfl, -⟩ := Prod.mk.inj hw'
  rfl

theorem started_live {x : Session} {t : Tables} (hpath : path ≠ []) (hkey : key.length = 32)
    (hx : x.cfg.lcmdDbPath = path ∧ x.cfg.lcmdDbKey = key ∧ x.cfg.enableInferenceHistory = true)
    (hm : x.opening.Works) (hc : Contains L path key disk t)
    (ht : t = { inferenceRecords := t.inferenceRecords }) (hn : Numbered m t.inferenceRecords) :
    ∃ db, Live L path key disk t.inferenceRecords m 0 (x.started L disk) db := by
  obtain ⟨hx1, hx2, hx3⟩ := hx
  obtain ⟨w, hw, rfl⟩ := hc x.opening hm
  have hsafe : Safe L (World.initializeDb L x.opening { disk } path key).1 :=
    initializeDb_safe (safe_new disk)
  have ho := ({} : LocalMaintenanceDB).initializeDb_opening L x.opening disk path key
  have hinit : ({} : LocalMaintenanceDB).initializeDb L x.opening disk path key = (w.db, true) ∧
      w.disk = disk := by
    obtain ⟨rfl, hok⟩ := Prod.mk.inj hw
    exact ⟨Prod.ext rfl hok, rfl⟩
  obtain ⟨hinit, rfl⟩ := hinit
  have hstarted : (x.started L w.disk).lcmdDb = some w.db := by
    simp [Session.started, Pipeline.construct, hx1, hx2, hx3, hpath, hkey, hinit]
  have hopened : w.db.initialized = true ∧ w.db.dbPath = path ∧ w.db.dbKey = key := by
    rw [hinit] at ho
    generalize hr : (w.db, true) = r at ho
    cases ho with
    | already h => cases h
    | badKey => cases (Prod.mk.inj hr).2
    | empty =>
      rw [(Prod.mk.inj hr).1]
      exact ⟨rfl, rfl, rfl⟩
    | loaded =>
      rw [(Prod.mk.inj hr).1]
      exact ⟨rfl, rfl, rfl⟩
    | failed => cases (Prod.mk.inj hr).2
  rw [hw] at hsafe
  refine ⟨w.db, hx3, hstarted, rfl, hopened.1, hopened.2.1, hopened.2.2, hsafe, ht, ⟨fun _ ↦ ?_, ?_⟩,
    fun _ ↦ rfl⟩
  · rwa [Nat.max_zero]
  · intro hc
    omega

/-- What a lifetime makes of the records: those with the numbers it uses are replaced. -/
theorem lived_contains {a b : Era} {x : Session} {t : Tables} (hL : L.Sound) (hpath : path ≠ [])
    (hkey : key.length = 32) (hc : Contains L path key a.disk t)
    (ht : t = { inferenceRecords := t.inferenceRecords }) (hn : Numbered m t.inferenceRecords)
    (h : Lived L path key a x b) :
    ∃ t', Contains L path key b.disk t' ∧ t' = { inferenceRecords := t'.inferenceRecords } ∧
      Numbered (max m (x.stores L a.disk)) t'.inferenceRecords ∧
      (x.stores L a.disk = 0 → t' = t) := by
  obtain ⟨db₀, hstart⟩ := started_live hpath hkey ⟨h.lcmdDbPath, h.lcmdDbKey, h.history⟩ h.opening
    hc ht hn
  obtain ⟨db, hend⟩ := events_live hstart x.events
  rw [Nat.zero_add] at hend
  have hfit := h.fits db hend.lcmdDb
  have hleft : b.disk = (World.shutdown L x.closing { db, disk := a.disk }).disk := by
    have hdb : (x.ended L a.disk).lcmdDb = some db := hend.lcmdDb
    rw [h.disk, Session.left, Pipeline.destroy, hdb]
  refine ⟨db.tables, ?_, hend.tables, hend.reaches.numbered (size_of_fits hfit), fun hzero ↦ ?_⟩
  · rw [hleft, ← hend.dbPath, ← hend.dbKey]
    refine reopens (w := { db, disk := a.disk }) hL hend.safe hend.initialized ?_ hfit hend.tables
      h.closing
    rw [hend.dbPath]
    exact hpath
  · rw [hend.tables, hend.start hzero, ← ht]

def highest (l : List Nat) : Nat := l.foldr max 0

theorem highest_le_sum (l : List Nat) : highest l ≤ l.sum := by
  induction l with
  | nil => exact Nat.le_refl 0
  | cons n l ih =>
    simp only [highest, List.foldr_cons, List.sum_cons] at ih ⊢
    omega

theorem highest_eq_sum_iff (l : List Nat) :
    highest l = l.sum ↔ l.Pairwise (fun n n' ↦ n = 0 ∨ n' = 0) := by
  induction l with
  | nil => simp [highest]
  | cons n l ih =>
    have hle := highest_le_sum l
    rw [List.pairwise_cons, ← ih, List.sum_cons]
    change max n (highest l) = _ ↔ _
    constructor
    · intro h
      refine ⟨fun n' hn' ↦ ?_, by omega⟩
      by_contra hno
      have hmem := List.single_le_sum (fun _ _ ↦ Nat.zero_le _) n' hn'
      omega
    · rintro ⟨hall, heq⟩
      by_cases hn : n = 0
      · omega
      · have hzero : l.sum = 0 := List.sum_eq_zero (fun n' hn' ↦ (hall n' hn').resolve_left hn)
        omega

def storesOf (L : Lfssl) (tr : List (Era × Session)) : List Nat :=
  tr.map (fun e ↦ e.2.stores L e.1.disk)

theorem lives_contain {a b : Era} {tr : List (Era × Session)} {t : Tables} (hL : L.Sound)
    (hpath : path ≠ []) (hkey : key.length = 32) (hr : Run (Lived L path key) a tr b)
    (hc : Contains L path key a.disk t) (ht : t = { inferenceRecords := t.inferenceRecords })
    (hn : Numbered m t.inferenceRecords) :
    ∃ t', Contains L path key b.disk t' ∧
      Numbered (max m (highest (storesOf L tr))) t'.inferenceRecords ∧
      b.stored = a.stored + (storesOf L tr).sum ∧ ((∀ n ∈ storesOf L tr, n = 0) → t' = t) := by
  induction hr generalizing t m with
  | nil a => exact ⟨t, hc, by simpa [highest, storesOf] using hn, by simp [storesOf], fun _ ↦ rfl⟩
  | @cons a a' b x tr hx _ ih =>
    obtain ⟨t₁, hc₁, ht₁, hn₁, hsame₁⟩ := lived_contains hL hpath hkey hc ht hn hx
    obtain ⟨t', hc', hn', hstored, hsame⟩ := ih hc₁ ht₁ hn₁
    refine ⟨t', hc', ?_, ?_, fun hall ↦ ?_⟩
    · simpa [highest, storesOf, Nat.max_assoc] using hn'
    · rw [hstored, hx.stored]
      simp [storesOf, Nat.add_assoc]
    · have hfirst : x.stores L a.disk = 0 := hall _ (by simp [storesOf])
      rw [hsame (fun n hn ↦ hall n (by simp [storesOf] at hn ⊢; exact .inr hn)), hsame₁ hfirst]

def Keeps (t t' : Tables) : Prop :=
  ∀ (k : ByteString) (r : Fields),
    t.inferenceRecords[k]? = some r → t'.inferenceRecords[k]? = some r

theorem numbered_zero {t : Tables} (h : Numbered 0 t.inferenceRecords) (t' : Tables) :
    Keeps t t' := by
  intro k r hk
  have hmem : k ∈ t.inferenceRecords := by
    rw [ExtTreeMap.mem_iff_isSome_getElem?, hk]
    rfl
  obtain ⟨i, hi, hi', -⟩ := (h k).mp hmem
  omega

theorem lives_keep {a b : Era} {tr : List (Era × Session)} {t t' : Tables} (hL : L.Sound)
    (hpath : path ≠ []) (hkey : key.length = 32) (hr : Run (Lived L path key) a tr b)
    (hc : Contains L path key a.disk t) (ht : t = { inferenceRecords := t.inferenceRecords })
    (hn : Numbered m t.inferenceRecords) (hc' : Contains L path key b.disk t')
    (hone : (storesOf L tr).Pairwise (fun n n' ↦ n = 0 ∨ n' = 0))
    (hquiet : m = 0 ∨ ∀ n ∈ storesOf L tr, n = 0) :
    ∀ e ∈ tr, ∀ t₀, Contains L path key e.1.disk t₀ → Keeps t₀ t' := by
  induction hr generalizing t m with
  | nil a => simp
  | @cons a a' b x tr hx hr ih =>
    intro e he t₀ hc₀
    rcases List.mem_cons.mp he with rfl | he
    · obtain rfl := hc₀.unique hc
      rcases hquiet with rfl | hquiet
      · exact numbered_zero hn t'
      · obtain ⟨t'', hc'', -, -, hsame⟩ :=
          lives_contain hL hpath hkey (.cons hx hr) hc ht hn
        rw [hc'.unique hc'', hsame hquiet]
        exact fun _ _ h ↦ h
    · obtain ⟨t₁, hc₁, ht₁, hn₁, -⟩ := lived_contains hL hpath hkey hc ht hn hx
      obtain ⟨hfirst, hrest⟩ := List.pairwise_cons.mp hone
      refine ih hc₁ ht₁ hn₁ hc' hrest ?_ e he t₀ hc₀
      rcases hquiet with rfl | hquiet
      · by_cases hx₀ : x.stores L a.disk = 0
        · exact .inl (by rw [hx₀, Nat.max_self])
        · exact .inr (fun n hn ↦ (hfirst n hn).resolve_left hx₀)
      · exact .inr (fun n hn ↦ hquiet n (List.mem_cons_of_mem _ hn))

/-- The database has all records that were ever stored in it, and none was replaced. -/
def Survives (L : Lfssl) (path key : ByteString) (tr : List (Era × Session)) (b : Era) : Prop :=
  ∃ t, Contains L path key b.disk t ∧ t.inferenceRecords.size = b.stored ∧
    ∀ e ∈ tr, ∀ t₀, Contains L path key e.1.disk t₀ → Keeps t₀ t

/-- Over any lifetimes on one database file, the records of all of them are there in the end
exactly when at most one lifetime stored any. -/
theorem history_survives_iff {disk : Disk} {tr : List (Era × Session)} {b : Era} (hL : L.Sound)
    (hpath : path ≠ []) (hkey : key.length = 32) (hfile : disk.exists path = false)
    (hr : Run (Lived L path key) { disk } tr b) :
    Survives L path key tr b ↔ (storesOf L tr).Pairwise (fun n n' ↦ n = 0 ∨ n' = 0) := by
  have hstart : Contains L path key disk {} := by
    intro mo _
    rw [World.initializeDb_empty (w := { disk }) rfl hkey hfile]
    exact ⟨_, rfl, rfl⟩
  have hnone : Numbered 0 ({} : Tables).inferenceRecords := by
    intro k
    simp only [ExtTreeMap.not_mem_empty, false_iff]
    rintro ⟨i, hi, hi', -⟩
    omega
  obtain ⟨t, hc, hn, hstored, -⟩ := lives_contain hL hpath hkey hr hstart rfl hnone
  have hsize : t.inferenceRecords.size = highest (storesOf L tr) := by
    rw [numbered_size hn, Nat.zero_max]
  rw [Nat.zero_add] at hstored
  constructor
  · rintro ⟨t', hc', hcount, -⟩
    rw [hc'.unique hc, hsize, hstored] at hcount
    exact (highest_eq_sum_iff _).mp hcount
  · intro hone
    refine ⟨t, hc, ?_, lives_keep hL hpath hkey hr hstart rfl hnone hc hone (.inl rfl)⟩
    rw [hsize, hstored]
    exact (highest_eq_sum_iff _).mpr hone

def oneCall (prompt : ByteString) : Session where
  cfg := { lcmdDbPath := lit "db", lcmdDbKey := List.replicate 32 7 }
  opening := workingMoment
  events := [.generate { prompt, width := 0 } { decodeLatents := .error .unknown }]
  closing := workingMoment

theorem fits_of_all {o : Option LocalMaintenanceDB}
    (h : o.all (fun db ↦ (plaintext db.tables).length + 16 ≤ kMaxCipherLen) = true) :
    ∀ db, o = some db → db.tables.Fits := by
  rintro db rfl
  simpa [Tables.Fits] using h

def noCall : Session := { oneCall [] with events := [] }

theorem lived_of_fits {x : Session} {a : Era} (hcfg : x.cfg = (oneCall []).cfg)
    (hopening : x.opening = workingMoment) (hclosing : x.closing = workingMoment)
    (hfit : (x.ended tagLfssl a.disk).lcmdDb.all
      (fun db ↦ (plaintext db.tables).length + 16 ≤ kMaxCipherLen) = true) :
    Lived tagLfssl (lit "db") (List.replicate 32 7) a x
      ⟨x.left tagLfssl a.disk, a.stored + x.stores tagLfssl a.disk⟩ :=
  ⟨by rw [hcfg]; rfl, by rw [hcfg]; rfl, by rw [hcfg]; rfl, hopening ▸ workingMoment_works,
    hclosing ▸ workingMoment_works, fits_of_all hfit, rfl, rfl⟩

theorem oneCall_lived (prompt : ByteString) {a : Era}
    (hfit : ((oneCall prompt).ended tagLfssl a.disk).lcmdDb.all
      (fun db ↦ (plaintext db.tables).length + 16 ≤ kMaxCipherLen) = true) :
    Lived tagLfssl (lit "db") (List.replicate 32 7) a (oneCall prompt)
      ⟨(oneCall prompt).left tagLfssl a.disk, a.stored + (oneCall prompt).stores tagLfssl a.disk⟩ :=
  lived_of_fits rfl rfl rfl hfit

/-- The second lifetime opens the database and closes it again. -/
theorem history_survives_iff_two_lifetimes :
    ∃ tr b, Run (Lived tagLfssl (lit "db") (List.replicate 32 7)) { disk := ∅ } tr b ∧
      tr.map (fun e ↦ e.2) = [oneCall (lit "a cat"), noCall] ∧
      b.stored = 1 ∧ Survives tagLfssl (lit "db") (List.replicate 32 7) tr b := by
  have hr : Run (Lived tagLfssl (lit "db") (List.replicate 32 7)) { disk := ∅ } _ _ :=
    .cons (oneCall_lived (lit "a cat") (by decide +kernel))
      (.cons (lived_of_fits (x := noCall) rfl rfl rfl (by decide +kernel)) (.nil _))
  exact ⟨_, _, hr, rfl, by decide +kernel, (history_survives_iff tagLfssl_sound (by decide) (by decide)
    (by decide) hr).mpr (by decide +kernel)⟩

/-- Two lifetimes with one call each: the second record takes the number of the first. -/
theorem record_replaced_after_restart :
    ∃ tr b, Run (Lived tagLfssl (lit "db") (List.replicate 32 7)) { disk := ∅ } tr b ∧
      tr.map (fun e ↦ e.2) = [oneCall (lit "a cat"), oneCall (lit "a dog")] ∧ b.stored = 2 ∧
      ¬ Survives tagLfssl (lit "db") (List.replicate 32 7) tr b := by
  have hr : Run (Lived tagLfssl (lit "db") (List.replicate 32 7)) { disk := ∅ } _ _ :=
    .cons (oneCall_lived (lit "a cat") (by decide +kernel))
      (.cons (oneCall_lived (lit "a dog") (by decide +kernel)) (.nil _))
  refine ⟨_, _, hr, rfl, by decide +kernel, ?_⟩
  rintro ⟨t, hc, hsize, -⟩
  obtain ⟨w, hw, rfl⟩ := hc workingMoment workingMoment_works
  have hopened := congrArg (fun r : World × Bool ↦ r.1.db.tables.inferenceRecords.size) hw
  rw [← hopened] at hsize
  revert hsize
  decide +kernel

end Cerberus.Generation
