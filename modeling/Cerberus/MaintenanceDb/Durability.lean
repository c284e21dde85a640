import Cerberus.MaintenanceDb.Names

namespace Cerberus.MaintenanceDb

open Std Foundation Foundation.Bytes Foundation.Trace Foundation.Wire

/-- AES-256-GCM: the ciphertext of a text is sixteen bytes longer, and is decrypted to it. -/
structure Lfssl.Sound (L : Lfssl) : Prop where
  sealed : ∀ {key nonce text : ByteString}, key.length = 32 → nonce.length = 12 → text ≠ [] →
    Short text.length →
    ∃ c, L.encrypt key nonce text = some c ∧ c.length = text.length + 16 ∧
      L.decrypt key nonce c = some text

structure Moment.Works (mo : Moment) : Prop where
  lfsslAvailable : mo.lfsslAvailable = true
  randomBytes : mo.randomBytes ≠ none
  opensForWriting : mo.opensForWriting = true
  cutAt : mo.cutAt = none
  opensForReading : mo.opensForReading = true

/-- The ciphertext is not longer than `load_from_disk_` accepts. -/
def Tables.Fits (t : Tables) : Prop := (plaintext t).length + 16 ≤ kMaxCipherLen

/-- `shutdown`, then `initialize` with the same path and key, brings back the tables. -/
def Restores (L : Lfssl) (w : World) : Prop :=
  ∀ mo mo' : Moment, mo.Works → mo'.Works →
    ∃ w', (w.shutdown L mo).initializeDb L mo' w.db.dbPath w.db.dbKey = (w', true) ∧
      w'.db.tables = w.db.tables

section files

theorem readInto_append {n : Nat} {s r : ByteString} (hs : s.length = n) :
    readInto n (s ++ r) = (s, r) := by
  subst hs
  simp [readInto]

theorem readBe32_packU32 {n : Nat} (hn : Short n) (r : ByteString) :
    readBe32 (packU32 n ++ r) = (n, r) := by
  have hread : readU32 (packU32 n) = (n, []) := by simpa using readU32_packU32 hn []
  simp only [readBe32, readInto_append (length_packU32 n), hread]

theorem unframe_frame {nonce c : ByteString} (hn : nonce.length = 12) (hlow : 16 ≤ c.length)
    (hhigh : c.length ≤ kMaxCipherLen) : unframe (frame nonce c) = some (nonce, c) := by
  have hshort : Short c.length := by
    simp only [Short, kMaxCipherLen] at hhigh ⊢
    omega
  simp only [unframe, frame, List.append_assoc, hn]
  rw [readBe32_packU32 (by simp [Short])]
  simp only [ne_eq, not_true_eq_false, if_false, readInto_append hn, readBe32_packU32 hshort]
  rw [if_neg (by simp; omega), if_neg (by omega), List.take_length]

structure Loads (L : Lfssl) (disk : Disk) (path key : ByteString) (t : Tables) : Prop where
  file : ∃ file nonce ciphertext text, disk[path]? = some file ∧
    unframe file = some (nonce, ciphertext) ∧ L.decrypt key nonce ciphertext = some text ∧
    text ≠ [] ∧ deserializeAll {} text = some t

theorem deserializeAll_congr {t₀ : Tables} (h₀ : t₀.trustPolicy = none) (text : ByteString) :
    deserializeAll t₀ text = deserializeAll {} text := by
  have htables : readTables t₀ = readTables {} := by rw [readTables, readTables, h₀]
  rw [deserializeAll, deserializeAll, htables]

variable {L : Lfssl} {mo : Moment} {disk : Disk} {d : LocalMaintenanceDB} {t : Tables}

theorem exists_of_get {path file : ByteString} (hpath : path ≠ []) (h : disk[path]? = some file) :
    disk.exists path = true := by
  have hmem : path ∈ disk := by
    rw [ExtTreeMap.mem_iff_isSome_getElem?, h]
    rfl
  simp [Disk.exists, hpath, hmem]

theorem Loads.load (h : Loads L disk d.dbPath d.dbKey t) (hpath : d.dbPath ≠ [])
    (hm : mo.Works) (h₀ : d.tables.trustPolicy = none) : loadFromDisk L mo d disk = some t := by
  obtain ⟨file, nonce, c, text, hfile, hframe, hdecrypt, htext, hdecode⟩ := h.file
  obtain ⟨b, bs, rfl⟩ := List.exists_cons_of_ne_nil htext
  rw [← deserializeAll_congr h₀] at hdecode
  simp [loadFromDisk, exists_of_get hpath hfile, hm.opensForReading, hfile, hframe,
    hm.lfsslAvailable, hdecrypt, hdecode]

theorem loads_of_load (hfile : disk.exists d.dbPath = true) (h₀ : d.tables.trustPolicy = none)
    (h : loadFromDisk L mo d disk = some t) : Loads L disk d.dbPath d.dbKey t := by
  simp only [loadFromDisk, hfile, Bool.not_true, Bool.false_eq_true, if_false] at h
  split at h
  · cases h
  · obtain ⟨file, hf, h⟩ := Option.bind_eq_some_iff.mp h
    obtain ⟨⟨nonce, c⟩, hframe, h⟩ := Option.bind_eq_some_iff.mp h
    simp only at h
    split at h
    · cases h
    · split at h
      · cases h
      · cases h
      · next text hnil htext =>
        rw [deserializeAll_congr h₀] at h
        exact ⟨file, nonce, c, text, hf, hframe, htext, hnil, h⟩

theorem plaintext_ne_nil (t : Tables) : plaintext t ≠ [] := by
  intro h
  have hlength := length_plaintext t
  rw [h] at hlength
  simp at hlength
  omega

theorem flush_loads (hL : L.Sound) (hm : mo.Works) (hpath : d.dbPath ≠ [])
    (hkey : d.dbKey.length = 32) (hn : d.tables.Named) (hfit : d.tables.Fits) :
    Loads L (flushToDisk L mo d disk).1 d.dbPath d.dbKey d.tables := by
  obtain ⟨nonce, hnonce⟩ := Option.ne_none_iff_exists'.mp hm.randomBytes
  have hlength : nonce.toList.length = 12 := by simp
  have hshort : Short (plaintext d.tables).length := by
    simp only [Tables.Fits, kMaxCipherLen, Short] at hfit ⊢
    omega
  obtain ⟨c, hencrypt, hc, hdecrypt⟩ :=
    hL.sealed hkey hlength (plaintext_ne_nil d.tables) hshort
  have hsome : c ≠ [] := by
    rintro rfl
    simp at hc
  obtain ⟨b, bs, rfl⟩ := List.exists_cons_of_ne_nil hsome
  have hflush : (flushToDisk L mo d disk).1 =
      disk.insert d.dbPath (frame nonce.toList (b :: bs)) := by
    simp [flushToDisk, hpath, hm.lfsslAvailable, hnonce, hencrypt, hm.opensForWriting, hm.cutAt]
  have hframe := unframe_frame hlength (c := b :: bs) (by omega) (by rw [hc]; exact hfit)
  refine ⟨_, nonce.toList, b :: bs, plaintext d.tables, ?_, hframe, hdecrypt,
    plaintext_ne_nil d.tables, deserializeAll_plaintext (hn.expressible hshort) rfl⟩
  rw [hflush]
  simp

end files

theorem assign_eq_self {m : Fields} {l : List (String × ByteString)}
    (hl : (l.map Prod.fst).Nodup) : assign m l = m ↔ ∀ e ∈ l, m[lit e.1]? = some e.2 := by
  constructor
  · intro h e he
    rw [← h]
    exact get_assign hl he
  · intro h
    clear hl
    induction l with
    | nil => simp [assign]
    | cons e l ih =>
      have hrest := ih (fun e' he ↦ h e' (by simp [he]))
      rw [assign, List.map_cons, ExtTreeMap.insertMany_cons,
        FiniteMap.insert_eq_self.mpr (h e (by simp))]
      exact hrest

theorem Tables.upsert_eq_self {t : Tables} {n : TableName} {key : ByteString} {record : Fields} :
    t.upsert n key record = t ↔ (t.get n)[key]? = some record := by
  rw [← FiniteMap.insert_eq_self]
  constructor
  · intro h
    have hget := t.get_upsert n n key record
    rwa [h, if_pos rfl, eq_comm] at hget
  · intro h
    rw [Tables.upsert, h]
    cases n <;> rfl

/-- The three calls that do not mark the database dirty: it is dirty already, or they find
what they would write. -/
def Mutation.kept (now : Int) (d : LocalMaintenanceDB) : Mutation → Prop
  | .consumeOnboardingGrant grantId consumedBy reason =>
    d.dirty = true ∨ ∀ grant, d.initialized = true →
      d.tables.onboardingGrants[grantId]? = some grant →
      ∀ e ∈ LocalMaintenanceDB.consumption now consumedBy reason, grant[lit e.1]? = some e.2
  | .incrementRbpcFailedAttempts _ => d.dirty = true
  | .setRbpcBurned nodeId =>
    d.dirty = true ∨ ∃ record, d.tables.rbpcStateRecords[nodeId]? = some record ∧
      ∀ e ∈ LocalMaintenanceDB.burn, record[lit e.1]? = some e.2
  | _ => True

theorem LocalMaintenanceDB.mutate_kept {now : Int} {d : LocalMaintenanceDB} {u : Mutation}
    (hs : u.silent = true) (hk : u.kept now d) (hd : d.dirty = false) :
    (d.mutate now u).1.tables = d.tables := by
  cases u with
  | consumeOnboardingGrant g b r =>
    simp only [mutate, consumeOnboardingGrant]
    by_cases hg : (!d.initialized || g.isEmpty) = true
    · rw [if_pos hg]
    · rw [if_neg hg]
      split
      · rfl
      · next grant hgrant =>
        have hsame := (hk.resolve_left (by simp [hd])) grant (opened (Bool.eq_false_iff.mpr hg)) hgrant
        rw [(assign_eq_self (by simp [consumption])).mpr hsame]
        exact (Tables.upsert_eq_self (n := .onboardingGrants)).mpr hgrant
  | incrementRbpcFailedAttempts n => simp [Mutation.kept, hd] at hk
  | setRbpcBurned n =>
    obtain ⟨record, hrec, hsame⟩ := hk.resolve_left (by simp [hd])
    have hfield : record ≠ ∅ := by
      rintro rfl
      simpa using hsame ("burned", lit "true") (by simp [burn])
    simp only [mutate, setRbpcBurned, hrec, Option.getD_some]
    rw [if_neg (by simpa using hfield), (assign_eq_self (by simp [burn])).mpr hsame]
    exact (Tables.upsert_eq_self (n := .rbpcStateRecords)).mpr hrec
  | _ => cases hs

/-- No call of the run loses anything: none stores an empty name, and none changes a table
of a database that stays clean. -/
def Call.kept (w : World) (mo : Moment) : Call → Prop
  | .mutate u => u.named w.db ∧ u.kept mo.now w.db
  | _ => True

/-- What the file has of a database that is open and not dirty: everything, or there is no
file and nothing that `shutdown` would clear. -/
def Synced (L : Lfssl) (w : World) : Prop :=
  Loads L w.disk w.db.dbPath w.db.dbKey w.db.tables ∧ w.disk.exists w.db.dbPath = true ∨
    w.disk.exists w.db.dbPath = false ∧ w.db.tables.clear = w.db.tables

structure Safe (L : Lfssl) (w : World) : Prop where
  named : w.db.tables.Named
  dormant : Dormant w
  key : w.db.initialized = true → w.db.dbKey.length = 32
  asleep : w.db.initialized = false → w.db.dirty = false → w.db.tables.rbpcStateRecords = ∅
  synced : w.db.initialized = true → w.db.dirty = false → Synced L w

variable {L : Lfssl} {w w' : World}

theorem safe_new (disk : Disk) : Safe L { disk } :=
  ⟨⟨fun n ↦ by cases n <;> exact each_empty, each_empty, each_empty⟩, dormant_new disk,
    by simp, fun _ _ ↦ rfl, by simp⟩

theorem Tables.Spent.clear_eq {t : Tables} (h : t.Spent) (hr : t.rbpcStateRecords = ∅) :
    t.clear = t := by
  obtain ⟨h1, h2, h3, h4, h5, h6, h7, h8⟩ := h
  obtain ⟨⟩ := t
  simp only at h1 h2 h3 h4 h5 h6 h7 h8 hr
  subst h1 h2 h3 h4 h5 h6 h7 h8 hr
  rfl

theorem initializeDb_safe {mo : Moment} {dbPath dbKey : ByteString} (h : Safe L w) :
    Safe L (w.initializeDb L mo dbPath dbKey).1 := by
  have hnamed : (w.initializeDb L mo dbPath dbKey).1.db.tables.Named := initializeDb_named h.named
  have hdormant : Dormant (w.initializeDb L mo dbPath dbKey).1 :=
    step_dormant (e := (mo, .initializeDb dbPath dbKey)) h.dormant rfl
  have ho := w.db.initializeDb_opening L mo w.disk dbPath dbKey
  simp only [World.initializeDb] at hnamed hdormant ⊢
  generalize w.db.initializeDb L mo w.disk dbPath dbKey = r at ho hnamed hdormant ⊢
  cases ho with
  | already => exact h
  | badKey => exact h
  | empty hclosed hkey hfile =>
    refine ⟨hnamed, hdormant, fun _ ↦ hkey, by simp, fun _ hd ↦ .inr ⟨hfile, ?_⟩⟩
    exact (h.dormant hclosed).clear_eq (h.asleep hclosed hd)
  | loaded t hclosed hkey hfile hload =>
    refine ⟨hnamed, hdormant, fun _ ↦ hkey, by simp, fun _ _ ↦ .inl ⟨?_, hfile⟩⟩
    exact loads_of_load (d := { w.db with dbPath, dbKey }) hfile
      (h.dormant hclosed).trustPolicy hload
  | failed hclosed =>
    exact ⟨hnamed, hdormant, fun hi ↦ absurd hi (by simp [hclosed]), h.asleep,
      fun hi ↦ absurd hi (by simp [hclosed])⟩

theorem shutdown_safe {mo : Moment} (h : Safe L w) : Safe L (w.shutdown L mo) := by
  unfold World.shutdown
  split
  · exact h
  · exact ⟨h.named.clear, fun _ ↦ w.db.tables.clear_spent, by simp,
      fun _ _ ↦ rfl, by simp⟩

theorem mutate_safe {mo : Moment} {u : Mutation} (h : Safe L w) (hn : u.named w.db)
    (hk : u.kept mo.now w.db) : Safe L { w with db := (w.db.mutate mo.now u).1 } := by
  have hnamed : (w.db.mutate mo.now u).1.tables.Named :=
    (LocalMaintenanceDB.mutate_named h.named u).mpr hn
  have hdormant := mutate_dormant h.dormant mo.now u
  cases w.db.mutate_outcome mo.now u with
  | refused he =>
    rw [he]
    exact h
  | marked e he hd =>
    refine ⟨hnamed, hdormant, fun hi ↦ ?_, fun _ hc ↦ ?_, fun _ hc ↦ ?_⟩
    · exact he.dbKey ▸ h.key (he.initialized ▸ hi)
    · exact absurd hc (by simp [hd])
    · exact absurd hc (by simp [hd])
  | silent e he hd hs =>
    -- unless it is marked already, a silent call leaves the tables as they are
    refine ⟨hnamed, hdormant, fun hi ↦ ?_, fun hi hc ↦ ?_, fun hi hc ↦ ?_⟩
    · exact he.dbKey ▸ h.key (he.initialized ▸ hi)
    · have hclean : w.db.dirty = false := hd.symm.trans hc
      have htables := LocalMaintenanceDB.mutate_kept hs hk hclean
      simp only [htables]
      exact h.asleep (he.initialized ▸ hi) hclean
    · have hclean : w.db.dirty = false := hd.symm.trans hc
      have htables := LocalMaintenanceDB.mutate_kept hs hk hclean
      simp only [Synced, htables, he.dbPath, he.dbKey]
      exact h.synced (he.initialized ▸ hi) hclean

theorem step_safe {e : Moment × Call} (h : Safe L w) (he : e.2.kept w e.1)
    (hs : Step L w e w') : Safe L w' := by
  obtain ⟨mo, call⟩ := e
  subst hs
  cases call with
  | initializeDb dbPath dbKey => exact initializeDb_safe h
  | shutdown => exact shutdown_safe h
  | mutate u => exact mutate_safe h he.1 he.2
  | query q => exact h
  | setOfflineMode offline => exact ⟨h.named, h.dormant, h.key, h.asleep, h.synced⟩
  | queueForSync table key record => exact ⟨h.named, h.dormant, h.key, h.asleep, h.synced⟩
  | replaySyncQueue callback maxRecords =>
    simp only [World.serve, LocalMaintenanceDB.replaySyncQueue]
    split
    · exact h
    · exact ⟨h.named, h.dormant, h.key, h.asleep, h.synced⟩

theorem Loads.reopen {mo : Moment} {path key : ByteString} {t : Tables}
    (h : Loads L w.disk path key t) (hclosed : w.db.initialized = false) (hkey : key.length = 32)
    (hpath : path ≠ []) (hm : mo.Works) (h₀ : w.db.tables.trustPolicy = none) :
    ∃ w', w.initializeDb L mo path key = (w', true) ∧ w'.db.tables = t := by
  obtain ⟨file, -, -, -, hfile, -⟩ := h.file
  have hload : loadFromDisk L mo { w.db with dbPath := path, dbKey := key } w.disk = some t :=
    Loads.load (d := { w.db with dbPath := path, dbKey := key }) h hpath hm h₀
  have hexists := exists_of_get hpath hfile
  have ho := w.db.initializeDb_opening L mo w.disk path key
  simp only [World.initializeDb]
  generalize w.db.initializeDb L mo w.disk path key = r at ho ⊢
  cases ho with
  | already hopen => simp [hclosed] at hopen
  | badKey _ hbad => exact absurd hkey hbad
  | empty _ _ hnone => simp [hexists] at hnone
  | loaded t' _ _ _ hload' => exact ⟨_, rfl, Option.some.inj (hload'.symm.trans hload)⟩
  | failed _ _ _ hload' => simp [hload] at hload'

theorem Safe.restores (hL : L.Sound) (h : Safe L w) (hopen : w.db.initialized = true)
    (hpath : w.db.dbPath ≠ []) (hfit : w.db.tables.Fits) : Restores L w := by
  intro mo mo' hm hm'
  have hkey := h.key hopen
  have hclosed := (w.shutdown_db L mo).1
  have hpolicy : (w.shutdown L mo).db.tables.trustPolicy = none := by
    simp [World.shutdown, hopen, Tables.clear]
  cases hdirty : w.db.dirty with
  | true =>
    have hload : Loads L (w.shutdown L mo).disk w.db.dbPath w.db.dbKey w.db.tables := by
      simpa [World.shutdown, hopen, hdirty] using flush_loads hL hm hpath hkey h.named hfit
    exact hload.reopen hclosed hkey hpath hm' hpolicy
  | false =>
    rcases h.synced hopen hdirty with ⟨hload, -⟩ | ⟨hfile, hclear⟩
    · have hload' : Loads L (w.shutdown L mo).disk w.db.dbPath w.db.dbKey w.db.tables := by
        simpa [World.shutdown, hopen, hdirty] using hload
      exact hload'.reopen hclosed hkey hpath hm' hpolicy
    · have hfile' : (w.shutdown L mo).disk.exists w.db.dbPath = false := by
        simpa [World.shutdown, hopen, hdirty] using hfile
      rw [World.initializeDb_empty hclosed hkey hfile']
      refine ⟨_, rfl, ?_⟩
      simpa [World.shutdown, hopen] using hclear

/-- In a run of public calls in which no empty name is stored, and no call that forgets to
mark the database changes it while it is clean, every open database with a path, and contents
that the loader accepts, comes back from `shutdown` and `initialize` as it was. -/
theorem tables_durable (hL : L.Sound) {disk : Disk} {tr : List (World × Moment × Call)}
    (hr : Run (Step L) { disk } tr w) (hok : ∀ e ∈ tr, e.2.2.kept e.1 e.2.1) :
    Throughout (fun w ↦ w.db.initialized = true → w.db.dbPath ≠ [] → w.db.tables.Fits →
      Restores L w) tr w := by
  have hsafe : Throughout (Safe L) tr w :=
    hr.guarded (fun _ _ _ h he hs ↦ step_safe h he hs) (safe_new disk) hok
  exact ⟨fun e he ↦ (hsafe.1 e he).restores hL, hsafe.2.restores hL⟩

def tagLfssl : Lfssl where
  encrypt key _ text := some (text ++ key.take 16)
  decrypt key _ c :=
    if c.drop (c.length - 16) = key.take 16 then some (c.take (c.length - 16)) else none

theorem tagLfssl_sound : tagLfssl.Sound := by
  refine ⟨fun {key nonce text} hkey _ _ _ ↦ ?_⟩
  have htag : (key.take 16).length = 16 := by simp [hkey]
  refine ⟨text ++ key.take 16, rfl, by simp [hkey], ?_⟩
  have hlength : (text ++ key.take 16).length - 16 = text.length := by
    rw [List.length_append, htag]
    omega
  simp only [tagLfssl, hlength, List.drop_left, List.take_left, if_true]

def workingMoment : Moment := { randomBytes := some (Vector.replicate 12 0) }

theorem workingMoment_works : workingMoment.Works := ⟨rfl, by simp [workingMoment], rfl, rfl, rfl⟩

theorem tables_durable_preference :
    ∃ tr w, Run (Step tagLfssl) { disk := ∅ } tr w ∧ w.db.tables.preferences ≠ ∅ ∧
      Restores tagLfssl w := by
  have hr : Run (Step tagLfssl) { disk := ∅ } _ _ :=
    .cons (a := (workingMoment, .initializeDb (lit "db") (List.replicate 32 7))) rfl
      (.cons (a := (workingMoment, .mutate (.storePreference (lit "k") (lit "v")))) rfl (.nil _))
  have hdurable := (tables_durable tagLfssl_sound hr
    (by simp [Call.kept, Mutation.named, Mutation.kept])).2
  refine ⟨_, _, hr, by decide, hdurable (by decide) (by decide) ?_⟩
  unfold Tables.Fits
  decide

/-- A burned PIN is usable again after a restart: the call does not mark the database dirty. -/
theorem burn_forgotten :
    ∃ tr w, Run (Step tagLfssl) { disk := ∅ } tr w ∧
      tr.map (fun e ↦ e.2) = [
        (workingMoment, .initializeDb (lit "db") (List.replicate 32 7)),
        (workingMoment, .mutate (.setRbpcBurned (lit "node")))] ∧
      w.db.initialized = true ∧ w.db.dbPath = lit "db" ∧ ¬ Restores tagLfssl w := by
  have hr : Run (Step tagLfssl) { disk := ∅ } _ _ :=
    .cons (a := (workingMoment, .initializeDb (lit "db") (List.replicate 32 7))) rfl
      (.cons (a := (workingMoment, .mutate (.setRbpcBurned (lit "node")))) rfl (.nil _))
  refine ⟨_, _, hr, rfl, by decide, by decide, fun h ↦ ?_⟩
  obtain ⟨w', hw, ht⟩ := h workingMoment workingMoment workingMoment_works workingMoment_works
  have hreopened := (congrArg (fun r : World × Bool ↦ r.1.db.tables.rbpcStateRecords) hw).trans
    (congrArg Tables.rbpcStateRecords ht)
  revert hreopened
  decide

end Cerberus.MaintenanceDb
