import Cerberus.Foundation.Keys
import Cerberus.MaintenanceDb.Codec
import Cerberus.MaintenanceDb.Sessions

namespace Cerberus.MaintenanceDb

open Std Foundation.Bytes Foundation.Wire

def recordTime (record : Fields) : Option Int := record[lit "timestamp"]?.bind stoll

def InferenceRecord.time (r : InferenceRecord) : Option Int := stoll r.timestamp

/-- What `handle_inference_history_` asks for at a time of the clock. -/
def Tables.historyRecords (t : Tables) (now : Int) : List InferenceRecord :=
  t.queryInferenceRecords 0 (now + 86400) 100

def Tables.Timed (t : Tables) (now : Int) : Prop :=
  ∀ record ∈ t.inferenceRecords.values, ∃ ts, recordTime record = some ts ∧ 0 ≤ ts ∧ ts ≤ now

/-- The list has a hundred of the stored records, or all, and what is left out is not later than
what it has. -/
def Tables.ShowsLatest (t : Tables) (now : Int) : Prop :=
  (t.historyRecords now).length = min 100 t.inferenceRecords.values.length ∧
    ∃ left : List InferenceRecord,
      (t.historyRecords now ++ left).Perm (t.inferenceRecords.values.map .fromMap) ∧
      ∀ r ∈ t.historyRecords now, ∀ r' ∈ left, ∀ ts ∈ r.time, ∀ ts' ∈ r'.time, ts' ≤ ts

/-- Behind the hundredth record, in the order of the ids, there is none that is later than one of
the first hundred. -/
def Tables.OrderedByTime (t : Tables) : Prop :=
  ∀ record ∈ t.inferenceRecords.values.take 100, ∀ later ∈ t.inferenceRecords.values.drop 100,
    ∀ ts ∈ recordTime record, ∀ ts' ∈ recordTime later, ts' ≤ ts

variable {t : Tables} {now ts : Int} {record : Fields}

theorem fromMap_time (h : recordTime record = some ts) :
    (InferenceRecord.fromMap record).time = some ts := by
  obtain ⟨text, htext, hread⟩ := Option.bind_eq_some_iff.mp h
  unfold InferenceRecord.time InferenceRecord.fromMap Fields.text
  rw [htext]
  exact hread

/-- Every record passes the test of the query, which stops at the hundredth. -/
theorem historyRecords_eq (h : t.Timed now) :
    t.historyRecords now = (t.inferenceRecords.values.take 100).map .fromMap := by
  unfold Tables.historyRecords Tables.queryInferenceRecords Table.select
  rw [List.filter_eq_self.mpr ?_]
  · exact (List.map_take ..).symm
  · intro record hrecord
    obtain ⟨ts, hts, hlow, hhigh⟩ := h record hrecord
    rw [recordTime] at hts
    simp only [hts, Bool.and_eq_true, decide_eq_true_eq]
    omega

theorem left_perm (t : Tables) :
    ((t.inferenceRecords.values.take 100).map InferenceRecord.fromMap ++
      (t.inferenceRecords.values.drop 100).map InferenceRecord.fromMap).Perm
        (t.inferenceRecords.values.map .fromMap) := by
  rw [← List.map_append, List.take_append_drop]

theorem Tables.ShowsLatest.ordered (hs : t.ShowsLatest now) (h : t.Timed now) :
    t.OrderedByTime := by
  obtain ⟨-, left, hperm, hleft⟩ := hs
  have hsame : left.Perm ((t.inferenceRecords.values.drop 100).map .fromMap) := by
    rw [historyRecords_eq h] at hperm
    exact (List.perm_append_left_iff _).mp (hperm.trans (left_perm t).symm)
  intro record hrecord later hlater ts hts ts' hts'
  apply hleft (.fromMap record) ?_ (.fromMap later) ?_ ts (fromMap_time hts) ts' (fromMap_time hts')
  · rw [historyRecords_eq h]
    exact List.mem_map_of_mem hrecord
  · exact hsame.mem_iff.mpr (List.mem_map_of_mem hlater)

theorem Tables.OrderedByTime.latest (ho : t.OrderedByTime) (h : t.Timed now) :
    t.ShowsLatest now := by
  refine ⟨?_, (t.inferenceRecords.values.drop 100).map .fromMap, ?_, ?_⟩
  · rw [historyRecords_eq h, List.length_map, List.length_take]
  · rw [historyRecords_eq h]
    exact left_perm t
  · intro r hr r' hr' ts hts ts' hts'
    rw [historyRecords_eq h] at hr
    obtain ⟨record, hrecord, rfl⟩ := List.mem_map.mp hr
    obtain ⟨later, hlater, rfl⟩ := List.mem_map.mp hr'
    obtain ⟨ts₁, hts₁, -⟩ := h record (List.mem_of_mem_take hrecord)
    obtain ⟨ts₂, hts₂, -⟩ := h later (List.mem_of_mem_drop hlater)
    obtain rfl := Option.some.inj ((fromMap_time hts₁).symm.trans hts)
    obtain rfl := Option.some.inj ((fromMap_time hts₂).symm.trans hts')
    exact ho record hrecord later hlater _ hts₁ _ hts₂

/-- The history shows the latest records exactly when the order of the ids does not put a record
behind the hundredth that is later than one before it. -/
theorem showsLatest_iff (t : Tables) (now : Int) (h : t.Timed now) :
    t.ShowsLatest now ↔ t.OrderedByTime :=
  ⟨fun hs ↦ hs.ordered h, fun ho ↦ ho.latest h⟩

def countedRecord (i : Nat) : Fields :=
  InferenceRecord.toMap { inferenceId := decimal (i + 1), timestamp := decimal i }

/-- The records that a pipeline stores, one a second, with the numbers up to `n` as their ids. -/
def countedRecords (n : Nat) : Tables where
  inferenceRecords :=
    (List.range n).foldl (fun m i ↦ m.insert (decimal (i + 1)) (countedRecord i)) ∅

theorem values_eq (m : Table) : m.values = m.toList.map Prod.snd := by
  rcases m with ⟨⟨m⟩⟩
  induction m using Quotient.inductionOn with
  | h m =>
    change m.inner.values = (DTreeMap.Internal.Impl.Const.toList m.inner).map Prod.snd
    rw [DTreeMap.Internal.Impl.values_eq_map_snd,
      DTreeMap.Internal.Impl.Const.toList_eq_toListModel_map, List.map_map]
    rfl

theorem countedRecords_succ (n : Nat) : (countedRecords (n + 1)).inferenceRecords =
    (countedRecords n).inferenceRecords.insert (decimal (n + 1)) (countedRecord n) := by
  simp [countedRecords, List.range_succ]

theorem countedRecords_get (n : Nat) (k : ByteString) :
    (countedRecords n).inferenceRecords[k]? = some record ↔
      ∃ i < n, k = decimal (i + 1) ∧ record = countedRecord i := by
  induction n with
  | zero => simp [countedRecords]
  | succ n ih =>
    rw [countedRecords_succ, Foundation.FiniteMap.get_insert]
    by_cases hk : decimal (n + 1) = k
    · subst hk
      rw [if_pos rfl]
      constructor
      · rintro ⟨⟩
        exact ⟨n, by omega, rfl, rfl⟩
      · rintro ⟨i, -, heq, rfl⟩
        have := decimal_injective heq
        rw [show i = n by omega]
    · rw [if_neg hk, ih]
      constructor
      · rintro ⟨i, hi, hrest⟩
        exact ⟨i, by omega, hrest⟩
      · rintro ⟨i, hi, rfl, hrecord⟩
        have hne : i ≠ n := fun h ↦ hk (by rw [h])
        exact ⟨i, by omega, rfl, hrecord⟩

theorem countedRecord_time {i : Nat} (h : i < 2 ^ 63) : recordTime (countedRecord i) = some (i : Int) := by
  let r : InferenceRecord := { inferenceId := decimal (i + 1), timestamp := decimal i }
  have hnodup : (r.entries.map Prod.fst).Nodup := by simp [InferenceRecord.entries]
  have htext : (countedRecord i)[lit "timestamp"]? = some (decimal i) :=
    get_assign hnodup (by simp [InferenceRecord.entries])
  have hread : leadingInteger (decimal i) = some (i : Int) := leadingInteger_signedDecimal i
  have hfits : fits 64 i = true := by
    simp only [fits, Bool.and_eq_true, decide_eq_true_eq]
    omega
  rw [recordTime, htext, Option.bind_some, stoll, hread, Option.filter_some, if_pos hfits]

theorem mem_countedRecords {n : Nat} : record ∈ (countedRecords n).inferenceRecords.values ↔
    ∃ i < n, record = countedRecord i := by
  rw [values_eq, List.mem_map]
  constructor
  · rintro ⟨⟨k, record⟩, hmem, rfl⟩
    rw [ExtTreeMap.mem_toList_iff_getElem?_eq_some, countedRecords_get] at hmem
    obtain ⟨i, hi, -, hrecord⟩ := hmem
    exact ⟨i, hi, hrecord⟩
  · rintro ⟨i, hi, rfl⟩
    refine ⟨(decimal (i + 1), countedRecord i), ?_, rfl⟩
    rw [ExtTreeMap.mem_toList_iff_getElem?_eq_some, countedRecords_get]
    exact ⟨i, hi, rfl, rfl⟩

theorem countedRecords_timed {n : Nat} (h : n ≤ 2 ^ 63) : (countedRecords n).Timed n := by
  intro record hrecord
  obtain ⟨i, hi, rfl⟩ := mem_countedRecords.mp hrecord
  exact ⟨i, countedRecord_time (by omega), by omega, by omega⟩

theorem countedRecords_length (n : Nat) : (countedRecords n).inferenceRecords.values.length = n := by
  rw [values_eq, List.length_map, ExtTreeMap.length_toList]
  induction n with
  | zero => rfl
  | succ n ih =>
    rw [countedRecords_succ, Foundation.Keys.size_insert_absent, ih]
    rw [ExtTreeMap.mem_iff_isSome_getElem?]
    intro hsome
    obtain ⟨record, hrecord⟩ := Option.isSome_iff_exists.mp hsome
    obtain ⟨i, hi, heq, -⟩ := (countedRecords_get n _).mp hrecord
    have := decimal_injective heq
    omega

theorem not_before_one {i : Nat} : compare (decimal (i + 1)) (decimal 1) ≠ .lt := by
  obtain ⟨b, rest, heq, hb⟩ := head_decimal (Nat.succ_pos i)
  have hone : decimal 1 = [49] := by decide
  rw [heq, hone, List.compare_cons_cons]
  intro hlt
  rcases Ordering.then_eq_lt.mp hlt with hfirst | ⟨-, hrest⟩
  · have := compareOfLessAndEq_eq_lt.mp hfirst
    exact absurd hb (not_le.mpr this)
  · cases rest with
    | nil => exact absurd hrest (by decide)
    | cons c rest => exact absurd hrest (by simp)

theorem countedRecords_head {n : Nat} (hpos : 0 < n) (h : n ≤ 2 ^ 63) :
    ∃ rest, (countedRecords n).inferenceRecords.values = countedRecord 0 :: rest ∧
      countedRecord 0 ∉ rest := by
  have hkey : ∀ e ∈ (countedRecords n).inferenceRecords.toList,
      ∃ i < n, e = (decimal (i + 1), countedRecord i) := by
    rintro ⟨k, record⟩ hmem
    rw [ExtTreeMap.mem_toList_iff_getElem?_eq_some, countedRecords_get] at hmem
    obtain ⟨i, hi, rfl, rfl⟩ := hmem
    exact ⟨i, hi, rfl⟩
  have hone : (decimal 1, countedRecord 0) ∈ (countedRecords n).inferenceRecords.toList := by
    rw [ExtTreeMap.mem_toList_iff_getElem?_eq_some, countedRecords_get]
    exact ⟨0, hpos, rfl, rfl⟩
  have hsorted := ExtTreeMap.ordered_keys_toList (t := (countedRecords n).inferenceRecords)
  rw [values_eq]
  cases hlist : (countedRecords n).inferenceRecords.toList with
  | nil =>
    rw [hlist] at hone
    cases hone
  | cons e rest =>
    rw [hlist] at hone hsorted hkey
    obtain ⟨i, -, rfl⟩ := hkey e List.mem_cons_self
    have hbefore := (List.pairwise_cons.mp hsorted).1
    have hhead : (decimal 1, countedRecord 0) = (decimal (i + 1), countedRecord i) := by
      rcases List.mem_cons.mp hone with heq | hmem
      · exact heq
      · exact absurd (hbefore _ hmem) not_before_one
    refine ⟨rest.map Prod.snd, by rw [List.map_cons, ← hhead], ?_⟩
    intro hmem
    obtain ⟨e, he, hzero⟩ := List.mem_map.mp hmem
    obtain ⟨j, hj, rfl⟩ := hkey e (List.mem_cons_of_mem _ he)
    have htime : some (j : Int) = some ((0 : Nat) : Int) := by
      rw [← countedRecord_time (by omega), ← countedRecord_time (by omega)]
      exact congrArg recordTime hzero
    have hj0 : j = 0 := by simpa using htime
    subst hj0
    have hlt := hbefore _ he
    rw [← (Prod.mk.inj hhead).1] at hlt
    exact not_before_one hlt

/-- The history of a pipeline shows its latest records as long as there are no more than a
hundred; after that the first record of all is never left out. -/
theorem countedRecords_latest_iff {n : Nat} (h : n ≤ 2 ^ 63) :
    (countedRecords n).ShowsLatest n ↔ n ≤ 100 := by
  have htimed := countedRecords_timed h
  have hlength := countedRecords_length n
  constructor
  · intro hs
    by_contra hlarge
    obtain ⟨rest, hvalues, hrest⟩ := countedRecords_head (n := n) (by omega) h
    obtain ⟨later, hlater⟩ : ∃ later, later ∈ (countedRecords n).inferenceRecords.values.drop 100 := by
      apply List.exists_mem_of_length_pos
      rw [List.length_drop]
      omega
    have hmem : later ∈ rest := by
      rw [hvalues, List.drop_succ_cons] at hlater
      exact List.mem_of_mem_drop hlater
    obtain ⟨i, hi, rfl⟩ := mem_countedRecords.mp (List.mem_of_mem_drop hlater)
    have hne : i ≠ 0 := by
      rintro rfl
      exact hrest hmem
    have hfirst : countedRecord 0 ∈ (countedRecords n).inferenceRecords.values.take 100 := by
      rw [hvalues]
      exact List.mem_cons_self
    have := hs.ordered htimed _ hfirst _ hlater _ (countedRecord_time (by omega)) _
      (countedRecord_time (by omega))
    omega
  · intro hsmall
    apply Tables.OrderedByTime.latest ?_ htimed
    intro record _ later hlater
    rw [List.drop_eq_nil_of_le (by omega)] at hlater
    cases hlater

/-- The cut at a hundred records: with one more the order of the ids matters. -/
theorem showsLatest_iff_hundred :
    (countedRecords 100).Timed (100 : Nat) ∧ (countedRecords 100).OrderedByTime ∧
      (countedRecords 101).Timed (101 : Nat) ∧ ¬ (countedRecords 101).OrderedByTime := by
  have htimed : (countedRecords 100).Timed (100 : Nat) := countedRecords_timed (by decide)
  have htimed' : (countedRecords 101).Timed (101 : Nat) := countedRecords_timed (by decide)
  refine ⟨htimed, ?_, htimed', fun ho ↦ ?_⟩
  · exact (showsLatest_iff _ _ htimed).mp ((countedRecords_latest_iff (by decide)).mpr le_rfl)
  · have hle := (countedRecords_latest_iff (by decide)).mp ((showsLatest_iff _ _ htimed').mpr ho)
    exact absurd hle (by decide)

/-- Of the records 1 to 101 the record 99 comes last, and the record 1 first. -/
theorem ninetyNine_left_out : ¬ ∀ t now, Tables.Timed t now → t.ShowsLatest now := by
  intro hall
  have htimed : (countedRecords 101).Timed (101 : Nat) := countedRecords_timed (by decide)
  exact absurd ((countedRecords_latest_iff (n := 101) (by decide)).mp (hall _ _ htimed)) (by decide)

end Cerberus.MaintenanceDb
