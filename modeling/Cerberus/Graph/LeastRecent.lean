import Cerberus.Foundation.Recency
import Cerberus.Foundation.Trace
import Cerberus.Graph.Predictor
import Mathlib.Algebra.Order.Ring.Nat
import Mathlib.Data.List.Perm.Subperm

namespace Cerberus.Graph

open Foundation.Recency Foundation.Trace

variable {V : Type}

inductive PredictorCall (V : Type)
  | lookup (sig : GraphSignature)
  | update (sig : GraphSignature) (snap : V)

/-- A predictor, and what was seen of its calls: the signatures in the order of their last use and
of their last update, the latest first, and the snapshot that was last given for each. -/
structure Watched (V : Type) where
  predictor : ExecutionPredictor V
  used : List GraphSignature := []
  updated : List GraphSignature := []
  latest : GraphSignature → Option V := fun _ ↦ none

namespace Watched

def updatedTo (w : Watched V) (sig : GraphSignature) (snap : V) (p : ExecutionPredictor V) :
    Watched V :=
  { predictor := p, used := touch sig w.used, updated := touch sig w.updated
    latest := Function.update w.latest sig (some snap) }

/-- A lookup counts as a use if it finds something. -/
def call (w : Watched V) : PredictorCall V → Option (Watched V)
  | .lookup sig =>
    let r := w.predictor.lookup sig
    some { w with predictor := r.2, used := if r.1.isSome then touch sig w.used else w.used }
  | .update sig snap =>
    (w.predictor.update sig snap).map (w.updatedTo sig snap)

/-- The table is that of a cache which gives up what was used least recently. -/
structure Lru (capacity : Nat) (w : Watched V) : Prop where
  bounded : w.predictor.table.length ≤ capacity
  distinct : w.predictor.sigs.Nodup
  recent : ∀ sig, sig ∈ w.predictor.sigs ↔ sig ∈ w.used.take capacity
  latest : ∀ e ∈ w.predictor.table, w.latest e.sig = some e.snap

/-- If an update needs the place of another entry, there is one whose last update lies further
back than that of any other, and its last use too. -/
def EvictsOldest (w : Watched V) : PredictorCall V → Prop
  | .lookup _ => True
  | .update sig _ => sig ∈ w.predictor.sigs ∨
      w.predictor.table.length < w.predictor.capacity ∨
      ∃ s ∈ w.predictor.sigs, ∀ t ∈ w.predictor.sigs,
        w.updated.idxOf t ≤ w.updated.idxOf s ∧ w.used.idxOf t ≤ w.used.idxOf s

def ClockFits (w : Watched V) : Prop := w.predictor.clock.toNat + 1 < 2 ^ 64

structure Kept (capacity : Nat) (w : Watched V) : Prop where
  capacity : w.predictor.capacity = capacity
  distinct : w.predictor.sigs.Nodup
  used : w.used.Nodup
  updated : ∀ sig ∈ w.predictor.sigs, sig ∈ w.updated
  latest : ∀ e ∈ w.predictor.table, w.latest e.sig = some e.snap
  ticks : ∀ e ∈ w.predictor.table, e.tick ≤ w.predictor.clock
  order : ∀ e ∈ w.predictor.table, ∀ e' ∈ w.predictor.table,
    e.tick < e'.tick ↔ w.updated.idxOf e'.sig < w.updated.idxOf e.sig

variable {capacity : Nat} {w w' : Watched V} {sig : GraphSignature} {snap : V}
  {c : PredictorCall V}

theorem Kept.lookup (h : w.Kept capacity) (hc : w.call (.lookup sig) = some w') :
    w'.Kept capacity := by
  obtain rfl := Option.some.inj hc
  refine ⟨?_, ?_, ?_, ?_, ?_, ?_, ?_⟩
  · exact ExecutionPredictor.lookup_capacity.trans h.capacity
  · exact ExecutionPredictor.lookup_sigs (p := w.predictor) ▸ h.distinct
  · dsimp only
    split_ifs
    · exact nodup_touch h.used
    · exact h.used
  · exact ExecutionPredictor.lookup_sigs (p := w.predictor) ▸ h.updated
  · exact ExecutionPredictor.lookup_table (p := w.predictor) ▸ h.latest
  · dsimp only
    rw [ExecutionPredictor.lookup_table, ExecutionPredictor.lookup_clock]
    exact h.ticks
  · exact ExecutionPredictor.lookup_table (p := w.predictor) ▸ h.order

theorem lru_lookup (h : w.Lru capacity) (hc : w.call (.lookup sig) = some w') :
    w'.Lru capacity := by
  obtain rfl := Option.some.inj hc
  refine ⟨?_, ?_, ?_, ?_⟩
  · exact ExecutionPredictor.lookup_table (p := w.predictor) ▸ h.bounded
  · exact ExecutionPredictor.lookup_sigs (p := w.predictor) ▸ h.distinct
  · intro s
    dsimp only
    rw [ExecutionPredictor.lookup_sigs, h.recent]
    split_ifs with hfound
    · have hmem := (h.recent sig).mp (ExecutionPredictor.lookup_isSome.mp hfound)
      exact (mem_take_touch hmem).symm
    · rfl
  · exact ExecutionPredictor.lookup_table (p := w.predictor) ▸ h.latest

/-- An update keeps what it should if it takes in a new entry and otherwise only leaves out some,
among them that with the same signature. -/
theorem Kept.update (h : w.Kept capacity) (hclock : w.ClockFits) {p : ExecutionPredictor V}
    (hcap : p.capacity = w.predictor.capacity) (hnext : p.clock = w.predictor.clock + 1)
    (hdistinct : p.sigs.Nodup) (hmem : ∀ e ∈ p.table,
      e = ⟨sig, snap, w.predictor.clock + 1⟩ ∨ e ∈ w.predictor.table ∧ e.sig ≠ sig) :
    (w.updatedTo sig snap p).Kept capacity := by
  have hlater (e) (he : e ∈ w.predictor.table) : e.tick < w.predictor.clock + 1 := by
    have hle := UInt64.le_iff_toNat_le.mp (h.ticks e he)
    have hsum : (w.predictor.clock + 1).toNat = w.predictor.clock.toNat + 1 := by
      rw [UInt64.toNat_add]
      exact Nat.mod_eq_of_lt hclock
    rw [UInt64.lt_iff_toNat_lt, hsum]
    omega
  refine ⟨hcap.trans h.capacity, hdistinct, nodup_touch h.used, ?_, ?_, ?_, ?_⟩
  · intro s hs
    obtain ⟨e, he, rfl⟩ := ExecutionPredictor.mem_sigs.mp hs
    rcases hmem e he with rfl | ⟨hold, -⟩
    · exact mem_touch.mpr (.inl rfl)
    · exact mem_touch.mpr (.inr (h.updated _ (ExecutionPredictor.mem_sigs.mpr ⟨e, hold, rfl⟩)))
  · intro e he
    rcases hmem e he with rfl | ⟨hold, hne⟩
    · exact Function.update_self ..
    · exact (Function.update_of_ne hne ..).trans (h.latest e hold)
  · intro e he
    change e.tick ≤ p.clock
    rw [hnext]
    rcases hmem e he with rfl | ⟨hold, -⟩
    · exact UInt64.le_refl _
    · exact UInt64.le_of_lt (hlater e hold)
  · intro e he e' he'
    change e.tick < e'.tick ↔
      (touch sig w.updated).idxOf e'.sig < (touch sig w.updated).idxOf e.sig
    rcases hmem e he with rfl | ⟨hold, hne⟩
    · -- nothing is later than the new entry
      rw [idxOf_touch_self]
      refine iff_of_false ?_ (Nat.not_lt_zero _)
      rcases hmem e' he' with rfl | ⟨hold', -⟩
      · exact UInt64.lt_irrefl _
      · exact UInt64.not_lt.mpr (UInt64.le_of_lt (hlater e' hold'))
    · rcases hmem e' he' with rfl | ⟨hold', hne'⟩
      · rw [idxOf_touch_self]
        exact iff_of_true (hlater e hold) (idxOf_touch_pos hne)
      · rw [idxOf_touch_lt hne' hne]
        exact h.order e hold e' hold'

theorem Kept.lru_iff {p : ExecutionPredictor V} (h : (w.updatedTo sig snap p).Kept capacity)
    (hlen : p.table.length ≤ capacity) : (w.updatedTo sig snap p).Lru capacity ↔
      ∀ s, s ∈ p.sigs ↔ s ∈ (touch sig w.used).take capacity :=
  ⟨fun hlru ↦ hlru.recent, fun hrecent ↦ ⟨hlen, h.distinct, hrecent, h.latest⟩⟩

theorem lru_renew (h : w.Lru capacity) (hsig : sig ∈ w.predictor.sigs) {p : ExecutionPredictor V}
    (hkept : (w.updatedTo sig snap p).Kept capacity) {tick : UInt64}
    (hr : ExecutionPredictor.Replaces w.predictor p sig ⟨sig, snap, tick⟩) :
    (w.updatedTo sig snap p).Lru capacity := by
  refine (hkept.lru_iff (Nat.le_trans (Nat.le_of_eq hr.length) h.bounded)).mpr (fun s ↦ ?_)
  rw [mem_take_touch ((h.recent sig).mp hsig), hr.mem_sigs, ← h.recent]
  by_cases hs : s = sig
  · simp [hs, hsig]
  · simp [hs]

theorem Lru.length_used (h : w.Lru capacity) (hroom : w.predictor.table.length < capacity)
    (hused : w.used.Nodup) : w.used.length ≤ w.predictor.table.length := by
  have hsub : w.used.take capacity ⊆ w.predictor.sigs := fun s hs ↦ (h.recent s).mpr hs
  have hle := ((hused.sublist (List.take_sublist _ _)).subperm hsub).length_le
  rw [List.length_take, ExecutionPredictor.sigs, List.length_map] at hle
  omega

theorem lru_insert (h : w.Lru capacity) (hsig : sig ∉ w.predictor.sigs)
    (hroom : w.predictor.table.length < capacity) (hused : w.used.Nodup)
    {p : ExecutionPredictor V} (hkept : (w.updatedTo sig snap p).Kept capacity)
    (hlen : p.table.length = w.predictor.table.length + 1)
    (hmem : ∀ s, s ∈ p.sigs ↔ s ∈ w.predictor.sigs ∨ s = sig) :
    (w.updatedTo sig snap p).Lru capacity := by
  refine (hkept.lru_iff (by omega)).mpr (fun s ↦ ?_)
  have hfew := h.length_used hroom hused
  obtain ⟨n, rfl⟩ := Nat.exists_eq_add_one_of_ne_zero (Nat.ne_of_gt (Nat.zero_lt_of_lt hroom))
  have hall : w.used.take n = w.used.take (n + 1) := by
    rw [List.take_of_length_le (by omega), List.take_of_length_le (by omega)]
  have hnew : sig ∉ w.used.take n := by
    rw [hall, ← h.recent]
    exact hsig
  rw [take_touch hnew, hall, List.mem_cons, hmem, h.recent, or_comm]

theorem lru_evict_iff (h : w.Lru capacity) (hk : w.Kept capacity) (hsig : sig ∉ w.predictor.sigs)
    (hfull : capacity ≤ w.predictor.table.length) {v : Entry V} (hv : v ∈ w.predictor.table)
    {p : ExecutionPredictor V} (hkept : (w.updatedTo sig snap p).Kept capacity) {tick : UInt64}
    (hr : ExecutionPredictor.Replaces w.predictor p v.sig ⟨sig, snap, tick⟩) :
    (w.updatedTo sig snap p).Lru capacity ↔
      ∀ t ∈ w.predictor.sigs, w.used.idxOf t ≤ w.used.idxOf v.sig := by
  have hvsig : v.sig ∈ w.predictor.sigs := ExecutionPredictor.mem_sigs.mpr ⟨v, hv, rfl⟩
  have hpos := List.length_pos_of_mem hv
  obtain ⟨n, rfl⟩ := Nat.exists_eq_add_one_of_ne_zero (n := capacity)
    (by have := h.bounded; omega)
  have hlong : n < w.used.length := by
    have hsub : w.predictor.sigs ⊆ w.used.take (n + 1) := fun s hs ↦ (h.recent s).mp hs
    have hle := (h.distinct.subperm hsub).length_le
    rw [List.length_take, ExecutionPredictor.sigs, List.length_map] at hle
    omega
  have hnew : sig ∉ w.used.take (n + 1) := fun hmem ↦ hsig ((h.recent sig).mpr hmem)
  have hnew' : sig ∉ w.used.take n :=
    fun hmem ↦ hnew ((List.take_subset_take_left _ (Nat.le_succ n)) hmem)
  have hlast := mem_take_pred_iff hk.used hlong ((h.recent v.sig).mp hvsig)
  rw [hkept.lru_iff (Nat.le_trans (Nat.le_of_eq hr.length) h.bounded), take_touch hnew']
  simp only [h.recent]
  rw [← hlast]
  refine forall_congr' (fun s ↦ ?_)
  rw [hr.mem_sigs, List.mem_cons, h.recent]
  by_cases hs : s = sig
  · simp [hs, hnew, hnew']
  · simp only [hs, false_or]
    exact iff_comm

theorem Kept.least_tick (h : w.Kept capacity) {v : Entry V} (hv : v ∈ w.predictor.table)
    (hleast : ∀ e ∈ w.predictor.table, v.tick ≤ e.tick) :
    ∀ t ∈ w.predictor.sigs, w.updated.idxOf t ≤ w.updated.idxOf v.sig := by
  intro t ht
  obtain ⟨e, he, rfl⟩ := ExecutionPredictor.mem_sigs.mp ht
  by_contra hlt
  have htick := (h.order e he v hv).mpr (Nat.lt_of_not_ge hlt)
  exact UInt64.not_lt.mpr (hleast e he) htick

theorem Kept.call (h : w.Kept capacity) (hlru : w.Lru capacity) (hclock : w.ClockFits)
    (c : PredictorCall V) : (∀ w', w.call c = some w' → w'.Kept capacity) ∧
      ((∃ w', w.call c = some w' ∧ w'.Lru capacity) ↔ w.EvictsOldest c) := by
  cases c with
  | lookup sig =>
    exact ⟨fun w' hc ↦ h.lookup hc, iff_of_true ⟨_, rfl, lru_lookup hlru rfl⟩ trivial⟩
  | update sig snap =>
    have hcall : w.call (.update sig snap) =
      (w.predictor.update sig snap).map (w.updatedTo sig snap) := rfl
    have hreplace {p old} (hold : old = sig ∨ sig ∉ w.predictor.sigs)
        (hr : ExecutionPredictor.Replaces w.predictor p old
          ⟨sig, snap, w.predictor.clock + 1⟩) : (w.updatedTo sig snap p).Kept capacity := by
      refine h.update hclock hr.capacity hr.clock hr.distinct (fun e he ↦ ?_)
      rcases (hr.mem e).mp he with hnew | ⟨hmem, hne⟩
      · exact .inl hnew
      · refine .inr ⟨hmem, ?_⟩
        rcases hold with rfl | hsig
        · exact hne
        · rintro rfl
          exact hsig (ExecutionPredictor.mem_sigs.mpr ⟨e, hmem, rfl⟩)
    rcases ExecutionPredictor.update_cases h.distinct sig snap with
      ⟨hsig, p, hp, hr⟩ | ⟨hsig, hroom, hp⟩ | ⟨hsig, hfull, hempty, hp⟩ |
      ⟨hsig, hfull, v, hv, hleast, p, hp, hr⟩
    · rw [hcall, hp, Option.map_some]
      have hkept := hreplace (.inl rfl) hr
      refine ⟨fun w' hc ↦ Option.some.inj hc ▸ hkept, ?_⟩
      exact iff_of_true ⟨_, rfl, lru_renew hlru hsig hkept hr⟩ (.inl hsig)
    · rw [hcall, hp, Option.map_some]
      set p : ExecutionPredictor V := { w.predictor with
        table := w.predictor.table ++ [⟨sig, snap, w.predictor.clock + 1⟩]
        clock := w.predictor.clock + 1 } with hdef
      have hsigs : p.sigs = w.predictor.sigs ++ [sig] := List.map_append
      have hdistinct : p.sigs.Nodup := by
        rw [hsigs, List.nodup_append_comm]
        exact List.nodup_cons.mpr ⟨hsig, h.distinct⟩
      have hkept : (w.updatedTo sig snap p).Kept capacity := by
        refine h.update hclock rfl rfl hdistinct (fun e he ↦ ?_)
        rcases List.mem_append.mp he with hmem | hnew
        · refine .inr ⟨hmem, ?_⟩
          rintro rfl
          exact hsig (ExecutionPredictor.mem_sigs.mpr ⟨e, hmem, rfl⟩)
        · exact .inl (List.mem_singleton.mp hnew)
      refine ⟨fun w' hc ↦ Option.some.inj hc ▸ hkept, ?_⟩
      have hlen : p.table.length = w.predictor.table.length + 1 := List.length_append
      have hmem (s) : s ∈ p.sigs ↔ s ∈ w.predictor.sigs ∨ s = sig := by
        rw [hsigs, List.mem_append, List.mem_singleton]
      have hlru' := lru_insert hlru hsig (h.capacity ▸ hroom) h.used hkept hlen hmem
      exact iff_of_true ⟨_, rfl, hlru'⟩ (.inr (.inl hroom))
    · rw [hcall, hp, Option.map_none]
      refine ⟨by simp, iff_of_false (by simp) ?_⟩
      rintro (hold | hroom | ⟨s, hs, -⟩)
      · exact hsig hold
      · exact Nat.not_lt_of_le hfull hroom
      · rw [ExecutionPredictor.sigs, hempty] at hs
        cases hs
    · rw [hcall, hp, Option.map_some]
      have hkept := hreplace (.inr hsig) hr
      have hoast := h.least_tick hv hleast
      have hvsig : v.sig ∈ w.predictor.sigs := ExecutionPredictor.mem_sigs.mpr ⟨v, hv, rfl⟩
      refine ⟨fun w' hc ↦ Option.some.inj hc ▸ hkept, ?_⟩
      have hiff := lru_evict_iff hlru h hsig (h.capacity ▸ hfull) hv hkept hr
      constructor
      · rintro ⟨w', hw', hlru'⟩
        obtain rfl := Option.some.inj hw'
        exact .inr (.inr ⟨v.sig, hvsig, fun t ht ↦ ⟨hoast t ht, hiff.mp hlru' t ht⟩⟩)
      · rintro (hold | hroom | ⟨s, hs, holdest⟩)
        · exact absurd hold hsig
        · exact absurd hroom (Nat.not_lt_of_le hfull)
        · -- only one signature can be the one that was updated first
          have hsame : w.updated.idxOf s = w.updated.idxOf v.sig :=
            Nat.le_antisymm (hoast s hs) (holdest v.sig hvsig).1
          obtain rfl := (List.idxOf_inj (h.updated s hs)).mp hsame
          exact ⟨_, rfl, hiff.mpr (fun t ht ↦ (holdest t ht).2)⟩

def fresh (V : Type) (capacity : Nat) : Watched V := { predictor := { capacity } }

theorem fresh_lru : (fresh V capacity).Lru capacity :=
  ⟨Nat.zero_le _, List.nodup_nil, fun _ ↦ by simp [fresh, ExecutionPredictor.sigs],
    by simp [fresh]⟩

theorem fresh_kept : (fresh V capacity).Kept capacity :=
  ⟨rfl, List.nodup_nil, List.nodup_nil, by simp [fresh, ExecutionPredictor.sigs],
    by simp [fresh], by simp [fresh], by simp [fresh]⟩

def advance (s : Option (Watched V)) (c : PredictorCall V) : Option (Watched V) :=
  s.bind (·.call c)

/-- Over any sequence of calls in which the clock does not go round, the predictor is a cache of
the most recently used signatures, and nothing outside its table is touched, exactly if each entry
that is given up has not been looked up since all the others were last used. -/
theorem lru_throughout_iff {tr : List (Option (Watched V) × PredictorCall V)}
    {u : Option (Watched V)}
    (h : Run (fun s c t ↦ advance s c = t) (some (fresh V capacity)) tr u)
    (hclock : ∀ e ∈ tr, ∀ w ∈ e.1, w.ClockFits) :
    Throughout (fun s ↦ ∃ w, s = some w ∧ w.Lru capacity) tr u ↔
      ∀ e ∈ tr, ∀ w ∈ e.1, w.EvictsOldest e.2 := by
  have hrun : Run (fun s c t ↦ (∀ w ∈ s, w.ClockFits) ∧ advance s c = t)
      (some (fresh V capacity)) tr u := h.restrict hclock
  have hkeep (s : Option (Watched V)) (c : PredictorCall V) (t : Option (Watched V))
      (hs : ∃ w, s = some w ∧ w.Lru capacity ∧ w.Kept capacity)
      (hok : ∀ w ∈ s, w.EvictsOldest c) (ht : (∀ w ∈ s, w.ClockFits) ∧ advance s c = t) :
      ∃ w, t = some w ∧ w.Lru capacity ∧ w.Kept capacity := by
    obtain ⟨w, rfl, hlru, hk⟩ := hs
    obtain ⟨hc, rfl⟩ := ht
    obtain ⟨hkept, hiff⟩ := hk.call hlru (hc w rfl) c
    obtain ⟨w', hw', hlru'⟩ := hiff.mpr (hok w rfl)
    exact ⟨w', hw', hlru', hkept w' hw'⟩
  have hbreak (s : Option (Watched V)) (c : PredictorCall V) (t : Option (Watched V))
      (hs : ∃ w, s = some w ∧ w.Lru capacity ∧ w.Kept capacity)
      (hbad : ¬ ∀ w ∈ s, w.EvictsOldest c)
      (ht : (∀ w ∈ s, w.ClockFits) ∧ advance s c = t) :
      ¬ ∃ w, t = some w ∧ w.Lru capacity := by
    obtain ⟨w, rfl, hlru, hk⟩ := hs
    obtain ⟨hc, rfl⟩ := ht
    rintro ⟨w', hw', hlru'⟩
    refine hbad (fun w₀ hw₀ ↦ ?_)
    obtain rfl := Option.some.inj hw₀
    exact ((hk.call hlru (hc w rfl) c).2).mp ⟨w', hw', hlru'⟩
  refine hrun.holds_iff ?_ hkeep hbreak ⟨_, rfl, fresh_lru, fresh_kept⟩
  rintro s ⟨w, hw, hlru, -⟩
  exact ⟨w, hw, hlru⟩

/-- The signature that was not looked up is given up for the third one. -/
theorem lru_throughout_iff_evicts : ∃ tr u,
    Run (fun s c t ↦ advance s c = t) (some (fresh Nat 2)) tr u ∧
      tr.map (fun e ↦ e.2) = [.update ⟨1, 0, 0⟩ 1, .update ⟨2, 0, 0⟩ 2, .lookup ⟨2, 0, 0⟩,
        .update ⟨3, 0, 0⟩ 3] ∧
      Throughout (fun s ↦ ∃ w, s = some w ∧ w.Lru 2) tr u ∧
      ∃ w ∈ u, w.used = [⟨3, 0, 0⟩, ⟨2, 0, 0⟩, ⟨1, 0, 0⟩] ∧ ⟨1, 0, 0⟩ ∉ w.predictor.sigs := by
  have hr : Run (fun s c t ↦ advance s c = t) (some (fresh Nat 2)) _ _ :=
    .cons (a := .update ⟨1, 0, 0⟩ 1) rfl (.cons (a := .update ⟨2, 0, 0⟩ 2) rfl
      (.cons (a := .lookup ⟨2, 0, 0⟩) rfl (.cons (a := .update ⟨3, 0, 0⟩ 3) rfl (.nil _))))
  refine ⟨_, _, hr, rfl, (lru_throughout_iff hr ?_).mpr ?_, _, rfl, rfl, by decide⟩
  · simp only [List.forall_mem_cons, ClockFits]
    decide
  · simp only [List.forall_mem_cons, EvictsOldest]
    exact ⟨by decide, by decide, fun _ _ ↦ trivial, by decide, by simp⟩

/-- What was looked up last is given up first: the lookup leaves the tick as it was. -/
theorem lookup_not_counted : ¬ ∀ (capacity : Nat)
    (tr : List (Option (Watched Nat) × PredictorCall Nat)) (u : Option (Watched Nat)),
    Run (fun s c t ↦ advance s c = t) (some (fresh Nat capacity)) tr u →
      Throughout (fun s ↦ ∃ w, s = some w ∧ w.Lru capacity) tr u := by
  intro h
  have hlast := (h 2 _ _ (.cons (a := .update ⟨1, 0, 0⟩ 1) rfl
    (.cons (a := .update ⟨2, 0, 0⟩ 2) rfl (.cons (a := .lookup ⟨1, 0, 0⟩) rfl
      (.cons (a := .update ⟨3, 0, 0⟩ 3) rfl (.nil _)))))).2
  obtain ⟨w, hw, hlru⟩ := hlast
  obtain rfl := Option.some.inj hw
  have hkept := (hlru.recent ⟨1, 0, 0⟩).mpr (by decide)
  revert hkept
  decide

end Watched

end Cerberus.Graph
