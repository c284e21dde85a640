import Mathlib.Data.List.Nodup

namespace Cerberus.Graph

structure GraphSignature where
  numNodes : UInt64 := 0
  numMatmuls : UInt64 := 0
  totalLiveBytes : UInt64 := 0
  deriving DecidableEq

structure Entry (V : Type) where
  sig : GraphSignature
  snap : V
  tick : UInt64 := 0

structure ExecutionPredictor (V : Type) where
  table : List (Entry V) := []
  capacity : Nat := 64
  hits : UInt64 := 0
  misses : UInt64 := 0
  clock : UInt64 := 0

namespace ExecutionPredictor

variable {V : Type}

def lookup (p : ExecutionPredictor V) (sig : GraphSignature) :
    Option V × ExecutionPredictor V :=
  match p.table.find? (fun e ↦ e.sig = sig) with
  | some e => (some e.snap, { p with hits := p.hits + 1 })
  | none => (none, { p with misses := p.misses + 1 })

def tickAt (table : List (Entry V)) (i : Nat) : UInt64 := (table[i]?.map Entry.tick).getD 0

def lruIdx (table : List (Entry V)) : Nat :=
  (List.range' 1 (table.length - 1)).foldl
    (fun lru i ↦ if tickAt table i < tickAt table lru then i else lru) 0

/-- No result where the table is indexed outside itself. -/
def update (p : ExecutionPredictor V) (sig : GraphSignature) (snap : V) :
    Option (ExecutionPredictor V) :=
  let clock := p.clock + 1
  match p.table.findIdx? (fun e ↦ e.sig = sig) with
  | some i => some { p with table := p.table.set i ⟨sig, snap, clock⟩, clock }
  | none =>
    if p.capacity ≤ p.table.length then
      if lruIdx p.table < p.table.length then
        some { p with table := p.table.set (lruIdx p.table) ⟨sig, snap, clock⟩, clock }
      else none
    else some { p with table := p.table ++ [⟨sig, snap, clock⟩], clock }

def sigs (p : ExecutionPredictor V) : List GraphSignature := p.table.map Entry.sig

variable {p p' : ExecutionPredictor V} {sig : GraphSignature} {snap : V} {e v : Entry V}
  {table : List (Entry V)}

theorem mem_sigs : sig ∈ p.sigs ↔ ∃ e ∈ p.table, e.sig = sig := List.mem_map

theorem lookup_table : (p.lookup sig).2.table = p.table := by
  unfold lookup
  split
  · rfl
  · rfl

theorem lookup_sigs : (p.lookup sig).2.sigs = p.sigs := congrArg (List.map Entry.sig) lookup_table

theorem lookup_capacity : (p.lookup sig).2.capacity = p.capacity := by
  unfold lookup
  split
  · rfl
  · rfl

theorem lookup_clock : (p.lookup sig).2.clock = p.clock := by
  unfold lookup
  split
  · rfl
  · rfl

theorem lookup_isSome : (p.lookup sig).1.isSome = true ↔ sig ∈ p.sigs := by
  rw [mem_sigs, lookup]
  split
  · rename_i e he
    have hmem := List.mem_of_find?_eq_some he
    have hsig := List.find?_some he
    simpa using ⟨e, hmem, by simpa using hsig⟩
  · rename_i he
    simpa using List.find?_eq_none.mp he

theorem lruIdx_upto (table : List (Entry V)) (n : Nat) :
    (List.range' 1 n).foldl (fun lru i ↦ if tickAt table i < tickAt table lru then i else lru) 0
        ≤ n ∧
      ∀ j ≤ n, tickAt table ((List.range' 1 n).foldl
        (fun lru i ↦ if tickAt table i < tickAt table lru then i else lru) 0) ≤ tickAt table j := by
  induction n with
  | zero => simp
  | succ n ih =>
    obtain ⟨hbound, hleast⟩ := ih
    rw [List.range'_concat, List.foldl_concat]
    set lru := (List.range' 1 n).foldl
      (fun lru i ↦ if tickAt table i < tickAt table lru then i else lru) 0
    split_ifs with hlt
    · refine ⟨by omega, ?_⟩
      intro j hj
      rcases Nat.lt_or_eq_of_le hj with hj | rfl
      · exact UInt64.le_trans (UInt64.le_of_lt hlt) (hleast j (by omega))
      · rw [show 1 + 1 * n = n + 1 by omega]
        exact UInt64.le_refl _
    · refine ⟨by omega, ?_⟩
      intro j hj
      rcases Nat.lt_or_eq_of_le hj with hj | rfl
      · exact hleast j (by omega)
      · rw [show n + 1 = 1 + 1 * n by omega]
        exact UInt64.not_lt.mp hlt

theorem lruIdx_spec (h : table ≠ []) :
    ∃ v, table[lruIdx table]? = some v ∧ ∀ e ∈ table, v.tick ≤ e.tick := by
  obtain ⟨hbound, hleast⟩ := lruIdx_upto table (table.length - 1)
  have hpos := List.length_pos_iff.mpr h
  have hlt : lruIdx table < table.length := Nat.lt_of_le_of_lt hbound (by omega)
  refine ⟨table[lruIdx table], List.getElem?_eq_getElem hlt, ?_⟩
  intro e he
  obtain ⟨j, hj, rfl⟩ := List.mem_iff_getElem.mp he
  have hj' := hleast j (by omega)
  rw [← lruIdx] at hj'
  simpa [tickAt, hlt, hj] using hj'

/-- The new entry has taken the place of the one with another signature, or of the same one. -/
structure Replaces (p p' : ExecutionPredictor V) (old : GraphSignature) (new : Entry V) :
    Prop where
  capacity : p'.capacity = p.capacity
  clock : p'.clock = new.tick
  length : p'.table.length = p.table.length
  distinct : p'.sigs.Nodup
  mem : ∀ e, e ∈ p'.table ↔ e = new ∨ e ∈ p.table ∧ e.sig ≠ old

theorem replaces_set {i : Nat} {new : Entry V} (hn : p.sigs.Nodup) (hi : p.table[i]? = some v)
    (hnew : new.sig = v.sig ∨ new.sig ∉ p.sigs) :
    Replaces p { p with table := p.table.set i new, clock := new.tick } v.sig new where
  capacity := rfl
  clock := rfl
  length := List.length_set
  distinct := by
    rw [sigs, List.map_set]
    rcases hnew with hsame | hother
    · have hsigs : p.sigs[i]? = some new.sig := by rw [sigs, List.getElem?_map, hi, hsame]; rfl
      obtain ⟨hlt, hget⟩ := List.getElem?_eq_some_iff.mp hsigs
      change (p.sigs.set i new.sig).Nodup
      rw [← hget, List.set_getElem_self]
      exact hn
    · exact hn.set hother
  mem := by
    intro e
    obtain ⟨hlt, hget⟩ := List.getElem?_eq_some_iff.mp hi
    rw [List.mem_iff_getElem?]
    constructor
    · rintro ⟨j, hj⟩
      rw [List.getElem?_set] at hj
      split_ifs at hj with hij
      · exact .inl (Option.some.inj hj).symm
      · obtain ⟨hjlt, rfl⟩ := List.getElem?_eq_some_iff.mp hj
        refine .inr ⟨List.getElem_mem hjlt, ?_⟩
        intro he
        have hinj : p.sigs[j]? = p.sigs[i]? := by
          rw [sigs, List.getElem?_map, List.getElem?_map, hi, List.getElem?_eq_getElem hjlt]
          exact congrArg some he
        exact hij ((List.getElem?_inj (by simpa [sigs] using hjlt) hn).mp hinj).symm
    · intro h
      rcases h with rfl | ⟨hmem, hne⟩
      · exact ⟨i, List.getElem?_set_self hlt⟩
      · obtain ⟨j, hj⟩ := List.mem_iff_getElem?.mp hmem
        have hij : i ≠ j := by
          rintro rfl
          rw [hi, Option.some.injEq] at hj
          exact hne (congrArg Entry.sig hj.symm)
        exact ⟨j, by rw [List.getElem?_set_ne hij, hj]⟩

theorem Replaces.mem_sigs {old s : GraphSignature} {new : Entry V} (h : Replaces p p' old new) :
    s ∈ p'.sigs ↔ s = new.sig ∨ s ∈ p.sigs ∧ s ≠ old := by
  rw [ExecutionPredictor.mem_sigs, ExecutionPredictor.mem_sigs]
  constructor
  · rintro ⟨e, he, rfl⟩
    rcases (h.mem e).mp he with rfl | ⟨hold, hne⟩
    · exact .inl rfl
    · exact .inr ⟨⟨e, hold, rfl⟩, hne⟩
  · intro hs
    rcases hs with rfl | ⟨⟨e, he, rfl⟩, hne⟩
    · exact ⟨new, (h.mem new).mpr (.inl rfl), rfl⟩
    · exact ⟨e, (h.mem e).mpr (.inr ⟨he, hne⟩), rfl⟩

/-- What a call of `update` does: it renews an entry, finds room for one more, fails for lack of
one to give up, or gives up one with the least tick. -/
theorem update_cases (hn : p.sigs.Nodup) (sig : GraphSignature) (snap : V) :
    (sig ∈ p.sigs ∧ ∃ p', p.update sig snap = some p' ∧
        Replaces p p' sig ⟨sig, snap, p.clock + 1⟩) ∨
      (sig ∉ p.sigs ∧ p.table.length < p.capacity ∧ p.update sig snap =
        some { p with table := p.table ++ [⟨sig, snap, p.clock + 1⟩], clock := p.clock + 1 }) ∨
      (sig ∉ p.sigs ∧ p.capacity ≤ p.table.length ∧ p.table = [] ∧ p.update sig snap = none) ∨
      (sig ∉ p.sigs ∧ p.capacity ≤ p.table.length ∧ ∃ v ∈ p.table,
        (∀ e ∈ p.table, v.tick ≤ e.tick) ∧ ∃ p', p.update sig snap = some p' ∧
          Replaces p p' v.sig ⟨sig, snap, p.clock + 1⟩) := by
  rw [update]
  cases hfind : p.table.findIdx? (fun e ↦ e.sig = sig) with
  | some i =>
    obtain ⟨hlt, hsig, -⟩ := List.findIdx?_eq_some_iff_getElem.mp hfind
    have hsig' : p.table[i].sig = sig := by simpa using hsig
    refine .inl ⟨mem_sigs.mpr ⟨p.table[i], List.getElem_mem hlt, hsig'⟩, _, rfl, ?_⟩
    have hset : Replaces p { p with
        table := p.table.set i ⟨sig, snap, p.clock + 1⟩, clock := p.clock + 1 } p.table[i].sig
        ⟨sig, snap, p.clock + 1⟩ :=
      replaces_set hn (List.getElem?_eq_getElem hlt) (.inl hsig'.symm)
    rwa [hsig'] at hset
  | none =>
    have hnew : sig ∉ p.sigs := by
      rw [mem_sigs]
      rintro ⟨e, he, hsig⟩
      have hnone := List.findIdx?_eq_none_iff.mp hfind e he
      simp [hsig] at hnone
    by_cases hroom : p.table.length < p.capacity
    · refine .inr (.inl ⟨hnew, hroom, ?_⟩)
      dsimp only
      rw [if_neg (Nat.not_le_of_lt hroom)]
    · have hfull := Nat.le_of_not_gt hroom
      dsimp only
      rw [if_pos hfull]
      by_cases hempty : p.table = []
      · refine .inr (.inr (.inl ⟨hnew, hfull, hempty, ?_⟩))
        rw [if_neg]
        simp [hempty]
      · obtain ⟨v, hv, hleast⟩ := lruIdx_spec hempty
        have hlt := (List.getElem?_eq_some_iff.mp hv).choose
        refine .inr (.inr (.inr ⟨hnew, hfull, v, List.mem_of_getElem? hv, hleast, _, ?_,
          replaces_set hn hv (.inr hnew)⟩))
        rw [if_pos hlt]

end ExecutionPredictor

end Cerberus.Graph
