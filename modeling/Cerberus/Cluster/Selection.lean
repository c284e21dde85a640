import Cerberus.Cluster.Reconnect
import Cerberus.Foundation.Choosing
import Mathlib.Data.Rat.Defs
import Mathlib.Algebra.Order.Ring.Rat

namespace Cerberus.Cluster

open Foundation.Bytes Foundation.Choosing

structure RosterNode (K : Type) extends ClusterNode where
  healthScore : K

structure DispatchDecision (K : Type) where
  targetNodeId : UInt32
  expectedScore : K
  rationale : ByteString
  deriving DecidableEq

/-- What `select_worker` looks at: the workers in the order in which their map is gone through, the
queue depths of those that have sent telemetry, and the round-robin cursor. -/
structure Balancer (K : Type) where
  workerMap : List (RosterNode K)
  distinct : (workerMap.map (·.nodeId)).Nodup
  workerTelem : UInt32 → Option K := fun _ ↦ none
  rrIndex : UInt32 := 0

section

variable {K : Type} [Ring K] [LinearOrder K]

/-- `std::numeric_limits<float>::lowest()` -/
def lowest : K := -((2 ^ 128 - 2 ^ 104 : Nat) : K)

/-- `std::numeric_limits<std::uint32_t>::max()` -/
def noId : UInt32 := 0xFFFFFFFF

namespace Balancer

variable (b : Balancer K) (oneDecimal : K → ByteString)

def effectiveScore (node : RosterNode K) : K :=
  let health := if 0 < node.healthScore then node.healthScore else 0
  let queue := (b.workerTelem node.nodeId).getD 0
  health - ((5 : Nat) : K) * queue

def best : UInt32 × K :=
  b.workerMap.foldl (fun best node ↦
    if !node.reachable then best
    else if best.2 < b.effectiveScore node then (node.nodeId, b.effectiveScore node)
    else best) (noId, lowest)

/-- The node that the cursor points to; a roster of 2^32 nodes has the 32-bit size zero, and the
remainder by it is undefined. -/
def fallback : Option (RosterNode K) :=
  let sz := UInt32.ofNat b.workerMap.length
  if sz = 0 then none else b.workerMap[(b.rrIndex % sz).toNat]?

/-- The result of the call, or none where it is undefined, and what it leaves. `oneDecimal` writes
a number as `{:.1f}` does. -/
def selectWorker : Option (Except ClusterError (DispatchDecision K)) × Balancer K :=
  if b.workerMap.isEmpty then (some (.error .noWorkers), b)
  else
    let (bestId, bestScore) := b.best
    if bestId = noId then
      (b.fallback.map (fun node ↦ .ok
        { targetNodeId := node.nodeId
          expectedScore := 0
          rationale := lit "round-robin fallback (node " ++ decimal node.nodeId.toNat ++
            lit " of " ++ decimal (UInt32.ofNat b.workerMap.length).toNat ++ lit ")" }),
        { b with rrIndex := b.rrIndex + 1 })
    else
      (some (.ok
        { targetNodeId := bestId
          expectedScore := bestScore
          rationale := lit "health-score=" ++ oneDecimal bestScore ++
            lit " queue-adjusted (node " ++ decimal bestId.toNat ++ lit ")" }), b)

def calls : Nat → Balancer K → List (Option (Except ClusterError (DispatchDecision K)))
  | 0, _ => []
  | n + 1, b => (b.selectWorker oneDecimal).1 :: calls n (b.selectWorker oneDecimal).2

def score (node : RosterNode K) : K :=
  max node.healthScore 0 - ((5 : Nat) : K) * (b.workerTelem node.nodeId).getD 0

def Best (node : RosterNode K) : Prop :=
  node ∈ b.workerMap ∧ node.reachable = true ∧
    ∀ other ∈ b.workerMap, other.reachable = true → b.score other ≤ b.score node

/-- A best reachable worker is chosen, and without one the roster is gone round evenly. -/
structure Selects : Prop where
  best : (∃ node ∈ b.workerMap, node.reachable = true) →
    ∃ d node, (b.selectWorker oneDecimal).1 = some (.ok d) ∧ b.Best node ∧
      d.targetNodeId = node.nodeId
  round : (∀ node ∈ b.workerMap, node.reachable = false) →
    ∃ ds : List (DispatchDecision K),
      calls oneDecimal b.workerMap.length b = ds.map (fun d ↦ some (.ok d)) ∧
      (ds.map (·.targetNodeId)).Perm (b.workerMap.map (·.nodeId))

/-- The first of the best reachable workers can be told from the start of the loop, or the cursor
points to one; and with none reachable the cursor does not overflow within a round, unless the
size of the roster is a power of two. -/
structure Distinguishes : Prop where
  best : ∀ node, (b.workerMap.filter (·.reachable)).argmax b.score = some node →
    (node.nodeId ≠ noId ∧ lowest < b.score node) ∨ ∃ node', b.fallback = some node' ∧ b.Best node'
  round : (∀ node ∈ b.workerMap, node.reachable = false) →
    b.workerMap.length < 2 ^ 32 ∧
      (b.rrIndex.toNat + b.workerMap.length ≤ 2 ^ 32 ∨ b.workerMap.length ∣ 2 ^ 32)

end Balancer

end

variable {K : Type} {b : Balancer K} {node other : RosterNode K}

theorem node_unique (h : node ∈ b.workerMap) (h' : other ∈ b.workerMap)
    (hid : node.nodeId = other.nodeId) : node = other :=
  List.inj_on_of_nodup_map b.distinct h h' hid

theorem fallback_mem (h : b.fallback = some node) : node ∈ b.workerMap := by
  unfold Balancer.fallback at h
  dsimp only at h
  split at h
  · cases h
  · exact List.mem_of_getElem? h

theorem length_le (b : Balancer K) : b.workerMap.length ≤ 2 ^ 32 := by
  have hinj : Function.Injective UInt32.toFin := fun x y h ↦ UInt32.toFin_inj.mp h
  have hcard := (b.distinct.map hinj).length_le_card
  simpa [UInt32.size] using hcard

theorem fallback_eq (hpos : 0 < b.workerMap.length) (hlt : b.workerMap.length < 2 ^ 32) :
    b.fallback = b.workerMap[place (2 ^ 32) b.workerMap.length b.rrIndex.toNat 0]? := by
  have hto : (UInt32.ofNat b.workerMap.length).toNat = b.workerMap.length := by
    simpa using hlt
  have hne : UInt32.ofNat b.workerMap.length ≠ 0 := by
    intro h0
    rw [h0] at hto
    simp only [UInt32.toNat_zero] at hto
    omega
  have hrr : b.rrIndex.toNat < 2 ^ 32 := b.rrIndex.toNat_lt
  unfold Balancer.fallback place
  dsimp only
  rw [if_neg hne, UInt32.toNat_mod, hto, Nat.add_zero, Nat.mod_eq_of_lt hrr]

section

variable [Ring K] [LinearOrder K] (oneDecimal : K → ByteString)

theorem effectiveScore_eq (b : Balancer K) (node : RosterNode K) :
    b.effectiveScore node = b.score node := by
  unfold Balancer.effectiveScore Balancer.score
  by_cases h : 0 < node.healthScore
  · simp [h, h.le]
  · simp [h, not_lt.mp h]

theorem best_eq (b : Balancer K) : b.best =
    (((b.workerMap.filter (·.reachable)).argmax b.score).filter
      (fun node ↦ lowest < b.score node)).elim (noId, lowest)
        (fun node ↦ (node.nodeId, b.score node)) := by
  rw [← foldl_best, List.foldl_filter]
  unfold Balancer.best
  congr 1
  funext best node
  cases node.reachable with
  | false => rfl
  | true => simp [effectiveScore_eq]

theorem argmax_best (h : (b.workerMap.filter (·.reachable)).argmax b.score = some node) :
    b.Best node := by
  obtain ⟨hmem, hreach⟩ := List.mem_filter.mp (List.argmax_mem h)
  refine ⟨hmem, hreach, ?_⟩
  intro other hother hreach'
  exact List.le_of_mem_argmax (List.mem_filter.mpr ⟨hother, hreach'⟩) h

theorem selectWorker_fallback (hne : b.workerMap ≠ []) (hbest : b.best.1 = noId) :
    (b.selectWorker oneDecimal).2 = { b with rrIndex := b.rrIndex + 1 } ∧
      ∃ decide : RosterNode K → DispatchDecision K, (∀ node, (decide node).targetNodeId = node.nodeId) ∧
        (b.selectWorker oneDecimal).1 = b.fallback.map (fun node ↦ .ok (decide node)) := by
  have hempty : ¬ b.workerMap.isEmpty = true := by simpa using hne
  unfold Balancer.selectWorker
  rw [if_neg hempty]
  dsimp only
  rw [if_pos hbest]
  exact ⟨rfl, fun node ↦ ⟨node.nodeId, 0, _⟩, fun _ ↦ rfl, rfl⟩

theorem selectWorker_best (hne : b.workerMap ≠ []) (hbest : b.best.1 ≠ noId) :
    ∃ d, (b.selectWorker oneDecimal).1 = some (.ok d) ∧ d.targetNodeId = b.best.1 := by
  have hempty : ¬ b.workerMap.isEmpty = true := by simpa using hne
  unfold Balancer.selectWorker
  rw [if_neg hempty]
  dsimp only
  rw [if_neg hbest]
  exact ⟨_, rfl, rfl⟩

theorem best_id (h : (b.workerMap.filter (·.reachable)).argmax b.score = some node) :
    b.best.1 = if lowest < b.score node then node.nodeId else noId := by
  rw [best_eq, h]
  by_cases hlow : lowest < b.score node <;> simp [Option.filter_some, hlow]

theorem selects_best_iff (h : (b.workerMap.filter (·.reachable)).argmax b.score = some node) :
    (∃ d node, (b.selectWorker oneDecimal).1 = some (.ok d) ∧ b.Best node ∧
      d.targetNodeId = node.nodeId) ↔
    (node.nodeId ≠ noId ∧ lowest < b.score node) ∨
      ∃ node', b.fallback = some node' ∧ b.Best node' := by
  have hnode := argmax_best h
  have hne : b.workerMap ≠ [] := List.ne_nil_of_mem hnode.1
  by_cases hfound : node.nodeId ≠ noId ∧ lowest < b.score node
  · have hid : b.best.1 = node.nodeId := by rw [best_id h, if_pos hfound.2]
    obtain ⟨d, hd, htarget⟩ := selectWorker_best oneDecimal hne
      (by rw [hid]; exact hfound.1)
    exact iff_of_true ⟨d, node, hd, hnode, htarget.trans hid⟩ (.inl hfound)
  · have hid : b.best.1 = noId := by
      rw [best_id h]
      split
      · next hlow =>
        by_contra hno
        exact hfound ⟨hno, hlow⟩
      · rfl
    obtain ⟨-, decision, htarget, hselect⟩ :=
      selectWorker_fallback oneDecimal hne hid
    rw [hselect]
    constructor
    · rintro ⟨d, best, hd, hbest, hsame⟩
      obtain ⟨node', hfallback, he⟩ := Option.map_eq_some_iff.mp hd
      cases he
      rw [htarget] at hsame
      have hequal := node_unique (fallback_mem hfallback) hbest.1 hsame
      exact .inr ⟨node', hfallback, by rw [hequal]; exact hbest⟩
    · rintro (hno | ⟨node', hfallback, hbest⟩)
      · exact absurd hno hfound
      · exact ⟨decision node', node', by rw [hfallback]; rfl, hbest, htarget node'⟩

theorem best_unreachable (hnone : ∀ node ∈ b.workerMap, node.reachable = false) :
    b.best.1 = noId := by
  have hfilter : b.workerMap.filter (·.reachable) = [] := by
    rw [List.filter_eq_nil_iff]
    intro node hnode
    simp [hnone node hnode]
  rw [best_eq, hfilter]
  rfl

theorem calls_unreachable (hnone : ∀ node ∈ b.workerMap, node.reachable = false)
    (hpos : 0 < b.workerMap.length) (hlt : b.workerMap.length < 2 ^ 32) (k : Nat) :
    ∃ ds : List (DispatchDecision K), Balancer.calls oneDecimal k b = ds.map (fun d ↦ some (.ok d)) ∧
      ds.length = k ∧ ∀ i < k, (ds.map (·.targetNodeId))[i]? = (b.workerMap.map (·.nodeId))[
        place (2 ^ 32) b.workerMap.length b.rrIndex.toNat i]? := by
  induction k generalizing b with
  | zero => exact ⟨[], rfl, rfl, by simp⟩
  | succ k ih =>
    obtain ⟨hnext, decision, htarget, hselect⟩ := selectWorker_fallback oneDecimal
      (List.ne_nil_of_length_pos hpos) (best_unreachable hnone)
    obtain ⟨ds, hcalls, hlen, hget⟩ := ih (b := { b with rrIndex := b.rrIndex + 1 }) hnone hpos hlt
    obtain ⟨node, hnode⟩ : ∃ node,
        b.workerMap[place (2 ^ 32) b.workerMap.length b.rrIndex.toNat 0]? = some node :=
      ⟨_, List.getElem?_eq_getElem (place_lt hpos)⟩
    refine ⟨decision node :: ds, ?_, ?_, ?_⟩
    · rw [Balancer.calls, hselect, fallback_eq hpos hlt, hnode, hnext, hcalls]
      rfl
    · rw [List.length_cons, hlen]
    · intro i hi
      cases i with
      | zero =>
        rw [List.getElem?_map, List.getElem?_map, hnode]
        simp [htarget]
      | succ i =>
        have hrr : (b.rrIndex + 1).toNat = (b.rrIndex.toNat + 1) % 2 ^ 32 := by simp
        have := hget i (by omega)
        rw [hrr, place_succ] at this
        simpa using this

theorem selects_round_iff (hnone : ∀ node ∈ b.workerMap, node.reachable = false) :
    (∃ ds : List (DispatchDecision K),
      Balancer.calls oneDecimal b.workerMap.length b = ds.map (fun d ↦ some (.ok d)) ∧
      (ds.map (·.targetNodeId)).Perm (b.workerMap.map (·.nodeId))) ↔
    b.workerMap.length < 2 ^ 32 ∧
      (b.rrIndex.toNat + b.workerMap.length ≤ 2 ^ 32 ∨ b.workerMap.length ∣ 2 ^ 32) := by
  have hrr : b.rrIndex.toNat < 2 ^ 32 := b.rrIndex.toNat_lt
  rcases Nat.eq_zero_or_pos b.workerMap.length with h0 | hpos
  · have hempty : b.workerMap = [] := List.length_eq_zero_iff.mp h0
    rw [h0]
    exact iff_of_true ⟨[], rfl, by simp [hempty]⟩ ⟨by decide, .inl (by omega)⟩
  · rcases (length_le b).lt_or_eq with hlt | hfull
    · obtain ⟨ds, hcalls, hlen, hget⟩ :=
        calls_unreachable oneDecimal hnone hpos hlt b.workerMap.length
      have hperm : (ds.map (·.targetNodeId)).Perm (b.workerMap.map (·.nodeId)) ↔
          b.rrIndex.toNat + b.workerMap.length ≤ 2 ^ 32 ∨ b.workerMap.length ∣ 2 ^ 32 := by
        have := @perm_iff _ (2 ^ 32) b.rrIndex.toNat (b.workerMap.map (·.nodeId))
          (ds.map (·.targetNodeId)) b.distinct (by simp [hlen])
        simp only [List.length_map] at this
        exact this hget hrr
      rw [← hperm]
      constructor
      · rintro ⟨ds', hcalls', hperm'⟩
        have hinj : Function.Injective (fun d : DispatchDecision K ↦
            (some (.ok d) : Option (Except ClusterError (DispatchDecision K)))) := by
          intro d d' h
          cases h
          rfl
        have hsame : ds = ds' := hinj.list_map (hcalls.symm.trans hcalls')
        exact ⟨hlt, by rw [hsame]; exact hperm'⟩
      · exact fun h ↦ ⟨ds, hcalls, h.2⟩
    · -- the first call divides by zero
      apply iff_of_false
      · rintro ⟨ds, hcalls, -⟩
        have hnofallback : b.fallback = none := by
          unfold Balancer.fallback
          rw [hfull]
          rfl
        obtain ⟨-, decision, -, hselect⟩ := selectWorker_fallback oneDecimal
          (List.ne_nil_of_length_pos hpos) (best_unreachable hnone)
        obtain ⟨n, hn⟩ : ∃ n, b.workerMap.length = n + 1 := Nat.exists_eq_add_one.mpr hpos
        rw [hn, Balancer.calls, hselect, hnofallback] at hcalls
        cases ds with
        | nil => cases hcalls
        | cons d ds =>
          rw [List.map_cons] at hcalls
          cases (List.cons.inj hcalls).1
      · rintro ⟨hlt, -⟩
        omega

/-- The choice is a best worker, and goes round evenly without one, exactly where the loop can
tell its result from its start, or the fallback meets a best worker, and the cursor does not
overflow at the wrong place. -/
theorem selects_iff (b : Balancer K) :
    b.Selects oneDecimal ↔ b.Distinguishes := by
  constructor
  · rintro ⟨hbest, hround⟩
    refine ⟨?_, ?_⟩
    · intro node hnode
      apply (selects_best_iff oneDecimal hnode).mp
      exact hbest ⟨node, (argmax_best hnode).1, (argmax_best hnode).2.1⟩
    · intro hnone
      exact (selects_round_iff oneDecimal hnone).mp (hround hnone)
  · rintro ⟨hbest, hround⟩
    refine ⟨?_, ?_⟩
    · rintro ⟨node, hmem, hreach⟩
      have hfilter : node ∈ b.workerMap.filter (·.reachable) :=
        List.mem_filter.mpr ⟨hmem, hreach⟩
      cases hargmax : (b.workerMap.filter (·.reachable)).argmax b.score with
      | none =>
        rw [List.argmax_eq_none.mp hargmax] at hfilter
        cases hfilter
      | some first => exact (selects_best_iff oneDecimal hargmax).mpr (hbest first hargmax)
    · intro hnone
      exact (selects_round_iff oneDecimal hnone).mpr (hround hnone)

end

def sentinelRoster : Balancer ℚ where
  workerMap :=
    [{ nodeId := 1, reachable := true, healthScore := 1 },
      { nodeId := 0xFFFFFFFF, reachable := true, healthScore := 2 }]
  distinct := by decide

def lastCursor : Balancer ℚ where
  workerMap :=
    [{ nodeId := 1, healthScore := 0 }, { nodeId := 2, healthScore := 0 },
      { nodeId := 3, healthScore := 0 }]
  distinct := by decide
  rrIndex := 0xFFFFFFFF

def chosen (n : Nat) (b : Balancer ℚ) : List (Option UInt32) :=
  (Balancer.calls (fun _ ↦ []) n b).map (fun r ↦ (r.bind Except.toOption).map (·.targetNodeId))

theorem chosen_sentinel : chosen 1 sentinelRoster = [some 1] := by decide +kernel

theorem chosen_lastCursor : chosen 3 lastCursor = [some 1, some 1, some 2] := by decide +kernel

theorem sentinel_id_loses : (¬ ∀ b : Balancer ℚ, b.Selects (fun _ ↦ [])) ∧
    ¬ sentinelRoster.Selects (fun _ ↦ []) ∧ ¬ lastCursor.Selects (fun _ ↦ []) := by
  have hsentinel : ¬ sentinelRoster.Selects (fun _ ↦ []) := by
    intro h
    obtain ⟨d, node, hd, ⟨hmem, -, hmax⟩, htarget⟩ :=
      h.best ⟨_, List.mem_cons_self, rfl⟩
    have hone := chosen_sentinel
    simp only [chosen, Balancer.calls, hd, List.map_cons, List.map_nil, Option.bind_some,
      Except.toOption, Option.map_some, List.cons.injEq, Option.some.injEq, and_true] at hone
    have hid : node.nodeId = 1 := htarget.symm.trans hone
    have hnode : node = { nodeId := 1, reachable := true, healthScore := 1 } :=
      node_unique (b := sentinelRoster) hmem List.mem_cons_self hid
    have := hmax _ (List.mem_cons_of_mem _ List.mem_cons_self) rfl
    rw [hnode] at this
    exact absurd this (by decide +kernel)
  refine ⟨fun h ↦ hsentinel (h _), hsentinel, ?_⟩
  intro h
  obtain ⟨ds, hds, hperm⟩ := h.round (by decide)
  have hthree := chosen_lastCursor
  have hlen : lastCursor.workerMap.length = 3 := rfl
  rw [chosen, ← hlen, hds, List.map_map] at hthree
  have hids : (ds.map (·.targetNodeId)).map some = [some 1, some 1, some 2] := by
    rw [← hthree, List.map_map]
    rfl
  have hnodup : ((ds.map (·.targetNodeId)).map some).Nodup :=
    (hperm.nodup_iff.mpr lastCursor.distinct).map (Option.some_injective _)
  rw [hids] at hnodup
  exact absurd hnodup (by decide)

end Cerberus.Cluster
