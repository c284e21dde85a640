import Cerberus.Graph.TopoSort
import Cerberus.Graph.Listing
import Cerberus.Foundation.Shortlex

namespace Cerberus.Graph

open Foundation Foundation.Bytes Foundation.Precedence Foundation.Shortlex CerberusGraph

variable {F : Type} {g : CerberusGraph F} {n p m : GraphNode F} {degree : Int → Int}
  {queue : List Int} {sorted : List (GraphNode F)}

namespace CerberusGraph

def feeders (g : CerberusGraph F) (id : Int) : List Int :=
  (g.nodes.filter (fun n ↦ id ∈ g.consumers n.id)).map (fun n ↦ n.id)

/-- The chain of first outputs that leads to a node: at every step back, to the feeder whose own
chain is the longest, and among those the last in the lexicographic order. -/
def chain (g : CerberusGraph F) : Nat → Int → List Int
  | 0, id => [id]
  | fuel + 1, id => latest ((g.feeders id).map (chain g fuel)) ++ [id]

/-- Where a node stands: by the length of its chain, then by the chain itself. -/
def rank (g : CerberusGraph F) (id : Int) : Nat ×ₗ List Int := place (g.chain g.nodes.length id)

end CerberusGraph

theorem mem_feeders {id i : Int} :
    i ∈ g.feeders id ↔ ∃ n ∈ g.nodes, id ∈ g.consumers n.id ∧ n.id = i := by
  simp only [feeders, List.mem_map, List.mem_filter, decide_eq_true_eq, and_assoc]

theorem Draining.fed (hd : (g.nodes.map (fun n ↦ n.id)).Nodup) (h : Draining g degree queue sorted)
    (hm : m ∈ g.nodes) (hready : m ∈ sorted ∨ m.id ∈ queue) {i : Int} (hi : i ∈ g.feeders m.id) :
    i ∈ sorted.map (fun n ↦ n.id) := by
  obtain ⟨k, hk, hcons, rfl⟩ := mem_feeders.mp hi
  have hzero := (h.zero_iff m hm).mpr hready
  rw [h.degree_eq m hm, Int.natCast_eq_zero] at hzero
  have hdone := List.countP_eq_zero.mp hzero k hk
  rwa [((mem_consumers hd hk hm).mp hcons).2, Bool.and_true, decide_eq_true_eq, not_not] at hdone

def Chains (g : CerberusGraph F) (chain : Int → List Int) : Prop :=
  ∀ n ∈ g.nodes, chain n.id = latest ((g.feeders n.id).map chain) ++ [n.id]

section Rounds

variable {chain : Int → List Int}

/-- What the loop over the queue keeps besides: the nodes are sorted and queued by their chains,
and behind the chain of a queued node is that of a sorted one, or nothing. -/
structure Ranked (g : CerberusGraph F) (chain : Int → List Int) (queue : List Int)
    (sorted : List (GraphNode F)) : Prop where
  increasing : (sorted.map (fun n ↦ n.id) ++ queue).Pairwise
    (fun a b ↦ place (chain a) < place (chain b))
  behind : ∀ id ∈ queue, ∃ c, chain id = c ++ [id] ∧
    (c = [] ∨ ∃ n ∈ sorted, chain n.id = c)

theorem pairwise_consumers (hi : (g.nodes.map (fun n ↦ n.id)).Pairwise (· < ·)) (id : Int) :
    (g.consumers id).Pairwise (· < ·) := hi.sublist (consumers_sublist id)

theorem ranked_start (hi : (g.nodes.map (fun n ↦ n.id)).Pairwise (· < ·)) (hc : Chains g chain) :
    Ranked g chain g.sources [] := by
  have hd : (g.nodes.map (fun n ↦ n.id)).Nodup := hi.imp (fun h ↦ ne_of_lt h)
  have hchain (id : Int) (hid : id ∈ g.sources) : chain id = [] ++ [id] := by
    obtain ⟨m, hm, rfl⟩ := (draining_start hd).queued id hid
    have hnone : g.feeders m.id = [] := by
      refine List.eq_nil_iff_forall_not_mem.mpr (fun i hi ↦ ?_)
      have hfed := (draining_start hd).fed hd hm (.inr hid) hi
      simp at hfed
    rw [hc m hm, hnone]
    rfl
  refine ⟨?_, fun id hid ↦ ⟨[], hchain id hid, .inl rfl⟩⟩
  have hids : g.sources.Pairwise (· < ·) := hi.sublist (List.filter_sublist.map _)
  refine hids.imp_of_mem (fun ha hb hlt ↦ ?_)
  rw [hchain _ ha, hchain _ hb]
  exact place_append_lt_append [] hlt

theorem Ranked.round (hi : (g.nodes.map (fun n ↦ n.id)).Pairwise (· < ·)) (hc : Chains g chain)
    (hdr : Draining g degree (n.id :: queue) sorted) (h : Ranked g chain (n.id :: queue) sorted)
    (hn : n ∈ g.nodes) :
    Ranked g chain ((g.consumers n.id).foldl relax (degree, queue)).2 (sorted ++ [n]) := by
  have hd : (g.nodes.map (fun n ↦ n.id)).Nodup := hi.imp (fun h ↦ ne_of_lt h)
  have hbegun := List.pairwise_append.mp h.increasing
  have hnext := hdr.round hd hn
  rw [foldl_relax (nodup_consumers hd n.id)] at hnext ⊢
  dsimp only at hnext ⊢
  -- A node that is queued now has the current node as its latest feeder.
  have hnew (id : Int) (hid : id ∈ (g.consumers n.id).filter (fun id ↦ degree id - 1 = 0)) :
      chain id = chain n.id ++ [id] := by
    obtain ⟨hcons, -⟩ := List.mem_filter.mp hid
    obtain ⟨m, hm, rfl⟩ := consumers_of_mem hcons
    rw [hc m hm]
    congr 1
    have hfeeder : n.id ∈ g.feeders m.id := mem_feeders.mpr ⟨n, hn, hcons, rfl⟩
    refine latest_eq (List.mem_map_of_mem hfeeder) (fun q hq ↦ ?_)
    obtain ⟨i, hi, rfl⟩ := List.mem_map.mp hq
    have hfed := hnext.fed hd hm (.inr (List.mem_append_right _ hid)) hi
    rw [List.map_append, List.mem_append] at hfed
    rcases hfed with hfed | hfed
    · exact (hbegun.2.2 i hfed n.id (by simp)).le
    · rw [List.map_singleton, List.mem_singleton] at hfed
      rw [hfed]
  refine ⟨?_, ?_⟩
  · have hold : (sorted ++ [n]).map (fun n ↦ n.id) ++ (queue ++
        (g.consumers n.id).filter (fun id ↦ degree id - 1 = 0)) =
          (sorted.map (fun n ↦ n.id) ++ n.id :: queue) ++
            (g.consumers n.id).filter (fun id ↦ degree id - 1 = 0) := by
      simp
    rw [hold, List.pairwise_append]
    refine ⟨h.increasing, ?_, ?_⟩
    · refine ((pairwise_consumers hi n.id).filter _).imp_of_mem (fun ha hb hlt ↦ ?_)
      rw [hnew _ ha, hnew _ hb]
      exact place_append_lt_append _ hlt
    · intro a ha b hb
      rw [hnew b hb]
      rcases List.mem_append.mp ha with ha | ha
      · exact (hbegun.2.2 a ha n.id (by simp)).trans (place_lt_append _ _)
      · obtain ⟨c, hchain, hbehind⟩ := h.behind a ha
        rw [hchain]
        refine place_append_lt ?_
        rcases hbehind with rfl | ⟨s, hs, rfl⟩
        · refine place_nil_lt (fun hnil ↦ ?_)
          rw [hc n hn] at hnil
          simp at hnil
        · exact hbegun.2.2 s.id (List.mem_map_of_mem hs) n.id (by simp)
  · intro id hid
    rcases List.mem_append.mp hid with hid | hid
    · obtain ⟨c, hchain, hbehind⟩ := h.behind id (by simp [hid])
      refine ⟨c, hchain, hbehind.imp_right ?_⟩
      rintro ⟨s, hs, he⟩
      exact ⟨s, by simp [hs], he⟩
    · exact ⟨chain n.id, hnew id hid, .inr ⟨n, by simp, rfl⟩⟩

theorem Drains.ranked (hi : (g.nodes.map (fun n ↦ n.id)).Pairwise (· < ·)) (hc : Chains g chain)
    (h : Drains g g.inDegree g.sources [] (some sorted)) : Ranked g chain [] sorted := by
  have hd : (g.nodes.map (fun n ↦ n.id)).Nodup := hi.imp (fun h ↦ ne_of_lt h)
  exact h.keeps_sorted hd (fun _ _ _ _ hn hdr hr ↦ hr.round hi hc hdr hn) (draining_start hd)
    (ranked_start hi hc)

end Rounds

def Settled (g : CerberusGraph F) (sorted : List (GraphNode F)) : Prop :=
  ∀ n ∈ sorted, ∀ fuel, sorted.length ≤ fuel → g.chain fuel n.id = g.chain sorted.length n.id

theorem Settled.round (hd : (g.nodes.map (fun n ↦ n.id)).Nodup)
    (hdr : Draining g degree (n.id :: queue) sorted) (h : Settled g sorted) (hn : n ∈ g.nodes) :
    Settled g (sorted ++ [n]) := by
  have hfeeders (fuel : Nat) (hfuel : sorted.length ≤ fuel) :
      (g.feeders n.id).map (g.chain fuel) = (g.feeders n.id).map (g.chain sorted.length) := by
    refine List.map_congr_left (fun i hi ↦ ?_)
    obtain ⟨k, hk, rfl⟩ := List.mem_map.mp (hdr.fed hd hn (.inr (by simp)) hi)
    exact h k hk fuel hfuel
  intro m hm fuel hfuel
  rw [List.length_append, List.length_singleton] at hfuel ⊢
  rcases List.mem_append.mp hm with hm | hm
  · rw [h m hm fuel (by omega), h m hm (sorted.length + 1) (by omega)]
  · obtain rfl := List.mem_singleton.mp hm
    obtain ⟨fuel, rfl⟩ := Nat.exists_eq_add_of_le' (show 1 ≤ fuel by omega)
    rw [chain, chain, hfeeders fuel (by omega)]

theorem Drains.settled (hd : (g.nodes.map (fun n ↦ n.id)).Nodup)
    (h : Drains g g.inDegree g.sources [] (some sorted)) : Settled g sorted :=
  h.keeps_sorted (I := fun _ sorted ↦ Settled g sorted) hd
    (fun _ _ _ _ hn hdr hs ↦ hs.round hd hdr hn) (draining_start hd) (fun n hn ↦ by simp at hn)

theorem Settled.chains (h : Settled g sorted) (hperm : sorted.Perm g.nodes) :
    Chains g (g.chain g.nodes.length) := by
  intro n hn
  have hstep := h n (hperm.mem_iff.mpr hn) (g.nodes.length + 1) (by rw [hperm.length_eq]; omega)
  rw [hperm.length_eq, chain] at hstep
  exact hstep.symm

theorem Chains.rank_lt {chain : Int → List Int} (hc : Chains g chain) (hn : n ∈ g.nodes) {i : Int}
    (hi : i ∈ g.feeders n.id) : place (chain i) < place (chain n.id) := by
  rw [hc n hn]
  exact (le_latest (List.mem_map_of_mem hi)).trans_lt (place_lt_append _ _)

/-- The readers of an output that is not the first of its node stand behind the node. -/
def LaterOutputsFirst (g : CerberusGraph F) : Prop :=
  ∀ p ∈ g.nodes, ∀ n ∈ g.nodes, ∀ t ∈ p.outputs.tail, t ∈ n.inputs → g.rank p.id < g.rank n.id

theorem topoSort_topological_iff (hi : (g.nodes.map (fun n ↦ n.id)).Pairwise (· < ·))
    (ha : Dataflow.Acyclic (fun n ↦ n.inputs) (fun n ↦ n.outputs) g.nodes)
    (hs : Dataflow.Single (fun n ↦ n.outputs) g.nodes) :
    ∃ nodes, g.topoSort = some { g with nodes } ∧
      (Topological nodes ↔ LaterOutputsFirst g) := by
  have hd : (g.nodes.map (fun n ↦ n.id)).Nodup := hi.imp (fun h ↦ ne_of_lt h)
  obtain ⟨sorted, hdrains⟩ := (draining_start hd).drains hd
  obtain ⟨degree, hend⟩ := hdrains.draining hd (draining_start hd)
  have hperm := hend.perm_of_length (hend.length_of_empty ha hd.of_map)
  have hchains := (hdrains.settled hd).chains hperm
  have hranked := (hdrains.ranked hi hchains).increasing
  rw [List.append_nil, List.pairwise_map] at hranked
  refine ⟨sorted, by rw [topoSort_eq hd hdrains, if_pos hperm.length_eq], ?_⟩
  constructor
  · intro htop p hp n hn t ht hin
    have hout := List.mem_of_mem_tail ht
    obtain ⟨pre, post, he⟩ := List.append_of_mem (hperm.mem_iff.mpr hn)
    obtain ⟨q, hq, hout'⟩ := htop pre n post he t hin ⟨p, hperm.mem_iff.mpr hp, hout⟩
    have hqmem : q ∈ g.nodes := hperm.mem_iff.mp (by simp [he, hq])
    obtain rfl : q = p := hs.unique hqmem hp hout' hout
    subst he
    exact (mem_before_iff_lt hranked (by simp [hq])).mp hq
  · rintro hlater pre n post rfl t hin ⟨p, hp, hout⟩
    have hpmem := hperm.mem_iff.mp hp
    have hn : n ∈ g.nodes := hperm.mem_iff.mp (by simp)
    refine ⟨p, (mem_before_iff_lt hranked hp).mpr ?_, hout⟩
    cases houts : p.outputs with
    | nil => simp [houts] at hout
    | cons out outs =>
      rw [houts] at hout
      rcases List.mem_cons.mp hout with rfl | hout
      · have hfeeds : p.feeds n := by simpa [GraphNode.feeds, houts] using hin
        have hne : n.id ≠ p.id := by
          intro he
          obtain rfl := List.inj_on_of_nodup_map hd hn hpmem he
          exact ha t (.single ⟨n, hn, hin, by simp [houts]⟩)
        exact hchains.rank_lt hn
          (mem_feeders.mpr ⟨p, hpmem, (mem_consumers hd hpmem hn).mpr ⟨hne, hfeeds⟩, rfl⟩)
      · exact hlater p hpmem n hn t (by simp [houts, hout]) hin

section Conversion

variable {kg : KernelGraph F}

def KernelGraph.numbered (kg : KernelGraph F) : CerberusGraph F where
  nodes := kg.nodes.zipIdx.map converted

theorem rank_tensors (g : CerberusGraph F) (tensors : List GraphTensor) (id : Int) :
    ({ g with tensors } : CerberusGraph F).rank id = g.rank id := by
  have hchain (fuel : Nat) (id : Int) :
      ({ g with tensors } : CerberusGraph F).chain fuel id = g.chain fuel id := by
    induction fuel generalizing id with
    | zero => rfl
    | succ fuel ih =>
      rw [chain, chain]
      congr 2
      exact List.map_congr_left (fun i _ ↦ ih i)
  exact congrArg place (hchain _ id)

theorem converted_increasing (kg : KernelGraph F) :
    ((kg.nodes.zipIdx.map converted).map (fun n ↦ n.id)).Pairwise (· < ·) := by
  rw [converted_ids, List.pairwise_map]
  exact List.pairwise_lt_range.imp (fun h ↦ Int.ofNat_lt.mpr h)

theorem converted_single (hs : Dataflow.Single (fun n ↦ n.outputs) kg.nodes) :
    Dataflow.Single (fun n ↦ n.outputs) (kg.nodes.zipIdx.map converted) := by
  have houts : (kg.nodes.zipIdx.map converted).flatMap (fun n ↦ n.outputs) =
      kg.nodes.flatMap (fun n ↦ n.outputs) := by
    conv_rhs => rw [← List.zipIdx_map_fst 0 kg.nodes]
    rw [List.flatMap_map, List.flatMap_map]
    rfl
  rw [Dataflow.Single, houts]
  exact hs

/-- The converted graph is in topological order exactly when the readers of every later output
stand behind its node in the order of the first outputs. -/
theorem fromKernelGraph_topological_iff (order : List ByteString → List ByteString)
    (ha : kg.Acyclic) (hs : Dataflow.Single (fun n ↦ n.outputs) kg.nodes) :
    Topological (fromKernelGraph order kg).nodes ↔ LaterOutputsFirst kg.numbered := by
  obtain ⟨tensors, heq⟩ := fromKernelGraph_eq order kg
  obtain ⟨nodes, hsort, hiff⟩ := topoSort_topological_iff
    (g := ⟨kg.nodes.zipIdx.map converted, tensors⟩) (converted_increasing kg)
    (converted_acyclic ha) (converted_single hs)
  rw [heq, hsort, Option.getD_some, hiff]
  have hrank := rank_tensors kg.numbered tensors
  refine forall₂_congr (fun p hp ↦ forall₂_congr (fun n hn ↦ forall₂_congr (fun t ht ↦ ?_)))
  rw [← hrank p.id, ← hrank n.id]
  rfl

def splitNode : KernelNode Int where
  inputs := [lit "x"]
  outputs := [lit "h", lit "k"]

def secondReader : KernelNode Int where
  inputs := [lit "k"]
  outputs := [lit "y"]

theorem fromKernelGraph_topological_iff_split :
    Topological (fromKernelGraph id (scalarGraph [splitNode, secondReader])).nodes := by
  have ha : (scalarGraph [splitNode, secondReader]).Acyclic := acyclic_of_rank depth (by decide)
  refine (fromKernelGraph_topological_iff id ha (by unfold Dataflow.Single; decide)).mpr ?_
  unfold LaterOutputsFirst
  decide

/-- Listed first, the reader stays first. -/
theorem second_output_ignored : (scalarGraph [secondReader, splitNode]).Acyclic ∧
    Dataflow.Single (fun n ↦ n.outputs) (scalarGraph [secondReader, splitNode]).nodes ∧
    ¬Topological (fromKernelGraph id (scalarGraph [secondReader, splitNode])).nodes := by
  refine ⟨acyclic_of_rank depth (by decide), by unfold Dataflow.Single; decide, fun htop ↦ ?_⟩
  obtain ⟨p, hp, -⟩ := htop [] (converted (secondReader, 0)) [converted (splitNode, 1)] (by decide)
    (lit "k") (by decide) ⟨converted (splitNode, 1), by decide, by decide⟩
  simp at hp

end Conversion

end Cerberus.Graph
