import Cerberus.Graph.Sorting

namespace Cerberus.Graph

open Foundation Foundation.Bytes Foundation.Precedence CerberusGraph

variable {F : Type} {g g' : CerberusGraph F} {n p : GraphNode F} {degree : Int → Int}
  {queue : List Int} {sorted sorted' : List (GraphNode F)}

def Produces (g : CerberusGraph F) (p n : GraphNode F) : Prop :=
  p ∈ g.nodes ∧ n ∈ g.nodes ∧ ∃ t ∈ p.outputs, t ∈ n.inputs

/-- Every producer stands before every consumer of what it produces. -/
def InOrder (g : CerberusGraph F) (nodes : List (GraphNode F)) : Prop :=
  ∀ pre n post, nodes = pre ++ n :: post → ∀ p, Produces g p n → p ∈ pre

def CerberusGraph.topoSortInPlace (g : CerberusGraph F) : Bool × CerberusGraph F :=
  match g.topoSort with
  | none => (false, g)
  | some sorted => (true, sorted)

theorem produces_iff_feeds (hone : ∀ n ∈ g.nodes, n.outputs.length ≤ 1) (hp : p ∈ g.nodes)
    (hn : n ∈ g.nodes) : Produces g p n ↔ p.feeds n := by
  have hlen := hone p hp
  unfold Produces GraphNode.feeds
  cases hout : p.outputs with
  | nil => simp
  | cons out outs =>
    rw [hout, List.length_cons] at hlen
    obtain rfl : outs = [] := List.eq_nil_of_length_eq_zero (by omega)
    simp [hp, hn]

theorem InOrder.snoc (h : InOrder g sorted) (hn : ∀ p, Produces g p n → p ∈ sorted) :
    InOrder g (sorted ++ [n]) := by
  intro pre m post he p hp
  rcases List.eq_nil_or_concat post with rfl | ⟨post, z, rfl⟩
  · obtain ⟨rfl, hm⟩ := List.append_inj' he rfl
    rw [← List.singleton_inj.mp hm] at hp
    exact hn p hp
  · rw [List.concat_eq_append, ← List.cons_append, ← List.append_assoc] at he
    exact h pre m post (List.append_inj' he rfl).1 p hp

theorem Draining.produced (hd : (g.nodes.map (fun n ↦ n.id)).Nodup)
    (hone : ∀ n ∈ g.nodes, n.outputs.length ≤ 1) (h : Draining g degree (n.id :: queue) sorted)
    (hp : Produces g p n) : p ∈ sorted := by
  have hzero : degree n.id = 0 := (h.zero_iff n hp.2.1).mpr (.inr (by simp))
  rw [h.degree_eq n hp.2.1] at hzero
  have hwait := List.countP_eq_zero.mp (Int.natCast_eq_zero.mp hzero) p hp.1
  rw [(produces_iff_feeds hone hp.1 hp.2.1).mp hp, Bool.and_true, decide_eq_true_eq,
    not_not] at hwait
  obtain ⟨k, hk, he⟩ := List.mem_map.mp hwait
  rwa [← List.inj_on_of_nodup_map hd (h.sub k hk) hp.1 he]

theorem Drains.inOrder (hd : (g.nodes.map (fun n ↦ n.id)).Nodup)
    (hone : ∀ n ∈ g.nodes, n.outputs.length ≤ 1) (h : Drains g degree queue sorted (some sorted'))
    (hi : Draining g degree queue sorted) (ho : InOrder g sorted) : InOrder g sorted' :=
  h.keeps_sorted (I := fun _ sorted ↦ InOrder g sorted) hd
    (fun _ _ _ _ _ hdr ho ↦ ho.snoc (fun _ hp ↦ hdr.produced hd hone hp)) hi ho

theorem InOrder.pair (ho : InOrder g sorted) (hperm : sorted.Perm g.nodes) (hn : sorted.Nodup)
    (h : Produces g p n) : [p, n].Sublist sorted := by
  obtain ⟨pre, post, rfl⟩ := List.append_of_mem (hperm.mem_iff.mpr h.2.1)
  exact (mem_before_iff hn).mp (ho pre n post rfl p h)

theorem InOrder.acyclic (ho : InOrder g sorted) (hperm : sorted.Perm g.nodes)
    (hn : sorted.Nodup) : ¬Relation.TransGen (Produces g) n n := by
  have hbefore {p q : GraphNode F} (h : Relation.TransGen (Produces g) p q) :
      [p, q].Sublist sorted := by
    induction h with
    | single h => exact ho.pair hperm hn h
    | tail _ h ih => exact pair_sublist_trans hn ih (ho.pair hperm hn h)
  exact fun h ↦ not_pair_sublist_self hn (hbefore h)

section Again

variable {nodes : List (GraphNode F)}

theorem node_perm (hd : (g.nodes.map (fun n ↦ n.id)).Nodup) (hperm : nodes.Perm g.nodes)
    (id : Int) : ({ g with nodes } : CerberusGraph F).node id = g.node id := by
  have hd' : (nodes.map (fun n ↦ n.id)).Nodup := (hperm.map _).nodup_iff.mpr hd
  cases hn : g.node id with
  | none =>
    rw [node_eq_find, List.find?_eq_none] at hn ⊢
    exact fun m hm ↦ hn m (hperm.mem_iff.mp hm)
  | some n =>
    obtain ⟨hmem, rfl⟩ := mem_of_node hn
    exact node_of_mem hd' (hperm.mem_iff.mpr hmem)

theorem consumers_perm (hd : (g.nodes.map (fun n ↦ n.id)).Nodup) (hperm : nodes.Perm g.nodes)
    (id : Int) : (({ g with nodes } : CerberusGraph F).consumers id).Perm (g.consumers id) := by
  unfold consumers
  rw [node_perm hd hperm]
  split
  · exact .refl _
  · split
    · exact .refl _
    · exact (hperm.filter _).map _

theorem inDegree_perm (hperm : nodes.Perm g.nodes) :
    ({ g with nodes } : CerberusGraph F).inDegree = g.inDegree := by
  funext id
  unfold inDegree
  rw [(hperm.map _).sum_eq]
  congr 1
  refine List.map_congr_left (fun n _ ↦ ?_)
  cases n.outputs with
  | nil => rfl
  | cons out outs =>
    dsimp only
    rw [hperm.countP_eq]

theorem consumers_sublist (id : Int) :
    (g.consumers id).Sublist (g.nodes.map (fun n ↦ n.id)) := by
  unfold consumers
  split
  · exact List.nil_sublist _
  · split
    · exact List.nil_sublist _
    · exact List.filter_sublist.map _

theorem Drains.begins (hd : (g.nodes.map (fun n ↦ n.id)).Nodup)
    (h : Drains g degree queue sorted (some sorted')) :
    sorted.map (fun n ↦ n.id) ++ queue <+: sorted'.map (fun n ↦ n.id) := by
  generalize hr : some sorted' = r at h
  induction h with
  | done =>
    obtain rfl := Option.some.inj hr
    rw [List.append_nil]
  | missing => contradiction
  | @round degree id queue sorted n r hn h ih =>
    have hbegins := ih hr
    rw [foldl_relax (nodup_consumers hd id), List.map_append, List.map_singleton,
      (mem_of_node hn).2, List.append_assoc, List.singleton_append, ← List.cons_append,
      ← List.append_assoc] at hbegins
    exact (List.prefix_append _ _).trans hbegins

theorem Drains.again (hd : (g.nodes.map (fun n ↦ n.id)).Nodup) (hperm : nodes.Perm g.nodes)
    (h : Drains g degree queue sorted (some nodes)) :
    Drains { g with nodes } degree queue sorted (some nodes) := by
  have hd' : (nodes.map (fun n ↦ n.id)).Nodup := (hperm.map _).nodup_iff.mpr hd
  generalize hr : some nodes = r at h
  induction h with
  | done => exact .done
  | missing => contradiction
  | @round degree id queue sorted n r hn h ih =>
    refine .round ((node_perm hd hperm id).trans hn) ?_
    have hcons := consumers_perm hd hperm id
    have hbegins := Drains.begins hd (hr ▸ h)
    have hnext := ih hr
    rw [foldl_relax (nodup_consumers hd id)] at hbegins hnext
    rw [foldl_relax (nodup_consumers (g := { g with nodes }) hd' id)]
    dsimp only at hbegins hnext ⊢
    have hqueued : ((g.consumers id).filter (fun id ↦ degree id - 1 = 0)).Sublist
        (nodes.map (fun n ↦ n.id)) := by
      rw [← List.append_assoc] at hbegins
      exact (List.sublist_append_right _ _).trans hbegins.sublist
    have hsame : (({ g with nodes } : CerberusGraph F).consumers id).filter
        (fun id ↦ degree id - 1 = 0) = (g.consumers id).filter (fun id ↦ degree id - 1 = 0) :=
      (hd'.perm_iff_eq_of_sublist
        (List.filter_sublist.trans (consumers_sublist (g := { g with nodes }) id)) hqueued).mp
        (hcons.filter _)
    simp only [hsame, hcons.mem_iff]
    exact hnext

theorem sources_again (hd : (g.nodes.map (fun n ↦ n.id)).Nodup) (hperm : nodes.Perm g.nodes)
    (h : Drains g g.inDegree g.sources [] (some nodes)) :
    ({ g with nodes } : CerberusGraph F).sources = g.sources := by
  have hd' : (nodes.map (fun n ↦ n.id)).Nodup := (hperm.map _).nodup_iff.mpr hd
  have hbegins := h.begins hd
  rw [List.map_nil, List.nil_append] at hbegins
  have hsub : ({ g with nodes } : CerberusGraph F).sources.Sublist (nodes.map (fun n ↦ n.id)) :=
    List.filter_sublist.map _
  refine (hd'.perm_iff_eq_of_sublist hsub hbegins.sublist).mp ?_
  unfold sources
  rw [inDegree_perm hperm]
  exact (hperm.filter _).map _

end Again

/-- The loop ends in every graph with distinct identifiers. Where no node has more than one output,
the call succeeds exactly on the acyclic graphs, puts every producer before its consumers, and
finds nothing to change in its own result; where it fails, it leaves the graph alone. -/
theorem topoSort_correct (hd : (g.nodes.map (fun n ↦ n.id)).Nodup)
    (hone : ∀ n ∈ g.nodes, n.outputs.length ≤ 1) :
    (∃ sorted, Drains g g.inDegree g.sources [] (some sorted) ∧ g.topoSort =
      if sorted.length = g.nodes.length then some { g with nodes := sorted } else none) ∧
    (g.topoSortInPlace.1 = true ↔ ∀ n, ¬Relation.TransGen (Produces g) n n) ∧
    (g.topoSortInPlace.1 = true → g.topoSortInPlace.2.nodes.Perm g.nodes ∧
      g.topoSortInPlace.2.tensors = g.tensors ∧ InOrder g g.topoSortInPlace.2.nodes ∧
      g.topoSortInPlace.2.topoSortInPlace = (true, g.topoSortInPlace.2)) ∧
    (g.topoSortInPlace.1 = false → g.topoSortInPlace.2 = g) := by
  obtain ⟨sorted, hdrains⟩ := (draining_start hd).drains hd
  obtain ⟨degree, hend⟩ := hdrains.draining hd (draining_start hd)
  have hsort := topoSort_eq hd hdrains
  refine ⟨⟨sorted, hdrains, hsort⟩, ?_⟩
  by_cases hlen : sorted.length = g.nodes.length
  · have hperm := hend.perm_of_length hlen.ge
    have hd' : (sorted.map (fun n ↦ n.id)).Nodup := (hperm.map _).nodup_iff.mpr hd
    have horder := hdrains.inOrder hd hone (draining_start hd) (fun pre n post he ↦ by simp at he)
    have hagain : ({ g with nodes := sorted } : CerberusGraph F).topoSort =
        some { g with nodes := sorted } := by
      have hdrains' := hdrains.again hd hperm
      rw [← inDegree_perm hperm, ← sources_again hd hperm hdrains] at hdrains'
      rw [topoSort_eq hd' hdrains', if_pos rfl]
    rw [if_pos hlen] at hsort
    simp only [topoSortInPlace, hsort, hagain]
    exact ⟨iff_of_true trivial (fun n ↦ horder.acyclic hperm hd'.of_map),
      fun _ ↦ ⟨hperm, trivial, horder, trivial⟩, by simp⟩
  · rw [if_neg hlen] at hsort
    simp only [topoSortInPlace, hsort]
    refine ⟨iff_of_false (by simp) (fun hacyclic ↦ hlen ?_), by simp, fun _ ↦ trivial⟩
    have hle := hend.length_of_empty (Dataflow.acyclic_of_nodes hacyclic) hd.of_map
    exact (hend.perm_of_length hle).length_eq

def reversedPair : CerberusGraph Int where
  nodes := [{ id := 4, inputs := [lit "x"], outputs := [lit "y"] },
    { id := 2, outputs := [lit "x"] }]

theorem topoSort_correct_pair :
    reversedPair.topoSortInPlace.1 = true ∧ InOrder reversedPair reversedPair.topoSortInPlace.2.nodes ∧
      reversedPair.topoSortInPlace.2.nodes.map (fun n ↦ n.id) = [2, 4] := by
  have hsort : reversedPair.topoSortInPlace.1 = true := by decide
  have hcorrect := topoSort_correct (g := reversedPair) (by decide) (by decide)
  exact ⟨hsort, (hcorrect.2.2.1 hsort).2.2.1, by decide⟩

end Cerberus.Graph
