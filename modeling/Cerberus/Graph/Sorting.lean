import Cerberus.Graph.Plans
import Cerberus.Foundation.Dataflow

namespace Cerberus.Graph

open Foundation Foundation.Bytes CerberusGraph

variable {F : Type} {g : CerberusGraph F} {n m : GraphNode F} {degree : Int → Int}
  {queue : List Int} {sorted : List (GraphNode F)}

def GraphNode.feeds (n m : GraphNode F) : Bool :=
  match n.outputs with
  | [] => false
  | out :: _ => out ∈ m.inputs

def waiting (g : CerberusGraph F) (sorted : List (GraphNode F)) (m : GraphNode F) : Nat :=
  g.nodes.countP (fun n ↦ n.id ∉ sorted.map (fun n ↦ n.id) && n.feeds m)

theorem foldl_relax {ids : List Int} (hn : ids.Nodup) :
    ids.foldl relax (degree, queue) =
      (fun id ↦ if id ∈ ids then degree id - 1 else degree id,
        queue ++ ids.filter (fun id ↦ degree id - 1 = 0)) := by
  induction ids generalizing degree queue with
  | nil => simp
  | cons id ids ih =>
    obtain ⟨hnot, hn⟩ := List.nodup_cons.mp hn
    rw [List.foldl_cons, relax, ih hn]
    have hother (i : Int) (hi : i ∈ ids) : Function.update degree id (degree id - 1) i = degree i :=
      Function.update_of_ne (fun he ↦ hnot (by rwa [← he])) _ _
    refine Prod.ext ?_ ?_
    · funext i
      by_cases hi : i ∈ ids
      · simp [hi, hother i hi]
      · by_cases he : i = id
        · simp [he, hnot]
        · simp [hi, he]
    · have hfilter : ids.filter (fun i ↦ Function.update degree id (degree id - 1) i - 1 = 0) =
          ids.filter (fun i ↦ degree i - 1 = 0) :=
        List.filter_congr (fun i hi ↦ by rw [hother i hi])
      dsimp only
      rw [hfilter, Function.update_self, List.filter_cons]
      by_cases hzero : degree id - 1 = 0
      · simp [hzero]
      · simp [hzero]

theorem countP_id {nodes : List (GraphNode F)} (hd : (nodes.map (fun n ↦ n.id)).Nodup)
    (hm : m ∈ nodes) (q : GraphNode F → Bool) :
    nodes.countP (fun n ↦ n.id = m.id && q n) = if q m then 1 else 0 := by
  obtain ⟨pre, post, rfl⟩ := List.append_of_mem hm
  rw [List.map_append, List.map_cons, List.nodup_middle, List.nodup_cons, ← List.map_append] at hd
  have hnone (n : GraphNode F) (hn : n ∈ pre ++ post) : ¬(n.id = m.id && q n) := by
    have hne : n.id ≠ m.id := fun he ↦ hd.1 (he ▸ List.mem_map_of_mem hn)
    simp [hne]
  rw [List.countP_append, List.countP_cons,
    List.countP_eq_zero.mpr (fun n hn ↦ hnone n (List.mem_append_left _ hn)),
    List.countP_eq_zero.mpr (fun n hn ↦ hnone n (List.mem_append_right _ hn))]
  simp

theorem inDegree_eq (hd : (g.nodes.map (fun n ↦ n.id)).Nodup) (hm : m ∈ g.nodes) :
    g.inDegree m.id = waiting g [] m := by
  have hterms : g.inDegree m.id =
      (g.nodes.map (fun n ↦ if n.feeds m then (1 : Int) else 0)).sum := by
    unfold inDegree
    congr 1
    refine List.map_congr_left (fun n _ ↦ ?_)
    unfold GraphNode.feeds
    cases n.outputs with
    | nil => rfl
    | cons out outs =>
      have hcount := countP_id hd hm (fun later ↦ out ∈ later.inputs)
      simp only [hcount]
      split <;> rfl
  have hsum (nodes : List (GraphNode F)) :
      (nodes.map (fun n ↦ if n.feeds m then (1 : Int) else 0)).sum =
        nodes.countP (fun n ↦ n.feeds m) := by
    induction nodes with
    | nil => rfl
    | cons n nodes ih =>
      rw [List.map_cons, List.sum_cons, ih, List.countP_cons]
      split <;> simp [add_comm]
  rw [hterms, hsum, waiting]
  simp

theorem mem_consumers (hd : (g.nodes.map (fun n ↦ n.id)).Nodup) (hn : n ∈ g.nodes)
    (hm : m ∈ g.nodes) : m.id ∈ g.consumers n.id ↔ m.id ≠ n.id ∧ n.feeds m := by
  have hid (k : GraphNode F) (hk : k ∈ g.nodes) (he : k.id = m.id) : k = m :=
    List.inj_on_of_nodup_map hd hk hm he
  unfold consumers GraphNode.feeds
  rw [node_of_mem hd hn]
  dsimp only
  cases n.outputs with
  | nil => simp
  | cons out outs =>
    simp only [List.mem_map, List.mem_filter, Bool.and_eq_true, decide_eq_true_eq]
    constructor
    · rintro ⟨k, ⟨hk, hne, hin⟩, he⟩
      rw [hid k hk he] at hne hin
      exact ⟨hne, hin⟩
    · rintro ⟨hne, hin⟩
      exact ⟨m, ⟨hm, hne, hin⟩, rfl⟩

theorem nodup_consumers (hd : (g.nodes.map (fun n ↦ n.id)).Nodup) (id : Int) :
    (g.consumers id).Nodup := by
  unfold consumers
  split
  · exact List.nodup_nil
  · split
    · exact List.nodup_nil
    · exact hd.sublist (List.filter_sublist.map _)

theorem consumers_of_mem {id i : Int} (h : i ∈ g.consumers id) : ∃ m ∈ g.nodes, m.id = i := by
  unfold consumers at h
  split at h
  · simp at h
  · split at h
    · simp at h
    · obtain ⟨m, hm, rfl⟩ := List.mem_map.mp h
      exact ⟨m, List.mem_of_mem_filter hm, rfl⟩

theorem waiting_append (m : GraphNode F) (hd : (g.nodes.map (fun n ↦ n.id)).Nodup)
    (hn : n ∈ g.nodes) (hnot : n.id ∉ sorted.map (fun n ↦ n.id)) :
    waiting g sorted m = waiting g (sorted ++ [n]) m + if n.feeds m then 1 else 0 := by
  rw [← countP_id hd hn (fun k ↦ k.feeds m), waiting, waiting]
  induction g.nodes with
  | nil => rfl
  | cons k nodes ih =>
    simp only [List.countP_cons, ih]
    by_cases hk : k.id = n.id
    · cases k.feeds m <;> simp [hk, hnot]; omega
    · cases k.feeds m <;> simp [hk]; omega

/-- What the loop over the queue keeps: the degrees count what nodes wait for, and the nodes that
wait for nothing are sorted or in the queue, each of them once. -/
structure Draining (g : CerberusGraph F) (degree : Int → Int) (queue : List Int)
    (sorted : List (GraphNode F)) : Prop where
  sub : ∀ n ∈ sorted, n ∈ g.nodes
  queued : ∀ id ∈ queue, ∃ n ∈ g.nodes, n.id = id
  once : (sorted.map (fun n ↦ n.id) ++ queue).Nodup
  degree_eq : ∀ m ∈ g.nodes, degree m.id = waiting g sorted m
  zero_iff : ∀ m ∈ g.nodes, degree m.id = 0 ↔ m ∈ sorted ∨ m.id ∈ queue

def CerberusGraph.sources (g : CerberusGraph F) : List Int :=
  (g.nodes.filter (fun n ↦ g.inDegree n.id = 0)).map (fun n ↦ n.id)

theorem draining_start (hd : (g.nodes.map (fun n ↦ n.id)).Nodup) :
    Draining g g.inDegree g.sources [] := by
  unfold sources
  refine ⟨by simp, ?_, ?_, fun m hm ↦ inDegree_eq hd hm, ?_⟩
  · intro id hid
    obtain ⟨n, hn, rfl⟩ := List.mem_map.mp hid
    exact ⟨n, List.mem_of_mem_filter hn, rfl⟩
  · exact hd.sublist (List.filter_sublist.map _)
  · intro m hm
    simp only [List.not_mem_nil, false_or, List.mem_map, List.mem_filter, decide_eq_true_eq]
    constructor
    · exact fun h ↦ ⟨m, ⟨hm, h⟩, rfl⟩
    · rintro ⟨k, ⟨hk, hzero⟩, he⟩
      rwa [List.inj_on_of_nodup_map hd hk hm he] at hzero

theorem Draining.round (hd : (g.nodes.map (fun n ↦ n.id)).Nodup)
    (h : Draining g degree (n.id :: queue) sorted) (hn : n ∈ g.nodes) :
    Draining g ((g.consumers n.id).foldl relax (degree, queue)).1
      ((g.consumers n.id).foldl relax (degree, queue)).2 (sorted ++ [n]) := by
  have hsorted : n.id ∉ sorted.map (fun n ↦ n.id) := fun hmem ↦
    (List.nodup_append.mp h.once).2.2 n.id hmem n.id (by simp) rfl
  have hself : degree n.id = 0 := (h.zero_iff n hn).mpr (.inr (by simp))
  -- A node that is fed has waited for the one that is sorted now.
  have hwait (m : GraphNode F) := waiting_append m hd hn hsorted
  have hfed (m : GraphNode F) (hm : m ∈ g.nodes) (hfeeds : n.feeds m) : 0 < degree m.id := by
    rw [h.degree_eq m hm, hwait m, if_pos hfeeds]
    omega
  have hconsumer (m : GraphNode F) (hm : m ∈ g.nodes) :
      m.id ∈ g.consumers n.id ↔ n.feeds m := by
    rw [mem_consumers hd hn hm]
    refine ⟨fun hm ↦ hm.2, fun hfeeds ↦ ⟨fun he ↦ ?_, hfeeds⟩⟩
    have hpos := hfed m hm hfeeds
    rw [he, hself] at hpos
    omega
  rw [foldl_relax (nodup_consumers hd n.id)]
  dsimp only
  refine ⟨?_, ?_, ?_, ?_, ?_⟩
  · intro m hm
    rcases List.mem_append.mp hm with hm | hm
    · exact h.sub m hm
    · rwa [List.mem_singleton.mp hm]
  · intro id hid
    rcases List.mem_append.mp hid with hid | hid
    · exact h.queued id (by simp [hid])
    · exact consumers_of_mem (List.mem_of_mem_filter hid)
  · have hold : (sorted ++ [n]).map (fun n ↦ n.id) ++ (queue ++
        (g.consumers n.id).filter (fun id ↦ degree id - 1 = 0)) =
          (sorted.map (fun n ↦ n.id) ++ n.id :: queue) ++
            (g.consumers n.id).filter (fun id ↦ degree id - 1 = 0) := by
      simp
    rw [hold, List.nodup_append]
    refine ⟨h.once, (nodup_consumers hd n.id).filter _, ?_⟩
    rintro i hi j hj rfl
    have hc := List.mem_of_mem_filter hj
    obtain ⟨m, hm, rfl⟩ := consumers_of_mem hc
    have hpos := hfed m hm ((hconsumer m hm).mp hc)
    have hsorted : m ∈ sorted ∨ m.id ∈ n.id :: queue := by
      rcases List.mem_append.mp hi with hi | hi
      · obtain ⟨k, hk, he⟩ := List.mem_map.mp hi
        rw [List.inj_on_of_nodup_map hd (h.sub k hk) hm he] at hk
        exact .inl hk
      · exact .inr hi
    rw [(h.zero_iff m hm).mpr hsorted] at hpos
    omega
  · intro m hm
    have hdegree := h.degree_eq m hm
    rw [hwait m] at hdegree
    by_cases hfeeds : n.feeds m
    · rw [if_pos ((hconsumer m hm).mpr hfeeds), hdegree, if_pos hfeeds]
      push_cast
      omega
    · rw [if_neg (fun hc ↦ hfeeds ((hconsumer m hm).mp hc)), hdegree, if_neg hfeeds, Nat.add_zero]
  · intro m hm
    have hzero := h.zero_iff m hm
    by_cases hfeeds : n.feeds m
    · have hpos := hfed m hm hfeeds
      have hc := (hconsumer m hm).mpr hfeeds
      have hnew : m ∉ sorted ∧ m.id ∉ n.id :: queue := by
        refine not_or.mp (fun hold ↦ ?_)
        rw [hzero.mpr hold] at hpos
        omega
      have hne : m ≠ n := fun he ↦ hnew.2 (by simp [he])
      have hqueue : m.id ∉ queue := fun hq ↦ hnew.2 (by simp [hq])
      simp [hc, hnew.1, hne, hqueue]
    · have hc : m.id ∉ g.consumers n.id := fun hc ↦ hfeeds ((hconsumer m hm).mp hc)
      have hsame : m.id = n.id ↔ m = n :=
        ⟨fun he ↦ List.inj_on_of_nodup_map hd hm hn he, fun he ↦ by rw [he]⟩
      rw [if_neg hc, hzero]
      simp only [List.mem_cons, List.mem_append, List.mem_filter, hc, hsame, List.not_mem_nil]
      tauto

theorem Draining.perm_of_length (h : Draining g degree queue sorted)
    (hlen : g.nodes.length ≤ sorted.length) : sorted.Perm g.nodes := by
  have hn : sorted.Nodup := (List.nodup_append.mp h.once).1.of_map
  exact (List.subperm_of_subset hn h.sub).perm_of_length_le hlen

theorem Draining.length_of_empty (h : Draining g degree [] sorted)
    (ha : Dataflow.Acyclic (fun n ↦ n.inputs) (fun n ↦ n.outputs) g.nodes)
    (hn : g.nodes.Nodup) : g.nodes.length ≤ sorted.length := by
  have hall : ∀ m ∈ g.nodes, m ∈ sorted := by
    by_contra hno
    push Not at hno
    obtain ⟨m, ⟨hm, hnot⟩, hfirst⟩ := ha.exists_first (S := {m | m ∈ g.nodes ∧ m ∉ sorted})
      (fun m hm ↦ hm.1) hno
    have hwait : waiting g sorted m = 0 := by
      rw [waiting, List.countP_eq_zero]
      intro k hk hwaits
      rw [Bool.and_eq_true, decide_eq_true_eq] at hwaits
      have hk' : k ∉ sorted := fun hs ↦ hwaits.1 (List.mem_map_of_mem hs)
      have hfeeds := hwaits.2
      unfold GraphNode.feeds at hfeeds
      split at hfeeds
      · contradiction
      · rename_i out outs hout
        exact hfirst k ⟨hk, hk'⟩ out (by simp [hout]) (by simpa using hfeeds)
    have hzero : degree m.id = 0 := by
      rw [h.degree_eq m hm, hwait]
      rfl
    rcases (h.zero_iff m hm).mp hzero with hs | hq
    · exact hnot hs
    · simp at hq
  exact (List.subperm_of_subset hn hall).length_le

inductive Drains (g : CerberusGraph F) :
    (Int → Int) → List Int → List (GraphNode F) → Option (List (GraphNode F)) → Prop
  | done {degree : Int → Int} {sorted : List (GraphNode F)} : Drains g degree [] sorted (some sorted)
  | missing {degree : Int → Int} {id : Int} {queue : List Int} {sorted : List (GraphNode F)} :
      g.node id = none → Drains g degree (id :: queue) sorted none
  | round {degree : Int → Int} {id : Int} {queue : List Int} {sorted : List (GraphNode F)}
      {n : GraphNode F} {r : Option (List (GraphNode F))} : g.node id = some n →
      Drains g ((g.consumers id).foldl relax (degree, queue)).1
        ((g.consumers id).foldl relax (degree, queue)).2 (sorted ++ [n]) r →
      Drains g degree (id :: queue) sorted r

theorem Draining.length_le (h : Draining g degree queue sorted) :
    sorted.length + queue.length ≤ g.nodes.length := by
  have hsub : ∀ id ∈ sorted.map (fun n ↦ n.id) ++ queue, id ∈ g.nodes.map (fun n ↦ n.id) := by
    intro id hid
    rcases List.mem_append.mp hid with hid | hid
    · obtain ⟨n, hn, rfl⟩ := List.mem_map.mp hid
      exact List.mem_map_of_mem (h.sub n hn)
    · obtain ⟨n, hn, rfl⟩ := h.queued id hid
      exact List.mem_map_of_mem hn
  simpa using (List.subperm_of_subset h.once hsub).length_le

theorem Draining.drains (hd : (g.nodes.map (fun n ↦ n.id)).Nodup)
    (h : Draining g degree queue sorted) : ∃ sorted', Drains g degree queue sorted (some sorted') := by
  obtain ⟨left, hleft⟩ : ∃ left, g.nodes.length ≤ sorted.length + left :=
    ⟨g.nodes.length, Nat.le_add_left _ _⟩
  induction left generalizing degree queue sorted with
  | zero =>
    have hle := h.length_le
    obtain rfl : queue = [] := List.eq_nil_of_length_eq_zero (by omega)
    exact ⟨sorted, .done⟩
  | succ left ih =>
    cases queue with
    | nil => exact ⟨sorted, .done⟩
    | cons id queue =>
      obtain ⟨n, hn, rfl⟩ := h.queued id (by simp)
      obtain ⟨sorted', hdrains⟩ := ih (h.round hd hn) (by simp; omega)
      exact ⟨sorted', .round (node_of_mem hd hn) hdrains⟩

variable {sorted' : List (GraphNode F)}

theorem Drains.keeps {I : (Int → Int) → List Int → List (GraphNode F) → Prop}
    (hround : ∀ degree id queue sorted n, g.node id = some n → I degree (id :: queue) sorted →
      I ((g.consumers id).foldl relax (degree, queue)).1
        ((g.consumers id).foldl relax (degree, queue)).2 (sorted ++ [n]))
    (h : Drains g degree queue sorted (some sorted')) (hi : I degree queue sorted) :
    ∃ degree', I degree' [] sorted' := by
  generalize hr : some sorted' = r at h
  induction h with
  | done =>
    obtain rfl := Option.some.inj hr
    exact ⟨_, hi⟩
  | missing => contradiction
  | round hn _ ih => exact ih (hround _ _ _ _ _ hn hi) hr

theorem Drains.draining (hd : (g.nodes.map (fun n ↦ n.id)).Nodup)
    (h : Drains g degree queue sorted (some sorted')) (hi : Draining g degree queue sorted) :
    ∃ degree', Draining g degree' [] sorted' := by
  refine h.keeps (fun degree id queue sorted n hn hi ↦ ?_) hi
  obtain ⟨m, hm, rfl⟩ := hi.queued id (by simp)
  obtain rfl := Option.some.inj ((node_of_mem hd hm).symm.trans hn)
  exact hi.round hd hm

theorem Drains.keeps_sorted {I : List Int → List (GraphNode F) → Prop}
    (hd : (g.nodes.map (fun n ↦ n.id)).Nodup)
    (hround : ∀ degree n queue sorted, n ∈ g.nodes → Draining g degree (n.id :: queue) sorted →
      I (n.id :: queue) sorted →
        I ((g.consumers n.id).foldl relax (degree, queue)).2 (sorted ++ [n]))
    (h : Drains g degree queue sorted (some sorted')) (hdr : Draining g degree queue sorted)
    (hi : I queue sorted) : I [] sorted' := by
  have hkeeps (degree : Int → Int) (id : Int) (queue : List Int) (sorted : List (GraphNode F))
      (n : GraphNode F) (hn : g.node id = some n)
      (hinv : Draining g degree (id :: queue) sorted ∧ I (id :: queue) sorted) :
      Draining g ((g.consumers id).foldl relax (degree, queue)).1
        ((g.consumers id).foldl relax (degree, queue)).2 (sorted ++ [n]) ∧
        I ((g.consumers id).foldl relax (degree, queue)).2 (sorted ++ [n]) := by
    obtain ⟨m, hm, rfl⟩ := hinv.1.queued id (by simp)
    obtain rfl := Option.some.inj ((node_of_mem hd hm).symm.trans hn)
    exact ⟨hinv.1.round hd hm, hround degree m queue sorted hm hinv.1 hinv.2⟩
  obtain ⟨-, -, hend⟩ := h.keeps
    (I := fun degree queue sorted ↦ Draining g degree queue sorted ∧ I queue sorted) hkeeps ⟨hdr, hi⟩
  exact hend

theorem Drains.length_le {r : Option (List (GraphNode F))} (h : Drains g degree queue sorted r)
    (hr : r = some sorted') : sorted.length ≤ sorted'.length := by
  induction h with
  | done => rw [Option.some.inj hr]
  | missing => contradiction
  | round _ _ ih =>
    have hle := ih hr
    rw [List.length_append, List.length_singleton] at hle
    omega

/-- The loop of `topoSort` has enough rounds. -/
theorem Drains.drain_eq {fuel : Nat} (h : Drains g degree queue sorted (some sorted'))
    (hfuel : sorted'.length ≤ sorted.length + fuel) :
    g.drain fuel degree queue sorted = some sorted' := by
  generalize hr : some sorted' = r at h
  induction h generalizing fuel with
  | done =>
    cases fuel with
    | zero => rfl
    | succ fuel => rfl
  | missing => contradiction
  | round hn h ih =>
    have hle := h.length_le hr.symm
    rw [List.length_append, List.length_singleton] at hle
    cases fuel with
    | zero => omega
    | succ fuel =>
      rw [drain, hn]
      exact ih (by rw [List.length_append, List.length_singleton]; omega) hr

theorem topoSort_eq (hd : (g.nodes.map (fun n ↦ n.id)).Nodup)
    (h : Drains g g.inDegree g.sources [] (some sorted)) :
    g.topoSort =
      if sorted.length = g.nodes.length then some { g with nodes := sorted } else none := by
  obtain ⟨degree, hend⟩ := h.draining hd (draining_start hd)
  have hle : sorted.length ≤ ([] : List Nat).length + g.nodes.length := by
    simpa using hend.length_le
  have hdrain := h.drain_eq hle
  rw [sources] at hdrain
  rw [topoSort, hdrain]
  by_cases hlen : sorted.length = g.nodes.length
  · simp [hlen]
  · simp [hlen]

theorem topoSort_perm (hd : (g.nodes.map (fun n ↦ n.id)).Nodup)
    (ha : Dataflow.Acyclic (fun n ↦ n.inputs) (fun n ↦ n.outputs) g.nodes) :
    ∃ nodes, g.topoSort = some { g with nodes } ∧ nodes.Perm g.nodes := by
  obtain ⟨sorted, hdrains⟩ := (draining_start hd).drains hd
  obtain ⟨degree, hend⟩ := hdrains.draining hd (draining_start hd)
  have hperm := hend.perm_of_length (hend.length_of_empty ha hd.of_map)
  refine ⟨sorted, ?_, hperm⟩
  rw [topoSort_eq hd hdrains, if_pos hperm.length_eq]

end Cerberus.Graph
