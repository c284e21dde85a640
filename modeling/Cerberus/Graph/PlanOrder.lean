import Cerberus.Foundation.Precedence
import Cerberus.Graph.Plans

namespace Cerberus.Graph

open Foundation.Bytes Foundation.Precedence

variable {F : Type}

/-- A node is carried out at its own place, or, if it is an `Add` that is fused, at that of its
`Mul`. -/
def Placed (g : CerberusGraph F) (k n : GraphNode F) : Prop :=
  SoleReader g k n ∨ n = k ∧ ∀ m ∈ g.nodes, ¬ SoleReader g m n

/-- The tensor is produced at an earlier place than that of the node, or by its `Mul`. -/
def Ready (g : CerberusGraph F) (n : GraphNode F) (t : ByteString) : Prop :=
  ∃ p, t ∈ p.outputs ∧
    (p ∈ g.nodes ∧ SoleReader g p n ∨ ∃ k k', [k, k'].Sublist g.nodes ∧ Placed g k p ∧ Placed g k' n)

def planNodes (g : CerberusGraph F) (plan : List ExecutionStep) : List (GraphNode F) :=
  (planIds plan).filterMap g.node

variable {cfg : DecisionConfig} {env : Surroundings} {g : CerberusGraph F} {target : ByteString}
  {plan : List ExecutionStep} {n m a : GraphNode F}

theorem Placed.mem {k k' : GraphNode F} (h : Placed g k n) (hk : [k, k'].Sublist g.nodes) :
    n ∈ g.nodes := by
  rcases h with hs | ⟨rfl, -⟩
  · exact hs.mem
  · exact hk.subset (by simp)

theorem SoleReader.mem_inputs (hd : (g.nodes.map (fun n ↦ n.id)).Nodup) (h : SoleReader g m a) :
    ∃ t ∈ m.outputs, t ∈ a.inputs := by
  obtain ⟨t, ht, hc⟩ := h.reads
  refine ⟨t, List.mem_of_head? ht, ?_⟩
  have hmem : a.id ∈ g.tensorToConsumers t := by simp [hc]
  obtain ⟨n, hn, hin⟩ := List.mem_flatMap.mp hmem
  obtain ⟨i, hi, hid⟩ := List.mem_map.mp hin
  obtain ⟨hi, he⟩ := List.mem_filter.mp hi
  obtain rfl := List.inj_on_of_nodup_map hd hn h.mem hid
  simpa using (by simpa using he : i = t) ▸ hi

theorem mem_consumed_iff (hd : (g.nodes.map (fun n ↦ n.id)).Nodup) (ha : a ∈ g.nodes) :
    a.id ∈ consumed g ↔ ∃ m ∈ g.nodes, SoleReader g m a := by
  rw [mem_consumed hd ha]
  constructor
  · rintro ⟨m, hm, hp⟩
    exact ⟨m, hm, (partner_eq_some hd hm).mp hp⟩
  · rintro ⟨m, hm, hp⟩
    exact ⟨m, hm, (partner_eq_some hd hm).mpr hp⟩

theorem mem_nodes_of_planOrder (hd : (g.nodes.map (fun n ↦ n.id)).Nodup) :
    n ∈ planOrder g ↔ n ∈ g.nodes := by
  rw [mem_planOrder]
  constructor
  · rintro (⟨hn, -⟩ | ⟨m, hm, hp⟩)
    · exact hn
    · exact ((partner_eq_some hd hm).mp hp).mem
  · intro hn
    by_cases hc : n.id ∈ consumed g
    · exact .inr ((mem_consumed hd hn).mp hc)
    · exact .inl ⟨hn, .inr hc⟩

theorem placed_iff (hd : (g.nodes.map (fun n ↦ n.id)).Nodup) {k : GraphNode F} (hk : k ∈ g.nodes) :
    ((partner g k).isSome || decide (k.id ∉ consumed g)) = true ∧ n ∈ k :: (partner g k).toList ↔
      Placed g k n := by
  have hpartner : n ∈ (partner g k).toList ↔ SoleReader g k n := by
    rw [Option.mem_toList, ← partner_eq_some hd hk]
  rw [List.mem_cons, hpartner, Bool.or_eq_true, decide_eq_true_eq]
  constructor
  · rintro ⟨hkept, rfl | hs⟩
    · refine .inr ⟨rfl, fun m hm hs ↦ ?_⟩
      rcases hkept with hsome | hno
      · obtain ⟨a, ha⟩ := Option.isSome_iff_exists.mp hsome
        have hmul := ((partner_eq_some hd hk).mp ha).mul
        rw [hs.add] at hmul
        cases hmul
      · exact hno ((mem_consumed_iff hd hk).mpr ⟨m, hm, hs⟩)
    · exact .inl hs
  · rintro (hs | ⟨rfl, hno⟩)
    · exact ⟨.inl (by simp [(partner_eq_some hd hk).mpr hs]), .inr hs⟩
    · refine ⟨.inr (fun hc ↦ ?_), .inl rfl⟩
      obtain ⟨m, hm, hs⟩ := (mem_consumed_iff hd hk).mp hc
      exact hno m hm hs

theorem pair_planOrder (hd : (g.nodes.map (fun n ↦ n.id)).Nodup) {p : GraphNode F} :
    [p, n].Sublist (planOrder g) ↔ p ∈ g.nodes ∧ SoleReader g p n ∨
      ∃ k k', [k, k'].Sublist g.nodes ∧ Placed g k p ∧ Placed g k' n := by
  rw [planOrder, pair_sublist_flatMap]
  constructor
  · rintro (⟨k, k', hk, hp, hn⟩ | ⟨k, hk, hpair⟩)
    · obtain ⟨hk, hkept, hkept'⟩ := pair_sublist_filter.mp hk
      exact .inr ⟨k, k', hk, (placed_iff hd (hk.subset (by simp))).mp ⟨hkept, hp⟩,
        (placed_iff hd (hk.subset (by simp))).mp ⟨hkept', hn⟩⟩
    · have hmem := (List.mem_filter.mp hk).1
      rw [pair_sublist_cons] at hpair
      rcases hpair with hpair | ⟨rfl, hn⟩
      · have hlen := hpair.length_le
        cases hpart : partner g k <;> simp [hpart] at hlen
      · exact .inl ⟨hmem, (partner_eq_some hd hmem).mp (Option.mem_toList.mp hn)⟩
  · rintro (⟨hp, hs⟩ | ⟨k, k', hk, hplaced, hplaced'⟩)
    · have hpart := (partner_eq_some hd hp).mpr hs
      refine .inr ⟨p, List.mem_filter.mpr ⟨hp, by simp [hpart]⟩, ?_⟩
      rw [pair_sublist_cons]
      exact .inr ⟨rfl, Option.mem_toList.mpr hpart⟩
    · obtain ⟨hkept, hp⟩ := (placed_iff hd (hk.subset (by simp))).mpr hplaced
      obtain ⟨hkept', hn⟩ := (placed_iff hd (hk.subset (by simp))).mpr hplaced'
      exact .inl ⟨k, k', pair_sublist_filter.mpr ⟨hk, hkept, hkept'⟩, hp, hn⟩

theorem planNodes_analyse (hd : (g.nodes.map (fun n ↦ n.id)).Nodup)
    (h : (analyse cfg env g target).2 = .ok plan) :
    planNodes g plan = if cfg.fuseElementwise then planOrder g else g.nodes := by
  rw [planNodes, planIds_analyse hd h, List.filterMap_map]
  have hmem : ∀ n ∈ (if cfg.fuseElementwise then planOrder g else g.nodes), n ∈ g.nodes := by
    intro n hn
    split at hn
    · exact (mem_nodes_of_planOrder hd).mp hn
    · exact hn
  have hself : (if cfg.fuseElementwise then planOrder g else g.nodes).filterMap
      (g.node ∘ fun n ↦ n.id) =
        (if cfg.fuseElementwise then planOrder g else g.nodes).filterMap some :=
    List.filterMap_congr (fun n hn ↦ node_of_mem hd (hmem n hn))
  rw [hself, List.filterMap_some]

/-- Where no `Add` has two `Mul`s, a plan has no node twice. -/
theorem nodup_planOrder (hd : (g.nodes.map (fun n ↦ n.id)).Nodup)
    (hunique : ∀ m ∈ g.nodes, ∀ m' ∈ g.nodes, ∀ a, SoleReader g m a → SoleReader g m' a → m = m') :
    (planOrder g).Nodup := by
  refine List.Nodup.of_map (fun n ↦ n.id) (List.nodup_iff_count_le_one.mpr (fun id ↦ ?_))
  by_cases hid : id ∈ (planOrder g).map (fun n ↦ n.id)
  · obtain ⟨n, hn, rfl⟩ := List.mem_map.mp hid
    have hmem := (mem_nodes_of_planOrder hd).mp hn
    rw [count_planOrder hd hmem]
    have hle : g.nodes.countP (fun m ↦ (partner g m).map (fun a ↦ a.id) = some n.id) ≤ 1 := by
      refine (countP_le_one hd.of_map _).mpr (fun m hm m' hm' hp hp' ↦ ?_)
      exact hunique m hm m' hm' n ((partner_id_iff hd hm hmem).mp (by simpa using hp))
        ((partner_id_iff hd hm' hmem).mp (by simpa using hp'))
    omega
  · rw [List.count_eq_zero_of_not_mem hid]
    omega

/-- The operands of the fused `Add`s, and what they produce, are ready where they are read. -/
def FusesInOrder (g : CerberusGraph F) : Prop :=
  ∀ m ∈ g.nodes, ∀ a, SoleReader g m a →
    (∀ t ∈ a.inputs, (∃ p ∈ g.nodes, t ∈ p.outputs) → Ready g a t) ∧
      ∀ n ∈ g.nodes, ∀ t ∈ n.inputs, t ∈ a.outputs → Ready g n t

theorem topological_planOrder (hd : (g.nodes.map (fun n ↦ n.id)).Nodup)
    (hunique : ∀ m ∈ g.nodes, ∀ m' ∈ g.nodes, ∀ a, SoleReader g m a → SoleReader g m' a → m = m')
    (ht : Topological g.nodes) : Topological (planOrder g) ↔ FusesInOrder g := by
  rw [topological_iff (nodup_planOrder hd hunique)]
  simp only [mem_nodes_of_planOrder hd, pair_planOrder hd]
  constructor
  · intro h m hm a hs
    constructor
    · intro t hin hp
      obtain ⟨p, -, hready⟩ := h a hs.mem t hin hp
      exact ⟨p, hready⟩
    · intro n hn t hin hout
      obtain ⟨p, -, hready⟩ := h n hn t hin ⟨a, hs.mem, hout⟩
      exact ⟨p, hready⟩
  · intro h n hn t hin hp
    suffices hready : Ready g n t by
      obtain ⟨p, hout, hbefore⟩ := hready
      exact ⟨p, hbefore.elim (fun hs ↦ hs.1) (fun ⟨_, _, hk, hp, _⟩ ↦ hp.mem hk), hout, hbefore⟩
    -- A fused `Add` is ready by assumption; any other node stays behind an earlier producer,
    -- unless that is a fused `Add` itself.
    by_cases hfused : ∃ m ∈ g.nodes, SoleReader g m n
    · obtain ⟨m, hm, hs⟩ := hfused
      exact (h m hm n hs).1 t hin hp
    · obtain ⟨p, -, hout, hbefore⟩ := (topological_iff hd.of_map).mp ht n hn t hin hp
      by_cases hmoved : ∃ m ∈ g.nodes, SoleReader g m p
      · obtain ⟨m, hm, hs⟩ := hmoved
        exact (h m hm p hs).2 n hn t hin hout
      · exact ⟨p, hout, .inr ⟨p, n, hbefore, .inr ⟨rfl, fun m hm hs ↦ hmoved ⟨m, hm, hs⟩⟩,
          .inr ⟨rfl, fun m hm hs ↦ hfused ⟨m, hm, hs⟩⟩⟩⟩

/-- A plan for a graph in order is in order exactly when fusion is off, or no `Add` is moved in
front of what it needs. -/
theorem plan_ordered_iff (hd : (g.nodes.map (fun n ↦ n.id)).Nodup) (ht : Topological g.nodes)
    (hmul : ∀ a ∈ g.nodes, a.op = .add → ∀ m ∈ g.nodes, ∀ m' ∈ g.nodes, m.op = .mul →
      m'.op = .mul → (∃ t ∈ m.outputs, t ∈ a.inputs) → (∃ t ∈ m'.outputs, t ∈ a.inputs) → m = m')
    (h : (analyse cfg env g target).2 = .ok plan) :
    Topological (planNodes g plan) ↔ cfg.fuseElementwise = false ∨ FusesInOrder g := by
  have hunique : ∀ m ∈ g.nodes, ∀ m' ∈ g.nodes, ∀ a, SoleReader g m a → SoleReader g m' a →
      m = m' := fun m hm m' hm' a hs hs' ↦ hmul a hs.mem hs.add m hm m' hm' hs.mul hs'.mul
        (hs.mem_inputs hd) (hs'.mem_inputs hd)
  rw [planNodes_analyse hd h]
  cases cfg.fuseElementwise with
  | false => simpa using ht
  | true => simpa using topological_planOrder hd hunique ht

theorem mulAdd_fuses : FusesInOrder mulAdd := by
  have hsole : SoleReader mulAdd (graphNode 0 .mul ["x", "y"] "p") (graphNode 1 .add ["p", "z"] "s") :=
    ⟨rfl, rfl, by simp [mulAdd], lit "p", rfl, by decide⟩
  intro m hm a hs
  have ha : a = graphNode 1 .add ["p", "z"] "s" := by
    have hmem := hs.mem
    simp only [mulAdd, List.mem_cons, List.not_mem_nil, or_false] at hmem
    rcases hmem with rfl | rfl
    · exact absurd hs.add (by decide)
    · rfl
  subst ha
  constructor
  · intro t hin hp
    have hproduced : ∀ t ∈ (graphNode 1 .add ["p", "z"] "s").inputs,
        (∃ p ∈ mulAdd.nodes, t ∈ p.outputs) → t = lit "p" := by decide
    obtain rfl := hproduced t hin hp
    exact ⟨graphNode 0 .mul ["x", "y"] "p", by simp [graphNode], .inl ⟨by simp [mulAdd], hsole⟩⟩
  · have hunread : ∀ n ∈ mulAdd.nodes, ∀ t ∈ n.inputs,
        t ∉ (graphNode 1 .add ["p", "z"] "s").outputs := by decide
    exact fun n hn t hin hout ↦ absurd hout (hunread n hn t hin)

theorem plan_ordered_iff_pair : (mulAdd.nodes.map (fun n ↦ n.id)).Nodup ∧
    Topological mulAdd.nodes ∧ ∃ plan, (analyse {} calm mulAdd (lit "native")).2 = .ok plan ∧
      Topological (planNodes mulAdd plan) := by
  have hd : (mulAdd.nodes.map (fun n ↦ n.id)).Nodup := by decide
  have ht : Topological mulAdd.nodes := (topological_iff hd.of_map).mpr (by decide)
  obtain ⟨plan, hplan⟩ := analyse_ok {} calm (lit "native") hd (by simp [mulAdd])
  exact ⟨hd, ht, plan, hplan, (plan_ordered_iff hd ht (by decide) hplan).mpr
    (.inr mulAdd_fuses)⟩

/-- The second operand of the `Add` comes after the `Mul`. -/
def lateOperand : CerberusGraph Int where
  nodes := [graphNode 0 .mul ["x", "y"] "p", graphNode 1 .relu ["w"] "r",
    graphNode 2 .add ["p", "r"] "s"]

/-- The `Add` is planned before the node that produces its second operand. -/
theorem add_planned_early : (lateOperand.nodes.map (fun n ↦ n.id)).Nodup ∧
    (∀ n ∈ lateOperand.nodes, n.outputs.length = 1) ∧ Topological lateOperand.nodes ∧
    (∀ m ∈ lateOperand.nodes, ∀ m' ∈ lateOperand.nodes, m.op = .mul → m'.op = .mul → m = m') ∧
    ∃ plan, (analyse {} calm lateOperand (lit "native")).2 = .ok plan ∧
      planIds plan = [0, 2, 1] ∧ ¬ Topological (planNodes lateOperand plan) := by
  have hd : (lateOperand.nodes.map (fun n ↦ n.id)).Nodup := by decide
  have ht : Topological lateOperand.nodes := (topological_iff hd.of_map).mpr (by decide)
  obtain ⟨plan, hplan⟩ := analyse_ok {} calm (lit "native") hd (by simp [lateOperand])
  have hids : planIds plan = [0, 2, 1] := by
    rw [planIds_analyse hd hplan]
    decide
  refine ⟨hd, by decide, ht, by decide, plan, hplan, hids, fun htopo ↦ ?_⟩
  rw [planNodes, hids, topological_iff (by decide)] at htopo
  exact absurd htopo (by decide)

end Cerberus.Graph
