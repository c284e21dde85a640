import Cerberus.Graph.Decision

namespace Cerberus.Graph

open Foundation.Bytes TieredMemory

variable {F : Type}

/-- The `Add` is the only reader of the product of the `Mul`, and reads it once. -/
structure SoleReader (g : CerberusGraph F) (m a : GraphNode F) : Prop where
  mul : m.op = .mul
  add : a.op = .add
  mem : a ∈ g.nodes
  reads : ∃ t, m.outputs.head? = some t ∧ g.tensorToConsumers t = [a.id]

/-- The `Add` that the step of a node is fused with. -/
def partner (g : CerberusGraph F) (n : GraphNode F) : Option (GraphNode F) :=
  (fusion g { nodeIds := [n.id] }).map (fun e ↦ e.2)

def consumed (g : CerberusGraph F) : List Int := (g.nodes.filterMap (partner g)).map (fun a ↦ a.id)

/-- The nodes in the order of a plan with fusion: an `Add` that was fused follows its `Mul`. -/
def planOrder (g : CerberusGraph F) : List (GraphNode F) :=
  (g.nodes.filter (fun n ↦ (partner g n).isSome || n.id ∉ consumed g)).flatMap
    (fun n ↦ n :: (partner g n).toList)

variable {cfg : DecisionConfig} {env : Surroundings} {g : CerberusGraph F} {target : ByteString}
  {plan : List ExecutionStep} {step : ExecutionStep} {n m a : GraphNode F} {id : Int}

theorem node_eq_find : g.node id = g.nodes.find? (fun n ↦ n.id = id) :=
  List.find?_eq_bind_findIdx?_getElem?.symm

theorem mem_of_node (h : g.node id = some n) : n ∈ g.nodes ∧ n.id = id := by
  rw [node_eq_find] at h
  exact ⟨List.mem_of_find?_eq_some h, by simpa using List.find?_some h⟩

theorem node_of_mem (hd : (g.nodes.map (fun n ↦ n.id)).Nodup) (hn : n ∈ g.nodes) :
    g.node n.id = some n := by
  cases hf : g.node n.id with
  | none =>
    rw [node_eq_find, List.find?_eq_none] at hf
    exact absurd (hf n hn) (by simp)
  | some n' =>
    obtain ⟨hmem, hid⟩ := mem_of_node hf
    rw [List.inj_on_of_nodup_map hd hmem hn hid]

theorem fusion_eq_some : fusion g step = some (m, a) ↔ step.backend = .native ∧
    ∃ id, step.nodeIds = [id] ∧ g.node id = some m ∧ m.op = .mul ∧ ∃ t, m.outputs.head? = some t ∧
      ∃ id', g.tensorToConsumers t = [id'] ∧ g.node id' = some a ∧ a.op = .add := by
  unfold fusion
  by_cases hb : step.backend = .native
  · rw [if_neg (by simp [hb])]
    simp only [hb, true_and]
    split
    · next id hids =>
      simp only [hids, List.cons.injEq, and_true, exists_eq_left', Option.bind_eq_bind,
        Option.bind_eq_some_iff]
      constructor
      · rintro ⟨n, hn, _, hguard, t, ht, hrest⟩
        split at hrest
        · next id' hc =>
          simp only [Option.bind_eq_some_iff] at hrest
          obtain ⟨n', hn', _, hguard', hpair⟩ := hrest
          cases hpair
          exact ⟨hn, by simpa [guard] using hguard, t, ht, id', hc, hn', by
            simpa [guard] using hguard'⟩
        · cases hrest
      · rintro ⟨hn, hop, t, ht, id', hc, hn', hop'⟩
        refine ⟨m, hn, (), by simp [guard, hop], t, ht, ?_⟩
        simp [hc, hn', hop', guard]
    · next hids =>
      simp only [reduceCtorEq, false_iff]
      rintro ⟨id, hid, -⟩
      exact hids id hid
  · simp [hb]

theorem partner_eq_some (hd : (g.nodes.map (fun n ↦ n.id)).Nodup) (hm : m ∈ g.nodes) :
    partner g m = some a ↔ SoleReader g m a := by
  unfold partner
  constructor
  · intro h
    obtain ⟨⟨m', a'⟩, hf, he⟩ := Option.map_eq_some_iff.mp h
    cases he
    obtain ⟨-, id, hid, hn, hop, t, ht, id', hc, hn', hop'⟩ := fusion_eq_some.mp hf
    cases hid
    rw [node_of_mem hd hm] at hn
    cases hn
    obtain ⟨hmem, rfl⟩ := mem_of_node hn'
    exact ⟨hop, hop', hmem, t, ht, hc⟩
  · rintro ⟨hop, hop', hmem, t, ht, hc⟩
    have hf : fusion g { nodeIds := [m.id] } = some (m, a) := fusion_eq_some.mpr
      ⟨rfl, m.id, rfl, node_of_mem hd hm, hop, t, ht, a.id, hc, node_of_mem hd hmem, hop'⟩
    rw [hf]
    rfl

theorem pickBackend_mul (hn : g.node id = some n) (hop : n.op = .mul) :
    pickBackend cfg env g id = .native := by
  simp [pickBackend, hn, hop]

@[simp] theorem planStep_nodeIds : (planStep cfg env g target n).nodeIds = [n.id] := by
  unfold planStep reevaluateTier
  dsimp only
  split
  · split <;> rfl
  · rfl

@[simp] theorem planStep_backend :
    (planStep cfg env g target n).backend = pickBackend cfg env g n.id := by
  unfold planStep reevaluateTier
  dsimp only
  split
  · split <;> rfl
  · rfl

@[simp] theorem powerOverride_nodeIds : (powerOverride cfg step).nodeIds = step.nodeIds := by
  unfold powerOverride
  split <;> rfl

/-- A step is fused whatever the surroundings: a `Mul` is always native. -/
theorem fusion_planStep (hd : (g.nodes.map (fun n ↦ n.id)).Nodup) (hn : n ∈ g.nodes) :
    fusion g (planStep cfg env g target n) = (partner g n).map (fun a ↦ (n, a)) := by
  refine Option.ext (fun e ↦ ?_)
  obtain ⟨m, a⟩ := e
  constructor
  · intro hf
    obtain ⟨-, id, hid, hm, hop, t, ht, id', hc, ha, hop'⟩ := fusion_eq_some.mp hf
    rw [planStep_nodeIds] at hid
    cases hid
    rw [node_of_mem hd hn] at hm
    cases hm
    obtain ⟨hmem, rfl⟩ := mem_of_node ha
    rw [(partner_eq_some hd hn).mpr ⟨hop, hop', hmem, t, ht, hc⟩]
    rfl
  · intro hp
    obtain ⟨a', ha', he⟩ := Option.map_eq_some_iff.mp hp
    cases he
    obtain ⟨hop, hop', hmem, t, ht, hc⟩ := (partner_eq_some hd hn).mp ha'
    refine fusion_eq_some.mpr ⟨?_, n.id, planStep_nodeIds, node_of_mem hd hn, hop, t, ht, a.id, hc,
      node_of_mem hd hmem, hop'⟩
    rw [planStep_backend]
    exact pickBackend_mul (node_of_mem hd hn) hop

theorem nodeIds_fuseStep (hd : (g.nodes.map (fun n ↦ n.id)).Nodup) (hn : n ∈ g.nodes) :
    (fuseStep g (planStep cfg env g target n)).nodeIds =
      (n :: (partner g n).toList).map (fun n ↦ n.id) := by
  unfold fuseStep
  rw [fusion_planStep hd hn]
  cases partner g n <;> simp

theorem consumed_plan (hd : (g.nodes.map (fun n ↦ n.id)).Nodup) :
    ((g.nodes.map (planStep cfg env g target)).filterMap (fusion g)).map (fun e ↦ e.2.id) =
      consumed g := by
  rw [consumed, List.filterMap_map, List.map_filterMap, List.map_filterMap]
  refine List.filterMap_congr (fun n hn ↦ ?_)
  rw [Function.comp_apply, fusion_planStep hd hn]
  cases partner g n <;> rfl

theorem planIds_fused (cfg : DecisionConfig) (env : Surroundings) (target : ByteString)
    (hd : (g.nodes.map (fun n ↦ n.id)).Nodup) :
    planIds (fuseElementwiseChain cfg g (g.nodes.map (planStep cfg env g target))) =
      (if cfg.fuseElementwise then planOrder g else g.nodes).map (fun n ↦ n.id) := by
  unfold planIds fuseElementwiseChain
  cases cfg.fuseElementwise with
  | false =>
    simp only [Bool.not_false, if_true, Bool.false_eq_true, if_false, List.flatMap_map,
      planStep_nodeIds]
    exact List.map_eq_flatMap.symm
  | true =>
    simp only [Bool.not_true, Bool.false_eq_true, if_false, if_true, consumed_plan hd, planOrder]
    rw [List.map_map, List.filter_map, List.flatMap_map, List.map_flatMap]
    have hkept : ∀ n ∈ g.nodes,
        (survives (consumed g) ∘ fuseStep g ∘ planStep cfg env g target) n =
          ((partner g n).isSome || decide (n.id ∉ consumed g)) := by
      intro n hn
      simp only [survives, Function.comp_apply, nodeIds_fuseStep hd hn]
      cases partner g n <;> simp
    rw [List.filter_congr hkept]
    refine List.flatMap_congr (fun n hn ↦ ?_)
    exact nodeIds_fuseStep hd (List.mem_filter.mp hn).1

theorem planIds_analyse (hd : (g.nodes.map (fun n ↦ n.id)).Nodup)
    (h : (analyse cfg env g target).2 = .ok plan) :
    planIds plan = (if cfg.fuseElementwise then planOrder g else g.nodes).map (fun n ↦ n.id) := by
  rw [← planIds_fused cfg env target hd]
  unfold analyse at h
  dsimp only at h
  split_ifs at h
  cases h
  simp [planIds, List.flatMap_map]

theorem mem_consumed (hd : (g.nodes.map (fun n ↦ n.id)).Nodup) (ha : a ∈ g.nodes) :
    a.id ∈ consumed g ↔ ∃ m ∈ g.nodes, partner g m = some a := by
  simp only [consumed, List.mem_map, List.mem_filterMap]
  constructor
  · rintro ⟨a', ⟨m, hm, hp⟩, hid⟩
    have hmem := ((partner_eq_some hd hm).mp hp).mem
    obtain rfl := List.inj_on_of_nodup_map hd hmem ha hid
    exact ⟨m, hm, hp⟩
  · rintro ⟨m, hm, hp⟩
    exact ⟨a, ⟨m, hm, hp⟩, rfl⟩

theorem mem_planOrder : n ∈ planOrder g ↔
    n ∈ g.nodes ∧ ((partner g n).isSome ∨ n.id ∉ consumed g) ∨
      ∃ m ∈ g.nodes, partner g m = some n := by
  simp only [planOrder, List.mem_flatMap, List.mem_filter, List.mem_cons, Option.mem_toList,
    Bool.or_eq_true, decide_eq_true_eq]
  constructor
  · rintro ⟨m, ⟨hm, hkept⟩, rfl | hp⟩
    · exact .inl ⟨hm, hkept⟩
    · exact .inr ⟨m, hm, hp⟩
  · rintro (⟨hn, hkept⟩ | ⟨m, hm, hp⟩)
    · exact ⟨n, ⟨hn, hkept⟩, .inl rfl⟩
    · exact ⟨m, ⟨hm, .inl (by simp [hp])⟩, .inr hp⟩

theorem analyse_ok (cfg : DecisionConfig) (env : Surroundings) (target : ByteString)
    (hd : (g.nodes.map (fun n ↦ n.id)).Nodup) (hne : g.nodes ≠ []) :
    ∃ plan, (analyse cfg env g target).2 = .ok plan := by
  have hids := planIds_fused cfg env target hd
  have hplan : fuseElementwiseChain cfg g (g.nodes.map (planStep cfg env g target)) ≠ [] := by
    intro he
    rw [he] at hids
    obtain ⟨n, hn⟩ := List.exists_mem_of_ne_nil _ hne
    have hmem : ∃ n, n ∈ if cfg.fuseElementwise then planOrder g else g.nodes := by
      cases cfg.fuseElementwise with
      | false => exact ⟨n, hn⟩
      | true =>
        by_cases hc : n.id ∈ consumed g
        · obtain ⟨m, hm, hp⟩ := (mem_consumed hd hn).mp hc
          exact ⟨n, mem_planOrder.mpr (.inr ⟨m, hm, hp⟩)⟩
        · exact ⟨n, mem_planOrder.mpr (.inl ⟨hn, .inr hc⟩)⟩
    obtain ⟨n', hn'⟩ := hmem
    have hempty : n'.id ∈ planIds [] := hids ▸ List.mem_map_of_mem hn'
    simp [planIds] at hempty
  unfold analyse
  simp [hne, hplan]

theorem count_flatMap_toList {α β : Type} [DecidableEq β] (l : List α) (f : α → β)
    (p : α → Option β) (b : β) : (l.flatMap (fun x ↦ f x :: (p x).toList)).count b =
      l.countP (fun x ↦ f x = b) + l.countP (fun x ↦ p x = some b) := by
  induction l with
  | nil => rfl
  | cons x l ih =>
    rw [List.flatMap_cons, List.count_append, ih, List.countP_cons, List.countP_cons,
      List.count_cons]
    have hpartner : (p x).toList.count b = if p x = some b then 1 else 0 := by
      cases hp : p x with
      | none => simp
      | some y => simp [List.count_singleton]
    simp only [hpartner, beq_iff_eq, decide_eq_true_eq]
    omega

theorem countP_le_one {α : Type} {l : List α} (hl : l.Nodup) (p : α → Bool) :
    l.countP p ≤ 1 ↔ ∀ x ∈ l, ∀ y ∈ l, p x = true → p y = true → x = y := by
  have hmem (x : α) : x ∈ l.filter p ↔ x ∈ l ∧ p x = true := List.mem_filter
  have hnodup := hl.filter p
  rw [List.countP_eq_length_filter]
  cases hf : l.filter p with
  | nil =>
    rw [hf] at hmem
    refine ⟨fun _ x hx y _ hpx ↦ ?_, fun _ ↦ by simp⟩
    exact absurd ((hmem x).mpr ⟨hx, hpx⟩) (by simp)
  | cons z zs =>
    rw [hf] at hmem hnodup
    cases zs with
    | nil =>
      refine ⟨fun _ x hx y hy hpx hpy ↦ ?_, fun _ ↦ by simp⟩
      rw [List.mem_singleton.mp ((hmem x).mpr ⟨hx, hpx⟩),
        List.mem_singleton.mp ((hmem y).mpr ⟨hy, hpy⟩)]
    | cons w ws =>
      refine ⟨fun hlen ↦ by simp at hlen, fun h ↦ ?_⟩
      obtain ⟨hz, hpz⟩ := (hmem z).mp (by simp)
      obtain ⟨hw, hpw⟩ := (hmem w).mp (by simp)
      have he := h z hz w hw hpz hpw
      simp [he] at hnodup

theorem countP_kept (hd : (g.nodes.map (fun n ↦ n.id)).Nodup) (hn : n ∈ g.nodes) :
    (g.nodes.filter (fun m ↦ (partner g m).isSome || m.id ∉ consumed g)).countP
      (fun m ↦ m.id = n.id) = if n.id ∈ consumed g then 0 else 1 := by
  have hkept : ∀ m ∈ g.nodes, (decide (m.id = n.id) &&
      ((partner g m).isSome || decide (m.id ∉ consumed g))) = true ↔
        decide (n.id ∉ consumed g ∧ m.id = n.id) = true := by
    intro m hm
    by_cases hid : m.id = n.id
    · obtain rfl := List.inj_on_of_nodup_map hd hm hn hid
      by_cases hc : m.id ∈ consumed g
      · obtain ⟨m', hm', hp⟩ := (mem_consumed hd hm).mp hc
        have hadd := ((partner_eq_some hd hm').mp hp).add
        have hnone : partner g m = none := by
          refine Option.eq_none_iff_forall_ne_some.mpr (fun a ha ↦ ?_)
          have hmul := ((partner_eq_some hd hm).mp ha).mul
          rw [hadd] at hmul
          cases hmul
        simp [hnone, hc]
      · simp [hc]
    · simp [hid]
  rw [List.countP_filter, List.countP_congr hkept]
  by_cases hc : n.id ∈ consumed g
  · simp [hc]
  · have hone : (g.nodes.map (fun m ↦ m.id)).count n.id = 1 :=
      List.count_eq_one_of_mem hd (List.mem_map_of_mem hn)
    rw [List.count_eq_countP, List.countP_map] at hone
    simp only [hc, not_false_iff, true_and, if_false]
    exact hone

/-- How often a node is in a plan with fusion: once for each `Mul` that it is fused with, and once
if there is none. -/
theorem count_planOrder (hd : (g.nodes.map (fun n ↦ n.id)).Nodup) (hn : n ∈ g.nodes) :
    ((planOrder g).map (fun n ↦ n.id)).count n.id =
      max 1 (g.nodes.countP (fun m ↦ (partner g m).map (fun a ↦ a.id) = some n.id)) := by
  have hmap : (planOrder g).map (fun n ↦ n.id) =
      (g.nodes.filter (fun m ↦ (partner g m).isSome || m.id ∉ consumed g)).flatMap
        (fun m ↦ m.id :: ((partner g m).map (fun a ↦ a.id)).toList) := by
    rw [planOrder, List.map_flatMap]
    refine List.flatMap_congr (fun m _ ↦ ?_)
    cases partner g m <;> rfl
  have hfused : (g.nodes.filter (fun m ↦ (partner g m).isSome || m.id ∉ consumed g)).countP
      (fun m ↦ (partner g m).map (fun a ↦ a.id) = some n.id) =
        g.nodes.countP (fun m ↦ (partner g m).map (fun a ↦ a.id) = some n.id) := by
    rw [List.countP_filter]
    refine List.countP_congr (fun m _ ↦ ?_)
    cases partner g m <;> simp
  have hpos : n.id ∈ consumed g ↔
      0 < g.nodes.countP (fun m ↦ (partner g m).map (fun a ↦ a.id) = some n.id) := by
    rw [List.countP_pos_iff, consumed, List.map_filterMap, List.mem_filterMap]
    simp
  rw [hmap, count_flatMap_toList, countP_kept hd hn, hfused]
  split
  · next hc =>
    have hone := hpos.mp hc
    omega
  · next hc =>
    have hzero : ¬ 0 < g.nodes.countP (fun m ↦ (partner g m).map (fun a ↦ a.id) = some n.id) :=
      fun h ↦ hc (hpos.mpr h)
    omega

theorem partner_id_iff (hd : (g.nodes.map (fun n ↦ n.id)).Nodup) (hm : m ∈ g.nodes)
    (ha : a ∈ g.nodes) : (partner g m).map (fun a ↦ a.id) = some a.id ↔ SoleReader g m a := by
  rw [← partner_eq_some hd hm, Option.map_eq_some_iff]
  constructor
  · rintro ⟨a', hp, hid⟩
    rw [hp, List.inj_on_of_nodup_map hd ((partner_eq_some hd hm).mp hp).mem ha hid]
  · exact fun hp ↦ ⟨a, hp, rfl⟩

/-- Every node is in the plan exactly once if and only if fusion is off or no `Add` is the only
reader of the products of two nodes. -/
theorem plan_complete_iff (hd : (g.nodes.map (fun n ↦ n.id)).Nodup)
    (h : (analyse cfg env g target).2 = .ok plan) :
    (∀ n ∈ g.nodes, (planIds plan).count n.id = 1) ↔
      cfg.fuseElementwise = false ∨
        ∀ m ∈ g.nodes, ∀ m' ∈ g.nodes, ∀ a, SoleReader g m a → SoleReader g m' a → m = m' := by
  rw [planIds_analyse hd h]
  cases hfuse : cfg.fuseElementwise with
  | false =>
    simp only [Bool.false_eq_true, if_false, true_or, iff_true]
    exact fun n hn ↦ List.count_eq_one_of_mem hd (List.mem_map_of_mem hn)
  | true =>
    simp only [if_true, Bool.true_eq_false, false_or]
    constructor
    · intro hcount m hm m' hm' a hs hs'
      have hone := hcount a hs.mem
      rw [count_planOrder hd hs.mem] at hone
      have hle : g.nodes.countP (fun m ↦ (partner g m).map (fun a ↦ a.id) = some a.id) ≤ 1 := by
        omega
      exact (countP_le_one hd.of_map _).mp hle m hm m' hm'
        (by simpa using (partner_id_iff hd hm hs.mem).mpr hs)
        (by simpa using (partner_id_iff hd hm' hs.mem).mpr hs')
    · intro hunique n hn
      rw [count_planOrder hd hn]
      have hle : g.nodes.countP (fun m ↦ (partner g m).map (fun a ↦ a.id) = some n.id) ≤ 1 := by
        refine (countP_le_one hd.of_map _).mpr (fun m hm m' hm' hp hp' ↦ ?_)
        exact hunique m hm m' hm' n ((partner_id_iff hd hm hn).mp (by simpa using hp))
          ((partner_id_iff hd hm' hn).mp (by simpa using hp'))
      omega

def calm : Surroundings where
  npuAvailable := false
  warm := fun _ ↦ ⟨true, 0⟩

def graphNode (id : Int) (op : Op) (inputs : List String) (output : String) : GraphNode Int where
  id := id
  op := op
  inputs := inputs.map lit
  outputs := [lit output]

def mulAdd : CerberusGraph Int where
  nodes := [graphNode 0 .mul ["x", "y"] "p", graphNode 1 .add ["p", "z"] "s"]

theorem plan_complete_iff_pair : (mulAdd.nodes.map (fun n ↦ n.id)).Nodup ∧
    ∃ plan, (analyse {} calm mulAdd (lit "native")).2 = .ok plan ∧
      ∀ n ∈ mulAdd.nodes, (planIds plan).count n.id = 1 := by
  have hd : (mulAdd.nodes.map (fun n ↦ n.id)).Nodup := by decide
  obtain ⟨plan, hplan⟩ := analyse_ok {} calm (lit "native") hd (by simp [mulAdd])
  refine ⟨hd, plan, hplan, (plan_complete_iff hd hplan).mpr (.inr ?_)⟩
  intro m hm m' hm' a hs hs'
  have hfirst : ∀ m ∈ mulAdd.nodes, m.op = .mul → m = graphNode 0 .mul ["x", "y"] "p" := by
    intro m hm hop
    simp only [mulAdd, List.mem_cons, List.not_mem_nil, or_false] at hm
    rcases hm with rfl | rfl
    · rfl
    · cases hop
  rw [hfirst m hm hs.mul, hfirst m' hm' hs'.mul]

/-- An `Add` of two products. -/
def sumOfProducts : CerberusGraph Int where
  nodes := [graphNode 0 .mul ["x", "y"] "p", graphNode 1 .mul ["u", "v"] "q",
    graphNode 2 .add ["p", "q"] "s"]

/-- The `Add` is fused with both products, and is in the plan twice. -/
theorem add_planned_twice : (sumOfProducts.nodes.map (fun n ↦ n.id)).Nodup ∧
    ∃ plan, (analyse {} calm sumOfProducts (lit "native")).2 = .ok plan ∧
      planIds plan = [0, 2, 1, 2] ∧
      ¬ ∀ n ∈ sumOfProducts.nodes, (planIds plan).count n.id = 1 := by
  have hd : (sumOfProducts.nodes.map (fun n ↦ n.id)).Nodup := by decide
  obtain ⟨plan, hplan⟩ := analyse_ok {} calm (lit "native") hd
    (by simp [sumOfProducts])
  have hids : planIds plan = [0, 2, 1, 2] := by
    rw [planIds_analyse hd hplan]
    decide
  refine ⟨hd, plan, hplan, hids, fun hall ↦ ?_⟩
  have htwice := hall (graphNode 2 .add ["p", "q"] "s") (by simp [sumOfProducts])
  rw [hids] at htwice
  exact absurd htwice (by decide)

end Cerberus.Graph
