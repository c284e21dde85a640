import Cerberus.Graph.Rewrite
import Cerberus.Foundation.Dataflow
import Mathlib.Data.List.Lattice

namespace Cerberus.Graph

open Foundation Foundation.Bytes Foundation.Dataflow

structure Arithmetic (F V : Type) where
  matMul : V → V → Option V
  add : V → V → Option V
  relu : V → Option V
  constant : List F → Option V
  other : GraphNode F → List (Option V) → ByteString → Option V

variable {F V : Type}

namespace Arithmetic

variable (A : Arithmetic F V)

def product : List (Option V) → Option V
  | some a :: some b :: _ => A.matMul a b
  | _ => none

/-- The second operand is an input, or the data of the node when it has one input. -/
def sum (data : List F) : List (Option V) → Option V
  | some a :: some b :: _ => A.add a b
  | [some a] => (A.constant data).bind (A.add a)
  | _ => none

def rectified : List (Option V) → Option V
  | some a :: _ => A.relu a
  | _ => none

/-- The bias is the third input, where there is one. -/
def fused : List (Option V) → Option V
  | [some a, some b] => (A.matMul a b).bind A.relu
  | some a :: some b :: some bias :: _ =>
    (A.matMul a b).bind (fun p ↦ (A.add p bias).bind A.relu)
  | _ => none

def first (n : GraphNode F) (value : Option V) (t : ByteString) : Option V :=
  if n.outputs.head? = some t then value else none

def meaning (n : GraphNode F) (ins : List (Option V)) (t : ByteString) : Option V :=
  match n.op with
  | .matMul => first n (A.product ins) t
  | .add => first n (A.sum n.constantData ins) t
  | .relu => first n (A.rectified ins) t
  | .fusedMatMulBiasRelu => first n (A.fused ins) t
  | _ => A.other n ins t

end Arithmetic

def produced (nodes : List (GraphNode F)) : List ByteString := nodes.flatMap (fun n ↦ n.outputs)

def read (nodes : List (GraphNode F)) : List ByteString := nodes.flatMap (fun n ↦ n.inputs)

def externals (nodes : List (GraphNode F)) (valuation : ByteString → Option V) :
    ByteString → Option V :=
  fun t ↦ if t ∈ produced nodes then none else valuation t

def values (A : Arithmetic F V) (env : ByteString → Option V) (nodes : List (GraphNode F)) :
    ByteString → Option V :=
  eval (fun n ↦ n.inputs) (fun n ↦ n.outputs) A.meaning env nodes

/-- What must be kept: what is still read, and what was not read before. -/
def Needed (before after : List ByteString) (t : ByteString) : Prop := t ∈ after ∨ t ∉ before

/-- Every needed tensor is still produced, and has its value under the same valuation. -/
def Preserved (A : Arithmetic F V) (valuation : ByteString → Option V)
    (nodes nodes' : List (GraphNode F)) : Prop :=
  ∀ t, Needed (read nodes) (read nodes') t →
    (t ∈ produced nodes → t ∈ produced nodes') ∧
    values A (externals nodes valuation) nodes' t = values A (externals nodes valuation) nodes t

/-- The fused formula has the value of the chain: the addition has its bias as an input, or the bias
makes no difference. -/
def SameFormula (A : Arithmetic F V) (ρ : ByteString → Option V) (n0 n1 : GraphNode F) : Prop :=
  n0.inputs.length = 2 ∧ 2 ≤ n1.inputs.length ∨
    A.fused ((n0.inputs ++ n1.inputs[1]?.toList).map ρ) =
      A.rectified [A.sum n1.constantData (A.product (n0.inputs.map ρ) :: n1.inputs.tail.map ρ)]

def stillRead (nodes : List (GraphNode F)) : List ByteString := (blocks nodes).flatMap Block.reads

/-- The intermediate results of every fused chain are read inside the chain only, and the chain
loses nothing that is needed. -/
def Fusable (A : Arithmetic F V) (valuation : ByteString → Option V)
    (nodes : List (GraphNode F)) : Prop :=
  ∀ n0 n1 n2, .fused n0 n1 n2 ∈ blocks nodes →
    (∀ t ∈ n0.outputs ++ n1.outputs, t ∈ read nodes ∧ t ∉ stillRead nodes) ∧
    (∀ t, n2.outputs.head? = some t → Needed (read nodes) (stillRead nodes) t →
      SameFormula A (values A (externals nodes valuation) nodes) n0 n1)

section

variable {bs : List (Block F)}

theorem produced_blocks (bs : List (Block F)) :
    (produced (bs.flatMap Block.nodes)).Perm
      (bs.flatMap Block.removed ++ produced (bs.map Block.node)) := by
  have hblock (b : Block F) : b.nodes.flatMap (fun n ↦ n.outputs) = b.removed ++ b.node.outputs := by
    cases b with
    | kept n => simp [Block.nodes, Block.removed, Block.node]
    | fused n0 n1 n2 => simp [Block.nodes, Block.removed, Block.node, fuse]
  unfold produced
  rw [List.flatMap_assoc, List.flatMap_map]
  simp only [hblock]
  exact (List.flatMap_append_perm bs Block.removed (fun b ↦ b.node.outputs)).symm

theorem read_blocks (bs : List (Block F)) : read (bs.map Block.node) = bs.flatMap Block.reads := by
  have hblock (b : Block F) : b.node.inputs = b.reads := by
    cases b with
    | kept n => rfl
    | fused n0 n1 n2 => rfl
  unfold read
  rw [List.flatMap_map]
  simp only [hblock]

theorem not_removed {t : ByteString} (hs : (produced (bs.flatMap Block.nodes)).Nodup)
    (ht : t ∈ produced (bs.map Block.node)) : t ∉ bs.flatMap Block.removed := by
  intro hr
  have hs' := (produced_blocks bs).nodup_iff.mp hs
  exact List.disjoint_of_nodup_append hs' hr ht

theorem single_blocks (hs : (produced (bs.flatMap Block.nodes)).Nodup) :
    (produced (bs.map Block.node)).Nodup :=
  ((produced_blocks bs).nodup_iff.mp hs).of_append_right

theorem reads_before {pre post : List (Block F)} {b : Block F} {t : ByteString}
    (ht : Topological ((pre ++ b :: post).flatMap Block.nodes)) (hr : t ∈ b.reads)
    (hp : t ∈ produced ((pre ++ b :: post).flatMap Block.nodes)) :
    t ∈ produced (pre.flatMap Block.nodes) ∨ t ∈ b.removed := by
  have hproduced := List.mem_flatMap.mp hp
  cases b with
  | kept n =>
    have hsplit : (pre ++ .kept n :: post).flatMap Block.nodes =
        pre.flatMap Block.nodes ++ n :: post.flatMap Block.nodes := by
      simp [Block.nodes]
    exact .inl (List.mem_flatMap.mpr (ht _ n _ hsplit t hr hproduced))
  | fused n0 n1 n2 =>
    rcases List.mem_append.mp hr with hr | hr
    · have hsplit : (pre ++ .fused n0 n1 n2 :: post).flatMap Block.nodes =
          pre.flatMap Block.nodes ++ n0 :: n1 :: n2 :: post.flatMap Block.nodes := by
        simp [Block.nodes]
      exact .inl (List.mem_flatMap.mpr (ht _ n0 _ hsplit t hr hproduced))
    · have hsplit : (pre ++ .fused n0 n1 n2 :: post).flatMap Block.nodes =
          (pre.flatMap Block.nodes ++ [n0]) ++ n1 :: n2 :: post.flatMap Block.nodes := by
        simp [Block.nodes]
      have hmem : t ∈ n1.inputs := List.mem_of_getElem? (Option.mem_toList.mp hr)
      obtain ⟨p, hp, hout⟩ := ht _ n1 _ hsplit t hmem hproduced
      rcases List.mem_append.mp hp with hp | hp
      · exact .inl (List.mem_flatMap.mpr ⟨p, hp, hout⟩)
      · rw [List.mem_singleton.mp hp] at hout
        exact .inr (List.mem_append_left _ hout)

theorem topological_blocks (ht : Topological (bs.flatMap Block.nodes))
    (hs : (produced (bs.flatMap Block.nodes)).Nodup) : Topological (bs.map Block.node) := by
  intro pre' n post' hsplit t hr hp
  obtain ⟨pre, tail, rfl, rfl, htail⟩ := List.map_eq_append_iff.mp hsplit
  obtain ⟨b, post, rfl, rfl, rfl⟩ := List.map_eq_cons_iff.mp htail
  have hp' : t ∈ produced ((pre ++ b :: post).map Block.node) := List.mem_flatMap.mpr hp
  have hkept := not_removed hs hp'
  have hr' : t ∈ b.reads := by
    cases b with
    | kept n => exact hr
    | fused n0 n1 n2 => exact hr
  have hall : t ∈ produced ((pre ++ b :: post).flatMap Block.nodes) :=
    (produced_blocks _).mem_iff.mpr (List.mem_append_right _ hp')
  rcases reads_before ht hr' hall with hbefore | hremoved
  · rcases List.mem_append.mp ((produced_blocks pre).mem_iff.mp hbefore) with hremoved | hbefore
    · exact absurd (by simp [List.mem_flatMap.mp hremoved]) hkept
    · exact List.mem_flatMap.mp hbefore
  · exact absurd (by simp [hremoved]) hkept

end

section

variable {A : Arithmetic F V} {ρ env : ByteString → Option V} {nodes : List (GraphNode F)}
  {n0 n1 n2 : GraphNode F} {t : ByteString}

theorem values_fixed {n : GraphNode F} (ht : Topological nodes) (hs : (produced nodes).Nodup)
    (hn : n ∈ nodes) (hout : t ∈ n.outputs) :
    values A env nodes t = A.meaning n (n.inputs.map (values A env nodes)) t :=
  eval_fixed ht hs hn hout

theorem feeds_cons {n later : GraphNode F} (h : feeds n later) :
    ∃ t outs ins, n.outputs = t :: outs ∧ later.inputs = t :: ins := by
  unfold feeds at h
  split at h
  · rename_i out outs inp ins hout hin
    rw [decide_eq_true_eq] at h
    exact ⟨out, outs, ins, hout, by rw [hin, h]⟩
  · contradiction

theorem rectified_cons {x : Option V} {rest : List (Option V)} :
    A.rectified (x :: rest) = x.bind A.relu := by
  cases x <;> rfl

theorem values_chain (ht : Topological nodes) (hs : (produced nodes).Nodup)
    (hpattern : matmulBiasRelu n0 n1 n2) (h0 : n0 ∈ nodes) (h1 : n1 ∈ nodes) (h2 : n2 ∈ nodes)
    (hout : t ∈ n2.outputs) (hρ : ρ = values A env nodes) :
    ρ t = Arithmetic.first n2 (A.rectified
      [A.sum n1.constantData (A.product (n0.inputs.map ρ) :: n1.inputs.tail.map ρ)]) t := by
  simp only [matmulBiasRelu, Bool.and_eq_true, decide_eq_true_eq] at hpattern
  obtain ⟨⟨⟨⟨hop0, hop1⟩, hop2⟩, hfeeds0⟩, hfeeds1⟩ := hpattern
  obtain ⟨t0, outs0, ins1, hout0, hin1⟩ := feeds_cons hfeeds0
  obtain ⟨t1, outs1, ins2, hout1, hin2⟩ := feeds_cons hfeeds1
  have hfixed (n : GraphNode F) (hn : n ∈ nodes) (t : ByteString) (hout : t ∈ n.outputs) :
      ρ t = A.meaning n (n.inputs.map ρ) t := by
    rw [hρ]
    exact values_fixed ht hs hn hout
  have hproduct : ρ t0 = A.product (n0.inputs.map ρ) := by
    rw [hfixed n0 h0 t0 (by simp [hout0])]
    simp [Arithmetic.meaning, hop0, Arithmetic.first, hout0]
  have hsum : ρ t1 = A.sum n1.constantData (n1.inputs.map ρ) := by
    rw [hfixed n1 h1 t1 (by simp [hout1])]
    simp [Arithmetic.meaning, hop1, Arithmetic.first, hout1]
  rw [hfixed n2 h2 t hout]
  simp only [Arithmetic.meaning, hop2]
  congr 1
  rw [hin2, List.map_cons, rectified_cons, rectified_cons, hsum, hin1, List.map_cons, hproduct,
    List.tail_cons]

theorem fused_formula (h : SameFormula A ρ n0 n1) :
    A.fused ((n0.inputs ++ n1.inputs[1]?.toList).map ρ) =
      A.rectified [A.sum n1.constantData
        (A.product (n0.inputs.map ρ) :: n1.inputs.tail.map ρ)] := by
  rcases h with ⟨h0, h1⟩ | h
  · obtain ⟨a, b, hab⟩ := List.length_eq_two.mp h0
    obtain ⟨t0, bias, rest, hbias⟩ : ∃ t0 bias rest, n1.inputs = t0 :: bias :: rest := by
      match hin : n1.inputs, h1 with
      | t0 :: bias :: rest, _ => exact ⟨t0, bias, rest, rfl⟩
    rw [hab, hbias, rectified_cons]
    simp only [List.getElem?_cons_succ, List.getElem?_cons_zero, Option.toList_some,
      List.cons_append, List.nil_append, List.map_cons, List.map_nil, List.tail_cons]
    cases ha : ρ a with
    | none => rfl
    | some x =>
      cases hb : ρ b with
      | none => rfl
      | some y =>
        cases hc : ρ bias with
        | none => cases hp : A.matMul x y <;> simp [Arithmetic.fused, Arithmetic.product,
            Arithmetic.sum, hp]
        | some z => cases hp : A.matMul x y <;> simp [Arithmetic.fused, Arithmetic.product,
            Arithmetic.sum, hp]
  · exact h

theorem mem_of_fused (h : .fused n0 n1 n2 ∈ blocks nodes) :
    n0 ∈ nodes ∧ n1 ∈ nodes ∧ n2 ∈ nodes := by
  have hmem (n : GraphNode F) (hn : n ∈ [n0, n1, n2]) : n ∈ nodes := by
    rw [← blocks_nodes nodes]
    exact List.mem_flatMap.mpr ⟨_, h, hn⟩
  exact ⟨hmem n0 (by simp), hmem n1 (by simp), hmem n2 (by simp)⟩

theorem meaning_fuse {ins : List (Option V)} :
    A.meaning (fuse n0 n1 n2) ins t = Arithmetic.first n2 (A.fused ins) t := rfl

variable {valuation : ByteString → Option V}

theorem Preserved.fusable (ht : Topological nodes) (hs : (produced nodes).Nodup)
    (h : Preserved A valuation nodes ((blocks nodes).map Block.node)) :
    Fusable A valuation nodes := by
  intro n0 n1 n2 hb
  have ht' := ht
  have hs' := hs
  rw [← blocks_nodes nodes] at ht' hs'
  have hread : read ((blocks nodes).map Block.node) = stillRead nodes := read_blocks _
  refine ⟨fun t hr ↦ ?_, fun t hhead hneed ↦ .inr ?_⟩
  · have hremoved : t ∈ (blocks nodes).flatMap Block.removed := List.mem_flatMap.mpr ⟨_, hb, hr⟩
    have hproduced : t ∈ produced nodes := by
      rw [← blocks_nodes nodes]
      exact (produced_blocks _).mem_iff.mpr (List.mem_append_left _ hremoved)
    have hgone : ¬Needed (read nodes) (stillRead nodes) t := fun hneed ↦
      not_removed hs' ((h t (by rwa [hread])).1 hproduced) hremoved
    simpa [Needed, and_comm] using hgone
  · obtain ⟨h0, h1, h2⟩ := mem_of_fused hb
    have hout : t ∈ n2.outputs := List.mem_of_mem_head? hhead
    have hfused : fuse n0 n1 n2 ∈ (blocks nodes).map Block.node := List.mem_map.mpr ⟨_, hb, rfl⟩
    have hins (r : ByteString) (hr : r ∈ (fuse n0 n1 n2).inputs) :=
      (h r (.inl (List.mem_flatMap.mpr ⟨_, hfused, hr⟩))).2
    have hvalue := (h t (by rwa [hread])).2
    rw [values_fixed (topological_blocks ht' hs') (single_blocks hs') hfused hout, meaning_fuse,
      List.map_congr_left hins,
      values_chain ht hs (matmulBiasRelu_of_mem hb) h0 h1 h2 hout rfl] at hvalue
    rw [Arithmetic.first, if_pos hhead, Arithmetic.first, if_pos hhead] at hvalue
    exact hvalue

theorem Fusable.preserved (ht : Topological nodes) (hs : (produced nodes).Nodup)
    (h : Fusable A valuation nodes) :
    Preserved A valuation nodes ((blocks nodes).map Block.node) := by
  have ht' := ht
  have hs' := hs
  rw [← blocks_nodes nodes] at ht' hs'
  have hread : read ((blocks nodes).map Block.node) = stillRead nodes := read_blocks _
  have hproduced (t : ByteString) (hneed : Needed (read nodes)
      (read ((blocks nodes).map Block.node)) t) (hp : t ∈ produced nodes) :
      t ∈ produced ((blocks nodes).map Block.node) := by
    rw [← blocks_nodes nodes] at hp
    rcases List.mem_append.mp ((produced_blocks _).mem_iff.mp hp) with hr | hp
    · obtain ⟨b, hb, hr⟩ := List.mem_flatMap.mp hr
      cases b with
      | kept n => simp [Block.removed] at hr
      | fused n0 n1 n2 =>
        obtain ⟨hin, hnot⟩ := (h n0 n1 n2 hb).1 t hr
        rw [hread] at hneed
        rcases hneed with hneed | hneed
        · exact absurd hneed hnot
        · exact absurd hin hneed
    · exact hp
  intro t hneed
  refine ⟨hproduced t hneed, ?_⟩
  refine eval_eq_of_fixed (S := fun t ↦ Needed (read nodes) (read ((blocks nodes).map Block.node))
    t) (topological_blocks ht' hs') (single_blocks hs') ?_ ?_ ?_ t hneed
  · intro n hn k _ _ r hr
    exact .inl (List.mem_flatMap.mpr ⟨n, hn, hr⟩)
  · intro k hk hfree
    refine eval_of_not_written (fun p hp hout ↦ ?_)
    obtain ⟨p', hp', hout'⟩ := List.mem_flatMap.mp
      (hproduced k hk (List.mem_flatMap.mpr ⟨p, hp, hout⟩))
    exact hfree p' hp' hout'
  · intro n hn k hout hk
    obtain ⟨b, hb, rfl⟩ := List.mem_map.mp hn
    cases b with
    | kept n =>
      refine values_fixed ht hs ?_ hout
      rw [← blocks_nodes nodes]
      exact List.mem_flatMap.mpr ⟨_, hb, by simp [Block.nodes, Block.node]⟩
    | fused n0 n1 n2 =>
      obtain ⟨h0, h1, h2⟩ := mem_of_fused hb
      rw [Block.node, meaning_fuse]
      refine (values_chain ht hs (matmulBiasRelu_of_mem hb) h0 h1 h2 hout rfl).trans ?_
      by_cases hhead : n2.outputs.head? = some k
      · have hsame := (h n0 n1 n2 hb).2 k hhead (by rwa [hread] at hk)
        rw [← fused_formula hsame]
        rfl
      · simp [Arithmetic.first, hhead]

end

/-- The rewrite ends; it preserves meaning under a valuation exactly when every chain it finds can
be fused. -/
theorem fusion_preserves_iff (A : Arithmetic F V) (g : CerberusGraph F)
    (ht : Topological g.nodes) (hs : (produced g.nodes).Nodup) (fuel : Nat)
    (hfuel : g.nodes.length ≤ fuel) (valuation : ByteString → Option V) :
    ∃ g' count, applyRewrites fuel g [makeFuseMatmulBiasReluRule] = some (g', count) ∧
      (Preserved A valuation g.nodes g'.nodes ↔ Fusable A valuation g.nodes) := by
  obtain ⟨count, happly⟩ := applyRewrites_blocks g hfuel
  exact ⟨_, count, happly, fun h ↦ h.fusable ht hs, fun h ↦ h.preserved ht hs⟩

def scalars : Arithmetic Int Int where
  matMul a b := some (a * b)
  add a b := some (a + b)
  relu a := some (max 0 a)
  constant data := data.head?
  other _ _ _ := none

def dense (inputs : List ByteString) (data : List Int) : CerberusGraph Int where
  nodes := [
    { id := 0, op := .matMul, inputs := [lit "a", lit "b"], outputs := [lit "p"] },
    { id := 1, op := .add, inputs := lit "p" :: inputs, outputs := [lit "s"],
      constantData := data },
    { id := 2, op := .relu, inputs := [lit "s"], outputs := [lit "y"] }]

theorem dense_topological : Topological (dense [lit "bias"] []).nodes ∧
    Topological (dense [] [5]).nodes :=
  ⟨(topological_iff (by decide)).mpr (by decide),
    (topological_iff (by decide)).mpr (by decide)⟩

theorem dense_fusable : Fusable scalars (fun _ ↦ some 1) (dense [lit "bias"] []).nodes := by
  have hpattern : ∀ n0 n1 n2 : GraphNode Int, (dense [lit "bias"] []).nodes = [n0, n1, n2] →
      matmulBiasRelu n0 n1 n2 := by
    rintro n0 n1 n2 ⟨rfl, rfl, rfl⟩
    decide
  intro n0 n1 n2 hb
  rw [dense, blocks, if_pos (hpattern _ _ _ rfl), List.mem_cons] at hb
  rcases hb with hb | hb
  · injection hb with h0 h1 h2
    subst h0 h1 h2
    refine ⟨by decide, fun _ _ _ ↦ .inl ⟨rfl, le_refl 2⟩⟩
  · simp [blocks] at hb

theorem fusion_preserves_iff_dense :
    ∃ g' count, applyRewrites 3 (dense [lit "bias"] []) [makeFuseMatmulBiasReluRule] =
      some (g', count) ∧
      Preserved scalars (fun _ ↦ some 1) (dense [lit "bias"] []).nodes g'.nodes := by
  obtain ⟨g', count, happly, hiff⟩ := fusion_preserves_iff scalars (dense [lit "bias"] [])
    dense_topological.1 (by decide) 3 (by decide) (fun _ ↦ some 1)
  exact ⟨g', count, happly, hiff.mpr dense_fusable⟩

/-- A bias in the data of the addition is lost. -/
theorem fusion_drops_data : Topological (dense [] [5]).nodes ∧
    (produced (dense [] [5]).nodes).Nodup ∧
    ∃ g' count, applyRewrites 3 (dense [] [5]) [makeFuseMatmulBiasReluRule] = some (g', count) ∧
      ¬ Preserved scalars (fun _ ↦ some 1) (dense [] [5]).nodes g'.nodes := by
  refine ⟨dense_topological.2, by decide, ?_⟩
  obtain ⟨count, happly⟩ := applyRewrites_blocks (dense [] [5]) (le_refl 3)
  refine ⟨_, count, happly, fun h ↦ ?_⟩
  have hvalue := (h (lit "y") (.inr (by decide))).2
  have hne : values scalars (externals (dense [] [5]).nodes (fun _ ↦ some 1))
      ((blocks (dense [] [5]).nodes).map Block.node) (lit "y") ≠
        values scalars (externals (dense [] [5]).nodes (fun _ ↦ some 1)) (dense [] [5]).nodes
          (lit "y") := by decide
  exact hne hvalue

end Cerberus.Graph
