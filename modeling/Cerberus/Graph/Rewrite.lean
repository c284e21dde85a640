import Cerberus.Graph.Model

namespace Cerberus.Graph

open Foundation.Bytes

variable {F : Type}

structure GraphRewriteRule (F : Type) where
  name : ByteString
  fires : CerberusGraph F → Nat → Bool
  replace : CerberusGraph F → Nat → CerberusGraph F

/-- The loop over the indices, with the number of rewrites so far. A rule may make the graph longer,
so the rounds are bounded by fuel. -/
def GraphRewriteRule.sweep (rule : GraphRewriteRule F) :
    Nat → CerberusGraph F → Nat → Nat → Option (CerberusGraph F × Nat)
  | 0, g, i, rewrites => if i < g.nodes.length then none else some (g, rewrites)
  | fuel + 1, g, i, rewrites =>
    if i < g.nodes.length then
      if rule.fires g i then rule.sweep fuel (rule.replace g i) (i + 1) (rewrites + 1)
      else rule.sweep fuel g (i + 1) rewrites
    else some (g, rewrites)

def applyRewrites (fuel : Nat) (g : CerberusGraph F) (rules : List (GraphRewriteRule F)) :
    Option (CerberusGraph F × Nat) :=
  rules.foldlM (fun s rule ↦ rule.sweep fuel s.1 0 s.2) (g, 0)

def feeds (n later : GraphNode F) : Bool :=
  match n.outputs, later.inputs with
  | out :: _, inp :: _ => out = inp
  | _, _ => false

def matmulBiasRelu (n0 n1 n2 : GraphNode F) : Bool :=
  n0.op = .matMul && n1.op = .add && n2.op = .relu && feeds n0 n1 && feeds n1 n2

def fuse (n0 n1 n2 : GraphNode F) : GraphNode F :=
  { n0 with
    name := n0.name ++ lit "_fused_bias_relu"
    op := .fusedMatMulBiasRelu
    outputs := n2.outputs
    inputs := n0.inputs ++ n1.inputs[1]?.toList }

def makeFuseMatmulBiasReluRule : GraphRewriteRule F where
  name := lit "fuse_matmul_bias_relu"
  fires g i :=
    match g.nodes[i]?, g.nodes[i + 1]?, g.nodes[i + 2]? with
    | some n0, some n1, some n2 => matmulBiasRelu n0 n1 n2
    | _, _, _ => false
  replace g i :=
    match g.nodes[i]?, g.nodes[i + 1]?, g.nodes[i + 2]? with
    | some n0, some n1, some n2 =>
      { g with nodes := g.nodes.take i ++ fuse n0 n1 n2 :: g.nodes.drop (i + 3) }
    | _, _, _ => g

/-- What becomes of the nodes: one stays as it is, or three become one. -/
inductive Block (F : Type)
  | kept (n : GraphNode F)
  | fused (n0 n1 n2 : GraphNode F)

namespace Block

def nodes : Block F → List (GraphNode F)
  | kept n => [n]
  | fused n0 n1 n2 => [n0, n1, n2]

def node : Block F → GraphNode F
  | kept n => n
  | fused n0 n1 n2 => fuse n0 n1 n2

def reads : Block F → List ByteString
  | kept n => n.inputs
  | fused n0 n1 _ => n0.inputs ++ n1.inputs[1]?.toList

def removed : Block F → List ByteString
  | kept _ => []
  | fused n0 n1 _ => n0.outputs ++ n1.outputs

end Block

def blocks : List (GraphNode F) → List (Block F)
  | n0 :: n1 :: n2 :: rest =>
    if matmulBiasRelu n0 n1 n2 then .fused n0 n1 n2 :: blocks rest
    else .kept n0 :: blocks (n1 :: n2 :: rest)
  | n0 :: rest => .kept n0 :: blocks rest
  | [] => []

theorem blocks_nodes (l : List (GraphNode F)) : (blocks l).flatMap Block.nodes = l := by
  fun_induction blocks l with
  | case1 n0 n1 n2 rest h ih => simp [Block.nodes, ih]
  | case2 n0 n1 n2 rest h ih => simp [Block.nodes, ih]
  | case3 n0 rest h ih => simp [Block.nodes, ih]
  | case4 => rfl

theorem matmulBiasRelu_of_mem {l : List (GraphNode F)} {n0 n1 n2 : GraphNode F}
    (h : .fused n0 n1 n2 ∈ blocks l) : matmulBiasRelu n0 n1 n2 := by
  fun_induction blocks l with
  | case1 m0 m1 m2 rest hm ih =>
    rcases List.mem_cons.mp h with he | h
    · injection he with h0 h1 h2
      rw [h0, h1, h2]
      exact hm
    · exact ih h
  | case2 m0 m1 m2 rest hm ih => exact ih (by simpa using h)
  | case3 m0 rest hm ih => exact ih (by simpa using h)
  | case4 => simp at h

section

variable {g : CerberusGraph F} {done rest : List (GraphNode F)} {n0 n1 n2 : GraphNode F}
  {fuel rewrites : Nat}

theorem sweep_fused (hg : g.nodes = done ++ n0 :: n1 :: n2 :: rest)
    (h : matmulBiasRelu n0 n1 n2) :
    makeFuseMatmulBiasReluRule.sweep (fuel + 1) g done.length rewrites =
      makeFuseMatmulBiasReluRule.sweep fuel
        { g with nodes := (done ++ [fuse n0 n1 n2]) ++ rest }
        (done ++ [fuse n0 n1 n2]).length (rewrites + 1) := by
  have hdrop : g.nodes.drop (done.length + 3) = rest := by simp [hg, List.drop_append]
  have htake : g.nodes.take done.length = done := by simp [hg]
  have h0 : g.nodes[done.length]? = some n0 := by simp [hg]
  have h1 : g.nodes[done.length + 1]? = some n1 := by simp [hg]
  have h2 : g.nodes[done.length + 2]? = some n2 := by simp [hg]
  have hlt : done.length < g.nodes.length := by simp [hg]
  have hfires : makeFuseMatmulBiasReluRule.fires g done.length := by
    simp only [makeFuseMatmulBiasReluRule, h0, h1, h2, h]
  have hreplace : makeFuseMatmulBiasReluRule.replace g done.length =
      { g with nodes := (done ++ [fuse n0 n1 n2]) ++ rest } := by
    simp [makeFuseMatmulBiasReluRule, h0, h1, h2, htake, hdrop]
  rw [GraphRewriteRule.sweep, if_pos hlt, if_pos hfires, hreplace, List.length_append,
    List.length_singleton]

theorem sweep_kept (hg : g.nodes = done ++ n0 :: rest)
    (h : ∀ n1 n2 post, rest = n1 :: n2 :: post → ¬matmulBiasRelu n0 n1 n2) :
    makeFuseMatmulBiasReluRule.sweep (fuel + 1) g done.length rewrites =
      makeFuseMatmulBiasReluRule.sweep fuel g (done ++ [n0]).length rewrites := by
  have hlt : done.length < g.nodes.length := by simp [hg]
  have hfires : ¬makeFuseMatmulBiasReluRule.fires g done.length := by
    match rest, h with
    | [], h => simp [makeFuseMatmulBiasReluRule, hg]
    | [n1], h => simp [makeFuseMatmulBiasReluRule, hg]
    | n1 :: n2 :: post, h => simpa [makeFuseMatmulBiasReluRule, hg] using h n1 n2 post rfl
  rw [GraphRewriteRule.sweep, if_pos hlt, if_neg hfires, List.length_append,
    List.length_singleton]

theorem sweep_nil (hg : g.nodes = done) :
    makeFuseMatmulBiasReluRule.sweep fuel g done.length rewrites = some (g, rewrites) := by
  cases fuel with
  | zero => simp [GraphRewriteRule.sweep, hg]
  | succ fuel => simp [GraphRewriteRule.sweep, hg]

variable (rewrites) in
theorem sweep_blocks (hg : g.nodes = done ++ rest) (hfuel : rest.length ≤ fuel) :
    ∃ count, makeFuseMatmulBiasReluRule.sweep fuel g done.length rewrites =
      some ({ g with nodes := done ++ (blocks rest).map Block.node }, count) := by
  fun_induction blocks rest generalizing g done fuel rewrites with
  | case1 n0 n1 n2 rest h ih =>
    obtain ⟨fuel, rfl⟩ : ∃ f, fuel = f + 1 := ⟨fuel - 1, by simp at hfuel; omega⟩
    have hfuel' : rest.length ≤ fuel := by simp at hfuel; omega
    rw [sweep_fused hg h]
    simpa [Block.node] using ih (rewrites + 1)
      (g := { g with nodes := (done ++ [fuse n0 n1 n2]) ++ rest }) rfl hfuel'
  | case2 n0 n1 n2 rest h ih =>
    obtain ⟨fuel, rfl⟩ : ∃ f, fuel = f + 1 := ⟨fuel - 1, by simp at hfuel; omega⟩
    have hg' : g.nodes = (done ++ [n0]) ++ n1 :: n2 :: rest := by simp [hg]
    rw [sweep_kept hg (by rintro m1 m2 post ⟨rfl, rfl, rfl⟩; exact h)]
    simpa [Block.node] using ih rewrites hg' (by simpa using hfuel)
  | case3 n0 rest h ih =>
    obtain ⟨fuel, rfl⟩ : ∃ f, fuel = f + 1 := ⟨fuel - 1, by simp at hfuel; omega⟩
    have hg' : g.nodes = (done ++ [n0]) ++ rest := by simp [hg]
    rw [sweep_kept hg (fun n1 n2 post he ↦ absurd he (h n1 n2 post))]
    simpa [Block.node] using ih rewrites hg' (by simpa using hfuel)
  | case4 =>
    rw [List.append_nil] at hg
    rw [sweep_nil hg]
    exact ⟨rewrites, by simp [← hg]⟩

theorem applyRewrites_blocks (g : CerberusGraph F) (hfuel : g.nodes.length ≤ fuel) :
    ∃ count, applyRewrites fuel g [makeFuseMatmulBiasReluRule] =
      some ({ g with nodes := (blocks g.nodes).map Block.node }, count) := by
  obtain ⟨count, hsweep⟩ := sweep_blocks 0 (List.nil_append g.nodes).symm hfuel
  refine ⟨count, ?_⟩
  rw [List.length_nil] at hsweep
  simp [applyRewrites, hsweep]

end

end Cerberus.Graph
