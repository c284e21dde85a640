import Cerberus.Graph.NativeBackend
import Mathlib.Algebra.Order.Group.Abs
import Mathlib.Algebra.Order.Ring.Defs
import Mathlib.Algebra.Order.Ring.Int

namespace Cerberus.Graph

open Foundation.Bytes

theorem length_store {F : Type} {values out : List F} (h : values.length ≤ out.length) :
    (store values out).length = out.length := by
  simp only [store, List.length_append, List.length_drop]
  omega

theorem getElem?_store {F : Type} {values out : List F} {i : Nat} (h : i < values.length) :
    (store values out)[i]? = values[i]? := List.getElem?_append_left h

theorem Outcome.bind_congr {ε α β : Type} {x : Outcome ε α} {g g' : α → Outcome ε β}
    (h : ∀ a, x = .ok a → g a = g' a) : x.bind g = x.bind g' := by
  cases x with
  | ok a => exact h a rfl
  | failed error => rfl
  | undefined => rfl
  | threw => rfl

namespace Floats

section

variable {F : Type} (f : Floats F)

def shift (g : Nat → F) (count : Nat) (cs : List F) : List F :=
  store ((List.range count).map (fun i ↦ f.add (f.cell cs i) (g i))) cs

def chain (g : Nat → F) (m n k : Nat) (a b out : Pointer F) : Written F :=
  (f.kernelMatmul a b out m n k).bind (fun cs ↦
    let cs := f.shift g (m * n) cs
    f.kernelRelu (.block cs) (.block cs) (m * n))

/-- What the fused kernel stands for: `bias[j]` is added to every element of column `j`. -/
def unfused (n : KernelNode F) (bias : List F) : Pointer F → Pointer F → Pointer F → Written F :=
  f.chain (fun i ↦ f.cell bias (i % n.attr 1 1)) (n.attr 0 1) (n.attr 1 1) (n.attr 2 1)

def addend (n : KernelNode F) (i : Nat) : F :=
  if i < n.attr 1 1 then f.cell n.floatAttrs i else f.zero

theorem kernelMatmul_length {a b out : Pointer F} {m n k : Nat} {cs : List F}
    (h : f.kernelMatmul a b out m n k = .ok cs) : m * n ≤ cs.length := by
  unfold kernelMatmul onBlocks at h
  split at h
  case h_2 => contradiction
  dsimp only at h
  split at h
  case isTrue => contradiction
  split at h
  case isFalse => contradiction
  rename_i hfit
  injection h with h
  rw [← h, length_store (by simpa using hfit.2.2)]
  exact hfit.2.2

theorem kernelMatmul_blocks {a b out : List F} {m n k : Nat} (hm : 1 ≤ m) (hn : 1 ≤ n)
    (hk : 1 ≤ k) (ha : m * k ≤ a.length) (hb : k * n ≤ b.length) (hout : m * n ≤ out.length) :
    f.kernelMatmul (.block a) (.block b) (.block out) m n k =
      .ok (store ((List.range (m * n)).map (fun i ↦ f.dot a b n k (i / n) (i % n))) out) := by
  have hne : ¬(m = 0 ∨ n = 0 ∨ k = 0) := by omega
  simp only [kernelMatmul, onBlocks]
  rw [if_neg hne, if_pos ⟨ha, hb, hout⟩]

theorem dispatchFused_undefined {n : KernelNode F} {a b out : Pointer F} {cs : List F}
    (hcs : f.kernelMatmul a b out (n.attr 0 1) (n.attr 1 1) (n.attr 2 1) = .ok cs)
    (hne : n.floatAttrs ≠ []) (hd : n.floatAttrs.length < n.attr 1 1) :
    f.dispatchFused n a b out = .undefined := by
  have hno : ¬(n.attr 1 1 ≤ cs.length ∧ n.attr 1 1 ≤ n.floatAttrs.length ∧
      n.attr 1 1 ≤ cs.length) := by omega
  simp only [dispatchFused, hcs, Outcome.bind, kernelAdd, kernelZip, onBlocks]
  rw [if_neg (by simp [hne]), if_neg hno]

theorem getElem?_shift {g : Nat → F} {count i : Nat} {cs : List F} :
    (f.shift g count cs)[i]? = if i < count then some (f.add (f.cell cs i) (g i)) else cs[i]? := by
  unfold shift store
  rw [List.getElem?_append]
  split
  · rename_i hi
    rw [List.length_map, List.length_range] at hi
    simp [hi]
  · rename_i hi
    rw [List.length_map, List.length_range] at hi ⊢
    rw [List.getElem?_drop, if_neg hi]
    congr 1
    omega

theorem length_shift {g : Nat → F} {count : Nat} {cs : List F} (h : count ≤ cs.length) :
    (f.shift g count cs).length = cs.length := length_store (by simpa using h)

theorem kernelRelu_inPlace {cs : List F} {count : Nat} (h : count ≤ cs.length) :
    f.kernelRelu (.block cs) (.block cs) count = .ok (store ((cs.take count).map f.relu) cs) := by
  simp only [kernelRelu, kernelMap, onBlocks]
  rw [if_pos ⟨h, h⟩]

end

structure Exact {R : Type} [CommRing R] [LinearOrder R] (f : Floats R) : Prop where
  zero : f.zero = 0
  add : ∀ x y, f.add x y = x + y
  mul : ∀ x y, f.mul x y = x * y
  less : ∀ x y, f.less x y = decide (x < y)

section

variable {R : Type} [CommRing R] [LinearOrder R] {f : Floats R}

theorem Exact.shift_zero (hf : f.Exact) {g : Nat → R} {count : Nat} {cs : List R}
    (h : count ≤ cs.length) (hg : ∀ i < count, g i = 0) : f.shift g count cs = cs := by
  refine List.ext_getElem? (fun i ↦ ?_)
  rw [f.getElem?_shift]
  split
  · rename_i hi
    have hlt : i < cs.length := by omega
    simp [hf.add, hg i hi, cell, hlt]
  · rfl

theorem Exact.kernelAdd_row (hf : f.Exact) {n : KernelNode R} {cs : List R} {count : Nat}
    (hcount : n.attr 1 1 ≤ count) (hc : count ≤ cs.length)
    (hd : n.attr 1 1 ≤ n.floatAttrs.length) :
    f.kernelAdd (.block cs) (.block n.floatAttrs) (.block cs) (n.attr 1 1) =
      .ok (f.shift (f.addend n) count cs) := by
  simp only [kernelAdd, kernelZip, onBlocks]
  rw [if_pos ⟨by omega, hd, by omega⟩]
  congr 1
  refine List.ext_getElem? (fun i ↦ ?_)
  rw [f.getElem?_shift]
  by_cases hrow : i < n.attr 1 1
  · have hlt : i < cs.length := by omega
    have hd' : i < n.floatAttrs.length := by omega
    rw [getElem?_store (by simp; omega), if_pos (by omega)]
    simp [addend, cell, hrow, hlt, hd']
  · have hlen : (List.zipWith f.add (cs.take (n.attr 1 1)) (n.floatAttrs.take (n.attr 1 1))).length
        = n.attr 1 1 := by
      simp
      omega
    rw [store, List.getElem?_append_right (by omega), List.getElem?_drop, hlen,
      Nat.add_sub_cancel' (by omega)]
    split
    · have hlt : i < cs.length := by omega
      simp [addend, hrow, hf.add, hf.zero, cell, hlt]
    · rfl

theorem Exact.dispatchFused_eq (hf : f.Exact) {n : KernelNode R} {a b out : Pointer R}
    (hM : 1 ≤ n.attr 0 1) (hd : n.floatAttrs = [] ∨ n.attr 1 1 ≤ n.floatAttrs.length) :
    f.dispatchFused n a b out =
      f.chain (f.addend n) (n.attr 0 1) (n.attr 1 1) (n.attr 2 1) a b out := by
  refine Outcome.bind_congr (fun cs hcs ↦ ?_)
  have hlen := f.kernelMatmul_length hcs
  have hrow : n.attr 1 1 ≤ n.attr 0 1 * n.attr 1 1 := Nat.le_mul_of_pos_left _ hM
  dsimp only
  by_cases he : n.floatAttrs = []
  · have hzero : f.shift (f.addend n) (n.attr 0 1 * n.attr 1 1) cs = cs :=
      hf.shift_zero hlen (fun i _ ↦ by simp [addend, cell, he, hf.zero])
    rw [if_pos (by simp [he]), hzero, Outcome.bind]
  · have hd' : n.attr 1 1 ≤ n.floatAttrs.length := hd.resolve_left he
    rw [if_neg (by simp [he]), hf.kernelAdd_row hrow hlen hd', Outcome.bind]

theorem Exact.relu_of_nonneg (hf : f.Exact) {x : R} (h : 0 ≤ x) : f.relu x = x := by
  unfold relu
  rw [hf.less, hf.zero]
  split
  · rfl
  · rename_i hx
    exact le_antisymm h (by simpa using hx)

theorem Exact.dot_replicate (hf : f.Exact) {x : R} {m n k i j : Nat} (hi : i < m) (hj : j < n) :
    f.dot (List.replicate (m * k) x) (List.replicate (k * n) 1) n k i j = k • x := by
  have hcell (l : Nat) (hl : l < k) : f.mul (f.cell (List.replicate (m * k) x) (i * k + l))
      (f.cell (List.replicate (k * n) 1) (l * n + j)) = x := by
    have ha : i * k + l < m * k := by nlinarith
    have hb : l * n + j < k * n := by nlinarith
    simp [hf.mul, cell, ha, hb]
  have hsum (l : Nat) (hl : l ≤ k) : (List.range l).foldl (fun acc l ↦ f.add acc
      (f.mul (f.cell (List.replicate (m * k) x) (i * k + l))
        (f.cell (List.replicate (k * n) 1) (l * n + j)))) f.zero = l • x := by
    induction l with
    | zero => simp [hf.zero]
    | succ l ih =>
      rw [List.range_succ, List.foldl_append, ih (by omega), List.foldl_cons, List.foldl_nil,
        hcell l (by omega), hf.add, succ_nsmul]
  exact hsum k le_rfl

theorem Exact.chain_replicate (hf : f.Exact) {m n k i : Nat} (hm : 1 ≤ m) (hn : 1 ≤ n)
    (hk : 1 ≤ k) (hi : i < m * n) (g : Nat → R) (x : R) :
    ∃ cs, f.chain g m n k (.block (List.replicate (m * k) x)) (.block (List.replicate (k * n) 1))
      (.block (List.replicate (m * n) 0)) = .ok cs ∧ cs[i]? = some (f.relu (k • x + g i)) := by
  unfold chain
  rw [f.kernelMatmul_blocks hm hn hk (by simp) (by simp) (by simp)]
  dsimp only [Outcome.bind]
  set product := store _ _ with hproduct
  have hlen : product.length = m * n := by
    rw [hproduct, length_store (by simp), List.length_replicate]
  have hshift : (f.shift g (m * n) product).length = m * n := by
    rw [f.length_shift (by omega), hlen]
  refine ⟨_, f.kernelRelu_inPlace (by omega), ?_⟩
  have hcell : f.cell product i = k • x := by
    unfold cell
    rw [List.getD_eq_getElem?_getD, hproduct, getElem?_store (by simpa using hi)]
    have hrow : i / n < m := Nat.div_lt_of_lt_mul (by rwa [Nat.mul_comm])
    simp [hi, hf.dot_replicate hrow (Nat.mod_lt i hn)]
  rw [getElem?_store (by simp; omega), List.getElem?_map, List.getElem?_take, if_pos hi,
    f.getElem?_shift, if_pos hi, hcell, hf.add]
  rfl

theorem Exact.chain_eq_iff [IsStrictOrderedRing R] (hf : f.Exact) {m n k : Nat} (hm : 1 ≤ m)
    (hn : 1 ≤ n) (hk : 1 ≤ k) {g g' : Nat → R} :
    (∀ a b out, f.chain g m n k a b out = f.chain g' m n k a b out) ↔
      ∀ i < m * n, g i = g' i := by
  constructor
  · intro h i hi
    -- No sum is negative when the element of the product is large.
    obtain ⟨cs, hcs, hi₁⟩ := hf.chain_replicate hm hn hk hi g (|g i| + |g' i|)
    obtain ⟨cs', hcs', hi₂⟩ := hf.chain_replicate hm hn hk hi g' (|g i| + |g' i|)
    rw [h, hcs'] at hcs
    injection hcs with hcs
    rw [← hcs, hi₂] at hi₁
    injection hi₁ with hrelu
    have hlarge : |g i| + |g' i| ≤ k • (|g i| + |g' i|) := by
      simpa using nsmul_le_nsmul_left (by positivity : 0 ≤ |g i| + |g' i|) hk
    have hg : 0 ≤ k • (|g i| + |g' i|) + g i := by
      linarith [neg_abs_le (g i), abs_nonneg (g' i)]
    have hg' : 0 ≤ k • (|g i| + |g' i|) + g' i := by
      linarith [neg_abs_le (g' i), abs_nonneg (g i)]
    rw [hf.relu_of_nonneg hg, hf.relu_of_nonneg hg'] at hrelu
    exact (add_left_cancel hrelu).symm
  · intro h a b out
    refine Outcome.bind_congr (fun cs hcs ↦ ?_)
    have hshift : f.shift g (m * n) cs = f.shift g' (m * n) cs := by
      unfold shift
      congr 1
      exact List.map_congr_left (fun i hi ↦ by rw [h i (List.mem_range.mp hi)])
    rw [hshift]

omit [LinearOrder R] in
theorem cells_zero_iff {bias : List R} {cols : Nat}
    (hb : bias.length = cols) : (∀ j < cols, f.cell bias j = 0) ↔ ∀ x ∈ bias, x = 0 := by
  constructor
  · intro h x hx
    obtain ⟨j, hj, rfl⟩ := List.getElem_of_mem hx
    simpa [cell, hj] using h j (by omega)
  · intro h j hj
    have hlt : j < bias.length := by omega
    simpa [cell, hlt] using h bias[j] (List.getElem_mem hlt)

omit [CommRing R] [LinearOrder R] in
theorem cells_eq_iff {d bias : List R} {cols : Nat} (hb : bias.length = cols)
    (hd : cols ≤ d.length) : (∀ j < cols, f.cell d j = f.cell bias j) ↔ d.take cols = bias := by
  constructor
  · intro h
    refine List.ext_getElem (by simp; omega) (fun j hj hj' ↦ ?_)
    have hlt : j < d.length := by omega
    simpa [cell, hlt, hj'] using h j (by omega)
  · rintro rfl j hj
    have hlt : j < d.length := by omega
    simp [cell, hj, hlt]

theorem Exact.addend_eq_iff (hf : f.Exact) {n : KernelNode R} {bias : List R}
    (hM : 1 ≤ n.attr 0 1) :
    (∀ i < n.attr 0 1 * n.attr 1 1, f.addend n i = f.cell bias (i % n.attr 1 1)) ↔
      (∀ j < n.attr 1 1, f.cell n.floatAttrs j = f.cell bias j) ∧
        (n.attr 0 1 = 1 ∨ ∀ j < n.attr 1 1, f.cell bias j = 0) := by
  constructor
  · intro h
    refine ⟨fun j hj ↦ ?_, ?_⟩
    · have hrow : n.attr 1 1 ≤ n.attr 0 1 * n.attr 1 1 := Nat.le_mul_of_pos_left _ hM
      have hj' := h j (by omega)
      rwa [addend, if_pos hj, Nat.mod_eq_of_lt hj] at hj'
    · by_cases hone : n.attr 0 1 = 1
      · exact .inl hone
      · right
        intro j hj
        have hrows : 2 * n.attr 1 1 ≤ n.attr 0 1 * n.attr 1 1 :=
          Nat.mul_le_mul_right _ (by omega)
        have hj' := h (n.attr 1 1 + j) (by omega)
        rw [addend, if_neg (by omega), hf.zero, Nat.add_mod_left, Nat.mod_eq_of_lt hj] at hj'
        exact hj'.symm
  · rintro ⟨hfirst, hrest⟩ i hi
    unfold addend
    split
    · rename_i hj
      rw [hfirst i hj, Nat.mod_eq_of_lt hj]
    · rename_i hj
      have hcols : 0 < n.attr 1 1 := Nat.pos_of_ne_zero (fun h ↦ by simp [h] at hi)
      rcases hrest with hone | hzero
      · rw [hone, Nat.one_mul] at hi
        contradiction
      · rw [hzero _ (Nat.mod_lt i hcols), hf.zero]

theorem Exact.dispatchFused_eq_unfused_iff [IsStrictOrderedRing R] (hf : f.Exact)
    {n : KernelNode R} (hM : 1 ≤ n.attr 0 1) (hN : 1 ≤ n.attr 1 1) (hK : 1 ≤ n.attr 2 1)
    {bias : List R} (hb : bias.length = n.attr 1 1) :
    (∀ a b out, f.dispatchFused n a b out = f.unfused n bias a b out) ↔
      n.floatAttrs = [] ∧ (∀ x ∈ bias, x = 0) ∨
        n.floatAttrs.take (n.attr 1 1) = bias ∧ (n.attr 0 1 = 1 ∨ ∀ x ∈ bias, x = 0) := by
  by_cases hd : n.floatAttrs = [] ∨ n.attr 1 1 ≤ n.floatAttrs.length
  · simp only [hf.dispatchFused_eq hM hd, unfused]
    rw [hf.chain_eq_iff hM hN hK, hf.addend_eq_iff hM, cells_zero_iff hb]
    rcases hd with hd | hd
    · have hzero : (∀ j < n.attr 1 1, f.cell n.floatAttrs j = f.cell bias j) ↔
          ∀ x ∈ bias, x = 0 := by
        rw [← cells_zero_iff hb (f := f), hd]
        simp only [cell, List.getD_nil, hf.zero, eq_comm]
      have hne : [] ≠ bias := fun h ↦ by simp [← h] at hb; omega
      rw [hzero, hd, List.take_nil]
      tauto
    · have hne : n.floatAttrs ≠ [] := fun h ↦ by simp [h] at hd; omega
      rw [cells_eq_iff hb hd]
      tauto
  · push Not at hd
    constructor
    · intro h
      obtain ⟨cs, hcs, -⟩ := hf.chain_replicate hM hN hK (Nat.mul_pos hM hN)
        (fun i ↦ f.cell bias (i % n.attr 1 1)) 0
      have hproduct := f.kernelMatmul_blocks hM hN hK
        (List.length_replicate (n := n.attr 0 1 * n.attr 2 1) (a := (0 : R))).ge
        (List.length_replicate (n := n.attr 2 1 * n.attr 1 1) (a := (1 : R))).ge
        (List.length_replicate (n := n.attr 0 1 * n.attr 1 1) (a := (0 : R))).ge
      have hundefined := f.dispatchFused_undefined hproduct hd.1 hd.2
      rw [h, unfused, hcs] at hundefined
      contradiction
    · rintro (⟨h, -⟩ | ⟨h, -⟩)
      · exact absurd h hd.1
      · have hlen := congrArg List.length h
        rw [List.length_take] at hlen
        omega

/-- The fused node agrees with the chain on all inputs. -/
theorem fused_agrees_iff [IsStrictOrderedRing R] (hf : f.Exact) (n : KernelNode R)
    (hop : n.op = .fusedMatMulBiasRelu) (hM : 1 ≤ n.attr 0 1) (hN : 1 ≤ n.attr 1 1)
    (hK : 1 ≤ n.attr 2 1) (bias : List R) (hb : bias.length = n.attr 1 1) :
    (n.floatAttrs = bias →
      ((∀ a b out, f.dispatch n [a, b] out = f.unfused n bias a b out) ↔
        n.attr 0 1 = 1 ∨ ∀ x ∈ bias, x = 0)) ∧
    ((∀ a b out, f.dispatch n [a, b, .block bias] out = f.unfused n bias a b out) ↔
      n.floatAttrs = [] ∧ (∀ x ∈ bias, x = 0) ∨
        n.floatAttrs.take (n.attr 1 1) = bias ∧ (n.attr 0 1 = 1 ∨ ∀ x ∈ bias, x = 0)) := by
  have hiff := hf.dispatchFused_eq_unfused_iff hM hN hK hb
  have hdispatch (a b out : Pointer R) (rest : List (Pointer R)) :
      f.dispatch n (a :: b :: rest) out = f.dispatchFused n a b out := by
    simp [dispatch, hop, operand, Outcome.bind]
  refine ⟨fun he ↦ ?_, ?_⟩
  · have hne : bias ≠ [] := fun h ↦ by simp [h] at hb; omega
    simp only [hdispatch, hiff, he, ← hb, List.take_length]
    tauto
  · simp only [hdispatch, hiff]

end

def integers : Floats Int where
  zero := 0
  one := 1
  half := 0
  geluScale := 0
  geluCoef := 0
  eps := 0
  add := (· + ·)
  sub := (· - ·)
  mul := (· * ·)
  div := (· / ·)
  neg := (- ·)
  exp := id
  tanh := id
  sqrt := id
  less x y := decide (x < y)
  ofNat n := n
  ofInt x := x
  blockScale := 1
  byte x i := UInt8.ofInt (x / 256 ^ i)
  vector _ := true

theorem integers_exact : integers.Exact := ⟨rfl, fun _ _ ↦ rfl, fun _ _ ↦ rfl, fun _ _ ↦ rfl⟩

def fusedNode (rows : Int) (bias : List Int) : KernelNode Int where
  op := .fusedMatMulBiasRelu
  name := lit "fused"
  inputs := [lit "a", lit "b"]
  outputs := [lit "y"]
  floatAttrs := bias
  intAttrs := [rows, 1, 1]

end Floats

open Floats

theorem fused_agrees_iff_rows :
    ((∀ a b out, integers.dispatch (fusedNode 1 [5]) [a, b] out =
      integers.unfused (fusedNode 1 [5]) [5] a b out) ↔
        (fusedNode 1 [5]).attr 0 1 = 1 ∨ ∀ x ∈ [(5 : Int)], x = 0) ∧
    ((∀ a b out, integers.dispatch (fusedNode 2 []) [a, b, .block [5]] out =
      integers.unfused (fusedNode 2 []) [5] a b out) ↔
        (fusedNode 2 []).floatAttrs = [] ∧ (∀ x ∈ [(5 : Int)], x = 0) ∨
          (fusedNode 2 []).floatAttrs.take ((fusedNode 2 []).attr 1 1) = [5] ∧
            ((fusedNode 2 []).attr 0 1 = 1 ∨ ∀ x ∈ [(5 : Int)], x = 0)) :=
  ⟨(fused_agrees_iff integers_exact (fusedNode 1 [5]) rfl (by decide) (by decide) (by decide) [5]
      rfl).1 rfl,
    (fused_agrees_iff integers_exact (fusedNode 2 []) rfl (by decide) (by decide) (by decide) [5]
      rfl).2⟩

/-- Of two rows, the second gets no bias; a third input is not read. -/
theorem fused_drops_bias :
    integers.dispatch (fusedNode 2 [5]) [.block [1, 1], .block [1]] (.block [0, 0]) =
      .ok [6, 1] ∧
    integers.unfused (fusedNode 2 [5]) [5] (.block [1, 1]) (.block [1]) (.block [0, 0]) =
      .ok [6, 6] ∧
    integers.dispatch (fusedNode 1 []) [.block [1], .block [1], .block [5]] (.block [0]) =
      .ok [1] ∧
    integers.unfused (fusedNode 1 []) [5] (.block [1]) (.block [1]) (.block [0]) = .ok [6] := by
  decide

end Cerberus.Graph
