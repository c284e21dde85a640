import Cerberus.Graph.BlockedKernels
import Cerberus.Graph.FusedKernel

namespace Cerberus.Graph.Floats

open Foundation.Bytes Foundation.Accumulate

variable {R : Type} [CommRing R] [LinearOrder R] {f : Floats R} {a b c cs : List R}
  {len m n k : Nat}

def contribution (T : Nat → Nat → Nat → R) (n p q s x : Nat) : R :=
  if x = p * n + q then T p q s else 0

theorem Exact.dot_eq (hf : f.Exact) (p q : Nat) :
    f.dot a b n k p q = ∑ s ∈ Finset.range k, f.cell a (p * k + s) * f.cell b (s * n + q) := by
  have hsum (l : Nat) : (List.range l).foldl (fun acc i ↦ f.add acc
      (f.mul (f.cell a (p * k + i)) (f.cell b (i * n + q)))) f.zero =
        ∑ s ∈ Finset.range l, f.cell a (p * k + s) * f.cell b (s * n + q) := by
    induction l with
    | zero => simp [hf.zero]
    | succ l ih =>
      rw [List.range_succ, List.foldl_append, ih, List.foldl_cons, List.foldl_nil, hf.add, hf.mul,
        Finset.sum_range_succ]
  exact hsum k

theorem Exact.addTo_adds (hf : f.Exact) {i : Nat} (hi : i < len) (v : R) :
    Adds len (fun cs ↦ f.addTo cs i v) (fun x ↦ if x = i then v else 0) := by
  intro cs hcs
  have hi' : i < cs.length := by omega
  simp only [addTo, List.getElem?_eq_getElem hi', Option.bind_eq_bind, Option.bind_some, put,
    if_pos hi']
  congr 1
  refine List.ext_getElem? (fun x ↦ ?_)
  rw [getElem?_plus, List.getElem?_set]
  by_cases hx : x = i
  · subst hx
    simp [hi', hf.add]
  · rw [if_neg (Ne.symm hx)]
    cases cs[x]? with
    | none => rfl
    | some c => simp [hx]

omit [CommRing R] [LinearOrder R] in
theorem pack_filled (f : Floats R) {s m n : Nat} {g : Nat → Nat → Option R} {w : Nat → Nat → R}
    (hfit : m * n ≤ s) (hread : ∀ r < m, ∀ c < n, g r c = some (w r c)) :
    ∃ p, f.pack s m n g = some p ∧ p.length = s ∧ Filled n w m p := by
  have hroom : m * n ≤ (List.replicate s f.zero).length := by simpa using hfit
  obtain ⟨p, hloop, hlen, hfilled⟩ := loop_put_grid (w := w) hroom
  refine ⟨p, ?_, by simpa using hlen, hfilled⟩
  rw [← hloop, pack]
  refine congrFun (loop_congr (fun r hr ↦ loop_congr (fun c hc ↦ ?_))) _
  funext panel
  rw [hread r (List.mem_range.mp hr) c (List.mem_range.mp hc)]
  rfl

theorem Exact.grid_adds (hf : f.Exact) {m n : Nat} {p : Nat → Nat → Nat}
    {g : Nat → Nat → List R → Option (List R)} {v : Nat → Nat → R}
    (hcell : ∀ i < m, ∀ j < n, p i j < len)
    (hstep : ∀ i < m, ∀ j < n, ∀ cs, g i j cs = f.addTo cs (p i j) (v i j)) :
    Adds len (loop (List.range m) (fun i ↦ loop (List.range n) (g i)))
      (fun x ↦ ∑ i ∈ Finset.range m, ∑ j ∈ Finset.range n, if x = p i j then v i j else 0) := by
  refine Adds.loop_range (fun i hi ↦ Adds.loop_range (fun j hj ↦ ?_))
  intro cs hcs
  rw [hstep i hi j hj]
  exact hf.addTo_adds (hcell i hi j hj) (v i j) cs hcs

variable {kc mr nr : Nat} {α β : Nat → Nat → R} {start ldc : Nat}

theorem Exact.microKernel4x4_adds (hf : f.Exact) {aPanel bPanel : List R} {nc : Nat}
    (hmr : mr ≤ MR) (hnr : nr ≤ NR) (ha : ∀ i < mr, ∀ k < kc, aPanel[i * kc + k]? = some (α i k))
    (hb : ∀ k < kc, ∀ j < nr, bPanel[k * nc + j]? = some (β k j))
    (hfit : ∀ i < mr, ∀ j < nr, start + (i * ldc + j) < len) :
    Adds len (f.microKernel4x4 aPanel bPanel start ldc kc mr nr nc)
      (fun x ↦ ∑ i ∈ Finset.range mr, ∑ j ∈ Finset.range nr,
        if x = start + (i * ldc + j) then ∑ k ∈ Finset.range kc, α i k * β k j else 0) := by
  have hreg : Adds (MR * NR) _ _ := Adds.loop_range (n := kc) (fun k hk ↦
    hf.grid_adds (m := mr) (n := nr) (p := fun i j ↦ i * NR + j)
      (g := fun i j cReg ↦ do
        let x ← aPanel[i * kc + k]?
        let y ← bPanel[k * nc + j]?
        f.addTo cReg (i * NR + j) (f.mul x y)) (v := fun i j ↦ α i k * β k j)
      (fun i hi j hj ↦ cell_lt (hi.trans_le hmr) (hj.trans_le hnr))
      (fun i hi j hj cs ↦ by rw [ha i hi k hk, hb k hk j hj, ← hf.mul]; rfl))
  intro cs hcs
  have hsum (i : Nat) (hi : i < mr) (j : Nat) (hj : j < nr) :
      (plus (List.replicate (MR * NR) f.zero) (fun x ↦ ∑ k ∈ Finset.range kc,
        ∑ i ∈ Finset.range mr, ∑ j ∈ Finset.range nr,
          if x = i * NR + j then α i k * β k j else 0))[i * NR + j]? =
        some (∑ k ∈ Finset.range kc, α i k * β k j) := by
    have hlt : i * NR + j < MR * NR := cell_lt (hi.trans_le hmr) (hj.trans_le hnr)
    rw [getElem?_plus, List.getElem?_replicate, if_pos hlt, Option.map_some, hf.zero, zero_add]
    congr 1
    exact Finset.sum_congr rfl (fun k _ ↦ sum_grid hnr hi hj (fun i j ↦ α i k * β k j))
  rw [microKernel4x4, hreg _ (List.length_replicate ..), Option.bind_eq_bind, Option.bind_some]
  refine hf.grid_adds (v := fun i j ↦ ∑ k ∈ Finset.range kc, α i k * β k j) hfit
    (fun i hi j hj cs ↦ ?_) cs hcs
  rw [hsum i hi j hj]
  rfl

omit [CommRing R] [LinearOrder R] in
theorem cell_read (f : Floats R) {i : Nat} (h : i < a.length) : a[i]? = some (f.cell a i) := by
  rw [cell, List.getD_eq_getElem?_getD, List.getElem?_eq_getElem h, Option.getD_some]

omit [LinearOrder R] in
theorem tile_box {T : Nat → Nat → Nat → R} {h w d : Nat} (i j s x : Nat) :
    ∑ p ∈ Finset.range h, ∑ q ∈ Finset.range w, (if x = i * n + j + (p * n + q) then
      ∑ t ∈ Finset.range d, T (i + p) (j + q) (s + t) else 0) =
        box (contribution T n) i h j w s d x := by
  refine Finset.sum_congr rfl (fun p _ ↦ Finset.sum_congr rfl (fun q _ ↦ ?_))
  have hcell : i * n + j + (p * n + q) = (i + p) * n + (j + q) := by ring
  simp only [contribution, hcell]
  split
  · rfl
  · exact Finset.sum_const_zero.symm

def term (f : Floats R) (a b : List R) (n k p q s : Nat) : R :=
  f.cell a (p * k + s) * f.cell b (s * n + q)

theorem Exact.blocked_adds (hf : f.Exact) (ha : m * k ≤ a.length) (hb : k * n ≤ b.length)
    (hc : m * n ≤ len) :
    Adds len (f.blocked a b m n k) (box (contribution (f.term a b n k) n) 0 m 0 n 0 k) := by
  refine Adds.box_columns (by decide) (fun jb hj ↦ Adds.box_depth (by decide) (fun sb hs ↦
    Adds.box_rows (by decide) (fun ib hi ↦ ?_)))
  simp only [Nat.zero_add]
  generalize hnc : min NC (n - jb * NC) = nc
  generalize hkc : min KC (k - sb * KC) = kc
  generalize hmc : min MC (m - ib * MC) = mc
  generalize jb * NC = j at hj hnc ⊢
  generalize sb * KC = s at hs hkc ⊢
  generalize ib * MC = i at hi hmc ⊢
  have hj' : j + nc ≤ n := by omega
  have hs' : s + kc ≤ k := by omega
  have hi' : i + mc ≤ m := by omega
  obtain ⟨bPanel, hpackB, -, hfillB⟩ := f.pack_filled (s := kc * nc) (m := kc) (n := nc)
    (g := fun kk jj ↦ b[(s + kk) * n + (j + jj)]?)
    (w := fun kk jj ↦ f.cell b ((s + kk) * n + (j + jj))) le_rfl
    (fun kk hkk jj hjj ↦ f.cell_read ((cell_lt (m := k) (by omega) (by omega)).trans_le hb))
  obtain ⟨aPanel, hpackA, -, hfillA⟩ := f.pack_filled (s := mc * kc) (m := mc) (n := kc)
    (g := fun ii kk ↦ a[(i + ii) * k + (s + kk)]?)
    (w := fun ii kk ↦ f.cell a ((i + ii) * k + (s + kk))) le_rfl
    (fun ii hii kk hkk ↦ f.cell_read ((cell_lt (m := m) (by omega) (by omega)).trans_le ha))
  intro cs hcs
  dsimp only
  rw [hpackB, Option.bind_eq_bind, Option.bind_some, hpackA, Option.bind_some]
  refine Adds.box_rows (by decide) (fun iib hii ↦ Adds.box_columns (by decide) (fun jjb hjj ↦ ?_))
    cs hcs
  generalize hmr : min MR (mc - iib * MR) = mr
  generalize hnr : min NR (nc - jjb * NR) = nr
  generalize iib * MR = ii at hii hmr ⊢
  generalize jjb * NR = jj at hjj hnr ⊢
  refine (hf.microKernel4x4_adds (α := fun p t ↦ f.cell a ((i + ii + p) * k + (s + t)))
    (β := fun t q ↦ f.cell b ((s + t) * n + (j + jj + q))) (by omega) (by omega) ?_ ?_ ?_).congr
    (fun x _ ↦ tile_box (T := f.term a b n k) (i + ii) (j + jj) s x)
  · intro p hp t ht
    have hcell : ii * kc + (p * kc + t) = (ii + p) * kc + t := by ring
    rw [List.getElem?_drop, hcell, hfillA (ii + p) (by omega) t ht, Nat.add_assoc]
  · intro t ht q hq
    have hcell : jj + (t * nc + q) = t * nc + (jj + q) := by ring
    rw [List.getElem?_drop, hcell, hfillB t ht (jj + q) (by omega), Nat.add_assoc]
  · intro p hp q hq
    have hcell : (i + ii) * n + (j + jj) + (p * n + q) = (i + ii + p) * n + (j + jj + q) := by ring
    rw [hcell]
    exact (cell_lt (m := m) (by omega) (by omega)).trans_le hc

section Result

variable {T : Nat → Nat → Nat → R}

omit [LinearOrder R] in
theorem box_contribution {x : Nat} (hx : x < m * n) :
    box (contribution T n) 0 m 0 n 0 k x = ∑ s ∈ Finset.range k, T (x / n) (x % n) s := by
  have hn : 0 < n := Nat.pos_of_ne_zero (fun h ↦ by simp [h] at hx)
  have hcell : x = x / n * n + x % n := by rw [Nat.mul_comm, Nat.div_add_mod]
  have hrow : x / n < m := Nat.div_lt_of_lt_mul (by rwa [Nat.mul_comm])
  conv_lhs => rw [hcell]
  rw [← tile_box (h := m) (w := n) 0 0 0]
  simp only [Nat.zero_mul, Nat.zero_add]
  exact sum_grid le_rfl hrow (Nat.mod_lt x hn) (fun p q ↦ ∑ s ∈ Finset.range k, T p q s)

omit [LinearOrder R] in
theorem box_contribution_zero {x : Nat} (hx : m * n ≤ x) :
    box (contribution T n) 0 m 0 n 0 k x = 0 := by
  refine Finset.sum_eq_zero (fun p hp ↦ Finset.sum_eq_zero (fun q hq ↦
    Finset.sum_eq_zero (fun s _ ↦ if_neg ?_)))
  have hlt : p * n + q < m * n := cell_lt (Finset.mem_range.mp hp) (Finset.mem_range.mp hq)
  rw [Nat.zero_add, Nat.zero_add]
  omega

theorem Exact.memset_adds (hf : f.Exact) {step : List R → Option (List R)} (hc : m * n ≤ c.length)
    (h : Adds c.length step (box (contribution T n) 0 m 0 n 0 k)) :
    (f.memset c (m * n)).bind step =
      some (store ((List.range (m * n)).map (fun x ↦ ∑ s ∈ Finset.range k, T (x / n) (x % n) s)) c)
      := by
  rw [memset, if_pos hc, Option.bind_some, h _ (length_store (by simpa using hc))]
  congr 1
  refine List.ext_getElem? (fun x ↦ ?_)
  rw [getElem?_plus]
  rcases Nat.lt_or_ge x (m * n) with hx | hx
  · rw [getElem?_store (by simpa using hx), getElem?_store (by simpa using hx), box_contribution hx]
    simp [hx, hf.zero]
  · rw [box_contribution_zero hx, store, store, List.getElem?_append_right (by simpa using hx),
      List.getElem?_append_right (by simpa using hx)]
    simp only [List.length_replicate, List.length_map, List.length_range, add_zero, Option.map_id']

theorem Exact.kernelMatmulBlocked_eq (hf : f.Exact) (hm : 1 ≤ m) (hn : 1 ≤ n) (hk : 1 ≤ k)
    (ha : m * k ≤ a.length) (hb : k * n ≤ b.length) (hc : m * n ≤ c.length) :
    f.kernelMatmulBlocked (.block a) (.block b) (.block c) m n k =
      f.kernelMatmul (.block a) (.block b) (.block c) m n k := by
  have hne : ¬(m = 0 ∨ n = 0 ∨ k = 0) := by omega
  rw [f.kernelMatmul_blocks hm hn hk ha hb hc, kernelMatmulBlocked, onBlocks, if_neg hne,
    hf.memset_adds hc (hf.blocked_adds ha hb hc), Outcome.ofAccess]
  simp only [hf.dot_eq, term]

end Result

section Vectors

variable {w kc : Nat} {aTile bTile : List R}

omit [CommRing R] [LinearOrder R] in
theorem load_filled {t : Nat} (hlen : kc * w ≤ aTile.length) (ha : Filled w α kc aTile)
    (ht : t < kc) : load aTile (t * w) w = some ((List.range w).map (α t)) := by
  have hfit : t * w + w ≤ aTile.length := by
    rw [← Nat.succ_mul]
    exact (Nat.mul_le_mul_right _ ht).trans hlen
  rw [load, if_pos hfit]
  congr 1
  refine List.ext_getElem? (fun l ↦ ?_)
  rcases Nat.lt_or_ge l w with hl | hl
  · rw [List.getElem?_take_of_lt hl, List.getElem?_drop, ha t ht l hl]
    simp [hl]
  · rw [List.getElem?_eq_none (by simp; omega), List.getElem?_eq_none (by simpa using hl)]

theorem Exact.registers_eq (hf : f.Exact) (hlen : kc * w ≤ aTile.length)
    (ha : Filled w α kc aTile) (hb : Filled w β kc bTile) :
    f.registers w aTile bTile kc = some ((List.range w).map (fun j ↦
      (List.range w).map (fun l ↦ ∑ t ∈ Finset.range kc, α t l * β t j))) := by
  have hpre (r : Nat) (hr : r ≤ kc) : (List.range r).foldlM (fun regs kk ↦ do
      let a ← load aTile (kk * w) w
      let bs ← (List.range w).mapM (fun j ↦ bTile[kk * w + j]?)
      pure (List.zipWith (f.fmadd a) bs regs)) (List.replicate w (List.replicate w f.zero)) =
        some ((List.range w).map (fun j ↦
          (List.range w).map (fun l ↦ ∑ t ∈ Finset.range r, α t l * β t j))) := by
    induction r with
    | zero => simp [hf.zero]
    | succ r ih =>
      rw [List.range_succ, List.foldlM_append, ih (by omega), Option.bind_eq_bind,
        Option.bind_some, List.foldlM_cons, load_filled hlen ha (by omega),
        mapM_range (fun j hj ↦ hb r (by omega) j hj)]
      simp only [Option.bind_eq_bind, Option.bind_some, Option.pure_def, List.foldlM_nil,
        List.zipWith_map, List.zipWith_self, fmadd, hf.add, hf.mul, Finset.sum_range_succ, add_comm]
  exact hpre kc le_rfl

/-- What a vector kernel does with its tiles: to the cell in row `i` and column `j` of the tile of
`C` it adds the product of the given row of `A` and column of `B`. -/
def AddsTile (f : Floats R) (w len : Nat) (row col : Nat → Nat → Nat)
    (micro : List R → List R → Nat → Nat → Nat → List R → Option (List R)) : Prop :=
  ∀ {aTile bTile : List R} {α β : Nat → Nat → R} {start ldc kc : Nat}, f.Exact →
    kc * w ≤ aTile.length → Filled w α kc aTile → Filled w β kc bTile →
    (∀ i < w, ∀ j < w, start + (i * ldc + j) < len) →
    Adds len (micro aTile bTile start ldc kc)
      (fun x ↦ ∑ i ∈ Finset.range w, ∑ j ∈ Finset.range w, if x = start + (i * ldc + j) then
        ∑ t ∈ Finset.range kc, α t (row i j) * β t (col i j) else 0)

theorem avx2MicroKernel8x8_adds (f : Floats R) :
    f.AddsTile 8 len (fun i _ ↦ i) (fun _ j ↦ j) f.avx2MicroKernel8x8 := by
  intro aTile bTile α β start ldc kc hf hlen ha hb hfit cs hcs
  rw [avx2MicroKernel8x8, hf.registers_eq hlen ha hb, Option.bind_eq_bind, Option.bind_some]
  refine hf.grid_adds (v := fun i j ↦ ∑ t ∈ Finset.range kc, α t i * β t j) hfit
    (fun i hi j hj cs ↦ ?_) cs hcs
  simp [hi, hj]

theorem Exact.row_adds (hf : f.Exact) {i : Nat} {v : Nat → R} (hi : i + w ≤ len) :
    Adds len (fun cs ↦ (load cs i w).bind (fun row ↦
        storeAt cs i (List.zipWith f.add row ((List.range w).map v))))
      (fun x ↦ ∑ j ∈ Finset.range w, if x = i + j then v j else 0) := by
  intro cs hcs
  have hrow : (List.zipWith f.add ((cs.drop i).take w) ((List.range w).map v)).length = w := by
    simp
    omega
  dsimp only
  rw [load, if_pos (by omega), Option.bind_some, storeAt, hrow, if_pos (by omega)]
  congr 1
  refine List.ext_getElem? (fun x ↦ ?_)
  rw [getElem?_plus]
  rcases Nat.lt_or_ge x i with hx | hx
  · rw [List.getElem?_append_left (by simp; omega), List.getElem?_take_of_lt hx,
      Finset.sum_eq_zero (fun j _ ↦ if_neg (by omega))]
    simp
  · obtain ⟨l, rfl⟩ := Nat.exists_eq_add_of_le hx
    have hat : (cs.take i).length = i := by
      simp
      omega
    rw [List.getElem?_append_right (by omega), hat, Nat.add_sub_cancel_left]
    rcases Nat.lt_or_ge l w with hl | hl
    · rw [List.getElem?_append_left (by omega), List.getElem?_zipWith,
        List.getElem?_take_of_lt hl, List.getElem?_drop]
      have hcell : i + l < cs.length := by omega
      simp [hl, hcell, hf.add]
    · rw [List.getElem?_append_right (by omega), hrow, List.getElem?_drop,
        Finset.sum_eq_zero (fun j hj ↦ if_neg ?_)]
      · have hcell : i + w + (l - w) = i + l := by omega
        simp [hcell]
      · have hj' := Finset.mem_range.mp hj
        omega

theorem avx512MicroKernel16x16_adds (f : Floats R) :
    f.AddsTile 16 len (fun _ j ↦ j) (fun i _ ↦ i) f.avx512MicroKernel16x16 := by
  intro aTile bTile α β start ldc kc hf hlen ha hb hfit cs hcs
  rw [avx512MicroKernel16x16, hf.registers_eq hlen ha hb, Option.bind_eq_bind, Option.bind_some]
  have hloop : Adds len _ _ := Adds.loop_range (n := 16) (fun i hi ↦
    hf.row_adds (w := 16) (i := start + i * ldc)
      (v := fun l ↦ ∑ t ∈ Finset.range kc, α t l * β t i)
      (by have hlast := hfit i hi 15 (by omega); omega))
  simp only [Nat.add_assoc] at hloop
  rw [← hloop cs hcs]
  refine congrFun (loop_congr (fun i hi ↦ ?_)) cs
  funext c
  simp [List.mem_range.mp hi]

theorem tile_coordinates {x p : Nat} (hx : w ∣ x) (hp : p < w) :
    (x + p) / w * w = x ∧ (x + p) % w = p := by
  obtain ⟨t, rfl⟩ := hx
  rw [Nat.mul_comm w t, (cell_coordinates hp t).1, (cell_coordinates hp t).2]
  exact ⟨rfl, rfl⟩

/-- The tiles of a vector kernel, where they fit the matrices, are the product of the rows and
columns that its stores put together. -/
theorem Exact.tiled_adds (hf : f.Exact) {mcMax ncMax kcMax : Nat} {size : Nat → Nat}
    {row col : Nat → Nat → Nat}
    {micro : List R → List R → Nat → Nat → Nat → List R → Option (List R)}
    (hmicro : f.AddsTile w len row col micro) (hw : 0 < w) (hmc : 0 < mcMax) (hnc : 0 < ncMax)
    (hkc : 0 < kcMax) (hmcw : w ∣ mcMax) (hncw : w ∣ ncMax)
    (hsize : ∀ kc ≤ kcMax, kc * w ≤ size kc) (hm : w ∣ m) (hn : w ∣ n) (ha : m * k ≤ a.length)
    (hb : k * n ≤ b.length) (hc : m * n ≤ len) :
    Adds len (f.tiled w mcMax ncMax kcMax size micro a b m n k)
      (box (contribution (fun p q s ↦
        f.term a b n k (p / w * w + row (p % w) (q % w)) (q / w * w + col (p % w) (q % w)) s) n)
        0 m 0 n 0 k) := by
  have hround {max total b : Nat} (hmax : w ∣ max) (htotal : w ∣ total) :
      w ∣ min max (total - b * max) := by
    rcases min_choice max (total - b * max) with h | h
    · rwa [h]
    · rw [h]
      exact Nat.dvd_sub htotal (Dvd.dvd.mul_left hmax b)
  have htile {total b : Nat} (htotal : w ∣ total) (hb : b * w < total) :
      b * w + w ≤ total ∧ min w (total - b * w) = w := by
    have hle := Nat.le_of_dvd (by omega) (Nat.dvd_sub htotal (Dvd.intro_left b rfl))
    omega
  refine Adds.box_columns hnc (fun jb hj ↦ Adds.box_depth hkc (fun sb hs ↦
    Adds.box_rows hmc (fun ib hi ↦ ?_)))
  have hncd := hround (b := jb) hncw hn
  have hmcd := hround (b := ib) hmcw hm
  simp only [Nat.zero_add, Nat.div_mul_cancel hncd, Nat.div_mul_cancel hmcd]
  generalize hncv : min ncMax (n - jb * ncMax) = nc at hncd ⊢
  generalize hkcv : min kcMax (k - sb * kcMax) = kc
  generalize hmcv : min mcMax (m - ib * mcMax) = mc at hmcd ⊢
  have hjd : w ∣ jb * ncMax := Dvd.dvd.mul_left hncw jb
  have hid : w ∣ ib * mcMax := Dvd.dvd.mul_left hmcw ib
  generalize jb * ncMax = j at hj hncv hjd ⊢
  generalize sb * kcMax = s at hs hkcv ⊢
  generalize ib * mcMax = i at hi hmcv hid ⊢
  refine Adds.box_rows hw (fun iib hii ↦ Adds.box_columns hw (fun jjb hjj ↦ ?_))
  obtain ⟨hii, hmr⟩ := htile hmcd hii
  obtain ⟨hjj, hnr⟩ := htile hncd hjj
  rw [hmr, hnr]
  have hrows : w ∣ i + iib * w := Nat.dvd_add hid (Dvd.intro_left iib rfl)
  have hcols : w ∣ j + jjb * w := Nat.dvd_add hjd (Dvd.intro_left jjb rfl)
  generalize iib * w = ii at hii hrows ⊢
  generalize jjb * w = jj at hjj hcols ⊢
  have hsize' := hsize kc (by omega)
  obtain ⟨aTile, hpackA, hlenA, hfillA⟩ := f.pack_filled (s := size kc) (m := kc) (n := w)
    (g := fun kk r ↦ a[(i + ii + r) * k + (s + kk)]?)
    (w := fun kk r ↦ f.cell a ((i + ii + r) * k + (s + kk))) hsize'
    (fun kk hkk r hr ↦ f.cell_read ((cell_lt (m := m) (by omega) (by omega)).trans_le ha))
  obtain ⟨bTile, hpackB, hlenB, hfillB⟩ := f.pack_filled (s := size kc) (m := kc) (n := w)
    (g := fun kk c ↦ b[(s + kk) * n + (j + jj + c)]?)
    (w := fun kk c ↦ f.cell b ((s + kk) * n + (j + jj + c))) hsize'
    (fun kk hkk c hc ↦ f.cell_read ((cell_lt (m := k) (by omega) (by omega)).trans_le hb))
  intro cs hcs
  dsimp only
  rw [hpackA, Option.bind_eq_bind, Option.bind_some, hpackB, Option.bind_some]
  refine (hmicro hf (by omega) hfillA hfillB ?_).congr (fun x _ ↦ ?_) cs hcs
  · intro p hp q hq
    have hcell : (i + ii) * n + (j + jj) + (p * n + q) = (i + ii + p) * n + (j + jj + q) := by ring
    rw [hcell]
    exact (cell_lt (m := m) (by omega) (by omega)).trans_le hc
  · rw [← tile_box (h := w) (w := w) (d := kc) (i + ii) (j + jj) s x]
    refine Finset.sum_congr rfl (fun p hp ↦ Finset.sum_congr rfl (fun q hq ↦ ?_))
    have hpw := Finset.mem_range.mp hp
    have hqw := Finset.mem_range.mp hq
    obtain ⟨hrow, hrowMod⟩ := tile_coordinates hrows hpw
    obtain ⟨hcol, hcolMod⟩ := tile_coordinates hcols hqw
    simp only [term, hrow, hrowMod, hcol, hcolMod]

/-- The vector kernel of 16 lanes leaves in every cell the element on the other side of the
diagonal of its tile. -/
theorem Exact.kernelMatmulBlockedAvx512_eq (hf : f.Exact) (hm : 1 ≤ m) (hn : 1 ≤ n) (hk : 1 ≤ k)
    (ha : m * k ≤ a.length) (hb : k * n ≤ b.length) (hc : m * n ≤ c.length) (hmw : 16 ∣ m)
    (hnw : 16 ∣ n) :
    f.kernelMatmulBlockedAvx512 (.block a) (.block b) (.block c) m n k =
      .ok (store ((List.range (m * n)).map (fun x ↦ f.dot a b n k
        (x / n / 16 * 16 + x % n % 16) (x % n / 16 * 16 + x / n % 16))) c) := by
  have hne : ¬(m = 0 ∨ n = 0 ∨ k = 0) := by omega
  have hfit : ¬(m % 16 ≠ 0 ∨ n % 16 ≠ 0) := by omega
  rw [kernelMatmulBlockedAvx512, onBlocks, if_neg hne, if_neg hfit,
    hf.memset_adds hc (hf.tiled_adds f.avx512MicroKernel16x16_adds (by decide) (by decide)
      (by decide) (by decide) (by decide) (by decide) (fun kc hkc ↦ by omega) hmw hnw ha hb hc),
    Outcome.ofAccess]
  simp only [hf.dot_eq, term]

end Vectors

/-- Both kernels write the product that the plain one writes. -/
theorem Exact.blocked_products_agree (hf : f.Exact) (hm : 1 ≤ m) (hn : 1 ≤ n) (hk : 1 ≤ k)
    (ha : m * k ≤ a.length) (hb : k * n ≤ b.length) (hc : m * n ≤ c.length) :
    ∃ cs, f.kernelMatmul (.block a) (.block b) (.block c) m n k = .ok cs ∧
      f.kernelMatmulBlocked (.block a) (.block b) (.block c) m n k = .ok cs ∧
      f.kernelMatmulBlockedAvx2 (.block a) (.block b) (.block c) m n k = .ok cs := by
  have hplain := f.kernelMatmul_blocks hm hn hk ha hb hc
  have hblocked := (hf.kernelMatmulBlocked_eq hm hn hk ha hb hc).trans hplain
  refine ⟨_, hplain, hblocked, ?_⟩
  have hne : ¬(m = 0 ∨ n = 0 ∨ k = 0) := by omega
  rw [kernelMatmulBlockedAvx2, onBlocks, if_neg hne]
  by_cases hfit : m % 8 ≠ 0 ∨ n % 8 ≠ 0
  · rw [if_pos hfit, hblocked]
  · rw [if_neg hfit, hf.memset_adds hc (hf.tiled_adds f.avx2MicroKernel8x8_adds (by decide)
      (by decide) (by decide) (by decide) (by decide) (by decide) (fun kc _ ↦ le_rfl) (by omega)
      (by omega) ha hb hc), Outcome.ofAccess]
    simp only [hf.dot_eq, term, Nat.mul_comm _ 8, Nat.div_add_mod]

theorem Exact.blocked_products_agree_tile : ∃ cs,
    integers.kernelMatmul (.block (List.replicate 8 2)) (.block (List.replicate 8 3))
      (.block (List.replicate 64 5)) 8 8 1 = .ok cs ∧
    integers.kernelMatmulBlocked (.block (List.replicate 8 2)) (.block (List.replicate 8 3))
      (.block (List.replicate 64 5)) 8 8 1 = .ok cs ∧
    integers.kernelMatmulBlockedAvx2 (.block (List.replicate 8 2)) (.block (List.replicate 8 3))
      (.block (List.replicate 64 5)) 8 8 1 = .ok cs :=
  integers_exact.blocked_products_agree (by decide) (by decide) (by decide) (by simp) (by simp)
    (by simp)

/-- The kernel of 16 lanes writes the product exactly when it is not used, or every tile of the
product is symmetric. -/
theorem Exact.avx512_agrees_iff (hf : f.Exact) (hm : 1 ≤ m) (hn : 1 ≤ n) (hk : 1 ≤ k)
    (ha : m * k ≤ a.length) (hb : k * n ≤ b.length) (hc : m * n ≤ c.length) :
    f.kernelMatmulBlockedAvx512 (.block a) (.block b) (.block c) m n k =
        f.kernelMatmul (.block a) (.block b) (.block c) m n k ↔
      m % 16 ≠ 0 ∨ n % 16 ≠ 0 ∨ ∀ p < m, ∀ q < n,
        f.dot a b n k (p / 16 * 16 + q % 16) (q / 16 * 16 + p % 16) = f.dot a b n k p q := by
  have hne : ¬(m = 0 ∨ n = 0 ∨ k = 0) := by omega
  by_cases hfit : m % 16 ≠ 0 ∨ n % 16 ≠ 0
  · have hsame : f.kernelMatmulBlockedAvx512 (.block a) (.block b) (.block c) m n k =
        f.kernelMatmul (.block a) (.block b) (.block c) m n k := by
      rw [kernelMatmulBlockedAvx512, onBlocks, if_neg hne, if_pos hfit]
      exact hf.kernelMatmulBlocked_eq hm hn hk ha hb hc
    exact iff_of_true hsame (hfit.imp_right .inl)
  · rw [hf.kernelMatmulBlockedAvx512_eq hm hn hk ha hb hc (by omega) (by omega),
      f.kernelMatmul_blocks hm hn hk ha hb hc]
    have hm' : ¬m % 16 ≠ 0 := fun h ↦ hfit (.inl h)
    have hn' : ¬n % 16 ≠ 0 := fun h ↦ hfit (.inr h)
    simp only [hm', hn', false_or, Outcome.ok.injEq, store, List.length_map, List.length_range,
      List.append_left_inj, List.map_inj_left, List.mem_range]
    constructor
    · intro h p hp q hq
      have hcell := h (p * n + q) (cell_lt hp hq)
      rwa [(cell_coordinates hq p).1, (cell_coordinates hq p).2] at hcell
    · intro h x hx
      exact h (x / n) (Nat.div_lt_of_lt_mul (by rwa [Nat.mul_comm])) (x % n) (Nat.mod_lt x hn)

theorem Exact.avx512_agrees_iff_constant :
    integers.kernelMatmulBlockedAvx512 (.block (List.replicate 16 2)) (.block (List.replicate 16 1))
        (.block (List.replicate 256 5)) 16 16 1 =
      integers.kernelMatmul (.block (List.replicate 16 2)) (.block (List.replicate 16 1))
        (.block (List.replicate 256 5)) 16 16 1 := by
  refine (integers_exact.avx512_agrees_iff (by decide) (by decide) (by decide)
    List.length_replicate.ge List.length_replicate.ge List.length_replicate.ge).mpr
      (.inr (.inr (fun p hp q hq ↦ ?_)))
  have hdot {i j : Nat} (hi : i < 16) (hj : j < 16) :=
    integers_exact.dot_replicate (x := 2) (k := 1) hi hj
  rw [hdot hp hq, hdot (by omega) (by omega)]

def rising : List Int := (List.range 16).map (fun i : Nat ↦ (i : Int))

/-- The kernel writes the transpose. -/
theorem avx512_transposes :
    integers.kernelMatmulBlockedAvx512 (.block rising) (.block (List.replicate 16 1))
        (.block (List.replicate 256 0)) 16 16 1 ≠
      integers.kernelMatmul (.block rising) (.block (List.replicate 16 1))
        (.block (List.replicate 256 0)) 16 16 1 := by
  have ha : 16 * 1 ≤ rising.length := by simp [rising]
  have hb : 1 * 16 ≤ (List.replicate 16 (1 : Int)).length := List.length_replicate.ge
  have hc : 16 * 16 ≤ (List.replicate 256 (0 : Int)).length := List.length_replicate.ge
  rw [integers_exact.kernelMatmulBlockedAvx512_eq (by decide) (by decide) (by decide) ha hb hc
      (by decide) (by decide),
    integers.kernelMatmul_blocks (by decide) (by decide) (by decide) ha hb hc]
  intro h
  have hcell := congrArg (fun cs : List Int ↦ cs[1]?) (Outcome.ok.inj h)
  rw [getElem?_store (by simp), getElem?_store (by simp)] at hcell
  simp only [List.getElem?_map, List.getElem?_range (show 1 < 16 * 16 by decide),
    Option.map_some, Option.some.injEq] at hcell
  revert hcell
  decide

end Cerberus.Graph.Floats
