import Mathlib.Algebra.BigOperators.Group.Finset.Piecewise
import Mathlib.Algebra.BigOperators.Group.Finset.Sigma
import Mathlib.Data.List.GetD

namespace Cerberus.Foundation.Accumulate

variable {R : Type}

def starts (n step : Nat) : List Nat := (List.range ((n + step - 1) / step)).map (· * step)

/-- A loop whose body works on a memory; an access that is not defined ends it. -/
def loop (values : List Nat) (body : Nat → List R → Option (List R)) (cs : List R) :
    Option (List R) :=
  values.foldlM (fun cs i ↦ body i cs) cs

def put (cs : List R) (i : Nat) (v : R) : Option (List R) :=
  if i < cs.length then some (cs.set i v) else none

section Writes

variable {cs : List R}

theorem loop_congr {values : List Nat} {body body' : Nat → List R → Option (List R)}
    (h : ∀ i ∈ values, body i = body' i) : loop values body = loop values body' := by
  funext cs
  induction values generalizing cs with
  | nil => rfl
  | cons i values ih =>
    rw [loop, loop, List.foldlM_cons, List.foldlM_cons, h i (by simp)]
    congr 1
    funext cs
    exact ih (fun i hi ↦ h i (by simp [hi])) cs

theorem loop_range_succ (n : Nat) (body : Nat → List R → Option (List R)) (cs : List R) :
    loop (List.range (n + 1)) body cs = (loop (List.range n) body cs).bind (body n) := by
  simp only [loop, List.range_succ, List.foldlM_append, List.foldlM_cons, List.foldlM_nil]
  simp

theorem mapM_range {n : Nat} {g : Nat → Option R} {v : Nat → R} (h : ∀ i < n, g i = some (v i)) :
    (List.range n).mapM g = some ((List.range n).map v) := by
  induction n with
  | zero => rfl
  | succ n ih =>
    rw [List.range_succ, List.mapM_append, ih (fun i hi ↦ h i (by omega))]
    simp [h n (by omega)]

theorem mem_mapM {α β : Type} {f : α → Option β} {l : List α} {ys : List β} {y : β}
    (h : l.mapM f = some ys) (hy : y ∈ ys) : ∃ x ∈ l, f x = some y := by
  induction l generalizing ys with
  | nil =>
    obtain rfl := Option.some.inj h
    cases hy
  | cons a l ih =>
    rw [List.mapM_cons] at h
    obtain ⟨b, hb, h⟩ := Option.bind_eq_some_iff.mp h
    obtain ⟨bs, hbs, h⟩ := Option.bind_eq_some_iff.mp h
    obtain rfl := Option.some.inj h
    rcases List.mem_cons.mp hy with rfl | hy
    · exact ⟨a, by simp, hb⟩
    · obtain ⟨x, hx, hfx⟩ := ih hbs hy
      exact ⟨x, by simp [hx], hfx⟩

theorem mapM_range_none {n i : Nat} {g : Nat → Option R} (hi : i < n) (h : g i = none) :
    (List.range n).mapM g = none := by
  induction n with
  | zero => omega
  | succ n ih =>
    rw [List.range_succ, List.mapM_append]
    by_cases he : i = n
    · subst he
      simp [h]
    · rw [ih (by omega)]
      rfl

def Filled (cols : Nat) (w : Nat → Nat → R) (rows : Nat) (cs : List R) : Prop :=
  ∀ r < rows, ∀ c < cols, cs[r * cols + c]? = some (w r c)

theorem cell_lt {m n r c : Nat} (hr : r < m) (hc : c < n) : r * n + c < m * n := by
  calc r * n + c < r * n + n := by omega
    _ = (r + 1) * n := by rw [Nat.succ_mul]
    _ ≤ m * n := Nat.mul_le_mul_right _ hr

theorem cell_coordinates {cols c : Nat} (hc : c < cols) (r : Nat) :
    (r * cols + c) / cols = r ∧ (r * cols + c) % cols = c := by
  rw [Nat.mul_comm, Nat.mul_add_div (by omega), Nat.div_eq_of_lt hc, Nat.mul_add_mod,
    Nat.mod_eq_of_lt hc]
  exact ⟨rfl, rfl⟩

theorem cell_inj {cols r r' c c' : Nat} (hc : c < cols) (hc' : c' < cols)
    (h : r * cols + c = r' * cols + c') : r = r' ∧ c = c' := by
  have hdiv := congrArg (· / cols) h
  have hmod := congrArg (· % cols) h
  simp only [cell_coordinates hc, cell_coordinates hc'] at hdiv hmod
  exact ⟨hdiv, hmod⟩

theorem loop_put_row {cols r : Nat} {w : Nat → Nat → R} (hfit : (r + 1) * cols ≤ cs.length)
    (h : Filled cols w r cs) :
    ∃ cs', loop (List.range cols) (fun c cs ↦ put cs (r * cols + c) (w r c)) cs = some cs' ∧
      cs'.length = cs.length ∧ Filled cols w (r + 1) cs' := by
  have hpre (n : Nat) (hn : n ≤ cols) :
      ∃ cs', loop (List.range n) (fun c cs ↦ put cs (r * cols + c) (w r c)) cs = some cs' ∧
        cs'.length = cs.length ∧ Filled cols w r cs' ∧
        ∀ c < n, cs'[r * cols + c]? = some (w r c) := by
    induction n with
    | zero => exact ⟨cs, rfl, rfl, h, fun c hc ↦ by omega⟩
    | succ n ih =>
      obtain ⟨cs', hloop, hlen, hfilled, hrow⟩ := ih (by omega)
      have hlt : r * cols + n < cs'.length := by
        rw [Nat.succ_mul] at hfit
        omega
      refine ⟨cs'.set (r * cols + n) (w r n), ?_, by simpa using hlen, ?_, ?_⟩
      · rw [loop_range_succ, hloop, Option.bind_some, put, if_pos hlt]
      · intro r' hr' c hc
        have hne : r * cols + n ≠ r' * cols + c := by
          intro he
          have heq := (cell_inj (by omega) hc he).1
          omega
        rw [List.getElem?_set_ne hne]
        exact hfilled r' hr' c hc
      · intro c hc
        by_cases he : c = n
        · rw [he, List.getElem?_set_self hlt]
        · rw [List.getElem?_set_ne (by omega)]
          exact hrow c (by omega)
  obtain ⟨cs', hloop, hlen, hfilled, hrow⟩ := hpre cols le_rfl
  refine ⟨cs', hloop, hlen, fun r' hr' c hc ↦ ?_⟩
  rcases Nat.lt_succ_iff_lt_or_eq.mp hr' with hr' | rfl
  · exact hfilled r' hr' c hc
  · exact hrow c hc

/-- A grid filled row by row holds what was written to its cells. -/
theorem loop_put_grid {rows cols : Nat} {w : Nat → Nat → R} (hfit : rows * cols ≤ cs.length) :
    ∃ cs', loop (List.range rows) (fun r ↦
        loop (List.range cols) (fun c cs ↦ put cs (r * cols + c) (w r c))) cs = some cs' ∧
      cs'.length = cs.length ∧ Filled cols w rows cs' := by
  induction rows with
  | zero => exact ⟨cs, rfl, rfl, fun r hr ↦ by omega⟩
  | succ rows ih =>
    have hle : rows * cols ≤ (rows + 1) * cols := Nat.mul_le_mul_right _ (Nat.le_succ _)
    obtain ⟨cs', hloop, hlen, hfilled⟩ := ih (hle.trans hfit)
    obtain ⟨cs'', hrow, hlen', hfilled'⟩ := loop_put_row (hfit.trans_eq hlen.symm) hfilled
    refine ⟨cs'', ?_, hlen'.trans hlen, hfilled'⟩
    rw [loop_range_succ, hloop]
    exact hrow

end Writes

section Sums

variable [AddCommMonoid R]

theorem sum_blocks {n step : Nat} (hstep : 0 < step) (h : Nat → R) :
    ∑ b ∈ Finset.range ((n + step - 1) / step),
      ∑ t ∈ Finset.range (min step (n - b * step)), h (b * step + t) =
        ∑ t ∈ Finset.range n, h t := by
  have hpre (blocks : Nat) : ∑ b ∈ Finset.range blocks,
      ∑ t ∈ Finset.range (min step (n - b * step)), h (b * step + t) =
        ∑ t ∈ Finset.range (min (blocks * step) n), h t := by
    induction blocks with
    | zero => simp
    | succ blocks ih =>
      rw [Finset.sum_range_succ, ih, Nat.succ_mul]
      rcases Nat.lt_or_ge (blocks * step) n with hlt | hge
      · rw [min_eq_left hlt.le, ← Finset.sum_range_add]
        congr 2
        omega
      · have hnone : n - blocks * step = 0 := by omega
        rw [hnone, Nat.min_zero, Finset.sum_range_zero, add_zero]
        congr 2
        omega
  rw [hpre]
  congr 2
  have hmul := Nat.div_add_mod (n + step - 1) step
  have hmod := Nat.mod_lt (n + step - 1) hstep
  rw [Nat.mul_comm]
  omega

theorem sum_grid {rows cols stride : Nat} (hcols : cols ≤ stride) {r c : Nat} (hr : r < rows)
    (hc : c < cols) (v : Nat → Nat → R) :
    ∑ p ∈ Finset.range rows, ∑ q ∈ Finset.range cols,
      (if r * stride + c = p * stride + q then v p q else 0) = v r c := by
  have hrow (p : Nat) : ∑ q ∈ Finset.range cols,
      (if r * stride + c = p * stride + q then v p q else 0) = if p = r then v p c else 0 := by
    rw [Finset.sum_eq_single c]
    · by_cases he : p = r
      · rw [he, if_pos rfl, if_pos rfl]
      · rw [if_neg he, if_neg]
        exact fun h ↦ he (cell_inj (hc.trans_le hcols) (hc.trans_le hcols) h).1.symm
    · intro q hq hne
      refine if_neg (fun h ↦ hne ?_)
      exact (cell_inj (hc.trans_le hcols) ((Finset.mem_range.mp hq).trans_le hcols) h).2.symm
    · exact fun hnot ↦ absurd (Finset.mem_range.mpr hc) hnot
  simp only [hrow]
  rw [Finset.sum_ite_eq', if_pos (Finset.mem_range.mpr hr)]

end Sums

section Adding

def plus [Add R] (cs : List R) (g : Nat → R) : List R := cs.mapIdx (fun x c ↦ c + g x)

/-- A step that adds to the cells of a memory, whatever they hold. -/
def Adds [Add R] (len : Nat) (step : List R → Option (List R)) (g : Nat → R) : Prop :=
  ∀ cs, cs.length = len → step cs = some (plus cs g)

@[simp] theorem length_plus [Add R] {cs : List R} {g : Nat → R} : (plus cs g).length = cs.length :=
  List.length_mapIdx

theorem getElem?_plus [Add R] {cs : List R} {g : Nat → R} {x : Nat} :
    (plus cs g)[x]? = cs[x]?.map (· + g x) := List.getElem?_mapIdx

variable [AddCommMonoid R] {len n step : Nat} {body : Nat → List R → Option (List R)}
  {f : List R → Option (List R)} {g g' : Nat → R}

theorem plus_zero (cs : List R) : plus cs (fun _ ↦ 0) = cs := by
  refine List.ext_getElem? (fun x ↦ ?_)
  rw [getElem?_plus]
  cases cs[x]? with
  | none => rfl
  | some c => rw [Option.map_some, add_zero]

theorem plus_plus (cs : List R) : plus (plus cs g) g' = plus cs (fun x ↦ g x + g' x) := by
  refine List.ext_getElem? (fun x ↦ ?_)
  rw [getElem?_plus, getElem?_plus, getElem?_plus]
  cases cs[x]? with
  | none => rfl
  | some c => rw [Option.map_some, Option.map_some, Option.map_some, add_assoc]

theorem Adds.congr (h : Adds len f g) (he : ∀ x < len, g x = g' x) : Adds len f g' := by
  intro cs hcs
  rw [h cs hcs]
  congr 1
  refine List.ext_getElem? (fun x ↦ ?_)
  rw [getElem?_plus, getElem?_plus]
  rcases Nat.lt_or_ge x len with hx | hx
  · rw [he x hx]
  · rw [List.getElem?_eq_none (by omega)]
    rfl

theorem Adds.bind {f' : List R → Option (List R)} (h : Adds len f g) (h' : Adds len f' g') :
    Adds len (fun cs ↦ (f cs).bind f') (fun x ↦ g x + g' x) := by
  intro cs hcs
  dsimp only
  rw [h cs hcs, Option.bind_some, h' _ (length_plus.trans hcs), plus_plus]

theorem Adds.loop_range {g : Nat → Nat → R} (h : ∀ i < n, Adds len (body i) (g i)) :
    Adds len (loop (List.range n) body) (fun x ↦ ∑ i ∈ Finset.range n, g i x) := by
  induction n with
  | zero =>
    intro cs _
    simp only [Finset.range_zero, Finset.sum_empty, plus_zero]
    rfl
  | succ n ih =>
    simp only [Finset.sum_range_succ]
    have hstep := (ih (fun i hi ↦ h i (by omega))).bind (h n (by omega))
    intro cs hcs
    rw [loop_range_succ]
    exact hstep cs hcs

/-- A loop in blocks adds what a loop one by one would add. -/
theorem Adds.loop_blocks {g : Nat → Nat → R} (hstep : 0 < step)
    (h : ∀ i, i * step < n → Adds len (body (i * step))
      (fun x ↦ ∑ t ∈ Finset.range (min step (n - i * step)), g (i * step + t) x)) :
    Adds len (loop (starts n step) body) (fun x ↦ ∑ t ∈ Finset.range n, g t x) := by
  have hblocks : Adds len (loop (List.range ((n + step - 1) / step)) (fun i ↦ body (i * step)))
      (fun x ↦ ∑ i ∈ Finset.range ((n + step - 1) / step),
        ∑ t ∈ Finset.range (min step (n - i * step)), g (i * step + t) x) := by
    refine Adds.loop_range (fun i hi ↦ h i ?_)
    rw [Nat.lt_div_iff_mul_lt hstep] at hi
    omega
  intro cs hcs
  rw [starts, loop, List.foldlM_map]
  exact hblocks.congr (fun x _ ↦ sum_blocks hstep (fun t ↦ g t x)) cs hcs

def box (E : Nat → Nat → Nat → Nat → R) (i m j n s k x : Nat) : R :=
  ∑ p ∈ Finset.range m, ∑ q ∈ Finset.range n, ∑ t ∈ Finset.range k, E (i + p) (j + q) (s + t) x

variable {E : Nat → Nat → Nat → Nat → R} {i m j s k : Nat}

theorem Adds.box_rows (hstep : 0 < step) (h : ∀ b, b * step < m → Adds len (body (b * step))
      (box E (i + b * step) (min step (m - b * step)) j n s k)) :
    Adds len (loop (starts m step) body) (box E i m j n s k) := by
  refine Adds.loop_blocks hstep (fun b hb ↦ (h b hb).congr (fun x _ ↦ ?_))
  simp only [box, Nat.add_assoc]

theorem Adds.box_columns (hstep : 0 < step) (h : ∀ b, b * step < n → Adds len (body (b * step))
      (box E i m (j + b * step) (min step (n - b * step)) s k)) :
    Adds len (loop (starts n step) body) (box E i m j n s k) := by
  have hloop : Adds len (loop (starts n step) body) (fun x ↦ ∑ q ∈ Finset.range n,
      ∑ p ∈ Finset.range m, ∑ t ∈ Finset.range k, E (i + p) (j + q) (s + t) x) := by
    refine Adds.loop_blocks hstep (fun b hb ↦ (h b hb).congr (fun x _ ↦ ?_))
    simp only [box, Nat.add_assoc]
    exact Finset.sum_comm
  exact hloop.congr (fun x _ ↦ Finset.sum_comm)

theorem Adds.box_depth (hstep : 0 < step) (h : ∀ b, b * step < k → Adds len (body (b * step))
      (box E i m j n (s + b * step) (min step (k - b * step)))) :
    Adds len (loop (starts k step) body) (box E i m j n s k) := by
  have hcomm (r : Nat) (e : Nat → Nat → Nat → R) :
      ∑ p ∈ Finset.range m, ∑ q ∈ Finset.range n, ∑ t ∈ Finset.range r, e p q t =
        ∑ t ∈ Finset.range r, ∑ p ∈ Finset.range m, ∑ q ∈ Finset.range n, e p q t := by
    rw [Finset.sum_congr rfl (fun p _ ↦ Finset.sum_comm)]
    exact Finset.sum_comm
  have hloop : Adds len (loop (starts k step) body) (fun x ↦ ∑ t ∈ Finset.range k,
      ∑ p ∈ Finset.range m, ∑ q ∈ Finset.range n, E (i + p) (j + q) (s + t) x) := by
    refine Adds.loop_blocks hstep (fun b hb ↦ (h b hb).congr (fun x _ ↦ ?_))
    simp only [box, Nat.add_assoc]
    exact hcomm _ _
  exact hloop.congr (fun x _ ↦ (hcomm _ _).symm)

end Adding

end Cerberus.Foundation.Accumulate
