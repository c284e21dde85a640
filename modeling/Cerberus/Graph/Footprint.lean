import Cerberus.Graph.FusedKernel
import Cerberus.Graph.Runtime

namespace Cerberus.Graph

open Foundation.Bytes

variable {F : Type}

def Pointer.size : Pointer F → Nat
  | .null => 0
  | .block cells => cells.length

/-- A kernel refuses before it touches a buffer, or it stays inside the buffers and fills the
output without moving its end, or it leaves them. -/
structure Guarded (accepts fits : Prop) (size : Nat) (x : Written F) : Prop where
  refuses : ¬accepts → x ≠ .undefined ∧ x.succeeds = false
  writes : accepts → fits → ∃ cells, x = .ok cells ∧ cells.length = size
  strays : accepts → ¬fits → x = .undefined

namespace KernelNode

/-- How many inputs the kernel of a node takes without asking. -/
def operands (n : KernelNode F) : Nat :=
  match n.op with
  | .matMul | .conv | .fusedMatMulBiasRelu => 2
  | .add | .mul => if n.inputs.length = 1 ∧ n.floatAttrs ≠ [] then 1 else 2
  | .relu | .sigmoid | .gelu | .softmax | .layerNorm => 1
  | _ => 0

def Quantized (n : KernelNode F) : Prop :=
  n.quantProfile.weightBits = 4 ∨ n.quantProfile.weightGranularity = .perBlock

instance (n : KernelNode F) : Decidable n.Quantized :=
  inferInstanceAs (Decidable (_ ∨ _))

def pixels (n : KernelNode F) : Nat :=
  (n.attr 0 1 - n.attr 3 1 + 1) % 2 ^ 64 * ((n.attr 1 1 - n.attr 4 1 + 1) % 2 ^ 64)

def filter (n : KernelNode F) : Nat := n.attr 3 1 * n.attr 4 1 * n.attr 2 1

def readCounts (n : KernelNode F) : List Nat :=
  match n.op with
  | .matMul =>
    [n.attr 0 1 * n.attr 2 1,
      if n.Quantized then (n.attr 2 1 * n.attr 1 1 % 2 ^ 64 + 3) / 4 else n.attr 2 1 * n.attr 1 1]
  | .fusedMatMulBiasRelu => [n.attr 0 1 * n.attr 2 1, n.attr 2 1 * n.attr 1 1]
  | .add | .mul => [n.attr 0 4, n.attr 0 4]
  | .relu | .sigmoid | .gelu => [n.attr 0 4]
  | .softmax | .layerNorm => [n.attr 0 1 * n.attr 1 1]
  | .conv =>
    [if n.filter * n.attr 5 1 = 0 then 0 else n.attr 0 1 * n.attr 1 1 * n.attr 2 1,
      n.filter * n.attr 5 1, if n.pixels = 0 then 0 else n.attr 5 1]
  | _ => []

def writeCount (n : KernelNode F) : Nat :=
  match n.op with
  | .matMul | .fusedMatMulBiasRelu | .softmax | .layerNorm => n.attr 0 1 * n.attr 1 1
  | .add | .mul | .relu | .sigmoid | .gelu => n.attr 0 4
  | .conv =>
    if n.inputs.length ≤ 2 ∧ n.filter = 0 then n.pixels * n.attr 5 1 % 2 ^ 64
    else n.pixels * n.attr 5 1
  | _ => 0

/-- The constants of a node are as long as its kernel reads them; no row without elements has a
largest one; and the unpacked weights can be counted. -/
def OwnDataFits (n : KernelNode F) : Prop :=
  match n.op with
  | .matMul => n.Quantized → n.attr 2 1 * n.attr 1 1 < 2 ^ 64
  | .fusedMatMulBiasRelu => n.floatAttrs = [] ∨ n.attr 1 1 ≤ n.floatAttrs.length
  | .add | .mul =>
    n.inputs.length = 1 → n.floatAttrs ≠ [] → n.attr 0 4 ≤ n.floatAttrs.length
  | .softmax => n.attr 0 1 = 0 ∨ n.attr 1 1 ≠ 0
  | _ => True

def Accepted (f : Floats F) (n : KernelNode F) : Prop :=
  match n.op with
  | .matMul => n.attr 0 1 ≠ 0 ∧ n.attr 1 1 ≠ 0 ∧ n.attr 2 1 ≠ 0 ∧
    (n.Quantized → f.vector (n.attr 2 1 * n.attr 1 1 % 2 ^ 64) ∧
      n.attr 2 1 * n.attr 1 1 % 2 ^ 64 ≠ 0)
  | .fusedMatMulBiasRelu => n.attr 0 1 ≠ 0 ∧ n.attr 1 1 ≠ 0 ∧ n.attr 2 1 ≠ 0
  | .conv => n.attr 3 1 ≤ n.attr 0 1 ∧ n.attr 4 1 ≤ n.attr 1 1
  | .add | .mul | .relu | .sigmoid | .gelu | .softmax | .layerNorm => True
  | _ => False

structure FitsIn (n : KernelNode F) (sizes : List Nat) (size : Nat) : Prop where
  own : n.OwnDataFits
  reads : ∀ e ∈ n.readCounts.zip sizes, e.1 ≤ e.2
  write : n.writeCount ≤ size

end KernelNode

section

variable {accepts accepts' fits fits' : Prop} {size : Nat} {x : Written F}

theorem Guarded.congr (h : Guarded accepts fits size x) (ha : accepts ↔ accepts')
    (hf : accepts → (fits ↔ fits')) : Guarded accepts' fits' size x where
  refuses hno := h.refuses (fun hyes ↦ hno (ha.mp hyes))
  writes hyes hfits := h.writes (ha.mpr hyes) ((hf (ha.mpr hyes)).mpr hfits)
  strays hyes hnot := h.strays (ha.mpr hyes) (fun hfits ↦ hnot ((hf (ha.mpr hyes)).mp hfits))

theorem Guarded.failed {error : ByteString} (h : ¬accepts) :
    Guarded accepts fits size (.failed error : Written F) where
  refuses _ := ⟨by simp, rfl⟩
  writes hyes := absurd hyes h
  strays hyes := absurd hyes h

theorem Guarded.threw (h : ¬accepts) : Guarded accepts fits size (.threw : Written F) where
  refuses _ := ⟨by simp, rfl⟩
  writes hyes := absurd hyes h
  strays hyes := absurd hyes h

theorem Guarded.undefined (h : accepts) (hnot : ¬fits) :
    Guarded accepts fits size (.undefined : Written F) where
  refuses hno := absurd h hno
  writes _ hfits := absurd hfits hnot
  strays _ _ := rfl

theorem Guarded.ok {cells : List F} (h : accepts) (hfits : fits) (hsize : cells.length = size) :
    Guarded accepts fits size (.ok cells) where
  refuses hno := absurd h hno
  writes _ _ := ⟨cells, rfl, hsize⟩
  strays _ hnot := absurd hfits hnot

theorem guarded_store {values out : List F} [Decidable fits]
    (h : fits → values.length ≤ out.length) :
    Guarded True fits out.length (if fits then .ok (store values out) else .undefined) := by
  split
  · rename_i hfits
    exact .ok trivial hfits (length_store (h hfits))
  · rename_i hnot
    exact .undefined trivial hnot

theorem Guarded.checked {refused strays : Prop} [Decidable refused] [Decidable strays]
    {error : ByteString} (h : Guarded True fits size x) :
    Guarded (¬refused) (¬strays ∧ fits) size
      (if refused then .failed error else if strays then .undefined else x) := by
  split
  · rename_i hrefused
    exact .failed (by simpa using hrefused)
  · rename_i haccepted
    split
    · rename_i hstrays
      exact .undefined haccepted (fun hfits ↦ hfits.1 hstrays)
    · rename_i hstays
      exact h.congr (by simpa using haccepted) (fun _ ↦ by simp [hstays])

theorem Guarded.bind {g : List F → Written F} (h : Guarded accepts fits size x)
    (hg : ∀ cells : List F, accepts → fits → cells.length = size →
      Guarded True fits' size (g cells)) :
    Guarded accepts (fits ∧ fits') size (x.bind g) where
  refuses hno := by
    obtain ⟨hdefined, hfails⟩ := h.refuses hno
    cases x with
    | ok cells => simp [Outcome.succeeds] at hfails
    | failed error => exact ⟨by simp [Outcome.bind], rfl⟩
    | undefined => exact absurd rfl hdefined
    | threw => exact ⟨by simp [Outcome.bind], rfl⟩
  writes hyes hfits := by
    obtain ⟨cells, rfl, hsize⟩ := h.writes hyes hfits.1
    exact (hg cells hyes hfits.1 hsize).writes trivial hfits.2
  strays hyes hnot := by
    by_cases hfits : fits
    · obtain ⟨cells, rfl, hsize⟩ := h.writes hyes hfits
      exact (hg cells hyes hfits hsize).strays trivial (fun hfits' ↦ hnot ⟨hfits, hfits'⟩)
    · rw [h.strays hyes hfits]
      rfl

theorem guarded_onBlocks {a b : List F} {out : Pointer F}
    {kernel : List F → List F → List F → Written F} (fits : Nat → Prop)
    (h : ∀ c, Guarded accepts (fits c.length) c.length (kernel a b c)) :
    Guarded (out.isNull = false ∧ accepts) (fits out.size) out.size
      (onBlocks (.block a) (.block b) out kernel) := by
  cases out with
  | null => exact .failed (by simp [Pointer.isNull])
  | block c => exact (h c).congr (by simp [Pointer.isNull]) (fun _ ↦ Iff.rfl)

end

theorem exists_cons_cons {α : Type} {l : List α} (h : 2 ≤ l.length) :
    ∃ a b rest, l = a :: b :: rest := by
  cases l with
  | nil => simp at h
  | cons a l =>
    have hpos : 0 < l.length := Nat.le_of_succ_le_succ h
    obtain ⟨b, rest, rfl⟩ := List.exists_cons_of_length_pos hpos
    exact ⟨a, b, rest, rfl⟩

namespace Floats

variable (f : Floats F) {a b : List F} {out : Pointer F} {m n k : Nat}

theorem kernelMatmul_guarded :
    Guarded (out.isNull = false ∧ m ≠ 0 ∧ n ≠ 0 ∧ k ≠ 0)
      (m * k ≤ a.length ∧ k * n ≤ b.length ∧ m * n ≤ out.size) out.size
      (f.kernelMatmul (.block a) (.block b) out m n k) := by
  refine guarded_onBlocks (fun size ↦ m * k ≤ a.length ∧ k * n ≤ b.length ∧ m * n ≤ size)
    (fun c ↦ ?_)
  split
  · rename_i hempty
    exact .failed (by omega)
  · rename_i hfull
    exact (guarded_store (fun h ↦ by simpa using h.2.2)).congr (by simp; omega) (fun _ ↦ Iff.rfl)

theorem kernelMatmulIq4NlBlock_guarded :
    Guarded (out.isNull = false ∧ m ≠ 0 ∧ n ≠ 0 ∧ k ≠ 0 ∧ f.vector (k * n % 2 ^ 64) ∧
        k * n % 2 ^ 64 ≠ 0)
      (k * n < 2 ^ 64 ∧ m * k ≤ a.length ∧ (k * n % 2 ^ 64 + 3) / 4 ≤ b.length ∧ m * n ≤ out.size)
      out.size (f.kernelMatmulIq4NlBlock (.block a) (.block b) out m n k) := by
  refine guarded_onBlocks (fun size ↦ k * n < 2 ^ 64 ∧ m * k ≤ a.length ∧
    (k * n % 2 ^ 64 + 3) / 4 ≤ b.length ∧ m * n ≤ size) (fun c ↦ ?_)
  dsimp only
  split
  case isTrue hempty => exact .failed (by omega)
  case isFalse hfull =>
    split
    case isTrue hnone => exact .threw (by simp_all)
    case isFalse hvector =>
      by_cases hcount : k * n % 2 ^ 64 = 0
      · rw [if_neg (by omega), if_pos hcount]
        exact .failed (fun h ↦ h.2.2.2.2 hcount)
      · have haccepts : m ≠ 0 ∧ n ≠ 0 ∧ k ≠ 0 ∧ f.vector (k * n % 2 ^ 64) ∧ k * n % 2 ^ 64 ≠ 0 :=
          ⟨by omega, by omega, by omega, by simpa using hvector, hcount⟩
        rw [if_neg hcount]
        split
        case isTrue hshort => exact .undefined haccepts (by omega)
        case isFalse hlong =>
          have h : Guarded _ _ _ (f.kernelMatmul (.block a)
              (.block ((List.range (k * n % 2 ^ 64)).map (f.blockWeight b))) (.block c) m n k) :=
            f.kernelMatmul_guarded
          refine h.congr ?_ (fun _ ↦ ?_)
          · exact ⟨fun _ ↦ haccepts, fun h ↦ ⟨rfl, h.1, h.2.1, h.2.2.1⟩⟩
          · have hmod : k * n ≤ k * n % 2 ^ 64 ↔ k * n < 2 ^ 64 := by omega
            rw [List.length_map, List.length_range, hmod, Pointer.size]
            omega

theorem kernelZip_guarded (g : F → F → F) :
    Guarded (out.isNull = false) (n ≤ a.length ∧ n ≤ b.length ∧ n ≤ out.size) out.size
      (kernelZip g (.block a) (.block b) out n) := by
  have h : Guarded (out.isNull = false ∧ True) _ out.size
      (kernelZip g (.block a) (.block b) out n) :=
    guarded_onBlocks (fun size ↦ n ≤ a.length ∧ n ≤ b.length ∧ n ≤ size)
      (fun c ↦ guarded_store (fun h ↦ by simp; omega))
  simpa only [and_true] using h

theorem kernelMap_guarded (g : F → F) :
    Guarded (out.isNull = false) (n ≤ a.length ∧ n ≤ out.size) out.size
      (kernelMap g (.block a) out n) := by
  have h : Guarded (out.isNull = false ∧ True) _ out.size (kernelMap g (.block a) out n) :=
    guarded_onBlocks (fun size ↦ n ≤ a.length ∧ n ≤ size)
      (fun c ↦ guarded_store (fun h ↦ by simp; omega))
  simpa only [and_true] using h

theorem kernelRows_guarded {g : List F → List F} (hg : ∀ row, (g row).length = row.length) :
    Guarded (out.isNull = false) (m * n ≤ a.length ∧ m * n ≤ out.size) out.size
      (kernelRows g (.block a) out m n) := by
  have hlen (rows : Nat) :
      ((List.range rows).flatMap (fun r ↦ g ((a.drop (r * n)).take n))).length ≤ rows * n := by
    rw [List.length_flatMap]
    refine (List.sum_le_card_nsmul _ n (fun x hx ↦ ?_)).trans (by simp)
    obtain ⟨r, -, rfl⟩ := List.mem_map.mp hx
    rw [hg, List.length_take]
    exact Nat.min_le_left _ _
  have h : Guarded (out.isNull = false ∧ True) _ out.size (kernelRows g (.block a) out m n) :=
    guarded_onBlocks (fun size ↦ m * n ≤ a.length ∧ m * n ≤ size)
      (fun c ↦ guarded_store (fun h ↦ (hlen m).trans h.2))
  simpa only [and_true] using h

theorem kernelSoftmax_guarded :
    Guarded (out.isNull = false) ((m = 0 ∨ n ≠ 0) ∧ m * n ≤ a.length ∧ m * n ≤ out.size) out.size
      (f.kernelSoftmax (.block a) out m n) := by
  rw [kernelSoftmax]
  split
  · rename_i hempty
    have h : Guarded (out.isNull = false ∧ True) False out.size
        (onBlocks (.block a) (.block a) out (fun _ _ _ ↦ .undefined)) :=
      guarded_onBlocks (fun _ ↦ False) (fun c ↦ .undefined trivial id)
    refine h.congr (by simp) (fun _ ↦ ?_)
    simp [hempty.1, hempty.2]
  · rename_i hfull
    have hrow (row : List F) : (f.softmaxRow row).length = row.length := by simp [softmaxRow]
    exact (kernelRows_guarded hrow).congr Iff.rfl (fun _ ↦ by omega)

theorem kernelLayernorm_guarded :
    Guarded (out.isNull = false) (m * n ≤ a.length ∧ m * n ≤ out.size) out.size
      (f.kernelLayernorm (.block a) out m n) :=
  kernelRows_guarded (fun row ↦ by simp [layernormRow])

section

variable {c oc h w kh kw : Nat}

theorem kernelConv2d_guarded :
    Guarded (out.isNull = false ∧ kh ≤ h ∧ kw ≤ w)
      ((kh * kw * c * oc = 0 ∨ h * w * c ≤ a.length ∧ kh * kw * c * oc ≤ b.length) ∧
        (if kh * kw * c = 0 then (h - kh + 1) % 2 ^ 64 * ((w - kw + 1) % 2 ^ 64) * oc % 2 ^ 64
          else (h - kh + 1) % 2 ^ 64 * ((w - kw + 1) % 2 ^ 64) * oc) ≤ out.size) out.size
      (f.kernelConv2d (.block a) (.block b) .null out h w c kh kw oc) := by
  refine guarded_onBlocks (fun size ↦
    (kh * kw * c * oc = 0 ∨ h * w * c ≤ a.length ∧ kh * kw * c * oc ≤ b.length) ∧
      (if kh * kw * c = 0 then (h - kh + 1) % 2 ^ 64 * ((w - kw + 1) % 2 ^ 64) * oc % 2 ^ 64
        else (h - kh + 1) % 2 ^ 64 * ((w - kw + 1) % 2 ^ 64) * oc) ≤ size) (fun cells ↦ ?_)
  refine (guarded_store (fun h ↦ ?_)).checked.congr (by omega) (fun _ ↦ and_congr_left' (by omega))
  simpa using h

theorem kernelConv2d_bias_guarded {bias : List F} :
    Guarded (out.isNull = false ∧ kh ≤ h ∧ kw ≤ w)
      ((kh * kw * c * oc = 0 ∨ h * w * c ≤ a.length ∧ kh * kw * c * oc ≤ b.length) ∧
        ((h - kh + 1) % 2 ^ 64 * ((w - kw + 1) % 2 ^ 64) = 0 ∨ oc ≤ bias.length) ∧
        (h - kh + 1) % 2 ^ 64 * ((w - kw + 1) % 2 ^ 64) * oc ≤ out.size) out.size
      (f.kernelConv2d (.block a) (.block b) (.block bias) out h w c kh kw oc) := by
  refine guarded_onBlocks (fun size ↦
    (kh * kw * c * oc = 0 ∨ h * w * c ≤ a.length ∧ kh * kw * c * oc ≤ b.length) ∧
      ((h - kh + 1) % 2 ^ 64 * ((w - kw + 1) % 2 ^ 64) = 0 ∨ oc ≤ bias.length) ∧
      (h - kh + 1) % 2 ^ 64 * ((w - kw + 1) % 2 ^ 64) * oc ≤ size) (fun cells ↦ ?_)
  refine (guarded_store (fun h ↦ ?_)).checked.congr (by omega) (fun _ ↦ and_congr_left' (by omega))
  simpa using h.2

end

theorem dispatchFused_guarded {n : KernelNode F} :
    Guarded (out.isNull = false ∧ n.attr 0 1 ≠ 0 ∧ n.attr 1 1 ≠ 0 ∧ n.attr 2 1 ≠ 0)
      ((n.attr 0 1 * n.attr 2 1 ≤ a.length ∧ n.attr 2 1 * n.attr 1 1 ≤ b.length ∧
        n.attr 0 1 * n.attr 1 1 ≤ out.size) ∧
        (n.floatAttrs = [] ∨ n.attr 1 1 ≤ n.floatAttrs.length)) out.size
      (f.dispatchFused n (.block a) (.block b) out) := by
  refine f.kernelMatmul_guarded.bind (fun cells haccepts hfits hsize ↦ ?_)
  have hrow : n.attr 1 1 ≤ n.attr 0 1 * n.attr 1 1 := Nat.le_mul_of_pos_left _ (by omega)
  have hbias : Guarded True (n.floatAttrs = [] ∨ n.attr 1 1 ≤ n.floatAttrs.length) out.size
      (if n.floatAttrs.isEmpty then .ok cells
        else f.kernelAdd (.block cells) (.block n.floatAttrs) (.block cells) (n.attr 1 1)) := by
    split
    · rename_i hempty
      exact .ok trivial (.inl (by simpa using hempty)) hsize
    · rename_i hfull
      have h : Guarded _ _ _
          (f.kernelAdd (.block cells) (.block n.floatAttrs) (.block cells) (n.attr 1 1)) :=
        kernelZip_guarded f.add
      rw [← hsize]
      refine h.congr (by simp [Pointer.isNull]) (fun _ ↦ ?_)
      have hne : n.floatAttrs ≠ [] := by simpa using hfull
      simp only [hne, false_or, Pointer.size]
      omega
  have hrelu (cells : List F) (hsize : cells.length = out.size) : Guarded True True out.size
      (f.kernelRelu (.block cells) (.block cells) (n.attr 0 1 * n.attr 1 1)) := by
    have h : Guarded _ _ _
        (f.kernelRelu (.block cells) (.block cells) (n.attr 0 1 * n.attr 1 1)) :=
      kernelMap_guarded f.relu
    rw [← hsize]
    refine h.congr (by simp [Pointer.isNull]) (fun _ ↦ iff_true_intro ?_)
    rw [Pointer.size, hsize]
    exact ⟨hfits.2.2, hfits.2.2⟩
  exact (hbias.bind (fun cells _ _ hsize ↦ hrelu cells hsize)).congr Iff.rfl (by simp)

theorem dispatchZip_guarded {kernel : Pointer F → Pointer F → Pointer F → Nat → Written F}
    {g : F → F → F} (hkernel : kernel = kernelZip g) {n : KernelNode F} {ins : List (List F)}
    (hlen : ins.length = n.inputs.length)
    (hops : (if n.inputs.length = 1 ∧ n.floatAttrs ≠ [] then 1 else 2) ≤ n.inputs.length) :
    Guarded (out.isNull = false)
      ((n.inputs.length = 1 → n.floatAttrs ≠ [] → n.attr 0 4 ≤ n.floatAttrs.length) ∧
        (∀ e ∈ [n.attr 0 4, n.attr 0 4].zip (ins.map List.length), e.1 ≤ e.2) ∧
        n.attr 0 4 ≤ out.size) out.size
      (dispatchZip kernel n (ins.map .block) out) := by
  subst hkernel
  rw [dispatchZip, List.length_map, hlen]
  split
  · rename_i hconstant
    obtain ⟨a, rfl⟩ := List.length_eq_one_iff.mp (hlen.trans hconstant.1)
    refine (kernelZip_guarded g).congr Iff.rfl (fun _ ↦ ?_)
    simp [hconstant]
    tauto
  · rename_i hvariable
    rw [if_neg hvariable, ← hlen] at hops
    obtain ⟨a, b, rest, rfl⟩ := exists_cons_cons hops
    refine (kernelZip_guarded g).congr Iff.rfl (fun _ ↦ ?_)
    have hmany : n.inputs.length ≠ 1 := by rw [← hlen]; simp
    simp [hmany, and_assoc]

/-- The kernel of a node on inputs that are there: what it checks comes first, and then it stays
inside its buffers exactly where its element counts fit into them. -/
theorem dispatch_guarded {n : KernelNode F} {ins : List (List F)}
    (hlen : ins.length = n.inputs.length) (hops : n.operands ≤ n.inputs.length) :
    Guarded (out.isNull = false ∧ n.Accepted f) (n.FitsIn (ins.map List.length) out.size) out.size
      (f.dispatch n (ins.map .block) out) := by
  have hfits : n.FitsIn (ins.map List.length) out.size ↔ n.OwnDataFits ∧
      (∀ e ∈ n.readCounts.zip (ins.map List.length), e.1 ≤ e.2) ∧ n.writeCount ≤ out.size :=
    ⟨fun h ↦ ⟨h.own, h.reads, h.write⟩, fun h ↦ ⟨h.1, h.2.1, h.2.2⟩⟩
  have hone (h : 1 ≤ n.inputs.length) : ∃ a rest, ins = a :: rest :=
    List.exists_cons_of_length_pos (by omega)
  have htwo (h : 2 ≤ n.inputs.length) : ∃ a b rest, ins = a :: b :: rest :=
    exists_cons_cons (by omega)
  rw [hfits]
  unfold KernelNode.operands at hops
  unfold KernelNode.OwnDataFits KernelNode.readCounts KernelNode.writeCount KernelNode.Accepted
    dispatch
  cases hop : n.op <;> simp only [hop] at hops ⊢
  case matMul =>
    obtain ⟨a, b, rest, rfl⟩ := htwo hops
    change Guarded _ _ _ (if n.Quantized then
      f.kernelMatmulIq4NlBlock (.block a) (.block b) out (n.attr 0 1) (n.attr 1 1) (n.attr 2 1)
      else f.kernelMatmul (.block a) (.block b) out (n.attr 0 1) (n.attr 1 1) (n.attr 2 1))
    split
    · rename_i hquantized
      refine f.kernelMatmulIq4NlBlock_guarded.congr ?_ (fun _ ↦ ?_)
      · simp only [hquantized, forall_const]
      · simp [hquantized, and_assoc]
    · rename_i hfloats
      refine f.kernelMatmul_guarded.congr ?_ (fun _ ↦ ?_)
      · simp only [hfloats, false_implies, and_true]
      · simp [hfloats, and_assoc]
  case add =>
    exact (dispatchZip_guarded rfl hlen hops).congr (and_true _).symm.to_iff (fun _ ↦ Iff.rfl)
  case mul =>
    exact (dispatchZip_guarded rfl hlen hops).congr (and_true _).symm.to_iff (fun _ ↦ Iff.rfl)
  case relu =>
    obtain ⟨a, rest, rfl⟩ := hone hops
    exact (kernelMap_guarded f.relu).congr (by simp) (fun _ ↦ by simp)
  case sigmoid =>
    obtain ⟨a, rest, rfl⟩ := hone hops
    exact (kernelMap_guarded _).congr (by simp) (fun _ ↦ by simp)
  case gelu =>
    obtain ⟨a, rest, rfl⟩ := hone hops
    exact (kernelMap_guarded _).congr (by simp) (fun _ ↦ by simp)
  case softmax =>
    obtain ⟨a, rest, rfl⟩ := hone hops
    exact f.kernelSoftmax_guarded.congr (by simp) (fun _ ↦ by simp)
  case layerNorm =>
    obtain ⟨a, rest, rfl⟩ := hone hops
    exact f.kernelLayernorm_guarded.congr (by simp) (fun _ ↦ by simp)
  case conv =>
    obtain ⟨a, b, rest, rfl⟩ := htwo hops
    have hread : n.filter * n.attr 5 1 = 0 ∨ n.attr 0 1 * n.attr 1 1 * n.attr 2 1 ≤ a.length ∧
        n.filter * n.attr 5 1 ≤ b.length ↔
          (if n.filter * n.attr 5 1 = 0 then 0 else n.attr 0 1 * n.attr 1 1 * n.attr 2 1) ≤
            a.length ∧ n.filter * n.attr 5 1 ≤ b.length := by
      split <;> omega
    cases rest with
    | nil =>
      have hbias : n.inputs.length ≤ 2 := by rw [← hlen]; simp
      refine f.kernelConv2d_guarded.congr Iff.rfl (fun _ ↦ ?_)
      refine (and_congr_left' hread).trans ?_
      simp [hbias, and_assoc, KernelNode.filter, KernelNode.pixels]
    | cons bias rest =>
      have hbias : ¬n.inputs.length ≤ 2 := by rw [← hlen]; simp
      have hpixels : n.pixels = 0 ∨ n.attr 5 1 ≤ bias.length ↔
          (if n.pixels = 0 then 0 else n.attr 5 1) ≤ bias.length := by
        split <;> omega
      refine f.kernelConv2d_bias_guarded.congr Iff.rfl (fun _ ↦ ?_)
      refine (and_congr hread (and_congr_left' hpixels)).trans ?_
      simp [hbias, and_assoc, KernelNode.pixels]
  case fusedMatMulBiasRelu =>
    obtain ⟨a, b, rest, rfl⟩ := htwo hops
    refine f.dispatchFused_guarded.congr Iff.rfl (fun _ ↦ ?_)
    simp [and_assoc]
    tauto
  all_goals exact .failed (by simp)

theorem operands_missing {ins : List (Pointer F)} (g : Pointer F → Pointer F → Written F)
    (h : ins.length < 2) :
    (operand ins 0).bind (fun a ↦ (operand ins 1).bind (g a)) = .undefined := by
  cases ins with
  | nil => rfl
  | cons a ins =>
    rw [List.length_cons] at h
    obtain rfl : ins = [] := List.eq_nil_of_length_eq_zero (by omega)
    rfl

theorem dispatch_missing {n : KernelNode F} {ins : List (Pointer F)}
    (hlen : ins.length = n.inputs.length) (h : n.inputs.length < n.operands) :
    f.dispatch n ins out = .undefined := by
  have hnone (h : n.inputs.length < 1) : ins = [] := List.eq_nil_of_length_eq_zero (by omega)
  have hzip {kernel : Pointer F → Pointer F → Pointer F → Nat → Written F}
      (h : n.inputs.length < if n.inputs.length = 1 ∧ n.floatAttrs ≠ [] then 1 else 2) :
      dispatchZip kernel n ins out = .undefined := by
    have hvariable : ¬(n.inputs.length = 1 ∧ n.floatAttrs ≠ []) := fun hconstant ↦ by
      rw [if_pos hconstant] at h
      omega
    rw [if_neg hvariable, ← hlen] at h
    rw [dispatchZip, hlen, if_neg hvariable]
    exact operands_missing _ h
  unfold KernelNode.operands at h
  unfold dispatch
  cases hop : n.op <;> simp only [hop] at h ⊢
  case matMul => exact operands_missing _ (by omega)
  case add => exact hzip h
  case mul => exact hzip h
  case conv => exact operands_missing _ (by omega)
  case fusedMatMulBiasRelu => exact operands_missing _ (by omega)
  case relu => rw [hnone h]; rfl
  case sigmoid => rw [hnone h]; rfl
  case gelu => rw [hnone h]; rfl
  case softmax => rw [hnone h]; rfl
  case layerNorm => rw [hnone h]; rfl
  all_goals omega

end Floats

end Cerberus.Graph
