import Cerberus.Graph.Runtime
import Cerberus.Graph.BlockedKernels
import Cerberus.Graph.FusedKernel

namespace Cerberus.Graph

open Foundation.Bytes Foundation.Accumulate

/-- How many elements a tensor has; the dimensions are multiplied as `size_t`. -/
def GraphTensor.elems (t : GraphTensor) : UInt64 :=
  t.shape.foldl (fun elems d ↦ elems * UInt64.ofInt d) 1

/-- Two elements of a block type share a byte. -/
def GraphTensor.sizeBytes (t : GraphTensor) : UInt64 :=
  match t.dtype with
  | .iq4NlBlock | .q4KBlock => (t.elems + 1) / 2
  | dtype => t.elems * UInt64.ofNat dtype.bytes

namespace Floats

variable {F : Type} (f : Floats F)

def halfWeight (byte : UInt8) (i : Nat) : F :=
  let v : Int := if i % 2 = 1 then byte.toNat / 16 - 8 else byte.toNat % 16 - 8
  f.mul (f.ofInt v) f.blockScale

def unpackBlock (block : List UInt8) (count : Nat) : Outcome ByteString (List (Nat × F)) :=
  if !f.vector count then .threw
  else .ofAccess ((List.range count).mapM (fun i ↦ do
    let b ← block[i % count]?
    pure (i % count, f.halfWeight b i)))

/-- `kernel_matmul_iq4_nl_block`; the vector is null when it is empty. -/
def kernelMatmulBytes (a : Pointer F) (b : Pointer UInt8) (c : Pointer F) (m n k : Nat) :
    Written F :=
  match a, b, c with
  | .block a, .block b, .block c =>
    if m = 0 ∨ n = 0 ∨ k = 0 then .failed (lit "empty dimension")
    else (f.unpackBlock b (k * n % 2 ^ 64)).bind (fun weights ↦
      let bf := if weights.isEmpty then .null else .block (weights.map (fun w ↦ w.2))
      f.kernelMatmul (.block a) bf (.block c) m n k)
  | _, _, _ => .failed (lit "null pointer")

def bytesOf (cells : List F) : List UInt8 :=
  cells.flatMap (fun x ↦ (List.range 4).map (f.byte x))

variable {f} {block : List UInt8} {b : List F} {m n k count : Nat}

theorem getElem?_bytesOf {i : Nat} : (f.bytesOf b)[i]? =
    if i < 4 * b.length then some (f.byte (f.cell b (i / 4)) (i % 4)) else none := by
  induction b generalizing i with
  | nil => simp [bytesOf]
  | cons x b ih =>
    rw [bytesOf, List.flatMap_cons, List.getElem?_append]
    simp only [List.length_map, List.length_range, List.length_cons]
    split
    · rename_i hi
      have hdiv : i / 4 = 0 := by omega
      have hmod : i % 4 = i := by omega
      simp [hi, hdiv, hmod, cell]
      omega
    · rename_i hi
      obtain ⟨j, rfl⟩ := Nat.exists_eq_add_of_le' (Nat.le_of_not_lt hi)
      have hdiv : (j + 4) / 4 = j / 4 + 1 := by omega
      have hlt : j + 4 < 4 * (b.length + 1) ↔ j < 4 * b.length := by omega
      rw [Nat.add_sub_cancel, ← bytesOf, ih]
      simp only [hlt, hdiv, Nat.add_mod_right, cell, List.getD_cons_succ]

theorem length_bytesOf : (f.bytesOf b).length = 4 * b.length := by
  simp [bytesOf, Nat.mul_comm]

theorem unpackBlock_threw (hv : f.vector count = false) : f.unpackBlock block count = .threw := by
  rw [unpackBlock, hv]
  rfl

theorem unpackBlock_ok (hv : f.vector count = true) (h : count ≤ block.length) :
    f.unpackBlock block count =
      .ok ((List.range count).map (fun i ↦ (i, f.halfWeight (block.getD i 0) i))) := by
  have hread := mapM_range (n := count) (g := fun i ↦ do
    let b ← block[i % count]?
    pure (i % count, f.halfWeight b i)) (v := fun i ↦ (i, f.halfWeight (block.getD i 0) i))
    (fun i hi ↦ by
      have hlt : i < block.length := by omega
      simp [Nat.mod_eq_of_lt hi, hlt])
  rw [unpackBlock, hv, hread]
  rfl

theorem unpackBlock_undefined (hv : f.vector count = true) (h : block.length < count) :
    f.unpackBlock block count = .undefined := by
  have hread := mapM_range_none (g := fun i ↦ do
    let b ← block[i % count]?
    pure (i % count, f.halfWeight b i)) h (by simp [Nat.mod_eq_of_lt h])
  rw [unpackBlock, hv, hread]
  rfl

theorem kernelMatmulIq4NlBlock_eq (a : List F) (c : Pointer F) :
    f.kernelMatmulIq4NlBlock (.block a) (.block b) c m n k =
      f.kernelMatmulBytes (.block a) (.block (f.bytesOf b)) c m n k := by
  cases c with
  | null => rfl
  | block c =>
    rw [kernelMatmulIq4NlBlock, onBlocks, kernelMatmulBytes]
    dsimp only
    split
    · rfl
    generalize k * n % 2 ^ 64 = count
    by_cases hv : f.vector count = true
    · rw [if_neg (by simp [hv])]
      split
      · rename_i hshort
        rw [unpackBlock_undefined hv (by rwa [length_bytesOf])]
        rfl
      · rename_i hlong
        rw [unpackBlock_ok hv (by rw [length_bytesOf]; omega), Outcome.bind]
        congr 1
        by_cases hzero : count = 0
        · simp [hzero]
        · have hne : ¬((List.range count).map (fun i ↦
              (i, f.halfWeight ((f.bytesOf b).getD i 0) i))).isEmpty = true := by
            simpa using hzero
          rw [if_neg hzero, if_neg hne, List.map_map]
          congr 1
          refine List.map_congr_left (fun i hi ↦ ?_)
          have hi' : i < 4 * b.length := by
            rw [List.mem_range] at hi
            omega
          rw [Function.comp_apply, List.getD_eq_getElem?_getD, getElem?_bytesOf, if_pos hi']
          rfl
    · have hv' : f.vector count = false := by simpa using hv
      rw [hv', unpackBlock_threw hv']
      rfl

/-- The weights are read from the bytes of the tensor only, two of them from every byte. -/
def ReadsPacked (f : Floats F) (t : GraphTensor) (k n : Nat) : Prop :=
  ∀ block : List UInt8, t.sizeBytes.toNat ≤ block.length →
    f.unpackBlock block (k * n % 2 ^ 64) ≠ .undefined ∧
      ∀ weights, f.unpackBlock block (k * n % 2 ^ 64) = .ok weights → ∀ i < weights.length,
        ∃ byte b, byte < t.sizeBytes.toNat ∧ block[i / 2]? = some b ∧
          weights[i]? = some (byte, f.halfWeight b i)

section

variable {t : GraphTensor}

theorem sizeBytes_packed (ht : t.dtype = .iq4NlBlock) (he : t.elems = UInt64.ofNat (k * n)) :
    t.sizeBytes.toNat = (k * n % 2 ^ 64 + 1) % 2 ^ 64 / 2 := by
  rw [GraphTensor.sizeBytes, ht]
  dsimp only
  rw [he, UInt64.toNat_div, UInt64.toNat_add]
  rfl

theorem readsPacked_of_le (ht : t.dtype = .iq4NlBlock) (he : t.elems = UInt64.ofNat (k * n))
    (h : f.vector (k * n % 2 ^ 64) = false ∨ k * n % 2 ^ 64 ≤ 1) : f.ReadsPacked t k n := by
  intro block hblock
  rw [sizeBytes_packed ht he] at hblock ⊢
  generalize k * n % 2 ^ 64 = count at h hblock ⊢
  by_cases hv : f.vector count = true
  · have hle : count ≤ 1 := h.resolve_left (by simp [hv])
    rw [unpackBlock_ok hv (by omega)]
    refine ⟨by simp, fun weights hweights i hi ↦ ?_⟩
    obtain rfl := Outcome.ok.inj hweights
    rw [List.length_map, List.length_range] at hi
    obtain rfl : count = 1 := by omega
    obtain rfl : i = 0 := by omega
    have hlt : 0 < block.length := by omega
    exact ⟨0, block.getD 0 0, by omega, by simp [hlt], rfl⟩
  · rw [unpackBlock_threw (by simpa using hv)]
    exact ⟨by simp, fun weights hweights ↦ by contradiction⟩

theorem not_readsPacked (ht : t.dtype = .iq4NlBlock) (he : t.elems = UInt64.ofNat (k * n))
    (hv : f.vector (k * n % 2 ^ 64) = true) (h : 2 ≤ k * n % 2 ^ 64) : ¬f.ReadsPacked t k n := by
  intro hpacked
  have hlt : k * n % 2 ^ 64 < 2 ^ 64 := Nat.mod_lt _ (by decide)
  have hreads := hpacked (List.replicate (k * n % 2 ^ 64) 0)
  rw [sizeBytes_packed ht he, List.length_replicate] at hreads
  generalize k * n % 2 ^ 64 = count at hv h hlt hreads
  obtain ⟨-, hreads⟩ := hreads (by omega)
  obtain ⟨byte, b, hbyte, -, hweight⟩ := hreads _ (unpackBlock_ok hv List.length_replicate.ge)
    (count - 1) (by simp; omega)
  rw [List.getElem?_map, List.getElem?_range (by omega)] at hweight
  simp only [Option.map_some, Option.some.injEq, Prod.mk.injEq] at hweight
  omega

/-- The kernel reads the bytes of the tensor as they are packed exactly when there is one weight at
most, or the vector cannot be had. -/
theorem readsPacked_iff (ht : t.dtype = .iq4NlBlock) (he : t.elems = UInt64.ofNat (k * n)) :
    f.ReadsPacked t k n ↔ f.vector (k * n % 2 ^ 64) = false ∨ k * n % 2 ^ 64 ≤ 1 := by
  refine ⟨fun hpacked ↦ ?_, readsPacked_of_le ht he⟩
  by_contra hno
  rw [not_or, Bool.not_eq_false] at hno
  exact not_readsPacked ht he hno.1 (by omega) hpacked

theorem readsPacked_iff_single :
    integers.ReadsPacked { name := [], shape := [1, 1], dtype := .iq4NlBlock } 1 1 :=
  (readsPacked_iff rfl (by decide)).mpr (.inr (by decide))

/-- Two weights take one byte; the second of them is read from the byte behind it. -/
theorem second_weight_strays :
    ¬integers.ReadsPacked { name := [], shape := [1, 2], dtype := .iq4NlBlock } 1 2 :=
  not_readsPacked rfl (by decide) rfl (by decide)

end

end Floats

end Cerberus.Graph
