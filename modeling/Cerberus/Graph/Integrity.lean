import Cerberus.Foundation.Digest
import Cerberus.Graph.Shadow

namespace Cerberus.Graph

open Function Foundation.Digest

def fnv1aStep (hash : UInt64) (b : UInt8) : UInt64 := (hash ^^^ b.toUInt64) * 0x100000001b3

theorem fnv1aBytes_eq (data : List UInt8) :
    fnv1aBytes data = data.foldl fnv1aStep 0xcbf29ce484222325 := rfl

theorem mul_prime_injective : Injective (fun x : UInt64 ↦ x * 0x100000001b3) := by
  have hinverse : (0x100000001b3 * 0xce965057aff6957b : UInt64) = 1 := by decide
  intro x y h
  have h' := congrArg (· * (0xce965057aff6957b : UInt64)) h
  simpa only [UInt64.mul_assoc, hinverse, UInt64.mul_one] using h'

theorem fnv1aStep_state (b : UInt8) : Injective (fnv1aStep · b) := by
  intro x y h
  have hxor := congrArg (· ^^^ b.toUInt64) (mul_prime_injective h)
  simpa only [UInt64.xor_assoc, UInt64.xor_self, UInt64.xor_zero] using hxor

theorem fnv1aStep_byte (hash : UInt64) : Injective (fnv1aStep hash) := by
  intro b c h
  have hxor := congrArg (hash ^^^ ·) (mul_prime_injective h)
  have hword : b.toUInt64 = c.toUInt64 := by
    simpa only [← UInt64.xor_assoc, UInt64.xor_self, UInt64.zero_xor] using hxor
  simpa using congrArg UInt64.toUInt8 hword

variable {K : Type} [Field K] [LinearOrder K]

def ShadowSnapshot.Sealed (snap : ShadowSnapshot K) : Prop :=
  snap.compressed = [] ∨ snap.hash = fnv1aBytes snap.compressed

/-- Other bytes under the same hash are turned down, into whatever buffer. -/
theorem restoreFromShadow_rejects {snap : ShadowSnapshot K} {bytes : List UInt8}
    (h : fnv1aBytes bytes ≠ snap.hash) (dst : Pointer K) (n : Nat) :
    restoreFromShadow { snap with compressed := bytes } dst n = some (false, dst) := by
  cases dst with
  | null => rfl
  | block out =>
    rw [restoreFromShadow]
    dsimp only
    split_ifs
    · rfl
    · rfl

/-- Whatever arithmetic gave the bytes their values, a change of one of them is noticed. -/
theorem ShadowSnapshot.Sealed.corrupted {snap : ShadowSnapshot K} (h : snap.Sealed)
    {bytes : List UInt8} (hlen : bytes.length = snap.compressed.length)
    (hone : ∃! i : Nat, bytes[i]? ≠ snap.compressed[i]?) (dst : Pointer K) (n : Nat) :
    restoreFromShadow { snap with compressed := bytes } dst n = some (false, dst) := by
  apply restoreFromShadow_rejects
  rcases h with hempty | hhash
  · -- without bytes there is no position to differ in
    obtain ⟨i, hi, -⟩ := hone
    rw [hempty] at hlen hi
    exact absurd (congrArg (·[i]?) (List.eq_nil_of_length_eq_zero hlen)) hi
  · rw [hhash, fnv1aBytes_eq, fnv1aBytes_eq]
    exact foldl_ne_of_existsUnique fnv1aStep_state fnv1aStep_byte hlen hone _

variable [FloorRing K]

theorem sealed_compressToShadow {src : Pointer K} {n : Nat} {snap : ShadowSnapshot K}
    (h : compressToShadow src n = some snap) : snap.Sealed := by
  cases src with
  | null =>
    cases h
    exact .inl rfl
  | block src =>
    rw [compressToShadow] at h
    dsimp only at h
    split_ifs at h with hn hlen
    · cases h
      exact .inl rfl
    · obtain ⟨⟨minVal, maxVal⟩, -, h⟩ := Option.bind_eq_some_iff.mp h
      dsimp only at h
      split_ifs at h with heq
      · cases h
        exact .inr rfl
      · obtain ⟨z, -, h⟩ := Option.bind_eq_some_iff.mp h
        cases h
        exact .inr rfl

/-- A single byte that changed is always noticed: the steps of the hash can be undone, so a
snapshot with one byte replaced no longer has the hash it was given. -/
theorem corruption_noticed :
    (∀ b, Injective (fnv1aStep · b)) ∧ (∀ hash, Injective (fnv1aStep hash)) ∧
      ∀ (src : Pointer K) (n : Nat) (snap : ShadowSnapshot K),
        compressToShadow src n = some snap →
        ∀ bytes : List UInt8, bytes.length = snap.compressed.length →
        (∃! i : Nat, bytes[i]? ≠ snap.compressed[i]?) →
        ∀ (dst : Pointer K) (m : Nat),
          restoreFromShadow { snap with compressed := bytes } dst m = some (false, dst) :=
  ⟨fnv1aStep_state, fnv1aStep_byte, fun _ _ _ hsnap _ hlen hone ↦
    (sealed_compressToShadow hsnap).corrupted hlen hone⟩

end Cerberus.Graph
