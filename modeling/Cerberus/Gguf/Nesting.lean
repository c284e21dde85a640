import Cerberus.Gguf.Items

namespace Cerberus.Gguf

open Foundation Foundation.Bytes Foundation.LittleEndian InputStream

def Inside (kind : StreamKind) (b : ByteString) (y x : GgufMetadataType × Nat) : Prop :=
  x.1 = .array ∧ x.2 + 12 ≤ b.length ∧ y.1 = typeAt x.2 b ∧
    ∃ k < readAt (x.2 + 4) 8 b, Chain (Lies kind b True (typeAt x.2 b)) k (x.2 + 12) y.2

def Ends (kind : StreamKind) (b : ByteString) (type : GgufMetadataType) (i : Nat) : Prop :=
  Acc (Inside kind b) (type, i)

variable {kind : StreamKind} {b : ByteString} {type : GgufMetadataType} {n m i a d : Nat}
  {host : Host} {r : Bool × InputStream}

theorem skip_unique {d' : Nat} {s : InputStream} {r' : Bool × InputStream}
    (h : skipMetadataValue d type s = some r) (h' : skipMetadataValue d' type s = some r') :
    r = r' := by
  have hmax := skip_mono (le_max_left d d') h
  rw [skip_mono (le_max_right d d') h', Option.some_inj] at hmax
  exact hmax.symm

theorem skipItems_reaches (hchain : Chain (Lies kind b True type) m i a) (hm : m < n)
    (h : skipItems (skipMetadataValue d type) n (atPos kind b i) = some r) :
    ∃ r', skipMetadataValue d type (atPos kind b a) = some r' := by
  induction hchain generalizing n with
  | nil i =>
    obtain ⟨n, rfl⟩ := Nat.exists_eq_add_of_lt hm
    rw [Nat.zero_add, skipItems, Option.bind_eq_bind, Option.bind_eq_some_iff] at h
    obtain ⟨item, hitem, -⟩ := h
    exact ⟨item, hitem⟩
  | @cons m i k a hlies _ ih =>
    obtain ⟨n, rfl⟩ : ∃ n', n = n' + 1 := ⟨n - 1, by omega⟩
    rw [skipItems, Option.bind_eq_bind, Option.bind_eq_some_iff] at h
    obtain ⟨item, hitem, h⟩ := h
    obtain ⟨d', hd'⟩ := skip_of_lies hlies
    rw [skip_unique hitem hd', if_pos rfl] at h
    exact ih (by omega) h

theorem ends_of_skip (h : skipMetadataValue d type (atPos kind b i) = some r) :
    Ends kind b type i := by
  induction d generalizing type i r with
  | zero => cases h
  | succ d ih =>
    refine Acc.intro _ (fun y hy ↦ ?_)
    obtain ⟨htype, hi, hitem, k, hk, hchain⟩ := hy
    dsimp only at htype
    subst htype
    rw [skip_array hi] at h
    obtain ⟨r', hr'⟩ := skipItems_reaches hchain hk h
    have hy : y = (typeAt i b, y.2) := Prod.ext hitem rfl
    rw [hy]
    exact ih hr'

theorem exists_skipItems (hb : b.length < 2 ^ 63)
    (hends : ∀ k < n, ∀ a, Chain (Lies kind b True type) k i a →
      ∃ d r, skipMetadataValue d type (atPos kind b a) = some r) (m k : Nat) (hmk : k + m = n)
    (hchain : Chain (Lies kind b True type) k i a) :
    ∃ d r, skipItems (skipMetadataValue d type) m (atPos kind b a) = some r := by
  induction m generalizing k a with
  | zero => exact ⟨0, _, rfl⟩
  | succ m ih =>
    obtain ⟨d, ⟨ok, s⟩, hitem⟩ := hends k (by omega) a hchain
    cases ok with
    | false => exact ⟨d, (false, s), by rw [skipItems, Option.bind_eq_bind, hitem]; rfl⟩
    | true =>
      obtain ⟨j, rfl, hlies⟩ := lies_of_skip hb hitem (skip_ok hitem).symm
      obtain ⟨d', r, hr⟩ := ih (k + 1) (by omega) (hchain.snoc hlies)
      refine ⟨max d d', r, ?_⟩
      rw [skipItems, Option.bind_eq_bind, skip_mono (le_max_left d d') hitem, Option.bind_some,
        if_pos rfl]
      exact skipItems_mono (fun s r h ↦ skip_mono (le_max_right d d') h) hr

theorem skip_of_ends (hb : b.length < 2 ^ 63) (h : Ends kind b type i) :
    ∃ d r, skipMetadataValue d type (atPos kind b i) = some r := by
  unfold Ends at h
  generalize hx : (type, i) = x at h
  induction h generalizing type i with
  | intro x _ ih =>
    subst hx
    cases type with
    | array =>
      by_cases hi : i + 12 ≤ b.length
      · obtain ⟨d, r, hr⟩ := exists_skipItems hb (n := readAt (i + 4) 8 b)
          (fun k hk a hchain ↦ ih (typeAt i b, a) ⟨rfl, hi, rfl, k, hk, hchain⟩ rfl) _ 0
          (Nat.zero_add _) (.nil (i + 12))
        exact ⟨d + 1, r, by rw [skip_array hi, hr]⟩
      · have hbad : (((atPos kind b i).readNat 4).2.readNat 8).2.good = false :=
          array_header_short (by omega)
        refine ⟨2, (false, (((atPos kind b i).readNat 4).2.readNat 8).2), ?_⟩
        rw [skipMetadataValue]
        cases (((atPos kind b i).readNat 4).2.readNat 8).1 with
        | zero => rw [skipItems, hbad]
        | succ n =>
          rw [skipItems, Option.bind_eq_bind, skip_bad hbad]
          rfl
    | _ => exact ⟨1, _, rfl⟩

theorem exists_skip_iff_ends (hb : b.length < 2 ^ 63) :
    (∃ d r, skipMetadataValue d type (atPos kind b i) = some r) ↔ Ends kind b type i := by
  constructor
  · rintro ⟨d, r, h⟩
    exact ends_of_skip h
  · exact skip_of_ends hb

theorem skipAll_isSome {skipItem : InputStream → Option (Bool × InputStream)} {s : InputStream}
    (hbad : ∀ s, s.good = false → skipItem s = some (false, s))
    (hok : ∀ s ok s', skipItem s = some (ok, s') → ok = s'.good)
    (h : skipItems skipItem n s = some r) : ∃ s', skipAll skipItem n s = some s' := by
  have hall (n : Nat) (s : InputStream) (hs : s.good = false) :
      skipAll skipItem n s = some s := by
    induction n with
    | zero => rfl
    | succ n ih => rw [skipAll, Option.bind_eq_bind, hbad s hs, Option.bind_some, ih]
  induction n generalizing s with
  | zero => exact ⟨s, rfl⟩
  | succ n ih =>
    rw [skipItems, Option.bind_eq_bind, Option.bind_eq_some_iff] at h
    obtain ⟨⟨ok, s₁⟩, hitem, h⟩ := h
    rw [skipAll, Option.bind_eq_bind, hitem, Option.bind_some]
    split at h
    · exact ih h
    · rename_i hfalse
      have hs₁ : s₁.good = false := by
        rw [← hok s ok s₁ hitem]
        simpa using hfalse
      exact ⟨s₁, hall n s₁ hs₁⟩

theorem skipItems_isSome {skipItem : InputStream → Option (Bool × InputStream)}
    {s s' : InputStream} (h : skipAll skipItem n s = some s') :
    ∃ r, skipItems skipItem n s = some r := by
  induction n generalizing s with
  | zero => exact ⟨_, rfl⟩
  | succ n ih =>
    rw [skipAll, Option.bind_eq_bind, Option.bind_eq_some_iff] at h
    obtain ⟨item, hitem, h⟩ := h
    rw [skipItems, Option.bind_eq_bind, hitem, Option.bind_some]
    split
    · exact ih h
    · exact ⟨_, rfl⟩

theorem exists_readValue_array_iff (hb : b.length < 2 ^ 63) :
    (∃ d r, readValue host d .array (atPos kind b i) = some r) ↔ Ends kind b .array i := by
  constructor
  · rintro ⟨d, r, h⟩
    rw [readValue, Option.map_eq_some_iff] at h
    obtain ⟨s', hall, -⟩ := h
    obtain ⟨r, hr⟩ := skipItems_isSome hall
    exact ends_of_skip (d := d + 1) hr
  · intro h
    obtain ⟨d, r, hr⟩ := skip_of_ends hb h
    have hsucc := skip_succ (skip_succ hr)
    rw [skipMetadataValue] at hsucc
    obtain ⟨s', hall⟩ := skipAll_isSome (fun s hs ↦ skip_bad hs _ _)
      (fun s ok s' h ↦ skip_ok h) hsucc
    exact ⟨d + 1, _, by rw [readValue, hall, Option.map_some]⟩

end Cerberus.Gguf
