import Cerberus.Gguf.Content

namespace Cerberus.Gguf

open Foundation Foundation.Bytes Foundation.LittleEndian InputStream GgufParser

def StringLies (b : ByteString) (i j : Nat) : Prop := j = i + 8 + readAt i 8 b ∧ j ≤ b.length

/-- The value of a key. Only arrays are skipped. -/
def ValueLies (kind : StreamKind) (b : ByteString) (lax : Prop) (type : GgufMetadataType)
    (i j : Nat) : Prop :=
  if type = .string then StringLies b i j else Lies kind b lax type i j

def KvLies (kind : StreamKind) (b : ByteString) (lax : Prop) (i j : Nat) : Prop :=
  ∃ k, StringLies b i k ∧ k + 4 ≤ b.length ∧ ValueLies kind b lax (typeAt k b) (k + 4) j

def TensorLies (b : ByteString) (i j : Nat) : Prop :=
  ∃ k, StringLies b i k ∧ j = k + 4 + 8 * readAt k 4 b + 12 ∧ k + 4 ≤ b.length ∧ j ≤ b.length

variable {host : Host} {kind : StreamKind} {b : ByteString} {lax : Prop} {type : GgufMetadataType}
  {n i j k d w : Nat} {s s' : InputStream} {p p' : GgufParser}

theorem Host.short (host : Host) (hb : b.length ≤ host.maxSize) : b.length < 2 ^ 63 :=
  hb.trans_lt host.maxSize_lt

theorem ValueLies.relax (h : ValueLies kind b lax type i j) : ValueLies kind b True type i j := by
  unfold ValueLies at h ⊢
  split at h
  · rwa [if_pos ‹_›]
  · rw [if_neg ‹_›]
    exact h.relax

theorem KvLies.relax (h : KvLies kind b lax i j) : KvLies kind b True i j := by
  obtain ⟨k, hkey, hk, hvalue⟩ := h
  exact ⟨k, hkey, hk, hvalue.relax⟩

theorem StringLies.unique {j' : Nat} (h : StringLies b i j) (h' : StringLies b i j') : j = j' :=
  h.1.trans h'.1.symm

theorem KvLies.unique {j' : Nat} (h : KvLies kind b lax i j) (h' : KvLies kind b lax i j') :
    j = j' := by
  obtain ⟨k, hkey, -, hvalue⟩ := h
  obtain ⟨k', hkey', -, hvalue'⟩ := h'
  cases hkey.unique hkey'
  unfold ValueLies at hvalue hvalue'
  split at hvalue
  · rw [if_pos ‹_›] at hvalue'
    exact hvalue.unique hvalue'
  · rw [if_neg ‹_›] at hvalue'
    exact hvalue.unique hvalue'

theorem TensorLies.unique {j' : Nat} (h : TensorLies b i j) (h' : TensorLies b i j') : j = j' := by
  obtain ⟨k, hname, hj, -⟩ := h
  obtain ⟨k', hname', hj', -⟩ := h'
  cases hname.unique hname'
  exact hj.trans hj'.symm

theorem readString_throw (h : host.maxSize < readAt i 8 b) :
    readString host (atPos kind b i) = none := by
  rw [readString, readNat_fst]
  exact if_pos h

theorem readString_eq_none_iff :
    readString host (atPos kind b i) = none ↔ host.maxSize < readAt i 8 b := by
  refine ⟨fun h ↦ ?_, readString_throw⟩
  by_contra hlen
  rw [readString, readNat_fst] at h
  dsimp only at h
  rw [if_neg hlen] at h
  cases h

theorem readString_bad (hs : s.good = false) : readString host s = some ([], s) := by
  rw [readString, readNat_bad hs]
  dsimp only
  rw [if_neg (Nat.not_lt_zero _), read_bad hs]
  rfl

theorem readString_full (hb : b.length ≤ host.maxSize) (h : StringLies b i j) :
    readString host (atPos kind b i) =
      some ((b.drop (i + 8)).take (readAt i 8 b), atPos kind b j) := by
  obtain ⟨rfl, hj⟩ := h
  have hlen := length_drop_take hj
  rw [readString, readNat_full (by omega)]
  dsimp only
  rw [if_neg (by omega), read_full hj]
  simp [hlen]

theorem readString_short {e : ByteString × InputStream}
    (h : readString host (atPos kind b i) = some e)
    (hshort : ∀ j, ¬StringLies b i j) : e.2.good = false := by
  rw [readString] at h
  dsimp only at h
  split at h
  · cases h
  · cases h
    by_cases hi : i + 8 ≤ b.length
    · rw [readNat_full hi]
      have hend : ¬i + 8 + readAt i 8 b ≤ b.length := fun hle ↦ hshort _ ⟨rfl, hle⟩
      exact read_short (by omega) (by omega)
    · have hbad : ((atPos kind b i).readNat 8).2.good = false :=
        readNat_short (by decide) (by omega)
      dsimp only
      rw [read_bad hbad]
      exact hbad

theorem readValue_scalar (hw : type.width = some w) (d : Nat) (s : InputStream) :
    readValue host d type s = some (some (storedScalar host type
      (BitVec.ofNat (8 * w) (s.readNat w).1), (s.readNat w).2)) := by
  cases type with
  | bool =>
    cases hw
    have hlt : (s.readNat 1).1 < 256 := s.readNat_lt 1
    have hzero : ((s.readNat 1).1 != 0) = (BitVec.ofNat (8 * 1) (s.readNat 1).1 != 0) := by
      rw [Bool.eq_iff_iff, bne_iff_ne, bne_iff_ne, ne_eq, ne_eq, ← BitVec.toNat_inj,
        BitVec.toNat_ofNat]
      simp
      omega
    simp [readValue, readScalar, storedScalar, hzero]
  | string => cases hw
  | array => cases hw
  | unknown raw => cases hw
  | _ =>
    cases hw
    simp [readValue, readScalar, storedScalar, toUnsigned, toSigned]

theorem readValue_array (hi : i + 12 ≤ b.length) (d : Nat) :
    readValue host d .array (atPos kind b i) =
      (skipAll (skipMetadataValue d (typeAt i b)) (readAt (i + 4) 8 b)
        (atPos kind b (i + 12))).map (fun s ↦ some (.string (lit "[array]"), s)) := by
  rw [readValue, readNat_full (by omega), readNat_full (by omega)]
  rfl

theorem readValue_array_short (hi : b.length < i + 12) {v : StoredValue}
    (h : readValue host d .array (atPos kind b i) = some (some (v, s'))) : s'.good = false := by
  rw [readValue, Option.map_eq_some_iff] at h
  obtain ⟨s₁, hall, heq⟩ := h
  cases heq
  have hbad : (((atPos kind b i).readNat 4).2.readNat 8).2.good = false := array_header_short hi
  rw [skipAll_bad (fun _ _ _ hs h ↦ skip_bad_eq hs h) hbad hall]
  exact hbad

theorem skipAll_of_lies (h : Lies kind b True .array i j) :
    i + 12 ≤ b.length ∧ ∃ d, skipAll (skipMetadataValue d (typeAt i b)) (readAt (i + 4) 8 b)
      (atPos kind b (i + 12)) = some (atPos kind b j) := by
  cases h with
  | scalar hw _ => cases hw
  | @array _ f hi hf hitems _ =>
    obtain ⟨d, hd⟩ := exists_depth (fun k hk ↦ skip_of_lies (hitems k hk))
    refine ⟨hi, d, ?_⟩
    rw [← hf]
    exact skipAll_of_chain (fun _ _ h ↦ h) (chain_of_forall hd)

theorem readValue_of_lies (hb : b.length ≤ host.maxSize) (h : ValueLies kind b True type i j) :
    ∃ d v, readValue host d type (atPos kind b i) = some (some (v, atPos kind b j)) := by
  unfold ValueLies at h
  split at h
  · rename_i htype
    subst htype
    refine ⟨0, .string ((b.drop (i + 8)).take (readAt i 8 b)), ?_⟩
    rw [readValue, readString_full hb h]
    rfl
  · cases hw : type.width with
    | some w =>
      cases h with
      | @scalar _ w' _ hw' hi =>
        refine ⟨0, storedScalar host type (BitVec.ofNat (8 * w') (readAt i w' b)), ?_⟩
        rw [readValue_scalar hw', readNat_full hi]
      | string => cases hw
      | array => cases hw
      | unknown => cases hw
    | none =>
      cases type with
      | string => contradiction
      | array =>
        obtain ⟨hi, d, hd⟩ := skipAll_of_lies h
        refine ⟨d, .string (lit "[array]"), ?_⟩
        rw [readValue_array hi, hd]
        rfl
      | unknown raw =>
        cases h with
        | scalar hw' _ => cases hw'
        | unknown _ => exact ⟨0, .uint64 0, rfl⟩
      | _ => cases hw

theorem lies_of_readValue (hb : b.length ≤ host.maxSize) {v : StoredValue}
    (h : readValue host d type (atPos kind b i) = some (some (v, s'))) (hs' : s'.good = true) :
    ∃ j, s' = atPos kind b j ∧ ValueLies kind b True type i j := by
  unfold ValueLies
  cases hw : type.width with
  | some w =>
    have htype : type ≠ .string := by
      rintro rfl
      cases hw
    rw [readValue_scalar hw] at h
    simp only [if_neg htype]
    by_cases hi : i + w ≤ b.length
    · rw [readNat_full hi] at h
      cases h
      exact ⟨i + w, rfl, .scalar hw hi⟩
    · cases h
      rw [readNat_short (width_pos hw) (by omega)] at hs'
      cases hs'
  | none =>
    cases type with
    | string =>
      rw [readValue, Option.some_inj, Option.map_eq_some_iff] at h
      obtain ⟨e, hstring, heq⟩ := h
      cases heq
      by_cases hlies : ∃ j, StringLies b i j
      · obtain ⟨j, hj⟩ := hlies
        rw [readString_full hb hj] at hstring
        cases hstring
        exact ⟨j, rfl, by simpa using hj⟩
      · rw [readString_short hstring (fun j hj ↦ hlies ⟨j, hj⟩)] at hs'
        cases hs'
    | array =>
      by_cases hi : i + 12 ≤ b.length
      · rw [readValue_array hi, Option.map_eq_some_iff] at h
        obtain ⟨s₁, hall, heq⟩ := h
        cases heq
        obtain ⟨j, hj, hchain⟩ :=
          chain_of_skipAll (fun _ _ _ hs h ↦ skip_bad_eq hs h)
            (fun _ _ _ h hs ↦ lies_of_skip (host.short hb) h hs) hall hs'
        exact ⟨j, hj, lies_array hi rfl hchain (.inl trivial)⟩
      · rw [readValue_array_short (by omega) h] at hs'
        cases hs'
    | unknown raw =>
      cases h
      exact ⟨i, rfl, .unknown trivial⟩
    | _ => cases hw

theorem readValue_bad (hs : s.good = false) (d : Nat) (type : GgufMetadataType) :
    ∃ v, readValue host d type s = some (some (v, s)) := by
  cases hw : type.width with
  | some w => exact ⟨_, by rw [readValue_scalar hw, readNat_bad hs]⟩
  | none =>
    cases type with
    | string => exact ⟨.string [], by rw [readValue, readString_bad hs]; rfl⟩
    | array =>
      refine ⟨.string (lit "[array]"), ?_⟩
      rw [readValue, readNat_bad hs, readNat_bad hs]
      rfl
    | unknown raw => exact ⟨.uint64 0, rfl⟩
    | _ => cases hw

theorem parseMetadataKv_at (hb : b.length ≤ host.maxSize) (hkey : StringLies b i k)
    (hk : k + 4 ≤ b.length) (d : Nat) (p : GgufParser) :
    p.parseMetadataKv host d (atPos kind b i) =
      (readValue host d (typeAt k b) (atPos kind b (k + 4))).map
        (p.keepValue (atPos kind b i) ((b.drop (i + 8)).take (readAt i 8 b)) (typeAt k b)) := by
  rw [parseMetadataKv, readString_full hb hkey]
  dsimp only
  rw [readNat_full hk]
  rfl

theorem parseMetadataKv_short (kind : StreamKind) (hb : b.length ≤ host.maxSize)
    (hlen : readAt i 8 b ≤ host.maxSize) (hshort : ∀ k, StringLies b i k → b.length < k + 4)
    (d : Nat) (p : GgufParser) :
    ∃ s', p.parseMetadataKv host d (atPos kind b i) = some (.returned false, p, s') := by
  have hbad (s : InputStream) (key : ByteString) (hs : (s.readNat 4).2.good = false)
      (hstring : readString host (atPos kind b i) = some (key, s)) :
      ∃ s', p.parseMetadataKv host d (atPos kind b i) = some (.returned false, p, s') := by
    obtain ⟨v, hv⟩ : ∃ v, readValue host d (.ofRaw (s.readNat 4).1) (s.readNat 4).2 =
        some (some (v, (s.readNat 4).2)) := readValue_bad hs d _
    refine ⟨(s.readNat 4).2, ?_⟩
    rw [parseMetadataKv, hstring]
    dsimp only
    rw [hv, Option.map_some, keepValue, hs]
    rfl
  by_cases hlies : ∃ k, StringLies b i k
  · obtain ⟨k, hkey⟩ := hlies
    exact hbad _ _ (readNat_short (by decide) (hshort k hkey)) (readString_full hb hkey)
  · cases hstring : readString host (atPos kind b i) with
    | none => exact absurd (readString_eq_none_iff.mp hstring) (by omega)
    | some e =>
      have hs := readString_short hstring (fun k hk ↦ hlies ⟨k, hk⟩)
      refine hbad e.2 e.1 ?_ hstring
      rw [readNat_bad hs]
      exact hs

theorem parseMetadataKv_of_lies (hb : b.length ≤ host.maxSize) (h : KvLies kind b True i j) :
    ∃ d mv, ∀ p : GgufParser, p.parseMetadataKv host d (atPos kind b i) =
      some (.returned true, { p with metadata := p.metadata ++ [mv] }, atPos kind b j) := by
  obtain ⟨k, hkey, hk, hvalue⟩ := h
  obtain ⟨d, v, hv⟩ := readValue_of_lies hb hvalue
  refine ⟨d, ⟨(b.drop (i + 8)).take (readAt i 8 b), typeAt k b, v⟩, fun p ↦ ?_⟩
  rw [parseMetadataKv_at hb hkey hk, hv]
  rfl

inductive KvString (b : ByteString) (i : Nat) : Nat → Prop
  | key : KvString b i i
  | value {k : Nat} (hkey : StringLies b i k) (hk : k + 4 ≤ b.length)
    (htype : typeAt k b = .string) : KvString b i (k + 4)

def KvArray (b : ByteString) (i a : Nat) : Prop :=
  ∃ k, StringLies b i k ∧ k + 4 ≤ b.length ∧ typeAt k b = .array ∧ a = k + 4

end Cerberus.Gguf
