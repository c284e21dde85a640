import Cerberus.Gguf.RoundTrip

namespace Cerberus.Gguf

open Foundation Foundation.Bytes Foundation.LittleEndian InputStream GgufParser

/-- The bytes start with a complete file head, in the one byte order or the other. -/
def Grammar (b : ByteString) : Prop := ∃ (order : ByteOrder) (c : Content), c.encode order <+: b

/-- The bytes can be read through: a complete header, and as many keys and tensors as it says. -/
structure Through (b : ByteString) (lax : Prop) : Prop where
  long : 24 ≤ b.length
  start : ValidStart b
  items : ∃ a e, Chain (KvLies .memory b lax) (readAt 16 8 b) 24 a ∧
    Chain (TensorLies b) (readAt 8 8 b) a e

variable {b : ByteString} {i j k n : Nat}

theorem StringLies.exists_string (h : StringLies b i k) :
    ∃ s, Holds b i (encodeString .little s) ∧ k = i + (encodeString .little s).length := by
  obtain ⟨rfl, hk⟩ := h
  have hlen := length_drop_take hk
  refine ⟨(b.drop (i + 8)).take (readAt i 8 b), ?_, ?_⟩
  · rw [encodeString, hlen]
    refine Holds.append (holds_readAt (by omega)) ?_
    rw [length_number]
    exact holds_take hk
  · rw [encodeString, List.length_append, length_number, hlen]
    omega

theorem ValueLies.exists_value {type : GgufMetadataType}
    (h : ValueLies .memory b False type i j) :
    ∃ v : Value type, Holds b i (v.encode .little) ∧ j = i + (v.encode .little).length := by
  unfold ValueLies at h
  split at h
  · rename_i htype
    subst htype
    obtain ⟨s, hs, hj⟩ := h.exists_string
    exact ⟨.string s, hs, hj⟩
  · exact h.exists_value

theorem KvLies.exists_kv (h : KvLies .memory b False i j) :
    ∃ kv : KeyValue, Holds b i (kv.encode .little) ∧ j = i + (kv.encode .little).length := by
  obtain ⟨k, hkey, hk, hvalue⟩ := h
  obtain ⟨s, hs, rfl⟩ := hkey.exists_string
  obtain ⟨v, hv, rfl⟩ := hvalue.exists_value
  have hraw : (typeAt (i + (encodeString .little s).length) b).raw =
      readAt (i + (encodeString .little s).length) 4 b := raw_ofRaw _
  refine ⟨⟨s, _, v⟩, ?_, ?_⟩
  · rw [KeyValue.encode, hraw]
    refine Holds.append (Holds.append hs (holds_readAt hk)) ?_
    rw [List.length_append, length_number, ← Nat.add_assoc]
    exact hv
  · simp only [KeyValue.encode, List.length_append, length_number]
    omega

theorem exists_shape (hi : i ≤ b.length) (h : i + 8 * n ≤ b.length) :
    ∃ shape : List (BitVec 64), shape.length = n ∧
      Holds b i (shape.flatMap (fun d ↦ ByteOrder.little.number 8 d.toNat)) ∧
      i + 8 * n = i + (shape.flatMap (fun d ↦ ByteOrder.little.number 8 d.toNat)).length := by
  have hchain := chain_of_forall (R := fun i j ↦ j = i + 8 ∧ j ≤ b.length) (n := n)
    (f := fun k ↦ i + 8 * k) (fun k hk ↦ ⟨by ring, by omega⟩)
  refine hchain.exists_list (fun i j hij ↦ ?_) hi
  obtain ⟨rfl, hj⟩ := hij
  obtain ⟨v, hv⟩ := exists_bits hj
  exact ⟨v, hv, by rw [length_number]⟩

theorem TensorLies.exists_tensor (h : TensorLies b i j) :
    ∃ t : TensorInfo, Holds b i (t.encode .little) ∧ j = i + (t.encode .little).length := by
  obtain ⟨k, hname, rfl, hk, hj⟩ := h
  obtain ⟨s, hs, rfl⟩ := hname.exists_string
  obtain ⟨shape, hlen, hshape, hend⟩ := exists_shape (i := i + (encodeString .little s).length + 4)
    hk (n := readAt (i + (encodeString .little s).length) 4 b) (by omega)
  have hrank := readAt_lt hk
  rw [← hlen] at hrank hend hj
  obtain ⟨dtype, hdtype⟩ : ∃ v : BitVec 32, Holds b
      (i + (encodeString .little s).length + 4 + 8 * shape.length)
      (ByteOrder.little.number 4 v.toNat) := exists_bits (w := 4) (by omega)
  obtain ⟨offset, hoffset⟩ : ∃ v : BitVec 64, Holds b
      (i + (encodeString .little s).length + 4 + 8 * shape.length + 4)
      (ByteOrder.little.number 8 v.toNat) := exists_bits (w := 8) (by omega)
  refine ⟨⟨s, shape, hrank, dtype, offset⟩, ?_, ?_⟩
  · have hname' : Holds b i (encodeString .little s ++ ByteOrder.little.number 4 shape.length) := by
      rw [hlen]
      exact hs.append (holds_readAt hk)
    refine Holds.append (Holds.append (Holds.append hname' ?_) ?_) ?_
    · rw [List.length_append, length_number, ← Nat.add_assoc]
      exact hshape
    · rw [List.length_append, List.length_append, length_number, ← Nat.add_assoc, ← Nat.add_assoc,
        ← hend]
      exact hdtype
    · rw [List.length_append, List.length_append, List.length_append, length_number, length_number,
        ← Nat.add_assoc, ← Nat.add_assoc, ← Nat.add_assoc, ← hend]
      exact hoffset
  · simp only [TensorInfo.encode, List.length_append, length_number]
    omega

theorem kvLies_encode (hb : b.length < 2 ^ 63) (kv : KeyValue)
    (h : Holds b i (kv.encode .little)) :
    KvLies .memory b False i (i + (kv.encode .little).length) := by
  obtain ⟨hkey, -⟩ := stringLies_encode hb h.left.left
  have htag := h.left.right
  have hvalue := h.right
  have hbound := htag.bound
  have htype : typeAt (i + (encodeString .little kv.key).length) b = kv.type := by
    have hlt := raw_lt kv.value.known
    rw [typeAt, readAt_number htag (by omega), ofRaw_raw kv.value.known]
  rw [List.length_append, length_number, ← Nat.add_assoc] at hvalue
  rw [length_number] at hbound
  refine ⟨_, hkey, hbound, ?_⟩
  rw [htype, KeyValue.encode, List.length_append, List.length_append, length_number,
    ← Nat.add_assoc, ← Nat.add_assoc]
  obtain ⟨key, type, value⟩ := kv
  dsimp only at hvalue ⊢
  unfold ValueLies
  split
  · rename_i hstring
    subst hstring
    cases value with
    | scalar hw _ => cases hw
    | string str => exact (stringLies_encode hb hvalue).1
  · exact lies_encode .memory hb value hvalue

theorem length_shape (shape : List (BitVec 64)) (order : ByteOrder) :
    (shape.flatMap (fun d ↦ order.number 8 d.toNat)).length = 8 * shape.length := by
  simp [List.length_flatMap, Nat.mul_comm]

theorem tensorLies_encode (hb : b.length < 2 ^ 63) (t : TensorInfo)
    (h : Holds b i (t.encode .little)) : TensorLies b i (i + (t.encode .little).length) := by
  obtain ⟨hname, -⟩ := stringLies_encode hb h.left.left.left.left
  have hrank := h.left.left.left.right
  have hbound := hrank.bound
  rw [length_number] at hbound
  refine ⟨_, hname, ?_, hbound, h.bound⟩
  rw [readAt_number hrank t.rank_lt]
  simp only [TensorInfo.encode, List.length_append, length_number, length_shape]
  omega

theorem through_iff (hb : b.length < 2 ^ 63) :
    readAt 0 4 b = ggufMagicLe ∧ Through b False ↔ ∃ c : Content, c.encode .little <+: b := by
  constructor
  · rintro ⟨hmagic, hlong, ⟨-, hversion⟩, a, e, hkvs, htensors⟩
    obtain ⟨kvs, hkvLen, hkvsHold, rfl⟩ := hkvs.exists_list (fun i j h ↦ h.exists_kv) hlong
    obtain ⟨tensors, htensorLen, htensorsHold, -⟩ :=
      htensors.exists_list (fun i j h ↦ h.exists_tensor) hkvsHold.bound
    refine ⟨⟨kvs, tensors⟩, ?_⟩
    have hholds : Holds b 0 (Content.encode .little ⟨kvs, tensors⟩) := by
      rw [Content.encode, ← hmagic, ← hversion, htensorLen, hkvLen]
      refine Holds.append (Holds.append (Holds.append (Holds.append (holds_readAt (by omega)) ?_)
        ?_) ?_) (Holds.append ?_ ?_) <;> simp only [List.length_append, length_number]
      · exact holds_readAt (by omega)
      · exact holds_readAt (by omega)
      · exact holds_readAt (by omega)
      · exact hkvsHold
      · exact htensorsHold
    obtain ⟨before, rest, heq, hzero⟩ := hholds
    rw [List.length_eq_zero_iff.mp hzero, List.nil_append] at heq
    exact ⟨rest, heq.symm⟩
  · rintro ⟨c, rest, heq⟩
    have hparts : Parts b c := parts_encode hb ⟨[], rest, by simp [heq], rfl⟩
    have hkvs := chain_of_holds c.kvs (fun kv _ i h ↦ kvLies_encode hb kv h) hparts.kvs
    have htensors :=
      chain_of_holds c.tensors (fun t _ i h ↦ tensorLies_encode hb t h) hparts.tensors
    rw [← hparts.kvCount] at hkvs
    rw [← hparts.tensorCount] at htensors
    exact ⟨hparts.magic, hparts.long, ⟨.inl hparts.magic, hparts.version⟩, _, _, hkvs, htensors⟩

theorem not_validStart_big {c : Content} (h : c.encode .big <+: b) : ¬ValidStart b := by
  rintro ⟨-, hversion⟩
  obtain ⟨rest, rfl⟩ := h
  have hbytes : ((c.encode .big ++ rest).drop 4).take 4 = [0, 0, 0, 3] := rfl
  rw [readAt, hbytes] at hversion
  exact absurd hversion (by decide)

/-- What the grammar allows is read through, if the parser goes on after the start. -/
theorem Grammar.through (hb : b.length < 2 ^ 63) (h : Grammar b) (hstart : ValidStart b) :
    readAt 0 4 b = ggufMagicLe ∧ Through b False := by
  obtain ⟨order, c, hc⟩ := h
  cases order with
  | little => exact (through_iff hb).mpr ⟨c, hc⟩
  | big => exact absurd hstart (not_validStart_big hc)

theorem Grammar.long (h : Grammar b) : 24 ≤ b.length := by
  obtain ⟨order, c, hc⟩ := h
  refine le_trans ?_ hc.length_le
  simp only [Content.encode, List.length_append, length_number]
  omega

end Cerberus.Gguf
