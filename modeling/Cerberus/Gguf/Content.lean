import Cerberus.Gguf.Layout

namespace Cerberus.Gguf

open Foundation Foundation.Bytes Foundation.LittleEndian InputStream

inductive ByteOrder
  | little
  | big
  deriving DecidableEq

def ByteOrder.number (order : ByteOrder) (width n : Nat) : ByteString :=
  match order with
  | .little => littleEndian width n
  | .big => (littleEndian width n).reverse

def GgufMetadataType.raw : GgufMetadataType → Nat
  | .uint8 => 0
  | .int8 => 1
  | .uint16 => 2
  | .int16 => 3
  | .uint32 => 4
  | .int32 => 5
  | .float32 => 6
  | .bool => 7
  | .string => 8
  | .array => 9
  | .uint64 => 10
  | .int64 => 11
  | .float64 => 12
  | .unknown raw => raw

inductive Value : GgufMetadataType → Type
  | scalar {type : GgufMetadataType} {w : Nat} (hw : type.width = some w) (v : BitVec (8 * w)) :
    Value type
  | string (s : ByteString) : Value .string
  | array {item : GgufMetadataType} (hitem : item.Known) (len : BitVec 64)
    (items : Fin len.toNat → Value item) : Value .array

def encodeString (order : ByteOrder) (s : ByteString) : ByteString :=
  order.number 8 s.length ++ s

def Value.encode (order : ByteOrder) {type : GgufMetadataType} : Value type → ByteString
  | @Value.scalar _ w _ v => order.number w v.toNat
  | .string s => encodeString order s
  | @Value.array item _ len items =>
    order.number 4 item.raw ++ order.number 8 len.toNat ++
      (List.ofFn (fun k ↦ (items k).encode order)).flatten

structure KeyValue where
  key : ByteString
  type : GgufMetadataType
  value : Value type

structure TensorInfo where
  name : ByteString
  shape : List (BitVec 64)
  rank_lt : shape.length < 2 ^ 32
  dtype : BitVec 32
  offset : BitVec 64

/-- What a file of version 3 holds before the weights. -/
structure Content where
  kvs : List KeyValue
  tensors : List TensorInfo

def KeyValue.encode (order : ByteOrder) (kv : KeyValue) : ByteString :=
  encodeString order kv.key ++ order.number 4 kv.type.raw ++ kv.value.encode order

def TensorInfo.encode (order : ByteOrder) (t : TensorInfo) : ByteString :=
  encodeString order t.name ++ order.number 4 t.shape.length ++
    t.shape.flatMap (fun d ↦ order.number 8 d.toNat) ++ order.number 4 t.dtype.toNat ++
    order.number 8 t.offset.toNat

/-- The reference encoding. The magic of the one order is the other's in reverse. -/
def Content.encode (order : ByteOrder) (c : Content) : ByteString :=
  order.number 4 ggufMagicLe ++ order.number 4 ggufVersionV3 ++
    order.number 8 c.tensors.length ++ order.number 8 c.kvs.length ++
    (c.kvs.flatMap (fun kv ↦ kv.encode order) ++ c.tensors.flatMap (fun t ↦ t.encode order))

section

variable (host : Host)

def storedScalar (type : GgufMetadataType) {n : Nat} (v : BitVec n) : StoredValue :=
  match type with
  | .uint8 | .uint16 | .uint32 | .uint64 => .uint64 (v.setWidth 64)
  | .int8 | .int16 | .int32 | .int64 => .int64 (v.signExtend 64)
  | .float32 => .double (host.widen (v.setWidth 32))
  | .float64 => .double (v.setWidth 64)
  | .bool => .bool (v != 0)
  | .string | .array | .unknown _ => .uint64 0

def Value.stored {type : GgufMetadataType} : Value type → StoredValue
  | .scalar _ v => storedScalar host type v
  | .string s => .string s
  | .array _ _ _ => .string (lit "[array]")

def KeyValue.stored (kv : KeyValue) : GgufMetadataValue := ⟨kv.key, kv.type, kv.value.stored host⟩

def TensorInfo.stored (t : TensorInfo) : GgufTensorInfo where
  name := t.name
  shape := t.shape.map (fun d ↦ d.toNat)
  dtype := .ofRaw t.dtype.toNat
  offsetInFile := t.offset.toNat
  sizeBytes := estimatedSize (.ofRaw t.dtype.toNat) (t.shape.map (fun d ↦ d.toNat))

def Content.parsed (c : Content) : GgufParser where
  header :=
    { magic := ggufMagicLe
      version := ggufVersionV3
      tensorCount := c.tensors.length
      metadataKvCount := c.kvs.length }
  tensors := c.tensors.map (fun t ↦ t.stored)
  metadata := c.kvs.map (fun kv ↦ kv.stored host)

end

theorem ofRaw_raw {type : GgufMetadataType} (h : type.Known) : .ofRaw type.raw = type := by
  cases type with
  | unknown raw => exact absurd rfl (h raw)
  | _ => rfl

theorem raw_lt {type : GgufMetadataType} (h : type.Known) : type.raw < 13 := by
  cases type with
  | unknown raw => exact absurd rfl (h raw)
  | _ => decide

theorem raw_ofRaw (n : Nat) : (GgufMetadataType.ofRaw n).raw = n := by
  unfold GgufMetadataType.ofRaw
  split <;> rfl

theorem Value.known {type : GgufMetadataType} (v : Value type) : type.Known := by
  rintro raw rfl
  cases v with
  | scalar hw _ => cases hw

section

variable {R : Nat → Nat → Prop} {α : Type} {encode : α → ByteString} {b : ByteString} {n i j : Nat}

theorem chain_of_holds (l : List α)
    (hR : ∀ a ∈ l, ∀ i, Holds b i (encode a) → R i (i + (encode a).length))
    (h : Holds b i (l.flatMap encode)) :
    Chain R l.length i (i + (l.flatMap encode).length) := by
  induction l generalizing i with
  | nil => exact .nil i
  | cons a l ih =>
    rw [List.flatMap_cons] at h ⊢
    have hrest := ih (fun a ha ↦ hR a (by simp [ha])) h.right
    rw [Nat.add_assoc, ← List.length_append] at hrest
    exact .cons (hR a (by simp) i h.left) hrest

theorem Chain.exists_list
    (hR : ∀ i j, R i j → ∃ a, Holds b i (encode a) ∧ j = i + (encode a).length)
    (hi : i ≤ b.length) (h : Chain R n i j) :
    ∃ l : List α, l.length = n ∧ Holds b i (l.flatMap encode) ∧
      j = i + (l.flatMap encode).length := by
  induction h with
  | nil i => exact ⟨[], rfl, ⟨b.take i, b.drop i, by simp, by simpa using hi⟩, rfl⟩
  | @cons n i k j hr _ ih =>
    obtain ⟨a, ha, rfl⟩ := hR i k hr
    obtain ⟨l, hlen, hl, rfl⟩ := ih ha.bound
    refine ⟨a :: l, by simp [hlen], ?_, ?_⟩
    · rw [List.flatMap_cons]
      exact ha.append hl
    · rw [List.flatMap_cons, List.length_append, Nat.add_assoc]

end

variable {kind : StreamKind} {b : ByteString} {type : GgufMetadataType} {i j w n : Nat}

@[simp] theorem length_number (order : ByteOrder) (width n : Nat) :
    (order.number width n).length = width := by
  cases order <;> simp [ByteOrder.number]

theorem readAt_number (h : Holds b i (ByteOrder.little.number w n)) (hn : n < 256 ^ w) :
    readAt i w b = n := h.readAt_eq hn

theorem readAt_string (hb : b.length < 2 ^ 63) {s : ByteString}
    (h : Holds b i (encodeString .little s)) : readAt i 8 b = s.length := by
  have hbound := h.bound
  rw [encodeString, List.length_append] at hbound
  exact readAt_number h.left (by norm_num at hb ⊢; omega)

theorem signed64_of_lt (h : n < 2 ^ 63) : signed64 n = n := if_pos h

theorem bitVec_lt (v : BitVec (8 * w)) : v.toNat < 256 ^ w := by
  have hlt := v.isLt
  rw [Nat.pow_mul] at hlt
  exact hlt

theorem toNat_ofNat_readAt (h : i + w ≤ b.length) :
    (BitVec.ofNat (8 * w) (readAt i w b)).toNat = readAt i w b := by
  have hlt := readAt_lt h
  rw [BitVec.toNat_ofNat, Nat.mod_eq_of_lt]
  rw [Nat.pow_mul]
  exact hlt

theorem exists_bits (h : i + w ≤ b.length) :
    ∃ v : BitVec (8 * w), Holds b i (ByteOrder.little.number w v.toNat) := by
  refine ⟨.ofNat (8 * w) (readAt i w b), ?_⟩
  rw [toNat_ofNat_readAt h]
  exact holds_readAt h

theorem ofFn_encode {item : GgufMetadataType} {m : Nat} (items : Fin m → Value item)
    (order : ByteOrder) : (List.ofFn (fun k ↦ (items k).encode order)).flatten =
      (List.ofFn items).flatMap (Value.encode order) := by
  rw [List.flatMap_def, List.map_ofFn]
  rfl

theorem lies_encode (kind : StreamKind) (hb : b.length < 2 ^ 63) (v : Value type)
    (h : Holds b i (v.encode .little)) :
    Lies kind b False type i (i + (v.encode .little).length) := by
  induction v generalizing i with
  | @scalar type w hw v =>
    have hbound := h.bound
    rw [Value.encode, length_number] at hbound ⊢
    exact .scalar hw hbound
  | string s =>
    have hlen := readAt_string hb h
    have hbound := h.bound
    rw [Value.encode, encodeString, List.length_append, length_number] at hbound ⊢
    refine .string (by omega) ?_ (admits_of_le hb hbound) (.inr (by omega))
    rw [hlen, signed64_of_lt (by omega)]
    omega
  | @array item hitem len items ih =>
    rw [Value.encode, ofFn_encode] at h ⊢
    have hbound := h.bound
    have htype : typeAt i b = item := by
      rw [typeAt, readAt_number h.left.left (by have := raw_lt hitem; omega), ofRaw_raw hitem]
    have hlen : readAt (i + 4) 8 b = len.toNat := by
      have hright := h.left.right
      rw [length_number] at hright
      exact readAt_number hright (bitVec_lt (w := 8) len)
    have hitems := h.right
    rw [List.length_append, length_number, length_number] at hitems
    have hchain := chain_of_holds (R := Lies kind b False item) (List.ofFn items)
      (fun v hv i hi ↦ by
        obtain ⟨k, rfl⟩ := List.mem_ofFn.mp hv
        exact ih k hi) hitems
    rw [List.length_ofFn] at hchain
    rw [List.length_append, List.length_append, length_number, length_number] at hbound ⊢
    rw [← Nat.add_assoc]
    refine lies_array (by omega) hlen ?_ (.inr (by rwa [htype]))
    rw [htype]
    exact hchain

theorem Lies.exists_value (h : Lies .memory b False type i j) :
    ∃ v : Value type, Holds b i (v.encode .little) ∧ j = i + (v.encode .little).length := by
  induction h with
  | @scalar type w i hw hi =>
    obtain ⟨v, hv⟩ := exists_bits hi
    exact ⟨.scalar hw v, hv, by rw [Value.encode, length_number]⟩
  | @string i j hi hj hadmits hforward =>
    have hlen : readAt i 8 b < 2 ^ 63 := hforward.resolve_left id
    rw [signed64_of_lt hlen] at hj
    have hfits : i + 8 + readAt i 8 b ≤ b.length := by
      have hle := hadmits.2
      omega
    have hslice := length_drop_take hfits
    refine ⟨.string ((b.drop (i + 8)).take (readAt i 8 b)), ?_, ?_⟩
    · rw [Value.encode, encodeString, hslice]
      refine Holds.append (holds_readAt hi) ?_
      rw [length_number]
      exact holds_take hfits
    · rw [Value.encode, encodeString, List.length_append, length_number, hslice]
      omega
  | @array i f hi hf _ hknown ih =>
    have hitem : (typeAt i b).Known := hknown.resolve_left id
    obtain ⟨l, hlen, hl, hj⟩ := (chain_of_forall ih).exists_list (fun i j h ↦ h) (hf ▸ hi)
    have hn : (BitVec.ofNat 64 (readAt (i + 4) 8 b)).toNat = l.length := by
      rw [hlen]
      exact toNat_ofNat_readAt (w := 8) (by omega)
    have hitems : List.ofFn (fun k ↦ l.get (k.cast hn)) = l :=
      List.ext_getElem (by simp [hn]) (by simp)
    refine ⟨.array hitem _ (fun k ↦ l.get (k.cast hn)), ?_, ?_⟩
    · have hraw : (typeAt i b).raw = readAt i 4 b := raw_ofRaw _
      rw [Value.encode, ofFn_encode, hitems, hn, hlen, hraw]
      have hheader : Holds b i (ByteOrder.little.number 4 (readAt i 4 b) ++
          ByteOrder.little.number 8 (readAt (i + 4) 8 b)) := by
        refine Holds.append (holds_readAt (by omega)) ?_
        rw [length_number]
        exact holds_readAt (by omega)
      refine Holds.append hheader ?_
      rw [List.length_append, length_number, length_number]
      rw [hf] at hl
      exact hl
    · rw [Value.encode, ofFn_encode, hitems, List.length_append, List.length_append,
        length_number, length_number, hj, hf]
      omega
  | unknown h => exact h.elim

end Cerberus.Gguf
