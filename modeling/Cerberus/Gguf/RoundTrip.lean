import Cerberus.Gguf.Nesting

namespace Cerberus.Gguf

open Foundation Foundation.Bytes Foundation.LittleEndian InputStream GgufParser

variable {host : Host} {kind : StreamKind} {b : ByteString} {type : GgufMetadataType}
  {n m i j k d d' : Nat} {s : InputStream} {p : GgufParser}

theorem readValue_mono (hd : d ≤ d') {r : Option (StoredValue × InputStream)}
    (h : readValue host d type s = some r) : readValue host d' type s = some r := by
  cases type with
  | array =>
    rw [readValue, Option.map_eq_some_iff] at h ⊢
    obtain ⟨s', hall, heq⟩ := h
    exact ⟨s', skipAll_mono (fun s r h ↦ skip_mono hd h) hall, heq⟩
  | _ => exact h

theorem parseMetadataKv_mono (hd : d ≤ d') {r : Outcome × GgufParser × InputStream}
    (h : p.parseMetadataKv host d s = some r) : p.parseMetadataKv host d' s = some r := by
  unfold parseMetadataKv at h ⊢
  cases hkey : readString host s with
  | none =>
    rw [hkey] at h
    exact h
  | some e =>
    rw [hkey] at h
    dsimp only at h ⊢
    rw [Option.map_eq_some_iff] at h ⊢
    obtain ⟨v, hv, heq⟩ := h
    exact ⟨v, readValue_mono hd hv, heq⟩

theorem parseMetadata_mono (hd : d ≤ d') {r : Outcome × GgufParser × InputStream}
    (h : p.parseMetadata host d n s = some r) : p.parseMetadata host d' n s = some r := by
  induction n generalizing p s with
  | zero => exact h
  | succ n ih =>
    rw [parseMetadata, Option.bind_eq_bind, Option.bind_eq_some_iff] at h
    obtain ⟨kv, hkv, h⟩ := h
    rw [parseMetadata, Option.bind_eq_bind, parseMetadataKv_mono hd hkv, Option.bind_some]
    split at h
    · rw [if_pos ‹_›]
      exact ih h
    · rw [if_neg ‹_›]
      exact h

theorem stringLies_encode (hb : b.length < 2 ^ 63) {str : ByteString}
    (h : Holds b i (encodeString .little str)) :
    StringLies b i (i + (encodeString .little str).length) ∧
      (b.drop (i + 8)).take (readAt i 8 b) = str := by
  have hlen := readAt_string hb h
  have hbound := h.bound
  rw [encodeString, List.length_append, length_number] at hbound ⊢
  refine ⟨⟨by rw [hlen]; omega, hbound⟩, ?_⟩
  have hright := h.right
  rw [length_number] at hright
  rw [hlen]
  exact hright.take

theorem readValue_encode (hb : b.length ≤ host.maxSize) (v : Value type)
    (h : Holds b i (v.encode .little)) :
    ∃ d, readValue host d type (atPos kind b i) =
      some (some (v.stored host, atPos kind b (i + (v.encode .little).length))) := by
  cases v with
  | scalar hw v =>
    rw [Value.encode] at h
    have hbound := h.bound
    rw [length_number] at hbound
    refine ⟨0, ?_⟩
    rw [readValue_scalar hw, readNat_full hbound, readAt_number h (bitVec_lt v), BitVec.ofNat_toNat,
      BitVec.setWidth_eq, Value.encode, length_number]
    rfl
  | string str =>
    obtain ⟨hlies, hstr⟩ := stringLies_encode (host.short hb) h
    refine ⟨0, ?_⟩
    rw [readValue, readString_full hb hlies, hstr]
    rfl
  | array hitem len items =>
    obtain ⟨hi, d, hd⟩ := skipAll_of_lies (lies_encode kind (host.short hb) _ h).relax
    refine ⟨d, ?_⟩
    rw [readValue_array hi, hd]
    rfl

theorem parseMetadataKv_encode (kind : StreamKind) (hb : b.length ≤ host.maxSize)
    (kv : KeyValue) (h : Holds b i (kv.encode .little)) : ∃ d, ∀ p : GgufParser,
      p.parseMetadataKv host d (atPos kind b i) = some (.returned true,
        { p with metadata := p.metadata ++ [kv.stored host] },
        atPos kind b (i + (kv.encode .little).length)) := by
  obtain ⟨hkey, hstr⟩ := stringLies_encode (host.short hb) h.left.left
  have htag := h.left.right
  have hvalue := h.right
  rw [List.length_append, length_number, ← Nat.add_assoc] at hvalue
  have htype : typeAt (i + (encodeString .little kv.key).length) b = kv.type := by
    have hlt := raw_lt kv.value.known
    rw [typeAt, readAt_number htag (by omega), ofRaw_raw kv.value.known]
  have hbound := htag.bound
  rw [length_number] at hbound
  obtain ⟨d, hd⟩ := readValue_encode hb kv.value hvalue
  refine ⟨d, fun p ↦ ?_⟩
  rw [parseMetadataKv_at hb hkey hbound, htype, hd, hstr, KeyValue.encode, List.length_append,
    List.length_append, length_number, ← Nat.add_assoc, ← Nat.add_assoc]
  rfl

theorem parseMetadata_encode (kind : StreamKind) (hb : b.length ≤ host.maxSize)
    (kvs : List KeyValue) (h : Holds b i (kvs.flatMap (fun kv ↦ kv.encode .little))) : ∃ d, ∀ p : GgufParser,
      p.parseMetadata host d kvs.length (atPos kind b i) = some (.returned true,
        { p with metadata := p.metadata ++ kvs.map (fun kv ↦ kv.stored host) },
        atPos kind b (i + (kvs.flatMap (fun kv ↦ kv.encode .little)).length)) := by
  induction kvs generalizing i with
  | nil => exact ⟨0, fun p ↦ by simp [parseMetadata]⟩
  | cons kv kvs ih =>
    rw [List.flatMap_cons] at h
    obtain ⟨d₁, hd₁⟩ := parseMetadataKv_encode kind hb kv h.left
    obtain ⟨d₂, hd₂⟩ := ih h.right
    refine ⟨max d₁ d₂, fun p ↦ ?_⟩
    rw [List.length_cons, parseMetadata, Option.bind_eq_bind,
      parseMetadataKv_mono (le_max_left d₁ d₂) (hd₁ p), Option.bind_some, if_pos rfl,
      parseMetadata_mono (le_max_right d₁ d₂) (hd₂ _)]
    simp [Nat.add_assoc]

theorem readShape_encode (shape : List (BitVec 64))
    (h : Holds b i (shape.flatMap (fun d ↦ ByteOrder.little.number 8 d.toNat))) :
    readShape shape.length (atPos kind b i) = (shape.map (fun d ↦ d.toNat), atPos kind b
      (i + (shape.flatMap (fun d ↦ ByteOrder.little.number 8 d.toNat)).length)) := by
  induction shape generalizing i with
  | nil => rfl
  | cons dim shape ih =>
    rw [List.flatMap_cons] at h
    have hbound := h.left.bound
    rw [length_number] at hbound
    have hrest := h.right
    rw [length_number] at hrest
    rw [List.length_cons, readShape, readNat_full hbound,
      readAt_number h.left (bitVec_lt (w := 8) dim)]
    simp [ih hrest, Nat.add_assoc]

theorem parseTensorInfo_encode (hb : b.length ≤ host.maxSize) (t : TensorInfo)
    (h : Holds b i (t.encode .little)) (p : GgufParser) :
    p.parseTensorInfo host (atPos kind b i) = (.returned true,
      { p with tensors := p.tensors ++ [t.stored] },
      atPos kind b (i + (t.encode .little).length)) := by
  obtain ⟨hname, hstr⟩ := stringLies_encode (host.short hb) h.left.left.left.left
  have hrank := h.left.left.left.right
  have hshape := h.left.left.right
  have hdtype := h.left.right
  have hoffset := h.right
  simp only [List.length_append, length_number, ← Nat.add_assoc] at hshape hdtype hoffset
  have hrank' := hrank.bound
  have hdtype' := hdtype.bound
  have hoffset' := hoffset.bound
  rw [length_number] at hrank' hdtype' hoffset'
  rw [parseTensorInfo, readString_full hb hname, hstr]
  dsimp only
  rw [readNat_full hrank', readAt_number hrank t.rank_lt]
  dsimp only
  rw [readShape_encode t.shape hshape]
  dsimp only
  rw [readNat_full hdtype', readAt_number hdtype (bitVec_lt (w := 4) t.dtype)]
  dsimp only
  rw [readNat_full hoffset', readAt_number hoffset (bitVec_lt (w := 8) t.offset)]
  simp only [TensorInfo.encode, List.length_append, length_number, ← Nat.add_assoc]
  rfl

theorem parseTensors_encode (hb : b.length ≤ host.maxSize) (tensors : List TensorInfo)
    (h : Holds b i (tensors.flatMap (fun t ↦ t.encode .little))) (p : GgufParser) :
    p.parseTensors host tensors.length (atPos kind b i) = (.returned true,
      { p with tensors := p.tensors ++ tensors.map (fun t ↦ t.stored) },
      atPos kind b (i + (tensors.flatMap (fun t ↦ t.encode .little)).length)) := by
  induction tensors generalizing i p with
  | nil => simp [parseTensors]
  | cons t tensors ih =>
    rw [List.flatMap_cons] at h
    rw [List.length_cons, parseTensors, parseTensorInfo_encode hb t h.left, if_pos rfl,
      ih h.right]
    simp [Nat.add_assoc]

def ValidStart (b : ByteString) : Prop :=
  (readAt 0 4 b = ggufMagicLe ∨ readAt 0 4 b = ggufMagicBe) ∧ readAt 4 4 b = ggufVersionV3

def headerAt (b : ByteString) : GgufHeader where
  magic := readAt 0 4 b
  version := readAt 4 4 b
  tensorCount := readAt 8 8 b
  metadataKvCount := readAt 16 8 b

def parseBody (host : Host) (d : Nat) (b : ByteString) (s : InputStream) :
    Option (Outcome × GgufParser) :=
  (parseMetadata host d (readAt 16 8 b) { header := headerAt b } s).map (fun kvs ↦
    if kvs.1 = .returned true then
      let tensors := kvs.2.1.parseTensors host (readAt 8 8 b) kvs.2.2
      (tensors.1, tensors.2.1)
    else (kvs.1, kvs.2.1))

theorem isValid_iff {header : GgufHeader} : header.isValid = true ↔
    (header.magic = ggufMagicLe ∨ header.magic = ggufMagicBe) ∧
      header.version = ggufVersionV3 := by
  simp [GgufHeader.isValid]

theorem parseStream_start (host : Host) (kind : StreamKind) (b : ByteString) :
    ∃ s, Passed kind b 24 s ∧ ∀ d, (ValidStart b →
        parseStream host d (atPos kind b 0) = parseBody host d b s) ∧
      (¬ValidStart b → parseStream host d (atPos kind b 0) = some (.returned false,
        { header := { magic := readAt 0 4 b, version := readAt 4 4 b } })) := by
  have h0 : Passed kind b 0 (atPos kind b 0) := .inl ⟨Nat.zero_le _, rfl⟩
  obtain ⟨hmagic, h4⟩ := h0.readNat (n := 4) (by decide)
  obtain ⟨hversion, h8⟩ := h4.readNat (n := 4) (by decide)
  obtain ⟨htensors, h16⟩ := h8.readNat (n := 8) (by decide)
  obtain ⟨hkvs, h24⟩ := h16.readNat (n := 8) (by decide)
  refine ⟨_, h24, fun d ↦ ⟨fun hstart ↦ ?_, fun hstart ↦ ?_⟩⟩
  · rw [parseStream, hmagic, hversion, if_neg]
    · dsimp only
      rw [htensors, hkvs]
      rfl
    · rw [not_not, isValid_iff]
      exact hstart
  · rw [parseStream, hmagic, hversion, if_pos]
    rw [isValid_iff]
    exact hstart

theorem Passed.eq_atPos {s : InputStream} (h : Passed kind b i s) (hi : i ≤ b.length) :
    s = atPos kind b i := by
  rcases h with ⟨-, hs⟩ | ⟨hlt, -⟩
  · exact hs
  · omega

theorem length_le_flatMap {α : Type} {encode : α → ByteString} (h : ∀ a, encode a ≠ [])
    (l : List α) : l.length ≤ (l.flatMap encode).length := by
  induction l with
  | nil => simp
  | cons a l ih =>
    have hpos := List.length_pos_iff.mpr (h a)
    rw [List.flatMap_cons, List.length_append, List.length_cons]
    omega

theorem KeyValue.encode_ne_nil (order : ByteOrder) (kv : KeyValue) : kv.encode order ≠ [] := by
  intro h
  have hlen := congrArg List.length h
  simp [KeyValue.encode, encodeString] at hlen

theorem TensorInfo.encode_ne_nil (order : ByteOrder) (t : TensorInfo) : t.encode order ≠ [] := by
  intro h
  have hlen := congrArg List.length h
  simp [TensorInfo.encode, encodeString] at hlen

structure Parts (b : ByteString) (c : Content) : Prop where
  long : 24 ≤ b.length
  magic : readAt 0 4 b = ggufMagicLe
  version : readAt 4 4 b = ggufVersionV3
  tensorCount : readAt 8 8 b = c.tensors.length
  kvCount : readAt 16 8 b = c.kvs.length
  kvs : Holds b 24 (c.kvs.flatMap (fun kv ↦ kv.encode .little))
  tensors : Holds b (24 + (c.kvs.flatMap (fun kv ↦ kv.encode .little)).length)
    (c.tensors.flatMap (fun t ↦ t.encode .little))

theorem parts_encode (hb : b.length < 2 ^ 63) {c : Content} (h : Holds b 0 (c.encode .little)) :
    Parts b c := by
  have hmagic := h.left.left.left.left
  have hversion := h.left.left.left.right
  have htensorCount := h.left.left.right
  have hkvCount := h.left.right
  have hkvs := h.right.left
  have htensors := h.right.right
  simp only [List.length_append, length_number] at hversion htensorCount hkvCount hkvs htensors
  have hkvs' : c.kvs.length ≤ (c.kvs.flatMap (fun kv ↦ kv.encode .little)).length :=
    length_le_flatMap (fun kv ↦ kv.encode_ne_nil .little) c.kvs
  have htensors' : c.tensors.length ≤ (c.tensors.flatMap (fun t ↦ t.encode .little)).length :=
    length_le_flatMap (fun t ↦ t.encode_ne_nil .little) c.tensors
  have hbound := hkvs.bound
  have hbound' := htensors.bound
  refine ⟨by omega, readAt_number hmagic (by decide), readAt_number hversion (by decide),
    readAt_number htensorCount ?_, readAt_number hkvCount ?_, hkvs, htensors⟩
  · norm_num at hb ⊢
    omega
  · norm_num at hb ⊢
    omega

def sampleHost : Host where
  maxSize := 2 ^ 62 - 1
  maxSize_lt := by decide
  vectorMaxSize := 2 ^ 63 - 1
  vectorMaxSize_lt := by decide
  widen v := v.extractLsb' 31 1 ++ ((v.extractLsb' 23 8).setWidth 11 + 896#11) ++
    v.extractLsb' 0 23 ++ 0#29

def sample : Content where
  kvs := [
    ⟨[102], .float32, .scalar (w := 4) rfl 0x3f800000#32⟩,
    ⟨[110, 97], .array, @Value.array .array (by simp [GgufMetadataType.Known]) 1#64
      (fun _ ↦ @Value.array .string (by simp [GgufMetadataType.Known]) 2#64
        (fun k ↦ .string (List.replicate k.val 97)))⟩]
  tensors := [⟨[119], [2#64, 3#64], by decide, 12#32, 0#64⟩]

example : (sample.parsed sampleHost).metadata.map (fun mv ↦ mv.value) =
    [.double 0x3ff0000000000000#64, .string (lit "[array]")] := by decide

end Cerberus.Gguf
