import Cerberus.Foundation.LittleEndian

namespace Cerberus.Slipstream

open Foundation.Bytes Foundation.LittleEndian

/-- The underlying value of the enumeration: a header may carry any. -/
structure SlipstreamMessageType where
  value : UInt16
  deriving DecidableEq

namespace SlipstreamMessageType

def cmdExecute : SlipstreamMessageType := ⟨0x0200⟩
def cmdResponse : SlipstreamMessageType := ⟨0x0201⟩

end SlipstreamMessageType

def slipMagic : UInt32 := 0x534C4950

structure SlipstreamMessageHeader where
  magic : UInt32 := slipMagic
  version : UInt16 := 1
  type : UInt16 := 0x0001
  flags : UInt16 := 0
  payloadLength : UInt32 := 0
  sequenceNumber : UInt32 := 0
  timestampUs : UInt32 := 0
  sessionId : Fin 8 → UInt8 := fun _ ↦ 0
  padding : Fin 2 → UInt8 := fun _ ↦ 0
  deriving DecidableEq

/-- `sizeof(SlipstreamMessageHeader)` -/
def headerSize : Nat := 32

namespace SlipstreamMessageHeader

def isValid (h : SlipstreamMessageHeader) : Bool := h.magic == slipMagic

def bytes (h : SlipstreamMessageHeader) : ByteString :=
  littleEndian 4 h.magic.toNat ++ (littleEndian 2 h.version.toNat ++
    (littleEndian 2 h.type.toNat ++ (littleEndian 2 h.flags.toNat ++
      (littleEndian 4 h.payloadLength.toNat ++ (littleEndian 4 h.sequenceNumber.toNat ++
        (littleEndian 4 h.timestampUs.toNat ++
          (List.ofFn h.sessionId ++ List.ofFn h.padding)))))))

def ofBytes (data : ByteString) : SlipstreamMessageHeader where
  magic := .ofNat (readAt 0 4 data)
  version := .ofNat (readAt 4 2 data)
  type := .ofNat (readAt 6 2 data)
  flags := .ofNat (readAt 8 2 data)
  payloadLength := .ofNat (readAt 10 4 data)
  sequenceNumber := .ofNat (readAt 14 4 data)
  timestampUs := .ofNat (readAt 18 4 data)
  sessionId := fun i ↦ (data.drop 22).getD i 0
  padding := fun i ↦ (data.drop 30).getD i 0

end SlipstreamMessageHeader

structure SlipstreamMessage where
  header : SlipstreamMessageHeader := {}
  payload : ByteString := []
  deriving DecidableEq

namespace SlipstreamMessage

def getType (m : SlipstreamMessage) : SlipstreamMessageType := ⟨m.header.type⟩

def serialize (m : SlipstreamMessage) : ByteString := m.header.bytes ++ m.payload

def deserialize (data : ByteString) : Option SlipstreamMessage :=
  if data.length < headerSize then none
  else
    let header := SlipstreamMessageHeader.ofBytes data
    if !header.isValid then none
    else if data.length - headerSize < header.payloadLength.toNat then none
    else some { header, payload := (data.drop headerSize).take header.payloadLength.toNat }

def create (type : SlipstreamMessageType) (data : ByteString) (seq : UInt32) (nowUs : Int) :
    SlipstreamMessage where
  header :=
    { type := type.value
      payloadLength := .ofNat data.length
      sequenceNumber := seq
      timestampUs := .ofInt nowUs }
  payload := data

structure WellFormed (m : SlipstreamMessage) : Prop where
  valid : m.header.isValid
  length : m.header.payloadLength.toNat = m.payload.length

end SlipstreamMessage

variable {h : SlipstreamMessageHeader} {m : SlipstreamMessage} {data rest : ByteString}

@[simp] theorem length_bytes : h.bytes.length = headerSize := by
  simp [SlipstreamMessageHeader.bytes, headerSize]

theorem getD_ofFn {k : Nat} (g : Fin k → UInt8) (i : Fin k) :
    (List.ofFn g ++ rest).getD i 0 = g i := by
  simp [List.getD_eq_getElem?_getD, List.getElem?_append_left]

theorem ofFn_getD {k : Nat} (hk : k ≤ data.length) :
    List.ofFn (fun i : Fin k ↦ data.getD i 0) = data.take k := by
  refine List.ext_getElem? (fun i ↦ ?_)
  by_cases hi : i < k
  · have hlt : i < data.length := by omega
    simp [hi, hlt]
  · simp [hi]

def SlipstreamMessageHeader.numbers (h : SlipstreamMessageHeader) : ByteString :=
  littleEndian 4 h.magic.toNat ++ (littleEndian 2 h.version.toNat ++
    (littleEndian 2 h.type.toNat ++ (littleEndian 2 h.flags.toNat ++
      (littleEndian 4 h.payloadLength.toNat ++ (littleEndian 4 h.sequenceNumber.toNat ++
        littleEndian 4 h.timestampUs.toNat)))))

theorem bytes_append (h : SlipstreamMessageHeader) (rest : ByteString) :
    h.bytes ++ rest = h.numbers ++ (List.ofFn h.sessionId ++ (List.ofFn h.padding ++ rest)) := by
  simp [SlipstreamMessageHeader.bytes, SlipstreamMessageHeader.numbers]

theorem length_numbers : h.numbers.length = 22 := by
  simp [SlipstreamMessageHeader.numbers]

theorem ofBytes_bytes (h : SlipstreamMessageHeader) (rest : ByteString) :
    SlipstreamMessageHeader.ofBytes (h.bytes ++ rest) = h := by
  have hmagic : h.magic.toNat < 256 ^ 4 := h.magic.toNat_lt
  have hversion : h.version.toNat < 256 ^ 2 := h.version.toNat_lt
  have htype : h.type.toNat < 256 ^ 2 := h.type.toNat_lt
  have hflags : h.flags.toNat < 256 ^ 2 := h.flags.toNat_lt
  have hlength : h.payloadLength.toNat < 256 ^ 4 := h.payloadLength.toNat_lt
  have hseq : h.sequenceNumber.toNat < 256 ^ 4 := h.sequenceNumber.toNat_lt
  have htime : h.timestampUs.toNat < 256 ^ 4 := h.timestampUs.toNat_lt
  have hsession : (h.bytes ++ rest).drop 22 =
      List.ofFn h.sessionId ++ (List.ofFn h.padding ++ rest) := by
    rw [bytes_append, List.drop_left' length_numbers]
  have hpadding : (h.bytes ++ rest).drop 30 = List.ofFn h.padding ++ rest := by
    rw [show (30 : Nat) = 22 + 8 from rfl, ← List.drop_drop, hsession,
      List.drop_left' List.length_ofFn]
  rw [SlipstreamMessageHeader.ofBytes, hsession, hpadding]
  simp only [getD_ofFn, SlipstreamMessageHeader.bytes, List.append_assoc]
  simp (disch := decide) only [readAt_skip, Nat.reduceSub, readAt_here hmagic,
    readAt_here hversion, readAt_here htype, readAt_here hflags, readAt_here hlength,
    readAt_here hseq, readAt_here htime, UInt32.ofNat_toNat, UInt16.ofNat_toNat]

theorem toNat_readAt_two {offset : Nat} (h : offset + 2 ≤ data.length) :
    (UInt16.ofNat (readAt offset 2 data)).toNat = readAt offset 2 data :=
  UInt16.toNat_ofNat_of_lt (readAt_lt h)

theorem toNat_readAt_four {offset : Nat} (h : offset + 4 ≤ data.length) :
    (UInt32.ofNat (readAt offset 4 data)).toNat = readAt offset 4 data :=
  UInt32.toNat_ofNat_of_lt (readAt_lt h)

theorem bytes_ofBytes (h : headerSize ≤ data.length) :
    (SlipstreamMessageHeader.ofBytes data).bytes = data.take headerSize := by
  rw [headerSize] at h
  have hsession : List.ofFn (SlipstreamMessageHeader.ofBytes data).sessionId =
      (data.drop 22).take 8 := ofFn_getD (by rw [List.length_drop]; omega)
  have hpadding : List.ofFn (SlipstreamMessageHeader.ofBytes data).padding =
      (data.drop 30).take 2 := ofFn_getD (by rw [List.length_drop]; omega)
  have hholds : Holds data 0 (SlipstreamMessageHeader.ofBytes data).bytes := by
    rw [SlipstreamMessageHeader.bytes, hsession, hpadding]
    simp only [SlipstreamMessageHeader.ofBytes]
    rw [toNat_readAt_four (by omega), toNat_readAt_two (by omega), toNat_readAt_two (by omega),
      toNat_readAt_two (by omega), toNat_readAt_four (by omega), toNat_readAt_four (by omega),
      toNat_readAt_four (by omega)]
    refine .after_number (.after_number (.after_number (.after_number (.after_number
      (.after_number (.after_number ?_))))))
    refine (holds_take (by omega)).append ?_
    rw [length_drop_take (by omega)]
    exact holds_take (by omega)
  have htake := hholds.take
  rw [length_bytes, List.drop_zero] at htake
  exact htake.symm

namespace SlipstreamMessage

theorem WellFormed.deserialize_serialize (hm : m.WellFormed) (t : ByteString) :
    deserialize (m.serialize ++ t) = some m := by
  have hlen : (m.header.bytes ++ (m.payload ++ t)).length =
      headerSize + m.payload.length + t.length := by
    simp [Nat.add_assoc]
  rw [serialize, List.append_assoc, deserialize, hlen, if_neg (by omega), ofBytes_bytes]
  simp only [hm.valid, hm.length, Bool.not_true, Bool.false_eq_true, if_false]
  rw [if_neg (by omega), List.drop_left' length_bytes, List.take_left' rfl]

theorem create_wellFormed {type : SlipstreamMessageType} {seq : UInt32} {nowUs : Int}
    (h : data.length < 2 ^ 32) : (create type data seq nowUs).WellFormed where
  valid := by rfl
  length := UInt32.toNat_ofNat_of_lt h

theorem serialize_isPrefix (h : deserialize data = some m) : m.serialize <+: data := by
  unfold deserialize at h
  split at h
  case isTrue => contradiction
  case isFalse hlong =>
    dsimp only at h
    split at h
    case isTrue => contradiction
    case isFalse hvalid =>
      split at h
      case isTrue => contradiction
      case isFalse hpayload =>
        rw [← Option.some_inj.mp h, serialize]
        dsimp only
        rw [bytes_ofBytes (by omega), ← List.take_add]
        exact List.take_prefix _ _

end SlipstreamMessage

end Cerberus.Slipstream
