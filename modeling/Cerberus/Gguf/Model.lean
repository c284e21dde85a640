import Cerberus.Foundation.InputStream

namespace Cerberus.Gguf

open Foundation Foundation.Bytes

def ggufMagicBe : Nat := 0x47475546

def ggufMagicLe : Nat := 0x46554747

def ggufVersionV3 : Nat := 3

/-- What the parser takes from the platform: the longest string and the longest vector of bytes that
there can be, and the conversion of a single to a double, both as bit patterns. -/
structure Host where
  maxSize : Nat
  maxSize_lt : maxSize < 2 ^ 63
  vectorMaxSize : Nat
  vectorMaxSize_lt : vectorMaxSize < 2 ^ 63
  widen : BitVec 32 → BitVec 64

/-- A cast from an integer may name no enumerator. -/
inductive GgufMetadataType
  | uint8
  | int8
  | uint16
  | int16
  | uint32
  | int32
  | float32
  | bool
  | string
  | array
  | uint64
  | int64
  | float64
  | unknown (raw : Nat)
  deriving DecidableEq

def GgufMetadataType.ofRaw : Nat → GgufMetadataType
  | 0 => .uint8
  | 1 => .int8
  | 2 => .uint16
  | 3 => .int16
  | 4 => .uint32
  | 5 => .int32
  | 6 => .float32
  | 7 => .bool
  | 8 => .string
  | 9 => .array
  | 10 => .uint64
  | 11 => .int64
  | 12 => .float64
  | raw => .unknown raw

inductive GgmlType
  | f32
  | f16
  | q4_0
  | q5_0
  | q8_0
  | q4_K
  | q5_K
  | q6_K
  | iq4_nl
  | unknown (raw : Nat)
  deriving DecidableEq

def GgmlType.ofRaw : Nat → GgmlType
  | 0 => .f32
  | 1 => .f16
  | 2 => .q4_0
  | 6 => .q5_0
  | 7 => .q8_0
  | 12 => .q4_K
  | 13 => .q5_K
  | 14 => .q6_K
  | 23 => .iq4_nl
  | raw => .unknown raw

def ggmlTypeIsQuantized : GgmlType → Bool
  | .q4_0 | .q5_0 | .q8_0 | .q4_K | .q5_K | .q6_K | .iq4_nl => true
  | .f32 | .f16 | .unknown _ => false

inductive StoredValue
  | uint64 (v : BitVec 64)
  | int64 (v : BitVec 64)
  | double (bits : BitVec 64)
  | bool (v : Bool)
  | string (s : ByteString)
  deriving DecidableEq

structure GgufMetadataValue where
  key : ByteString
  type : GgufMetadataType
  value : StoredValue
  deriving DecidableEq

structure GgufTensorInfo where
  name : ByteString
  shape : List Nat
  dtype : GgmlType
  offsetInFile : Nat
  sizeBytes : Nat
  deriving DecidableEq

def numElements (shape : List Nat) : Nat := shape.foldl (fun n d ↦ n * d % 2 ^ 64) 1

def estimatedSize (dtype : GgmlType) (shape : List Nat) : Nat :=
  if ggmlTypeIsQuantized dtype then (numElements shape / 2 + 32) % 2 ^ 64
  else numElements shape * 4 % 2 ^ 64

structure GgufHeader where
  magic : Nat := 0
  version : Nat := 0
  tensorCount : Nat := 0
  metadataKvCount : Nat := 0
  deriving DecidableEq

def GgufHeader.isValid (h : GgufHeader) : Bool :=
  (h.magic == ggufMagicLe || h.magic == ggufMagicBe) && h.version == ggufVersionV3

structure GgufParser where
  header : GgufHeader := {}
  tensors : List GgufTensorInfo := []
  metadata : List GgufMetadataValue := []
  deriving DecidableEq

/-- How a call ends: it returns, or a string that is too long throws. -/
inductive Outcome
  | returned (ok : Bool)
  | lengthError
  deriving DecidableEq

section

variable (host : Host)

/-- The string is made in its full length before its bytes are read; `none` is the exception. -/
def readString (s : InputStream) : Option (ByteString × InputStream) :=
  let len := s.readNat 8
  if host.maxSize < len.1 then none
  else
    let got := len.2.read len.1
    some (got.1 ++ List.replicate (len.1 - got.1.length) 0, got.2)

def skipItems (skipItem : InputStream → Option (Bool × InputStream)) :
    Nat → InputStream → Option (Bool × InputStream)
  | 0, s => some (s.good, s)
  | n + 1, s => do
    let item ← skipItem s
    if item.1 then skipItems skipItem n item.2 else some (false, item.2)

/-- The recursion is cut off at a depth; `none` says that it goes deeper. -/
def skipMetadataValue : Nat → GgufMetadataType → InputStream → Option (Bool × InputStream)
  | 0, _, _ => none
  | depth + 1, type, s =>
    match type with
    | .uint8 | .int8 | .bool => some ((s.read 1).2.good, (s.read 1).2)
    | .uint16 | .int16 => some ((s.read 2).2.good, (s.read 2).2)
    | .uint32 | .int32 | .float32 => some ((s.read 4).2.good, (s.read 4).2)
    | .uint64 | .int64 | .float64 => some ((s.read 8).2.good, (s.read 8).2)
    | .string =>
      let len := s.readNat 8
      let s' := if 0 < len.1 then len.2.seekCur (signed64 len.1) else len.2
      some (s'.good, s')
    | .array =>
      let arrType := s.readNat 4
      let arrLen := arrType.2.readNat 8
      skipItems (skipMetadataValue depth (.ofRaw arrType.1)) arrLen.1 arrLen.2
    | .unknown _ => some (s.good, s)

/-- The loop over the elements of an array value goes on when an element fails. -/
def skipAll (skipItem : InputStream → Option (Bool × InputStream)) :
    Nat → InputStream → Option InputStream
  | 0, s => some s
  | n + 1, s => do
    let item ← skipItem s
    skipAll skipItem n item.2

def readScalar (width : Nat) (store : Nat → StoredValue) (s : InputStream) :
    StoredValue × InputStream :=
  (store (s.readNat width).1, (s.readNat width).2)

def toUnsigned (width n : Nat) : StoredValue := .uint64 ((BitVec.ofNat width n).setWidth 64)

def toSigned (width n : Nat) : StoredValue := .int64 ((BitVec.ofNat width n).signExtend 64)

/-- The value of a key; `none` inside is the exception. -/
def readValue (depth : Nat) (type : GgufMetadataType) (s : InputStream) :
    Option (Option (StoredValue × InputStream)) :=
  match type with
  | .uint8 => some (some (readScalar 1 (toUnsigned 8) s))
  | .int8 => some (some (readScalar 1 (toSigned 8) s))
  | .uint16 => some (some (readScalar 2 (toUnsigned 16) s))
  | .int16 => some (some (readScalar 2 (toSigned 16) s))
  | .uint32 => some (some (readScalar 4 (toUnsigned 32) s))
  | .int32 => some (some (readScalar 4 (toSigned 32) s))
  | .float32 => some (some (readScalar 4 (fun n ↦ .double (host.widen (.ofNat 32 n))) s))
  | .bool => some (some (readScalar 1 (fun n ↦ .bool (n != 0)) s))
  | .string => some ((readString host s).map (fun e ↦ (.string e.1, e.2)))
  | .uint64 => some (some (readScalar 8 (toUnsigned 64) s))
  | .int64 => some (some (readScalar 8 (toSigned 64) s))
  | .float64 => some (some (readScalar 8 (fun n ↦ .double (.ofNat 64 n)) s))
  | .array =>
    let arrType := s.readNat 4
    let arrLen := arrType.2.readNat 8
    (skipAll (skipMetadataValue depth (.ofRaw arrType.1)) arrLen.1 arrLen.2).map
      (fun s' ↦ some (.string (lit "[array]"), s'))
  | .unknown _ => some (some (.uint64 0, s))

namespace GgufParser

def keepValue (p : GgufParser) (s : InputStream) (key : ByteString) (type : GgufMetadataType) :
    Option (StoredValue × InputStream) → Outcome × GgufParser × InputStream
  | none => (.lengthError, p, s)
  | some (v, s₂) =>
    if s₂.good then
      (.returned true, { p with metadata := p.metadata ++ [⟨key, type, v⟩] }, s₂)
    else (.returned false, p, s₂)

def parseMetadataKv (depth : Nat) (p : GgufParser) (s : InputStream) :
    Option (Outcome × GgufParser × InputStream) :=
  match readString host s with
  | none => some (.lengthError, p, s)
  | some (key, s₁) =>
    let typeRaw := s₁.readNat 4
    (readValue host depth (.ofRaw typeRaw.1) typeRaw.2).map
      (p.keepValue s key (.ofRaw typeRaw.1))

def readShape : Nat → InputStream → List Nat × InputStream
  | 0, s => ([], s)
  | n + 1, s =>
    let dim := s.readNat 8
    let rest := readShape n dim.2
    (dim.1 :: rest.1, rest.2)

/-- The tensor is kept even if reading it failed. -/
def parseTensorInfo (p : GgufParser) (s : InputStream) : Outcome × GgufParser × InputStream :=
  match readString host s with
  | none => (.lengthError, p, s)
  | some (name, s₁) =>
    let ndim := s₁.readNat 4
    let shape := readShape ndim.1 ndim.2
    let dtypeRaw := shape.2.readNat 4
    let offset := dtypeRaw.2.readNat 8
    let dtype := GgmlType.ofRaw dtypeRaw.1
    (.returned offset.2.good,
      { p with tensors := p.tensors ++
        [⟨name, shape.1, dtype, offset.1, estimatedSize dtype shape.1⟩] }, offset.2)

def parseMetadata (depth : Nat) :
    Nat → GgufParser → InputStream → Option (Outcome × GgufParser × InputStream)
  | 0, p, s => some (.returned true, p, s)
  | n + 1, p, s => do
    let kv ← p.parseMetadataKv host depth s
    if kv.1 = .returned true then parseMetadata depth n kv.2.1 kv.2.2 else some kv

def parseTensors : Nat → GgufParser → InputStream → Outcome × GgufParser × InputStream
  | 0, p, s => (.returned true, p, s)
  | n + 1, p, s =>
    let info := p.parseTensorInfo host s
    if info.1 = .returned true then parseTensors n info.2.1 info.2.2 else info

def parseStream (depth : Nat) (s : InputStream) : Option (Outcome × GgufParser) :=
  let magic := s.readNat 4
  let version := magic.2.readNat 4
  let p : GgufParser := { header := { magic := magic.1, version := version.1 } }
  if ¬p.header.isValid then some (.returned false, p)
  else
    let tensorCount := version.2.readNat 8
    let kvCount := tensorCount.2.readNat 8
    let p : GgufParser := { header := { p.header with
      tensorCount := tensorCount.1
      metadataKvCount := kvCount.1 } }
    (p.parseMetadata host depth kvCount.1 kvCount.2).map (fun kvs ↦
      if kvs.1 = .returned true then
        let tensors := kvs.2.1.parseTensors host tensorCount.1 kvs.2.2
        (tensors.1, tensors.2.1)
      else (kvs.1, kvs.2.1))

/-- A file that holds some bytes; one that cannot be opened holds none. -/
def parseHeader (depth : Nat) (file : Option ByteString) : Option (Outcome × GgufParser) :=
  match file with
  | none => some (.returned false, {})
  | some bytes => parseStream host depth { kind := .file, bytes := bytes }

def parseFromMemory (depth : Nat) (data : ByteString) : Option (Outcome × GgufParser) :=
  if data = [] then some (.returned false, {})
  else if host.maxSize < data.length then some (.lengthError, {})
  else parseStream host depth { kind := .memory, bytes := data }

end GgufParser

end

end Cerberus.Gguf
