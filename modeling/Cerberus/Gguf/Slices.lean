import Cerberus.Gguf.RoundTrip
import Mathlib.Algebra.BigOperators.Group.List.Basic

namespace Cerberus.Gguf

open Foundation Foundation.Bytes Foundation.LittleEndian InputStream

def seekBeg (off : Int) (s : InputStream) : InputStream :=
  if s.good then
    if s.kind.admits s.bytes.length off then { s with pos := off.toNat } else { s with good := false }
  else s

/-- How a load ends: it returns how many bytes it has read, with what the buffer then holds, or the
buffer cannot be that long. -/
inductive Loaded
  | returned (count : Nat) (outData : ByteString)
  | lengthError
  deriving DecidableEq

namespace GgufParser

def getMetadataUint64 (p : GgufParser) (key : ByteString) : Option Nat :=
  p.metadata.findSome? (fun kv ↦
    if kv.key = key then
      match kv.value with
      | .uint64 v => some v.toNat
      | _ => none
    else none)

def named (p : GgufParser) (tensorName : ByteString) : Option GgufTensorInfo :=
  p.tensors.find? (fun t ↦ t.name = tensorName)

/-- A file that cannot be opened is `none`. What the buffer held before is what is left of it
behind the bytes that were read. -/
def loadTensorSlice (host : Host) (p : GgufParser) (file : Option ByteString)
    (tensorName : ByteString) (byteOffset maxBytes : UInt64) (outData : ByteString) : Loaded :=
  match p.named tensorName with
  | none => .returned 0 outData
  | some info =>
    match file with
    | none => .returned 0 outData
    | some bytes =>
      let dataStart := info.offsetInFile
      let f := seekBeg (signed64 ((dataStart + byteOffset.toNat) % 2 ^ 64))
        { kind := .file, bytes := bytes }
      if ¬f.good then .returned 0 outData
      else
        let toRead := min maxBytes.toNat ((info.sizeBytes + 2 ^ 64 - byteOffset.toNat) % 2 ^ 64)
        if host.vectorMaxSize < toRead then .lengthError
        else
          let resized := outData.take toRead ++ List.replicate (toRead - outData.length) 0
          let got := (f.read toRead).1
          .returned got.length (got ++ resized.drop got.length)

end GgufParser

open GgufParser

structure ParsedFile (host : Host) where
  bytes : ByteString
  depth : Nat
  parser : GgufParser
  parses : parseHeader host depth (some bytes) = some (.returned true, parser)

variable {host : Host}

structure PlainTensor (f : ParsedFile host) where
  info : GgufTensorInfo
  mem : info ∈ f.parser.tensors
  plain : info.dtype = .f32 ∨ info.dtype = .f16

/-! Where the format puts the weights. -/

def alignUp (a n : Nat) : Nat := n + (a - n % a) % a

namespace ParsedFile

variable (f : ParsedFile host)

def recordsEnd : Nat :=
  ((parseMetadata host f.depth (readAt 16 8 f.bytes) { header := headerAt f.bytes }
    (atPos .file f.bytes 24)).map (fun kvs ↦
      (kvs.2.1.parseTensors host (readAt 8 8 f.bytes) kvs.2.2).2.2.pos)).getD 0

def alignment : Nat := (f.parser.getMetadataUint64 (lit "general.alignment")).getD 32

def dataSection : Nat := alignUp f.alignment f.recordsEnd

end ParsedFile

namespace PlainTensor

variable {f : ParsedFile host} (t : PlainTensor f)

def size : Nat := t.info.shape.prod * if t.info.dtype = .f16 then 2 else 4

def start : Nat := f.dataSection + t.info.offsetInFile

def bytes : ByteString := (f.bytes.drop t.start).take t.size

end PlainTensor

def reckonedSize (info : GgufTensorInfo) : Nat :=
  if ggmlTypeIsQuantized info.dtype then info.shape.prod / 2 + 32 else info.shape.prod * 4

structure SizeFits (info : GgufTensorInfo) : Prop where
  elements : ∀ k, (info.shape.take k).prod < 2 ^ 64
  size : reckonedSize info < 2 ^ 64

def readPosition (info : GgufTensorInfo) (byteOffset : UInt64) : Nat :=
  (info.offsetInFile + byteOffset.toNat) % 2 ^ 64

/-- The call returns no more bytes than it was asked for, all of them the tensor's own from the
offset on, none from its end on; and no computation of a size wraps that it makes. -/
structure ServesSlice {f : ParsedFile host} (t : PlainTensor f) (byteOffset maxBytes : UInt64)
    (outData : ByteString) : Prop where
  returned : ∃ got rest, f.parser.loadTensorSlice host (some f.bytes) t.info.name byteOffset
      maxBytes outData = .returned got.length (got ++ rest) ∧ got.length ≤ maxBytes.toNat ∧
    got <+: t.bytes.drop byteOffset.toNat ∧ (t.size ≤ byteOffset.toNat → got = [])
  fits : ∀ info, info = t.info ∨ f.parser.named t.info.name = some info → SizeFits info
  subtracts : ∀ info, f.parser.named t.info.name = some info →
    readPosition info byteOffset < 2 ^ 63 → byteOffset.toNat ≤ info.sizeBytes

/-- The bytes at the stored offset are the same as those in the data section, as far as they are
read. -/
def SameBytes {f : ParsedFile host} (t : PlainTensor f) (info : GgufTensorInfo)
    (byteOffset : UInt64) (n : Nat) : Prop :=
  ∀ k < n, readPosition info byteOffset + k < f.bytes.length → byteOffset.toNat + k < t.size ∧
    f.bytes[readPosition info byteOffset + k]? = f.bytes[t.start + byteOffset.toNat + k]?

/-- The calls that are served: the sizes fit, and either there is no position to read at, or the
offset is inside what the parser reckons with and the bytes there are the tensor's. -/
def Served {f : ParsedFile host} (t : PlainTensor f) (byteOffset maxBytes : UInt64) : Prop :=
  SizeFits t.info ∧ ∃ info, f.parser.named t.info.name = some info ∧ SizeFits info ∧
    (2 ^ 63 ≤ readPosition info byteOffset ∨
      byteOffset.toNat ≤ reckonedSize info ∧
        min maxBytes.toNat (reckonedSize info - byteOffset.toNat) ≤ host.vectorMaxSize ∧
        SameBytes t info byteOffset (min maxBytes.toNat (reckonedSize info - byteOffset.toNat)))

theorem numElements_eq (shape : List Nat) : numElements shape = shape.prod % 2 ^ 64 := by
  have hfold (n : Nat) : shape.foldl (fun n d ↦ n * d % 2 ^ 64) (n % 2 ^ 64) =
      n * shape.prod % 2 ^ 64 := by
    induction shape generalizing n with
    | nil => rw [List.foldl_nil, List.prod_nil, Nat.mul_one]
    | cons d shape ih =>
      rw [List.foldl_cons, List.prod_cons, ← Nat.mul_assoc, ← ih (n * d), Nat.mod_mul_mod]
  rw [numElements]
  simpa using hfold 1

theorem estimatedSize_eq {info : GgufTensorInfo} (h : SizeFits info) :
    estimatedSize info.dtype info.shape = reckonedSize info := by
  have hprod : info.shape.prod < 2 ^ 64 := by
    simpa using h.elements info.shape.length
  have hsize := h.size
  unfold estimatedSize
  unfold reckonedSize at hsize ⊢
  rw [numElements_eq, Nat.mod_eq_of_lt hprod]
  split at hsize <;> split
  · exact Nat.mod_eq_of_lt hsize
  · contradiction
  · contradiction
  · exact Nat.mod_eq_of_lt hsize

/-! What the parser stores of a tensor. -/

def Stored (info : GgufTensorInfo) : Prop :=
  info.sizeBytes = estimatedSize info.dtype info.shape

theorem parseTensorInfo_stored {p : GgufParser} {s : InputStream} (h : ∀ t ∈ p.tensors, Stored t) :
    ∀ t ∈ (p.parseTensorInfo host s).2.1.tensors, Stored t := by
  rw [parseTensorInfo]
  cases readString host s with
  | none => exact h
  | some e =>
    intro t ht
    rcases List.mem_append.mp ht with ht | ht
    · exact h t ht
    · rw [List.mem_singleton.mp ht]
      rfl

theorem parseTensors_stored (host : Host) (n : Nat) {p : GgufParser} {s : InputStream}
    (h : ∀ t ∈ p.tensors, Stored t) : ∀ t ∈ (p.parseTensors host n s).2.1.tensors, Stored t := by
  induction n generalizing p s with
  | zero => exact h
  | succ n ih =>
    rw [parseTensors]
    split
    · exact ih (parseTensorInfo_stored h)
    · exact parseTensorInfo_stored h

theorem parseMetadata_tensors {d n : Nat} {p : GgufParser} {s : InputStream}
    {r : Outcome × GgufParser × InputStream} (h : p.parseMetadata host d n s = some r) :
    r.2.1.tensors = p.tensors := by
  induction n generalizing p s with
  | zero =>
    cases h
    rfl
  | succ n ih =>
    rw [parseMetadata, Option.bind_eq_bind, Option.bind_eq_some_iff] at h
    obtain ⟨kv, hkv, h⟩ := h
    have hone : kv.2.1.tensors = p.tensors := by
      rw [parseMetadataKv] at hkv
      split at hkv
      · cases hkv
        rfl
      · obtain ⟨v, -, rfl⟩ := Option.map_eq_some_iff.mp hkv
        unfold keepValue
        split
        · rfl
        · split <;> rfl
    split at h
    · exact (ih h).trans hone
    · cases h
      exact hone

theorem ParsedFile.stored (f : ParsedFile host) : ∀ t ∈ f.parser.tensors, Stored t := by
  have h := f.parses
  rw [parseHeader, parseStream] at h
  dsimp only at h
  split at h
  · cases h
  · obtain ⟨kvs, hkvs, heq⟩ := Option.map_eq_some_iff.mp h
    have hnone : ∀ t ∈ kvs.2.1.tensors, Stored t := by
      rw [parseMetadata_tensors hkvs]
      exact fun t ht ↦ absurd ht List.not_mem_nil
    have hall := parseTensors_stored host (readNat 8 (readNat 4 (readNat 4
      { kind := .file, bytes := f.bytes }).2).2).1 (s := kvs.2.2) hnone
    split at heq
    · rw [Prod.mk.injEq] at heq
      rw [← heq.2]
      exact hall
    · rw [Prod.mk.injEq] at heq
      rw [← heq.2]
      exact hnone

theorem ParsedFile.recordsEnd_eq (f : ParsedFile host) {c : Content}
    (hfits : f.bytes.length ≤ host.maxSize) (hc : c.encode .little <+: f.bytes) :
    f.recordsEnd = (c.encode .little).length := by
  obtain ⟨rest, hrest⟩ := hc
  have hparts : Parts f.bytes c :=
    parts_encode (host.short hfits) ⟨[], rest, by rw [List.nil_append, hrest], rfl⟩
  obtain ⟨depth, hdepth⟩ := parseMetadata_encode .file hfits c.kvs hparts.kvs
  have hparses : parseBody host f.depth f.bytes (atPos .file f.bytes 24) =
      some (.returned true, f.parser) := by
    obtain ⟨s, hs, hstart⟩ := parseStream_start host .file f.bytes
    rw [← Passed.eq_atPos hs hparts.long, ← (hstart f.depth).1 ⟨.inl hparts.magic, hparts.version⟩]
    exact f.parses
  obtain ⟨kvs, hkvs, -⟩ := Option.map_eq_some_iff.mp hparses
  have hmost := parseMetadata_mono (le_max_left f.depth depth) hkvs
  rw [hparts.kvCount, parseMetadata_mono (le_max_right f.depth depth) (hdepth _),
    Option.some_inj] at hmost
  have htensors := fun p ↦ @parseTensors_encode host .file f.bytes _ hfits c.tensors hparts.tensors p
  rw [recordsEnd, hkvs, ← hmost, hparts.tensorCount]
  simp only [Option.map_some, Option.getD_some, htensors]
  simp only [Content.encode, atPos, List.length_append, length_number]
  omega

/-! What a load comes to. -/

section

variable {p : GgufParser} {tensorName : ByteString} {info : GgufTensorInfo}
  {byteOffset : UInt64}

def toRead (info : GgufTensorInfo) (byteOffset maxBytes : UInt64) : Nat :=
  min maxBytes.toNat ((info.sizeBytes + 2 ^ 64 - byteOffset.toNat) % 2 ^ 64)

theorem readPosition_lt (info : GgufTensorInfo) (byteOffset : UInt64) :
    readPosition info byteOffset < 2 ^ 64 := Nat.mod_lt _ (by decide)

theorem load_nowhere (bytes outData : ByteString) (maxBytes : UInt64) (hinfo : p.named tensorName = some info)
    (hpos : 2 ^ 63 ≤ readPosition info byteOffset) :
    p.loadTensorSlice host (some bytes) tensorName byteOffset maxBytes outData =
      .returned 0 outData := by
  have hbad : (seekBeg (signed64 (readPosition info byteOffset))
      { kind := .file, bytes := bytes }).good = false := by
    have hlt := readPosition_lt info byteOffset
    rw [signed64, if_neg (by omega), seekBeg, if_pos rfl, if_neg]
    rintro ⟨h0, -⟩
    omega
  rw [readPosition] at hbad
  rw [loadTensorSlice, hinfo]
  dsimp only
  rw [hbad, if_pos (by decide)]

theorem load_somewhere (bytes outData : ByteString) (maxBytes : UInt64) (hinfo : p.named tensorName = some info)
    (hpos : readPosition info byteOffset < 2 ^ 63) : ∃ rest,
    p.loadTensorSlice host (some bytes) tensorName byteOffset maxBytes outData =
      if host.vectorMaxSize < toRead info byteOffset maxBytes then .lengthError
      else .returned ((bytes.drop (readPosition info byteOffset)).take
        (toRead info byteOffset maxBytes)).length
          ((bytes.drop (readPosition info byteOffset)).take
            (toRead info byteOffset maxBytes) ++ rest) := by
  have hseek : seekBeg (signed64 (readPosition info byteOffset))
      { kind := .file, bytes := bytes } = atPos .file bytes (readPosition info byteOffset) := by
    have hadmits : StreamKind.file.admits bytes.length (readPosition info byteOffset : Int) :=
      ⟨by omega, by omega⟩
    rw [signed64, if_pos hpos, seekBeg, if_pos rfl, if_pos hadmits]
    rfl
  rw [readPosition] at hseek
  rw [loadTensorSlice, hinfo]
  dsimp only
  rw [hseek, if_neg (by simp [atPos])]
  exact ⟨_, rfl⟩

end

theorem take_drop_prefix_iff {b : ByteString} {i j n off size : Nat} :
    (b.drop i).take n <+: ((b.drop j).take size).drop off ↔
      ∀ k < n, i + k < b.length → off + k < size ∧ b[i + k]? = b[j + off + k]? := by
  rw [List.prefix_iff_getElem?]
  constructor
  · intro h k hk hin
    have hlen : k < ((b.drop i).take n).length := by
      rw [List.length_take, List.length_drop]
      omega
    have hget := h k hlen
    rw [List.getElem?_drop, List.getElem_take, List.getElem_drop] at hget
    by_cases hsize : off + k < size
    · rw [List.getElem?_take_of_lt hsize, List.getElem?_drop, ← Nat.add_assoc] at hget
      exact ⟨hsize, by rw [hget, List.getElem?_eq_getElem hin]⟩
    · rw [List.getElem?_take_eq_none (by omega)] at hget
      cases hget
  · intro h k hk
    rw [List.length_take, List.length_drop] at hk
    obtain ⟨hsize, hget⟩ := h k (by omega) (by omega)
    rw [List.getElem?_drop, List.getElem?_take_of_lt hsize, List.getElem?_drop, ← Nat.add_assoc,
      ← hget, List.getElem_take, List.getElem_drop, List.getElem?_eq_getElem]

section

variable {f : ParsedFile host} {t : PlainTensor f} {byteOffset maxBytes : UInt64}
  {outData : ByteString}

theorem PlainTensor.exists_named (t : PlainTensor f) :
    ∃ info ∈ f.parser.tensors, f.parser.named t.info.name = some info := by
  have hsome : (f.parser.named t.info.name).isSome := by
    rw [named, List.find?_isSome]
    exact ⟨t.info, t.mem, by simp⟩
  obtain ⟨info, hinfo⟩ := Option.isSome_iff_exists.mp hsome
  exact ⟨info, List.mem_of_find?_eq_some hinfo, hinfo⟩

theorem toRead_eq {info : GgufTensorInfo} (hlt : info.sizeBytes < 2 ^ 64)
    (hle : byteOffset.toNat ≤ info.sizeBytes) :
    toRead info byteOffset maxBytes = min maxBytes.toNat (info.sizeBytes - byteOffset.toNat) := by
  rw [toRead, Nat.sub_add_comm hle, Nat.add_mod_right, Nat.mod_eq_of_lt (by omega)]

theorem servesSlice_iff (t : PlainTensor f) (byteOffset maxBytes : UInt64)
    (outData : ByteString) :
    ServesSlice t byteOffset maxBytes outData ↔ Served t byteOffset maxBytes := by
  obtain ⟨info, hmem, hinfo⟩ := t.exists_named
  have hsize (hfits : SizeFits info) : info.sizeBytes = reckonedSize info :=
    (f.stored info hmem).trans (estimatedSize_eq hfits)
  constructor
  · rintro ⟨⟨got, rest, hload, -, hown, -⟩, hfits, hsub⟩
    have hfit := hfits info (.inr hinfo)
    refine ⟨hfits t.info (.inl rfl), info, hinfo, hfit, ?_⟩
    rcases Nat.lt_or_ge (readPosition info byteOffset) (2 ^ 63) with hpos | hpos
    · have hle := hsub info hinfo hpos
      obtain ⟨rest', heq⟩ := load_somewhere f.bytes outData maxBytes hinfo hpos
      rw [toRead_eq (by rw [hsize hfit]; exact hfit.size) hle, hsize hfit] at heq
      rw [hload] at heq
      split at heq
      · cases heq
      · next hmax =>
        rw [Loaded.returned.injEq] at heq
        have hgot := List.append_inj_left heq.2 heq.1
        rw [hgot] at hown
        exact .inr ⟨hsize hfit ▸ hle, Nat.le_of_not_lt hmax, take_drop_prefix_iff.mp hown⟩
    · exact .inl hpos
  · rintro ⟨hfit', info', hinfo', hfit, hserved⟩
    obtain rfl : info = info' := Option.some.inj (hinfo.symm.trans hinfo')
    refine ⟨?_, ?_, ?_⟩
    · rcases Nat.lt_or_ge (readPosition info byteOffset) (2 ^ 63) with hpos | hpos
      · obtain ⟨hle, hmax, hsame⟩ := hserved.resolve_left (by omega)
        obtain ⟨rest, heq⟩ := load_somewhere f.bytes outData maxBytes hinfo hpos
        rw [toRead_eq (by rw [hsize hfit]; exact hfit.size) (by rw [hsize hfit]; exact hle),
          hsize hfit, if_neg (Nat.not_lt.mpr hmax)] at heq
        have hown := take_drop_prefix_iff.mpr hsame
        refine ⟨_, rest, heq, ?_, hown, fun hend ↦ ?_⟩
        · exact (List.length_take_le _ _).trans (min_le_left _ _)
        · rw [List.drop_eq_nil_of_le ((List.length_take_le _ _).trans hend)] at hown
          exact List.prefix_nil.mp hown
      · exact ⟨[], outData, load_nowhere f.bytes outData maxBytes hinfo hpos, Nat.zero_le _,
          List.nil_prefix, fun _ ↦ rfl⟩
    · rintro x (rfl | hx)
      · exact hfit'
      · rwa [← Option.some.inj (hinfo.symm.trans hx)]
    · intro x hx hpos
      obtain rfl : info = x := Option.some.inj (hinfo.symm.trans hx)
      rw [hsize hfit]
      exact (hserved.resolve_left (by omega)).1

end

def sliceContent : Content where
  kvs := []
  tensors := [⟨[119], [1#64], by decide, 0#32, 0#64⟩]

def sliceBytes : ByteString := sliceContent.encode .little ++ List.replicate 7 0 ++ [1, 2, 3, 4]

def sliceFile : ParsedFile sampleHost where
  bytes := sliceBytes
  depth := 0
  parser := sliceContent.parsed sampleHost
  parses := by decide +kernel

def sliceTensor : PlainTensor sliceFile where
  info := ⟨[119], [1], .f32, 0, 4⟩
  mem := by decide +kernel
  plain := .inl rfl

/-- The first bytes of the file come instead of the tensor's. -/
theorem sliceTensor_misread : ¬∀ (f : ParsedFile sampleHost) (t : PlainTensor f) byteOffset maxBytes
    outData, ServesSlice t byteOffset maxBytes outData := by
  intro h
  obtain ⟨got, rest, hload, -, hown, -⟩ := (h sliceFile sliceTensor 0 4 []).returned
  have hread : sliceFile.parser.loadTensorSlice sampleHost (some sliceBytes) [119] 0 4 [] =
      .returned 4 [0x47, 0x47, 0x55, 0x46] := by decide +kernel
  have hbytes : sliceTensor.bytes = [1, 2, 3, 4] := by decide +kernel
  rw [hbytes] at hown
  have heq := hload.symm.trans hread
  rw [Loaded.returned.injEq] at heq
  have hgot : got = [0x47, 0x47, 0x55, 0x46] :=
    List.append_inj_left (heq.2.trans (List.append_nil _).symm) heq.1
  rw [hgot] at hown
  exact absurd hown (by decide)

end Cerberus.Gguf
