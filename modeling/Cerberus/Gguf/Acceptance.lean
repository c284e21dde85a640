import Cerberus.Gguf.Grammar

namespace Cerberus.Gguf

open Foundation Foundation.Bytes Foundation.LittleEndian InputStream GgufParser

def KvAt (kind : StreamKind) (b : ByteString) (i : Nat) : Prop :=
  24 ≤ b.length ∧ ValidStart b ∧ ∃ n < readAt 16 8 b, Chain (KvLies kind b True) n 24 i

def TensorAt (b : ByteString) (i : Nat) : Prop :=
  24 ≤ b.length ∧ ValidStart b ∧ ∃ a, Chain (KvLies .memory b True) (readAt 16 8 b) 24 a ∧
    ∃ n < readAt 8 8 b, Chain (TensorLies b) n a i

/-- The bytes end inside the header, and are zero after the version. -/
def CutShort (b : ByteString) : Prop :=
  b.length < 24 ∧ ValidStart b ∧ readAt 8 8 b = 0 ∧ readAt 16 8 b = 0

/-- The inputs on which the parser keeps to the grammar. -/
structure Harmless (host : Host) (b : ByteString) : Prop where
  fits : b.length ≤ host.maxSize
  header : ¬CutShort b
  strings : ∀ i a, KvAt .memory b i → KvString b i a → readAt a 8 b ≤ host.maxSize
  names : ∀ i, TensorAt b i → readAt i 8 b ≤ host.maxSize
  arrays : ∀ i a, KvAt .memory b i → KvArray b i a → Ends .memory b .array a
  strict : Through b True → readAt 0 4 b = ggufMagicLe ∧ Through b False

/-- The call returns, and only what starts with a file is accepted. -/
def KeepsGrammar (host : Host) (b : ByteString) : Prop :=
  ∃ depth ok p, parseFromMemory host depth b = some (.returned ok, p) ∧ (ok = true → Grammar b)

variable {host : Host} {kind : StreamKind} {b : ByteString} {type : GgufMetadataType}
  {n m i j k d d' : Nat} {s s' : InputStream} {p p' : GgufParser}

theorem readValue_eq_none_iff :
    readValue host d type (atPos kind b i) = some none ↔
      type = .string ∧ host.maxSize < readAt i 8 b := by
  cases type with
  | string =>
    rw [readValue, Option.some_inj, Option.map_eq_none_iff, readString_eq_none_iff]
    simp
  | array => simp [readValue]
  | _ => simp [readValue]

theorem parseMetadataKv_returns (hb : b.length ≤ host.maxSize)
    (hstrings : ∀ a, KvString b i a → readAt a 8 b ≤ host.maxSize)
    (harrays : ∀ a, KvArray b i a → Ends kind b .array a) :
    ∃ d ok, ∀ p : GgufParser, ∃ p' s', p.parseMetadataKv host d (atPos kind b i) =
      some (.returned ok, p', s') ∧
        (ok = true → ∃ j, s' = atPos kind b j ∧ KvLies kind b True i j) := by
  by_cases hkey : ∃ k, StringLies b i k ∧ k + 4 ≤ b.length
  · obtain ⟨k, hkey, hk⟩ := hkey
    have hreturns : ∃ d r, readValue host d (typeAt k b) (atPos kind b (k + 4)) = some r := by
      cases htype : typeAt k b with
      | array =>
        exact (exists_readValue_array_iff (host.short hb)).mpr
          (harrays (k + 4) ⟨k, hkey, hk, htype, rfl⟩)
      | _ => exact ⟨0, _, rfl⟩
    obtain ⟨d, r, hr⟩ := hreturns
    cases r with
    | none =>
      obtain ⟨htype, hlong⟩ := readValue_eq_none_iff.mp hr
      exact absurd (hstrings _ (.value hkey hk htype)) (by omega)
    | some e =>
      obtain ⟨v, s'⟩ := e
      refine ⟨d, s'.good, fun p ↦ ?_⟩
      rw [parseMetadataKv_at hb hkey hk, hr, Option.map_some, keepValue]
      cases hs' : s'.good with
      | false => exact ⟨_, _, rfl, fun h ↦ absurd h (by decide)⟩
      | true =>
        obtain ⟨j, rfl, hlies⟩ := lies_of_readValue hb hr hs'
        exact ⟨_, _, rfl, fun _ ↦ ⟨j, rfl, k, hkey, hk, hlies⟩⟩
  · refine ⟨0, false, fun p ↦ ?_⟩
    obtain ⟨s', hs'⟩ := parseMetadataKv_short kind hb (hstrings i .key)
      (fun k hk ↦ by_contra (fun hle ↦ hkey ⟨k, hk, by omega⟩)) 0 p
    exact ⟨p, s', hs', fun h ↦ absurd h (by decide)⟩

theorem parseMetadata_returns (hb : b.length ≤ host.maxSize) (total : Nat)
    (hstrings : ∀ n i a, n < total → Chain (KvLies kind b True) n 24 i → KvString b i a →
      readAt a 8 b ≤ host.maxSize)
    (harrays : ∀ n i a, n < total → Chain (KvLies kind b True) n 24 i → KvArray b i a →
      Ends kind b .array a)
    (hchain : Chain (KvLies kind b True) n 24 i) (hn : n + m = total) (p : GgufParser) :
    ∃ d ok p' s', p.parseMetadata host d m (atPos kind b i) = some (.returned ok, p', s') ∧
      (ok = true → ∃ j, s' = atPos kind b j ∧ Chain (KvLies kind b True) m i j) := by
  induction m generalizing n i p with
  | zero => exact ⟨0, true, p, _, rfl, fun _ ↦ ⟨i, rfl, .nil i⟩⟩
  | succ m ih =>
    obtain ⟨d₁, ok, hkv⟩ := parseMetadataKv_returns hb (fun a ↦ hstrings n i a (by omega) hchain)
      (fun a ↦ harrays n i a (by omega) hchain)
    obtain ⟨p₁, s₁, hkv, hok⟩ := hkv p
    cases ok with
    | false =>
      refine ⟨d₁, false, p₁, s₁, ?_, fun h ↦ absurd h (by decide)⟩
      rw [parseMetadata, Option.bind_eq_bind, hkv]
      rfl
    | true =>
      obtain ⟨j, rfl, hlies⟩ := hok rfl
      obtain ⟨d₂, ok, p₂, s₂, hrest, hend⟩ := ih (hchain.snoc hlies) (by omega) p₁
      refine ⟨max d₁ d₂, ok, p₂, s₂, ?_, fun hok ↦ ?_⟩
      · rw [parseMetadata, Option.bind_eq_bind, parseMetadataKv_mono (le_max_left d₁ d₂) hkv,
          Option.bind_some, if_pos rfl, parseMetadata_mono (le_max_right d₁ d₂) hrest]
      · obtain ⟨e, he, hchain'⟩ := hend hok
        exact ⟨e, he, .cons hlies hchain'⟩

theorem readShape_full (h : i + 8 * n ≤ b.length) :
    ∃ dims, readShape n (atPos kind b i) = (dims, atPos kind b (i + 8 * n)) := by
  induction n generalizing i with
  | zero => exact ⟨[], rfl⟩
  | succ n ih =>
    obtain ⟨dims, hdims⟩ := ih (i := i + 8) (by omega)
    refine ⟨readAt i 8 b :: dims, ?_⟩
    rw [readShape, readNat_full (by omega)]
    dsimp only
    rw [hdims, Nat.mul_succ, Nat.add_assoc, Nat.add_comm 8]

theorem readShape_bad (hs : s.good = false) : (readShape n s).2 = s := by
  induction n with
  | zero => rfl
  | succ n ih =>
    rw [readShape, readNat_bad hs]
    exact ih

theorem readShape_short (hi : i ≤ b.length) (h : b.length < i + 8 * n) :
    (readShape n (atPos kind b i)).2.good = false := by
  induction n generalizing i with
  | zero => omega
  | succ n ih =>
    rw [readShape]
    by_cases hfull : i + 8 ≤ b.length
    · rw [readNat_full hfull]
      exact ih hfull (by omega)
    · have hbad : ((atPos kind b i).readNat 8).2.good = false :=
        readNat_short (by decide) (by omega)
      dsimp only
      rw [readShape_bad hbad]
      exact hbad

theorem good_of_readNat (h : (s.readNat n).2.good = true) : s.good = true := by
  by_contra hs
  rw [readNat_bad (by simpa using hs)] at h
  exact hs h

theorem parseTensorInfo_returns (kind : StreamKind) (hb : b.length ≤ host.maxSize)
    (hname : readAt i 8 b ≤ host.maxSize) (p : GgufParser) :
    ∃ ok p' s', p.parseTensorInfo host (atPos kind b i) = (.returned ok, p', s') ∧
      (ok = true → ∃ j, s' = atPos kind b j ∧ TensorLies b i j) := by
  cases hstring : readString host (atPos kind b i) with
  | none => exact absurd (readString_eq_none_iff.mp hstring) (by omega)
  | some e =>
    rw [parseTensorInfo, hstring]
    refine ⟨_, _, _, rfl, fun hgood ↦ ?_⟩
    have hdtype := good_of_readNat hgood
    have hshape := good_of_readNat hdtype
    have hrank : (e.2.readNat 4).2.good = true := by
      by_contra hbad
      rw [readShape_bad (by simpa using hbad)] at hshape
      exact hbad hshape
    have he := good_of_readNat hrank
    obtain ⟨k, hk⟩ : ∃ k, StringLies b i k := by
      by_contra hnone
      rw [readString_short hstring (fun k hk ↦ hnone ⟨k, hk⟩)] at he
      cases he
    rw [readString_full hb hk, Option.some_inj] at hstring
    subst hstring
    dsimp only at hgood hdtype hshape hrank ⊢
    have hk4 : k + 4 ≤ b.length := by
      by_contra hlt
      rw [readNat_short (by decide) (by omega)] at hrank
      cases hrank
    rw [readNat_full hk4] at hgood hdtype hshape ⊢
    dsimp only at hgood hdtype hshape ⊢
    have hdims : k + 4 + 8 * readAt k 4 b ≤ b.length := by
      by_contra hlt
      rw [readShape_short hk4 (by omega)] at hshape
      cases hshape
    obtain ⟨dims, hd⟩ : ∃ dims, readShape (readAt k 4 b) (atPos kind b (k + 4)) =
        (dims, atPos kind b (k + 4 + 8 * readAt k 4 b)) := readShape_full hdims
    rw [hd] at hgood hdtype ⊢
    dsimp only at hgood hdtype ⊢
    have h4 : k + 4 + 8 * readAt k 4 b + 4 ≤ b.length := by
      by_contra hlt
      rw [readNat_short (by decide) (by omega)] at hdtype
      cases hdtype
    rw [readNat_full h4] at hgood ⊢
    dsimp only at hgood ⊢
    have h8 : k + 4 + 8 * readAt k 4 b + 4 + 8 ≤ b.length := by
      by_contra hlt
      rw [readNat_short (by decide) (by omega)] at hgood
      cases hgood
    rw [readNat_full h8]
    exact ⟨_, rfl, k, hk, by omega, hk4, h8⟩

theorem parseTensorInfo_of_lies (kind : StreamKind) (hb : b.length ≤ host.maxSize)
    (h : TensorLies b i j) :
    ∃ info, ∀ p : GgufParser, p.parseTensorInfo host (atPos kind b i) =
      (.returned true, { p with tensors := p.tensors ++ [info] }, atPos kind b j) := by
  obtain ⟨t, ht, rfl⟩ := h.exists_tensor
  exact ⟨t.stored, fun p ↦ parseTensorInfo_encode hb t ht p⟩

theorem parseTensors_returns (kind : StreamKind) (hb : b.length ≤ host.maxSize) (total a : Nat)
    (hnames : ∀ n i, n < total → Chain (TensorLies b) n a i → readAt i 8 b ≤ host.maxSize)
    (hchain : Chain (TensorLies b) n a i) (hn : n + m = total) (p : GgufParser) :
    ∃ ok p' s', p.parseTensors host m (atPos kind b i) = (.returned ok, p', s') ∧
      (ok = true → ∃ j, Chain (TensorLies b) m i j) := by
  induction m generalizing n i p with
  | zero => exact ⟨true, p, _, rfl, fun _ ↦ ⟨i, .nil i⟩⟩
  | succ m ih =>
    obtain ⟨ok, p₁, s₁, hinfo, hok⟩ :=
      parseTensorInfo_returns kind hb (hnames n i (by omega) hchain) p
    rw [parseTensors, hinfo]
    cases ok with
    | false => exact ⟨false, p₁, s₁, rfl, fun h ↦ absurd h (by decide)⟩
    | true =>
      obtain ⟨j, rfl, hlies⟩ := hok rfl
      obtain ⟨ok, p₂, s₂, hrest, hend⟩ := ih (hchain.snoc hlies) (by omega) p₁
      refine ⟨ok, p₂, s₂, hrest, fun hok ↦ ?_⟩
      obtain ⟨e, hchain'⟩ := hend hok
      exact ⟨e, .cons hlies hchain'⟩

theorem parseMetadata_chain (hb : b.length ≤ host.maxSize)
    (hchain : Chain (KvLies kind b True) n i j) :
    ∃ d mvs, mvs.length = n ∧ ∀ d' ≥ d, ∀ (p : GgufParser) (m : Nat),
      p.parseMetadata host d' (n + m) (atPos kind b i) =
        parseMetadata host d' m { p with metadata := p.metadata ++ mvs } (atPos kind b j) := by
  induction hchain with
  | nil i => exact ⟨0, [], rfl, fun d' _ p m ↦ by rw [Nat.zero_add, List.append_nil]⟩
  | @cons n i k j hlies _ ih =>
    obtain ⟨d₁, mv, hkv⟩ := parseMetadataKv_of_lies hb hlies
    obtain ⟨d₂, mvs, hlen, hrest⟩ := ih
    refine ⟨max d₁ d₂, mv :: mvs, by simp [hlen], fun d' hd' p m ↦ ?_⟩
    rw [Nat.add_right_comm, parseMetadata, Option.bind_eq_bind,
      parseMetadataKv_mono (by omega) (hkv p), Option.bind_some, if_pos rfl,
      hrest d' (by omega), List.append_assoc]
    rfl

theorem parseTensors_chain (kind : StreamKind) (hb : b.length ≤ host.maxSize)
    (hchain : Chain (TensorLies b) n i j) (p : GgufParser) (m : Nat) : ∃ p' : GgufParser,
      p.parseTensors host (n + m) (atPos kind b i) = p'.parseTensors host m (atPos kind b j) := by
  induction hchain generalizing p with
  | nil i => exact ⟨p, by rw [Nat.zero_add]⟩
  | @cons n i k j hlies _ ih =>
    obtain ⟨info, hinfo⟩ := parseTensorInfo_of_lies kind hb hlies
    obtain ⟨p', hp'⟩ := ih { p with tensors := p.tensors ++ [info] }
    refine ⟨p', ?_⟩
    rw [Nat.add_right_comm, parseTensors, hinfo p, if_pos rfl, hp']

theorem parseMetadataKv_bad (hs : s.good = false) (d : Nat) (p : GgufParser) :
    p.parseMetadataKv host d s = some (.returned false, p, s) := by
  obtain ⟨v, hv⟩ : ∃ v, readValue host d (.ofRaw 0) s = some (some (v, s)) :=
    readValue_bad hs d _
  rw [parseMetadataKv, readString_bad hs]
  dsimp only
  rw [readNat_bad hs]
  dsimp only
  rw [hv, Option.map_some, keepValue, hs]
  rfl

/-- From a failed stream an empty tensor is kept. -/
theorem parseTensorInfo_bad (hs : s.good = false) (p : GgufParser) :
    p.parseTensorInfo host s = (.returned false,
      { p with tensors := p.tensors ++ [⟨[], [], .f32, 0, estimatedSize .f32 []⟩] }, s) := by
  rw [parseTensorInfo, readString_bad hs]
  simp [readNat_bad hs, readShape, hs, GgmlType.ofRaw]

/-- A header that is cut off is accepted exactly if both counts read as zero. -/
theorem parseBody_bad (host : Host) (b : ByteString) (hs : s.good = false) (d : Nat) :
    ∃ ok p, parseBody host d b s = some (.returned ok, p) ∧
      (ok = true ↔ readAt 8 8 b = 0 ∧ readAt 16 8 b = 0) := by
  unfold parseBody
  cases hkvs : readAt 16 8 b with
  | succ n =>
    refine ⟨false, { header := headerAt b }, ?_, by simp⟩
    rw [parseMetadata, Option.bind_eq_bind, parseMetadataKv_bad hs, Option.bind_some,
      if_neg (by simp), Option.map_some, if_neg (by simp)]
  | zero =>
    rw [parseMetadata, Option.map_some, if_pos rfl]
    cases htensors : readAt 8 8 b with
    | zero => exact ⟨true, _, rfl, by simp⟩
    | succ n =>
      rw [parseTensors, parseTensorInfo_bad hs, if_neg (by simp)]
      exact ⟨false, _, rfl, by simp⟩

theorem parseBody_mono (hd : d ≤ d') {r : Outcome × GgufParser}
    (h : parseBody host d b s = some r) : parseBody host d' b s = some r := by
  rw [parseBody, Option.map_eq_some_iff] at h ⊢
  obtain ⟨kvs, hkvs, heq⟩ := h
  exact ⟨kvs, parseMetadata_mono hd hkvs, heq⟩

theorem parseMetadataKv_throws {a : Nat} (hb : b.length ≤ host.maxSize) (h : KvString b i a)
    (ha : host.maxSize < readAt a 8 b) (d : Nat) (p : GgufParser) :
    p.parseMetadataKv host d (atPos kind b i) = some (.lengthError, p, atPos kind b i) := by
  cases h with
  | key => rw [parseMetadataKv, readString_throw ha]
  | @value k hkey hk htype =>
    rw [parseMetadataKv_at hb hkey hk, readValue_eq_none_iff.mpr ⟨htype, ha⟩]
    rfl

theorem parseMetadataKv_ends {a : Nat} (hb : b.length ≤ host.maxSize) (h : KvArray b i a)
    {r : Outcome × GgufParser × InputStream}
    (hr : p.parseMetadataKv host d (atPos kind b i) = some r) : Ends kind b .array a := by
  obtain ⟨k, hkey, hk, htype, rfl⟩ := h
  rw [parseMetadataKv_at hb hkey hk, htype, Option.map_eq_some_iff] at hr
  obtain ⟨v, hv, -⟩ := hr
  exact (exists_readValue_array_iff (host.short hb)).mp ⟨d, v, hv⟩

theorem parseTensorInfo_throws (h : host.maxSize < readAt i 8 b) (p : GgufParser) :
    p.parseTensorInfo host (atPos kind b i) = (.lengthError, p, atPos kind b i) := by
  rw [parseTensorInfo, readString_throw h]

theorem parseMetadata_step (hb : b.length ≤ host.maxSize)
    (hchain : Chain (KvLies kind b True) n 24 i) (hn : n < m) {ok : Bool}
    (h : p.parseMetadata host d m (atPos kind b 24) = some (.returned ok, p', s')) :
    ∃ d' q ok' r, GgufParser.parseMetadataKv host d' q (atPos kind b i) =
      some (.returned ok', r) := by
  obtain ⟨d₀, mvs, -, hreach⟩ := parseMetadata_chain hb hchain
  obtain ⟨m', rfl⟩ : ∃ m', m = n + (m' + 1) := ⟨m - n - 1, by omega⟩
  have hmono := parseMetadata_mono (le_max_left d d₀) h
  rw [hreach _ (le_max_right d d₀), parseMetadata, Option.bind_eq_bind, Option.bind_eq_some_iff] at hmono
  obtain ⟨⟨outcome, r⟩, hkv, hrest⟩ := hmono
  cases outcome with
  | returned ok' => exact ⟨_, _, ok', r, hkv⟩
  | lengthError =>
    rw [if_neg (by simp)] at hrest
    cases hrest

theorem parseTensors_step (hb : b.length ≤ host.maxSize) {a : Nat}
    (hchain : Chain (TensorLies b) n a i) (hn : n < m) {ok : Bool}
    (h : (p.parseTensors host m (atPos kind b a)).1 = .returned ok) :
    readAt i 8 b ≤ host.maxSize := by
  by_contra hlong
  obtain ⟨m', rfl⟩ : ∃ m', m = n + (m' + 1) := ⟨m - n - 1, by omega⟩
  obtain ⟨q, hq⟩ := parseTensors_chain kind hb hchain p (m' + 1)
  rw [hq, parseTensors, parseTensorInfo_throws (by omega), if_neg (by simp)] at h
  cases h

theorem parseMetadata_through (hb : b.length ≤ host.maxSize)
    (hchain : Chain (KvLies kind b True) n i j) (p : GgufParser) :
    ∃ d p', ∀ d' ≥ d, p.parseMetadata host d' n (atPos kind b i) =
      some (.returned true, p', atPos kind b j) := by
  obtain ⟨d, mvs, -, hreach⟩ := parseMetadata_chain hb hchain
  exact ⟨d, _, fun d' hd' ↦ hreach d' hd' p 0⟩

theorem parseFromMemory_eq (hne : b ≠ []) (hb : b.length ≤ host.maxSize) (d : Nat) :
    parseFromMemory host d b = parseStream host d (atPos .memory b 0) := by
  rw [parseFromMemory, if_neg hne, if_neg (by omega)]
  rfl

theorem ne_nil_of_validStart (h : ValidStart b) : b ≠ [] := by
  rintro rfl
  exact absurd h.2 (by decide)

theorem parseFromMemory_body (hb : b.length ≤ host.maxSize) (hlong : 24 ≤ b.length)
    (hstart : ValidStart b) (d : Nat) :
    parseFromMemory host d b = parseBody host d b (atPos .memory b 24) := by
  obtain ⟨s, hs, hstream⟩ := parseStream_start host .memory b
  rw [parseFromMemory_eq (ne_nil_of_validStart hstart) hb, (hstream d).1 hstart,
    Passed.eq_atPos hs hlong]

theorem parseFromMemory_cut (hb : b.length ≤ host.maxSize) (hshort : b.length < 24)
    (hstart : ValidStart b) (d : Nat) :
    ∃ ok p, parseFromMemory host d b = some (.returned ok, p) ∧ (ok = true ↔ CutShort b) := by
  obtain ⟨s, hs, hstream⟩ := parseStream_start host .memory b
  have hbad := (hs.resolve_left (fun h ↦ absurd h.1 (by omega))).2
  obtain ⟨ok, p, heq, hok⟩ := parseBody_bad host b hbad d
  refine ⟨ok, p, ?_, ?_⟩
  · rw [parseFromMemory_eq (ne_nil_of_validStart hstart) hb, (hstream d).1 hstart, heq]
  · rw [hok]
    exact ⟨fun h ↦ ⟨hshort, hstart, h⟩, fun h ↦ h.2.2⟩

theorem accepts_of_through (hb : b.length ≤ host.maxSize) (h : Through b True) :
    ∃ d p, ∀ d' ≥ d, parseFromMemory host d' b = some (.returned true, p) := by
  obtain ⟨a, e, hkvs, htensors⟩ := h.items
  obtain ⟨d, q, hq⟩ := parseMetadata_through hb hkvs { header := headerAt b }
  obtain ⟨p, hp⟩ := parseTensors_chain .memory hb htensors q 0
  refine ⟨d, p, fun d' hd' ↦ ?_⟩
  rw [parseFromMemory_body hb h.long h.start, parseBody, hq d' hd', Option.map_some, if_pos rfl]
  dsimp only
  rw [← Nat.add_zero (readAt 8 8 b), hp]
  rfl

theorem Harmless.keepsGrammar (h : Harmless host b) : KeepsGrammar host b := by
  by_cases hstart : ValidStart b
  · by_cases hlong : 24 ≤ b.length
    · obtain ⟨d, ok, q, s, hkvs, hend⟩ := parseMetadata_returns h.fits (readAt 16 8 b)
        (fun n i a hn hchain ↦ h.strings i a ⟨hlong, hstart, n, hn, hchain⟩)
        (fun n i a hn hchain ↦ h.arrays i a ⟨hlong, hstart, n, hn, hchain⟩) (.nil 24)
        (Nat.zero_add _) { header := headerAt b }
      cases ok with
      | false =>
        refine ⟨d, false, q, ?_, fun hok ↦ absurd hok (by decide)⟩
        rw [parseFromMemory_body h.fits hlong hstart, parseBody, hkvs]
        rfl
      | true =>
        obtain ⟨a, rfl, hchain⟩ := hend rfl
        obtain ⟨ok, q', s', htensors, hend'⟩ := parseTensors_returns .memory h.fits
          (readAt 8 8 b) a (fun n i hn hc ↦ h.names i ⟨hlong, hstart, a, hchain, n, hn, hc⟩)
          (.nil a) (Nat.zero_add _) q
        refine ⟨d, ok, q', ?_, fun hok ↦ ?_⟩
        · rw [parseFromMemory_body h.fits hlong hstart, parseBody, hkvs, Option.map_some,
            if_pos rfl]
          dsimp only
          rw [htensors]
        · obtain ⟨e, he⟩ := hend' hok
          obtain ⟨c, hc⟩ := (through_iff (host.short h.fits)).mp
            (h.strict ⟨hlong, hstart, a, e, hchain, he⟩)
          exact ⟨.little, c, hc⟩
    · obtain ⟨ok, p, heq, hok⟩ := parseFromMemory_cut h.fits (by omega) hstart 0
      exact ⟨0, ok, p, heq, fun hacc ↦ absurd (hok.mp hacc) h.header⟩
  · by_cases hne : b = []
    · exact ⟨0, false, {}, by rw [hne]; rfl, fun hok ↦ absurd hok (by decide)⟩
    · obtain ⟨s, -, hstream⟩ := parseStream_start host .memory b
      have hparse := (parseFromMemory_eq hne h.fits 0).trans ((hstream 0).2 hstart)
      exact ⟨0, false, _, hparse, fun hok ↦ absurd hok (by decide)⟩

theorem KeepsGrammar.harmless (h : KeepsGrammar host b) : Harmless host b := by
  obtain ⟨d, ok, p, hparse, hgrammar⟩ := h
  have hb : b.length ≤ host.maxSize := by
    by_contra hlong
    have hne : b ≠ [] := List.ne_nil_of_length_pos (by omega)
    rw [parseFromMemory, if_neg hne, if_pos (by omega)] at hparse
    cases hparse
  have hkvs (hlong : 24 ≤ b.length) (hstart : ValidStart b) : ∃ ok' q s,
      parseMetadata host d (readAt 16 8 b) { header := headerAt b } (atPos .memory b 24) =
        some (.returned ok', q, s) ∧ (ok' = true →
          ∃ ok'', (q.parseTensors host (readAt 8 8 b) s).1 = .returned ok'') := by
    rw [parseFromMemory_body hb hlong hstart, parseBody, Option.map_eq_some_iff] at hparse
    obtain ⟨⟨outcome, q, s⟩, hmeta, heq⟩ := hparse
    cases outcome with
    | returned ok' =>
      refine ⟨ok', q, s, hmeta, fun hok' ↦ ⟨ok, ?_⟩⟩
      rw [hok', if_pos rfl] at heq
      exact congrArg (fun r ↦ r.1) heq
    | lengthError =>
      rw [if_neg (by simp)] at heq
      cases heq
  refine ⟨hb, fun hcut ↦ ?_, fun i a hi ha ↦ ?_, fun i hi ↦ ?_, fun i a hi ha ↦ ?_,
    fun hthrough ↦ ?_⟩
  · obtain ⟨ok', p', heq, hok⟩ := parseFromMemory_cut hb hcut.1 hcut.2.1 d
    rw [heq, Option.some_inj, Prod.mk.injEq, Outcome.returned.injEq] at hparse
    have hlong := (hgrammar (hparse.1 ▸ hok.mpr hcut)).long
    have hshort := hcut.1
    omega
  · obtain ⟨hlong, hstart, n, hn, hchain⟩ := hi
    obtain ⟨ok', q, s, hmeta, -⟩ := hkvs hlong hstart
    obtain ⟨d', q', ok'', r, hkv⟩ := parseMetadata_step hb hchain hn hmeta
    by_contra hlong'
    rw [parseMetadataKv_throws hb ha (by omega)] at hkv
    cases hkv
  · obtain ⟨hlong, hstart, a, hkvsChain, n, hn, hchain⟩ := hi
    obtain ⟨ok', q, s, hmeta, htensors⟩ := hkvs hlong hstart
    obtain ⟨d₀, q₀, hq₀⟩ := parseMetadata_through hb hkvsChain { header := headerAt b }
    have hmono := parseMetadata_mono (le_max_left d d₀) hmeta
    rw [hq₀ _ (le_max_right d d₀)] at hmono
    cases hmono
    obtain ⟨ok'', hok''⟩ := htensors rfl
    exact parseTensors_step hb hchain hn hok''
  · obtain ⟨hlong, hstart, n, hn, hchain⟩ := hi
    obtain ⟨ok', q, s, hmeta, -⟩ := hkvs hlong hstart
    obtain ⟨d', q', ok'', r, hkv⟩ := parseMetadata_step hb hchain hn hmeta
    exact parseMetadataKv_ends hb ha hkv
  · obtain ⟨d₀, p₀, hacc⟩ := accepts_of_through hb hthrough
    have hmax := hacc (max d d₀) (le_max_right d d₀)
    rw [parseFromMemory_body hb hthrough.long hthrough.start] at hparse hmax
    rw [parseBody_mono (le_max_left d d₀) hparse] at hmax
    cases hmax
    exact (hgrammar rfl).through (host.short hb) hthrough.start

/-- The parser keeps to its grammar exactly on the harmless inputs. -/
theorem keepsGrammar_iff (host : Host) (b : ByteString) :
    KeepsGrammar host b ↔ Harmless host b :=
  ⟨fun h ↦ h.harmless, fun h ↦ h.keepsGrammar⟩

def fiveBytes : ByteString := [0x47, 0x47, 0x55, 0x46, 3]

/-- The five bytes are accepted, though the header is not complete. -/
theorem fiveBytes_accepted :
    (parseFromMemory sampleHost 0 fiveBytes).map (fun r ↦ r.1) = some (.returned true) ∧
      ¬KeepsGrammar sampleHost fiveBytes := by
  have hcut : CutShort fiveBytes := by
    refine ⟨by decide, ⟨.inl ?_, ?_⟩, ?_, ?_⟩ <;> decide
  refine ⟨?_, fun h ↦ h.harmless.header hcut⟩
  have hfits : fiveBytes.length ≤ sampleHost.maxSize := by
    change 5 ≤ 2 ^ 62 - 1
    norm_num
  obtain ⟨ok, p, heq, hok⟩ := parseFromMemory_cut hfits (by decide) hcut.2.1 0
  rw [heq, hok.mpr hcut]
  rfl

/-- An array of two arrays; the string in the first is skipped back to the start of the whole. -/
def endlessBytes : ByteString :=
  [0x47, 0x47, 0x55, 0x46] ++ littleEndian 4 3 ++ littleEndian 8 0 ++ littleEndian 8 1 ++
    littleEndian 8 0 ++ littleEndian 4 9 ++ littleEndian 4 9 ++ littleEndian 8 2 ++
    littleEndian 4 8 ++ littleEndian 8 1 ++ littleEndian 8 (2 ^ 64 - 32)

theorem endlessBytes_not_ends : ¬Ends .memory endlessBytes .array 36 := by
  have hstring : Lies .memory endlessBytes True .string 60 36 := by
    refine .string (by decide) ?_ (by decide) (.inl trivial)
    have hlen : readAt 60 8 endlessBytes = 2 ^ 64 - 32 := by decide
    rw [hlen]
    decide
  have hfirst : Lies .memory endlessBytes True .array 48 36 := by
    refine lies_array (n := 1) (by decide) (by decide) (.cons ?_ (.nil 36)) (.inl trivial)
    have htype : typeAt 48 endlessBytes = .string := by decide
    rw [htype]
    exact hstring
  have hinside : Inside .memory endlessBytes (.array, 36) (.array, 36) := by
    have htype : typeAt 36 endlessBytes = .array := by decide
    refine ⟨rfl, by decide, htype.symm, 1, by decide, ?_⟩
    rw [htype]
    exact .cons hfirst (.nil 36)
  exact not_acc_iff_exists_descending_chain.mpr ⟨fun _ ↦ (.array, 36), rfl, fun _ ↦ hinside⟩

theorem endlessBytes_never_returns (d : Nat) : parseFromMemory sampleHost d endlessBytes = none := by
  have hfits : endlessBytes.length ≤ sampleHost.maxSize := by
    change 68 ≤ 2 ^ 62 - 1
    norm_num
  by_contra hne
  obtain ⟨r, hr⟩ := Option.ne_none_iff_exists'.mp hne
  rw [parseFromMemory_body hfits (by decide) ⟨.inl (by decide), by decide⟩, parseBody,
    Option.map_eq_some_iff] at hr
  obtain ⟨kvs, hkvs, -⟩ := hr
  have hcount : readAt 16 8 endlessBytes = 0 + 1 := by decide
  rw [hcount, parseMetadata, Option.bind_eq_bind, Option.bind_eq_some_iff] at hkvs
  obtain ⟨kv, hkv, -⟩ := hkvs
  exact endlessBytes_not_ends (parseMetadataKv_ends hfits
    ⟨32, ⟨by decide, by decide⟩, by decide, by decide, rfl⟩ hkv)

end Cerberus.Gguf
