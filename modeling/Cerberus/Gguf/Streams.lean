import Cerberus.Gguf.Acceptance

namespace Cerberus.Gguf

open Foundation Foundation.Bytes Foundation.LittleEndian InputStream GgufParser

def SameResult (host : Host) (b : ByteString) : Prop :=
  ∀ r, (∃ d, parseFromMemory host d b = some r) ↔ (∃ d, parseHeader host d (some b) = some r)

/-- In a file, some array value ends behind the end of the bytes, because its last string does. -/
def Overruns (b : ByteString) : Prop :=
  ∃ i a j, KvAt .memory b i ∧ KvArray b i a ∧ Lies .file b True .array a j ∧ b.length < j

variable {host : Host} {kind kind' : StreamKind} {b : ByteString} {type : GgufMetadataType}
  {n m i j k a d d' : Nat} {s s' : InputStream} {p p' : GgufParser} {lax : Prop}

theorem Lies.beyond (h : Lies kind b lax type i j) (hi : b.length < i) :
    j = i ∧ ∃ raw, type = .unknown raw := by
  cases h with
  | scalar hw hle =>
    have hpos := width_pos hw
    omega
  | string hle _ _ _ => omega
  | array hle _ _ _ => omega
  | @unknown raw _ _ => exact ⟨rfl, raw, rfl⟩

theorem Lies.le_of_memory (h : Lies .memory b lax type i j) (hi : i ≤ b.length) :
    j ≤ b.length := by
  induction h with
  | scalar _ hle => exact hle
  | string _ _ hadmits _ =>
    have hle := hadmits.2
    omega
  | @array i f hle hf _ _ ih =>
    have hall : ∀ k ≤ readAt (i + 4) 8 b, f k ≤ b.length := by
      intro k
      induction k with
      | zero => exact fun _ ↦ hf ▸ hle
      | succ k ihk => exact fun hk ↦ ih k (by omega) (ihk (by omega))
    exact hall _ le_rfl
  | unknown _ => exact hi

theorem Lies.toFile (hb : b.length < 2 ^ 63) (h : Lies .memory b lax type i j) :
    Lies .file b lax type i j := by
  induction h with
  | scalar hw hle => exact .scalar hw hle
  | string hle hj hadmits hforward =>
    refine .string hle hj ⟨hadmits.1, ?_⟩ hforward
    have hle' := hadmits.2
    omega
  | array hle hf _ hknown ih => exact .array hle hf ih hknown
  | unknown h => exact .unknown h

theorem Lies.unknown_eq {raw : Nat} (h : Lies kind b lax (.unknown raw) i j) : j = i := by
  cases h with
  | scalar hw _ => cases hw
  | unknown _ => rfl

theorem inside_of_last {f : Nat → Nat} (hitems : ∀ k < n, Lies kind b lax type (f k) (f (k + 1)))
    (hfirst : f 0 ≤ b.length) (hlast : f n ≤ b.length) (hk : k ≤ n) : f k ≤ b.length := by
  by_cases hunknown : ∃ raw, type = .unknown raw
  · obtain ⟨raw, rfl⟩ := hunknown
    induction k with
    | zero => exact hfirst
    | succ k ih =>
      rw [(hitems k (by omega)).unknown_eq]
      exact ih (by omega)
  · by_contra hlt
    have hne : k ≠ n := by
      rintro rfl
      exact hlt hlast
    exact hunknown ((hitems k (by omega)).beyond (by omega)).2

theorem Lies.toMemory (h : Lies .file b lax type i j) (hj : j ≤ b.length) :
    Lies .memory b lax type i j := by
  induction h with
  | scalar hw hle => exact .scalar hw hle
  | string hle heq hadmits hforward =>
    exact .string hle heq ⟨hadmits.1, by omega⟩ hforward
  | @array i f hle hf hitems hknown ih =>
    refine .array hle hf (fun k hk ↦ ih k hk ?_) hknown
    exact inside_of_last hitems (hf ▸ hle) hj hk
  | unknown h => exact .unknown h

theorem chain_toMemory (hi : i ≤ b.length) (h : Chain (Lies .file b True type) n i j)
    (hj : j ≤ b.length) : Chain (Lies .memory b True type) n i j := by
  obtain ⟨f, rfl, rfl, hitems⟩ := h.exists_forall
  exact chain_of_forall (fun k hk ↦ (hitems k hk).toMemory (inside_of_last hitems hi hj hk))

theorem Inside.toFile (hb : b.length < 2 ^ 63) {y x : GgufMetadataType × Nat}
    (h : Inside .memory b y x) : Inside .file b y x := by
  obtain ⟨htype, hx, hy, k, hk, hchain⟩ := h
  exact ⟨htype, hx, hy, k, hk, hchain.mono (fun _ _ hlies ↦ hlies.toFile hb)⟩

theorem ends_file_iff (hb : b.length < 2 ^ 63) :
    Ends .file b type i ↔ Ends .memory b type i := by
  constructor
  · exact fun h ↦ Subrelation.accessible (fun h ↦ h.toFile hb) h
  · intro h
    unfold Ends at h ⊢
    generalize (type, i) = x at h ⊢
    induction h with
    | intro x _ ih =>
      refine Acc.intro x (fun y hy ↦ ?_)
      by_cases hend : y.2 ≤ b.length
      · obtain ⟨htype, hx, hyType, k, hk, hchain⟩ := hy
        exact ih y ⟨htype, hx, hyType, k, hk, chain_toMemory hx hchain hend⟩
      · exact Acc.intro y (fun z hz ↦ absurd hz.2.1 (by omega))

theorem ends_iff (hb : b.length < 2 ^ 63) (kind kind' : StreamKind) :
    Ends kind b type i ↔ Ends kind' b type i := by
  cases kind <;> cases kind'
  · exact Iff.rfl
  · exact ends_file_iff hb
  · exact (ends_file_iff hb).symm
  · exact Iff.rfl

def withKind (kind : StreamKind) (s : InputStream) : InputStream := { s with kind := kind }

@[simp] theorem withKind_good : (withKind kind s).good = s.good := rfl

@[simp] theorem withKind_atPos : withKind kind' (atPos kind b i) = atPos kind' b i := rfl

theorem read_withKind (n : Nat) (s : InputStream) :
    (withKind kind s).read n = ((s.read n).1, withKind kind (s.read n).2) := by
  unfold InputStream.read
  rw [withKind_good]
  split <;> rfl

theorem readNat_withKind (n : Nat) (s : InputStream) :
    (withKind kind s).readNat n = ((s.readNat n).1, withKind kind (s.readNat n).2) := by
  rw [readNat, read_withKind]
  rfl

theorem readString_withKind (s : InputStream) :
    readString host (withKind kind s) =
      (readString host s).map (fun e ↦ (e.1, withKind kind e.2)) := by
  rw [readString, readString, readNat_withKind]
  dsimp only
  split
  · rfl
  · rw [read_withKind]
    rfl

theorem readValue_withKind (htype : type ≠ .array) (d : Nat) (s : InputStream) :
    readValue host d type (withKind kind s) =
      (readValue host d type s).map (Option.map (fun e ↦ (e.1, withKind kind e.2))) := by
  cases hw : type.width with
  | some w =>
    rw [readValue_scalar hw, readValue_scalar hw, readNat_withKind]
    rfl
  | none =>
    cases type with
    | string =>
      rw [readValue, readValue, readString_withKind, Option.map_some, Option.map_map,
        Option.map_map]
      rfl
    | array => exact absurd rfl htype
    | unknown raw => rfl
    | _ => cases hw

theorem readShape_withKind (n : Nat) (s : InputStream) :
    readShape n (withKind kind s) = ((readShape n s).1, withKind kind (readShape n s).2) := by
  induction n generalizing s with
  | zero => rfl
  | succ n ih =>
    rw [readShape, readShape, readNat_withKind]
    dsimp only
    rw [ih]

theorem parseTensorInfo_withKind (p : GgufParser) (s : InputStream) :
    p.parseTensorInfo host (withKind kind s) = ((p.parseTensorInfo host s).1,
      (p.parseTensorInfo host s).2.1, withKind kind (p.parseTensorInfo host s).2.2) := by
  rw [parseTensorInfo, parseTensorInfo, readString_withKind]
  cases readString host s with
  | none => rfl
  | some e =>
    rw [Option.map_some]
    dsimp only
    rw [readNat_withKind]
    dsimp only
    rw [readShape_withKind]
    dsimp only
    rw [readNat_withKind]
    dsimp only
    rw [readNat_withKind]
    rfl

theorem parseTensors_withKind (n : Nat) (p : GgufParser) (s : InputStream) :
    p.parseTensors host n (withKind kind s) = ((p.parseTensors host n s).1,
      (p.parseTensors host n s).2.1, withKind kind (p.parseTensors host n s).2.2) := by
  induction n generalizing p s with
  | zero => rfl
  | succ n ih =>
    rw [parseTensors, parseTensors, parseTensorInfo_withKind]
    dsimp only
    split
    · rw [ih]
    · rfl

theorem readValue_unique {v v' : Option (StoredValue × InputStream)}
    (h : readValue host d type s = some v) (h' : readValue host d' type s = some v') : v = v' := by
  have hmax := readValue_mono (le_max_left d d') h
  rw [readValue_mono (le_max_right d d') h', Option.some_inj] at hmax
  exact hmax.symm

theorem readValue_array_eq {v : Option (StoredValue × InputStream)}
    (h : readValue host d .array s = some v) : ∃ s', v = some (.string (lit "[array]"), s') := by
  rw [readValue, Option.map_eq_some_iff] at h
  obtain ⟨s', -, rfl⟩ := h
  exact ⟨s', rfl⟩

def Alike (kind kind' : StreamKind) (b : ByteString) (s s' : InputStream) : Prop :=
  (∃ j, s = atPos kind b j ∧ s' = atPos kind' b j) ∨ s.good = false ∧ s'.good = false

theorem readArray_good (hb : b.length ≤ host.maxSize)
    (hlies : ∀ j, Lies kind b True .array i j → Lies kind' b True .array i j) {x x' : StoredValue}
    (h : readValue host d .array (atPos kind b i) = some (some (x, s)))
    (h' : readValue host d' .array (atPos kind' b i) = some (some (x', s'))) (hs : s.good = true) :
    ∃ j, s = atPos kind b j ∧ s' = atPos kind' b j := by
  obtain ⟨j, hj, hvalue⟩ := lies_of_readValue hb h hs
  have hvalue' : ValueLies kind' b True .array i j := hlies j hvalue
  obtain ⟨d₀, y, hy⟩ := readValue_of_lies hb hvalue'
  have heq := readValue_unique h' hy
  rw [Option.some_inj, Prod.mk.injEq] at heq
  exact ⟨j, hj, heq.2⟩

theorem readArray_agree (hb : b.length ≤ host.maxSize)
    (hlies : ∀ j, Lies kind b True .array i j ↔ Lies kind' b True .array i j)
    {v : Option (StoredValue × InputStream)}
    (h : readValue host d .array (atPos kind b i) = some v) :
    ∃ d' x s s', v = some (x, s) ∧
      readValue host d' .array (atPos kind' b i) = some (some (x, s')) ∧
        Alike kind kind' b s s' := by
  obtain ⟨s, rfl⟩ := readValue_array_eq h
  have hends : Ends kind' b .array i :=
    (ends_iff (host.short hb) kind kind').mp
      ((exists_readValue_array_iff (host.short hb)).mp ⟨d, _, h⟩)
  obtain ⟨d', v', hv'⟩ : ∃ d' v', readValue host d' .array (atPos kind' b i) = some v' :=
    (exists_readValue_array_iff (host.short hb)).mpr hends
  obtain ⟨s', rfl⟩ := readValue_array_eq hv'
  refine ⟨d', _, s, s', rfl, hv', ?_⟩
  by_cases hs : s.good = true
  · exact .inl (readArray_good hb (fun j ↦ (hlies j).mp) h hv' hs)
  · refine .inr ⟨by simpa using hs, ?_⟩
    by_contra hs'
    obtain ⟨j, -, rfl⟩ :=
      readArray_good hb (fun j ↦ (hlies j).mpr) hv' h (by simpa using hs')
    exact hs rfl

theorem readValue_agree (kind' : StreamKind) (hb : b.length ≤ host.maxSize)
    (hlies : type = .array → ∀ j, Lies kind b True .array i j ↔ Lies kind' b True .array i j)
    {v : Option (StoredValue × InputStream)}
    (h : readValue host d type (atPos kind b i) = some v) :
    ∃ d' v', readValue host d' type (atPos kind' b i) = some v' ∧
      (v = none ∧ v' = none ∨ ∃ x s s', v = some (x, s) ∧ v' = some (x, s') ∧
        Alike kind kind' b s s') := by
  by_cases htype : type = .array
  · subst htype
    obtain ⟨d', x, s, s', hv, hv', halike⟩ := readArray_agree hb (hlies rfl) h
    exact ⟨d', some (x, s'), hv', .inr ⟨x, s, s', hv, rfl, halike⟩⟩
  · have heq : readValue host d type (withKind kind' (atPos kind b i)) = _ :=
      readValue_withKind htype d (atPos kind b i)
    rw [h, Option.map_some, withKind_atPos] at heq
    refine ⟨d, _, heq, ?_⟩
    cases v with
    | none => exact .inl ⟨rfl, rfl⟩
    | some e =>
      obtain ⟨x, s⟩ := e
      refine .inr ⟨x, s, withKind kind' s, rfl, rfl, ?_⟩
      by_cases hs : s.good = true
      · obtain ⟨j, hj, -⟩ := lies_of_readValue hb h hs
        exact .inl ⟨j, hj, by rw [hj]; rfl⟩
      · exact .inr ⟨by simpa using hs, by simpa using hs⟩

def SameArrays (kind kind' : StreamKind) (b : ByteString) (i : Nat) : Prop :=
  ∀ a j, KvArray b i a → (Lies kind b True .array a j ↔ Lies kind' b True .array a j)

theorem kvLies_of_parse (hb : b.length ≤ host.maxSize)
    (h : p.parseMetadataKv host d (atPos kind b i) = some (.returned true, p', s')) :
    ∃ j, s' = atPos kind b j ∧ KvLies kind b True i j := by
  by_cases hkey : ∃ k, StringLies b i k ∧ k + 4 ≤ b.length
  · obtain ⟨k, hkey, hk⟩ := hkey
    rw [parseMetadataKv_at hb hkey hk, Option.map_eq_some_iff] at h
    obtain ⟨v, hv, heq⟩ := h
    cases v with
    | none => cases heq
    | some e =>
      obtain ⟨x, s₁⟩ := e
      rw [keepValue] at heq
      split at heq
      · rename_i hgood
        cases heq
        obtain ⟨j, hj, hlies⟩ := lies_of_readValue hb hv hgood
        exact ⟨j, hj, k, hkey, hk, hlies⟩
      · cases heq
  · by_cases hlen : readAt i 8 b ≤ host.maxSize
    · obtain ⟨s₁, hs₁⟩ := parseMetadataKv_short kind hb hlen
        (fun k hk ↦ by_contra (fun hle ↦ hkey ⟨k, hk, by omega⟩)) d p
      rw [hs₁] at h
      cases h
    · rw [parseMetadataKv_throws hb .key (by omega)] at h
      cases h

theorem parseMetadataKv_agree (hb : b.length ≤ host.maxSize)
    (hsame : SameArrays kind kind' b i) {o : Outcome}
    (h : p.parseMetadataKv host d (atPos kind b i) = some (o, p', s)) :
    ∃ d' s', p.parseMetadataKv host d' (atPos kind' b i) = some (o, p', s') ∧
      (o = .returned true → ∃ j, s = atPos kind b j ∧ s' = atPos kind' b j) := by
  by_cases hlen : readAt i 8 b ≤ host.maxSize
  · by_cases hkey : ∃ k, StringLies b i k ∧ k + 4 ≤ b.length
    · obtain ⟨k, hkey, hk⟩ := hkey
      rw [parseMetadataKv_at hb hkey hk, Option.map_eq_some_iff] at h
      obtain ⟨v, hv, heq⟩ := h
      obtain ⟨d', v', hv', hcase⟩ := readValue_agree kind' hb
        (fun htype j ↦ hsame (k + 4) j ⟨k, hkey, hk, htype, rfl⟩) hv
      refine ⟨d', ?_⟩
      rw [parseMetadataKv_at hb hkey hk, hv', Option.map_some]
      obtain ⟨rfl, rfl⟩ | ⟨x, s₁, s₂, rfl, rfl, halike⟩ := hcase
      · cases heq
        exact ⟨_, rfl, fun hok ↦ absurd hok (by simp)⟩
      · obtain ⟨j, rfl, rfl⟩ | ⟨hs₁, hs₂⟩ := halike
        · cases heq
          exact ⟨_, rfl, fun _ ↦ ⟨j, rfl, rfl⟩⟩
        · rw [keepValue, hs₁] at heq
          cases heq
          rw [keepValue, hs₂]
          exact ⟨_, rfl, fun hok ↦ absurd hok (by simp)⟩
    · have hshort : ∀ k, StringLies b i k → b.length < k + 4 :=
        fun k hk ↦ by_contra (fun hle ↦ hkey ⟨k, hk, by omega⟩)
      obtain ⟨s₁, hs₁⟩ := parseMetadataKv_short kind hb hlen hshort d p
      obtain ⟨s₂, hs₂⟩ := parseMetadataKv_short kind' hb hlen hshort d p
      rw [hs₁] at h
      cases h
      exact ⟨d, s₂, hs₂, fun hok ↦ absurd hok (by simp)⟩
  · rw [parseMetadataKv_throws hb .key (by omega)] at h
    cases h
    exact ⟨d, _, parseMetadataKv_throws hb .key (by omega) d p, fun hok ↦ absurd hok (by simp)⟩

theorem parseMetadata_agree (hb : b.length ≤ host.maxSize)
    (hsame : ∀ m j, m < n → Chain (KvLies kind b True) m i j → Chain (KvLies kind' b True) m i j →
      SameArrays kind kind' b j) {o : Outcome}
    (h : p.parseMetadata host d n (atPos kind b i) = some (o, p', s)) :
    ∃ d' s', p.parseMetadata host d' n (atPos kind' b i) = some (o, p', s') ∧
      (o = .returned true → ∃ j, s = atPos kind b j ∧ s' = atPos kind' b j) := by
  induction n generalizing i p with
  | zero =>
    cases h
    exact ⟨0, _, rfl, fun _ ↦ ⟨i, rfl, rfl⟩⟩
  | succ n ih =>
    rw [parseMetadata, Option.bind_eq_bind, Option.bind_eq_some_iff] at h
    obtain ⟨⟨o₁, p₁, s₁⟩, hkv, h⟩ := h
    obtain ⟨d₁, s₁', hkv', hok⟩ :=
      parseMetadataKv_agree hb (hsame 0 i (by omega) (.nil i) (.nil i)) hkv
    dsimp only at h
    split at h
    · rename_i htrue
      subst htrue
      obtain ⟨j, rfl, rfl⟩ := hok rfl
      obtain ⟨j₁, hj₁, hlies⟩ := kvLies_of_parse hb hkv
      obtain ⟨j₂, hj₂, hlies'⟩ := kvLies_of_parse hb hkv'
      cases hj₁
      cases hj₂
      obtain ⟨d₂, s₂', hrest, hend⟩ := ih (fun m e hm hc hc' ↦
        hsame (m + 1) e (by omega) (.cons hlies hc) (.cons hlies' hc')) h
      refine ⟨max d₁ d₂, s₂', ?_, hend⟩
      rw [parseMetadata, Option.bind_eq_bind, parseMetadataKv_mono (le_max_left d₁ d₂) hkv',
        Option.bind_some, if_pos rfl, parseMetadata_mono (le_max_right d₁ d₂) hrest]
    · rename_i hfalse
      cases h
      refine ⟨d₁, s₁', ?_, hok⟩
      rw [parseMetadata, Option.bind_eq_bind, hkv', Option.bind_some, if_neg hfalse]

theorem parseBody_bad_eq (hs : s.good = false) (hs' : s'.good = false) (d : Nat) :
    parseBody host d b s = parseBody host d b s' := by
  unfold parseBody
  cases readAt 16 8 b with
  | succ n =>
    rw [parseMetadata, parseMetadata, Option.bind_eq_bind, parseMetadataKv_bad hs,
      parseMetadataKv_bad hs']
    rfl
  | zero =>
    rw [parseMetadata, parseMetadata, Option.map_some, Option.map_some, if_pos rfl, if_pos rfl]
    cases readAt 8 8 b with
    | zero => rfl
    | succ n =>
      rw [parseTensors, parseTensors, parseTensorInfo_bad hs, parseTensorInfo_bad hs']
      rfl

theorem parseStream_agree (kind' : StreamKind) (hb : b.length ≤ host.maxSize)
    (hsame : ∀ m j, 24 ≤ b.length → ValidStart b → m < readAt 16 8 b →
      Chain (KvLies kind b True) m 24 j → Chain (KvLies kind' b True) m 24 j →
        SameArrays kind kind' b j)
    {r : Outcome × GgufParser} (h : parseStream host d (atPos kind b 0) = some r) :
    ∃ d', parseStream host d' (atPos kind' b 0) = some r := by
  obtain ⟨s, hs, hstream⟩ := parseStream_start host kind b
  obtain ⟨s', hs', hstream'⟩ := parseStream_start host kind' b
  by_cases hstart : ValidStart b
  · rw [(hstream d).1 hstart] at h
    by_cases hlong : 24 ≤ b.length
    · rw [Passed.eq_atPos hs hlong, parseBody, Option.map_eq_some_iff] at h
      obtain ⟨⟨o, q, s₁⟩, hkvs, heq⟩ := h
      obtain ⟨d', s₁', hkvs', hok⟩ :=
        parseMetadata_agree hb (fun m j ↦ hsame m j hlong hstart) hkvs
      refine ⟨d', ?_⟩
      rw [(hstream' d').1 hstart, Passed.eq_atPos hs' hlong, parseBody, hkvs', Option.map_some]
      dsimp only at heq ⊢
      split at heq
      · rename_i htrue
        obtain ⟨j, rfl, rfl⟩ := hok htrue
        have hkind : atPos kind' b j = withKind kind' (atPos kind b j) := rfl
        rw [if_pos htrue, ← heq, hkind, parseTensors_withKind]
      · rw [if_neg ‹_›, heq]
    · have hbad := (hs.resolve_left (fun h ↦ absurd h.1 (by omega))).2
      have hbad' := (hs'.resolve_left (fun h ↦ absurd h.1 (by omega))).2
      exact ⟨d, by rw [(hstream' d).1 hstart, parseBody_bad_eq hbad' hbad, h]⟩
  · rw [(hstream d).2 hstart] at h
    exact ⟨d, by rw [(hstream' d).2 hstart, h]⟩

/-- Without an overrun the arrays lie alike wherever the parser comes to. -/
theorem sameArrays_of_not_overruns (hb : b.length < 2 ^ 63) (h : ¬Overruns b)
    (hi : KvAt .memory b i) : SameArrays .memory .file b i := by
  intro a j ha
  refine ⟨fun hlies ↦ hlies.toFile hb, fun hlies ↦ hlies.toMemory ?_⟩
  by_contra hlt
  exact h ⟨i, a, j, hi, ha, hlies, by omega⟩

theorem SameArrays.symm (h : SameArrays kind kind' b i) : SameArrays kind' kind b i :=
  fun a j ha ↦ (h a j ha).symm

theorem parseHeader_eq (d : Nat) :
    parseHeader host d (some b) = parseStream host d (atPos .file b 0) := rfl

theorem sameResult_of_not_overruns (hb : b.length ≤ host.maxSize) (h : ¬Overruns b) :
    SameResult host b := by
  by_cases hne : b = []
  · subst hne
    have hstart : ¬ValidStart [] := fun h ↦ ne_nil_of_validStart h rfl
    obtain ⟨s, -, hstream⟩ := parseStream_start host .file []
    intro r
    constructor
    · rintro ⟨d, hd⟩
      exact ⟨d, (hstream d).2 hstart |>.trans hd⟩
    · rintro ⟨d, hd⟩
      exact ⟨d, ((hstream d).2 hstart).symm.trans hd⟩
  · intro r
    constructor
    · rintro ⟨d, hd⟩
      rw [parseFromMemory_eq hne hb] at hd
      exact parseStream_agree .file hb (fun m j hlong hstart hm hchain _ ↦
        sameArrays_of_not_overruns (host.short hb) h ⟨hlong, hstart, m, hm, hchain⟩) hd
    · rintro ⟨d, hd⟩
      obtain ⟨d', hd'⟩ := parseStream_agree .memory hb
        (fun m j hlong hstart hm _ hchain ↦ (sameArrays_of_not_overruns (host.short hb) h
          ⟨hlong, hstart, m, hm, hchain⟩).symm) hd
      exact ⟨d', by rw [parseFromMemory_eq hne hb, hd']⟩

def Grows (p p' : GgufParser) : Prop :=
  p'.header = p.header ∧ p.metadata.length ≤ p'.metadata.length

theorem Grows.trans {p'' : GgufParser} (h : Grows p p') (h' : Grows p' p'') : Grows p p'' :=
  ⟨h'.1.trans h.1, h.2.trans h'.2⟩

theorem parseMetadataKv_grows {o : Outcome}
    (h : p.parseMetadataKv host d s = some (o, p', s')) : Grows p p' := by
  rw [parseMetadataKv] at h
  split at h
  · cases h
    exact ⟨rfl, le_rfl⟩
  · rw [Option.map_eq_some_iff] at h
    obtain ⟨v, -, heq⟩ := h
    cases v with
    | none =>
      cases heq
      exact ⟨rfl, le_rfl⟩
    | some e =>
      rw [keepValue] at heq
      split at heq
      · cases heq
        exact ⟨rfl, by simp⟩
      · cases heq
        exact ⟨rfl, le_rfl⟩

theorem parseMetadata_grows {o : Outcome}
    (h : p.parseMetadata host d n s = some (o, p', s')) : Grows p p' := by
  induction n generalizing p s with
  | zero =>
    cases h
    exact ⟨rfl, le_rfl⟩
  | succ n ih =>
    rw [parseMetadata, Option.bind_eq_bind, Option.bind_eq_some_iff] at h
    obtain ⟨⟨o₁, p₁, s₁⟩, hkv, h⟩ := h
    have hfirst := parseMetadataKv_grows hkv
    split at h
    · exact hfirst.trans (ih h)
    · cases h
      exact hfirst

theorem parseTensors_grows (n : Nat) (p : GgufParser) (s : InputStream) :
    Grows p (p.parseTensors host n s).2.1 := by
  induction n generalizing p s with
  | zero => exact ⟨rfl, le_rfl⟩
  | succ n ih =>
    have hinfo : Grows p (p.parseTensorInfo host s).2.1 := by
      rw [parseTensorInfo]
      split <;> exact ⟨rfl, le_rfl⟩
    rw [parseTensors]
    split
    · exact hinfo.trans (ih _ _)
    · exact hinfo

theorem parseBody_grows {r : Outcome × GgufParser} (h : parseBody host d b s = some r)
    {o : Outcome} {q : GgufParser}
    (hkvs : parseMetadata host d (readAt 16 8 b) { header := headerAt b } s = some (o, q, s')) :
    Grows q r.2 := by
  rw [parseBody, hkvs, Option.map_some, Option.some_inj] at h
  rw [← h]
  split
  · exact parseTensors_grows _ _ _
  · exact ⟨rfl, le_rfl⟩

theorem KvLies.toFile (hb : b.length < 2 ^ 63) (h : KvLies .memory b True i j) :
    KvLies .file b True i j := by
  obtain ⟨k, hkey, hk, hvalue⟩ := h
  refine ⟨k, hkey, hk, ?_⟩
  unfold ValueLies at hvalue ⊢
  split at hvalue
  · rwa [if_pos ‹_›]
  · rw [if_neg ‹_›]
    exact hvalue.toFile hb

/-- More bytes than a string takes are refused only in memory. -/
theorem SameResult.fits (h : SameResult host b) : b.length ≤ host.maxSize := by
  by_contra hlong
  have hne : b ≠ [] := List.ne_nil_of_length_pos (by omega)
  have hmemory : parseFromMemory host 0 b = some (.lengthError, {}) := by
    rw [parseFromMemory, if_neg hne, if_pos (by omega)]
  obtain ⟨d, hd⟩ := (h _).mp ⟨0, hmemory⟩
  obtain ⟨s, -, hstream⟩ := parseStream_start host .file b
  rw [parseHeader_eq] at hd
  by_cases hstart : ValidStart b
  · rw [(hstream d).1 hstart] at hd
    have hkvs := hd
    rw [parseBody, Option.map_eq_some_iff] at hkvs
    obtain ⟨⟨o, q, s'⟩, hkvs, -⟩ := hkvs
    have hgrows := (parseMetadata_grows hkvs).trans (parseBody_grows hd hkvs)
    have hmagic : (0 : Nat) = readAt 0 4 b := congrArg (fun h : GgufHeader ↦ h.magic) hgrows.1
    rcases hstart.1 with hle | hbe
    · rw [hle] at hmagic
      exact absurd hmagic (by decide)
    · rw [hbe] at hmagic
      exact absurd hmagic (by decide)
  · rw [(hstream d).2 hstart] at hd
    cases hd

theorem parseMetadataKv_overrun (hb : b.length ≤ host.maxSize) (ha : KvArray b i a)
    (hlies : Lies .file b True .array a j) (hlt : b.length < j) :
    ∃ d, ∀ p : GgufParser, ∃ s, p.parseMetadataKv host d (atPos .memory b i) =
      some (.returned false, p, s) := by
  obtain ⟨k, hkey, hk, htype, rfl⟩ := ha
  have hvalue : ValueLies .file b True .array (k + 4) j := hlies
  obtain ⟨d₀, x, hx⟩ := readValue_of_lies hb hvalue
  have hends : Ends .memory b .array (k + 4) := (ends_file_iff (host.short hb)).mp
    ((exists_readValue_array_iff (host.short hb)).mp ⟨d₀, _, hx⟩)
  obtain ⟨d, v, hv⟩ : ∃ d v, readValue host d .array (atPos .memory b (k + 4)) = some v :=
    (exists_readValue_array_iff (host.short hb)).mpr hends
  obtain ⟨s, rfl⟩ := readValue_array_eq hv
  have hbad : s.good = false := by
    by_contra hgood
    obtain ⟨j', -, hlies'⟩ := lies_of_readValue hb hv (by simpa using hgood)
    have hmemory : Lies .memory b True .array (k + 4) j' := hlies'
    have hle := hmemory.le_of_memory (by omega)
    have heq := hlies.unique (hmemory.toFile (host.short hb))
    omega
  refine ⟨d, fun p ↦ ⟨s, ?_⟩⟩
  rw [parseMetadataKv_at hb hkey hk, htype, hv, Option.map_some, keepValue, hbad]
  rfl

theorem SameResult.not_overruns (h : SameResult host b) : ¬Overruns b := by
  rintro ⟨i, a, j, ⟨hlong, hstart, n, hn, hchain⟩, ha, hlies, hlt⟩
  have hb := h.fits
  obtain ⟨m, hm⟩ : ∃ m, readAt 16 8 b = n + (m + 1) := ⟨readAt 16 8 b - n - 1, by omega⟩
  -- in memory the keys before are kept, and nothing more
  obtain ⟨d₁, mvs, hlen, hreach⟩ := parseMetadata_chain hb hchain
  obtain ⟨d₂, hover⟩ := parseMetadataKv_overrun hb ha hlies hlt
  obtain ⟨s, hkv⟩ := hover { header := headerAt b, metadata := mvs }
  have hmemory : parseFromMemory host (max d₁ d₂) b =
      some (.returned false, { header := headerAt b, metadata := mvs }) := by
    rw [parseFromMemory_body hb hlong hstart, parseBody, hm, hreach _ (le_max_left d₁ d₂),
      parseMetadata, Option.bind_eq_bind]
    dsimp only [List.nil_append]
    rw [parseMetadataKv_mono (le_max_right d₁ d₂) hkv]
    rfl
  -- from a file one more is kept
  obtain ⟨d₃, hfile⟩ := (h _).mp ⟨_, hmemory⟩
  obtain ⟨s₀, hs₀, hstream⟩ := parseStream_start host .file b
  rw [parseHeader_eq, (hstream d₃).1 hstart, Passed.eq_atPos hs₀ hlong] at hfile
  obtain ⟨d₄, mvs', hlen', hreach'⟩ :=
    parseMetadata_chain hb (hchain.mono (fun _ _ hkv ↦ hkv.toFile (host.short hb)))
  have hkvFile : KvLies .file b True i j := by
    obtain ⟨k, hkey, hk, htype, rfl⟩ := ha
    exact ⟨k, hkey, hk, by rw [htype]; exact hlies⟩
  obtain ⟨d₅, mv, hmv⟩ := parseMetadataKv_of_lies hb hkvFile
  have hmax := parseBody_mono (le_max_left d₃ (max d₄ d₅)) hfile
  have hkvs := hmax
  rw [parseBody, Option.map_eq_some_iff] at hkvs
  obtain ⟨⟨o, q, s'⟩, hkvs, -⟩ := hkvs
  have hend := (parseBody_grows hmax hkvs).2
  rw [hm, hreach' _ (by omega), parseMetadata, Option.bind_eq_bind,
    parseMetadataKv_mono (by omega) (hmv _), Option.bind_some, if_pos rfl] at hkvs
  have hstep := (parseMetadata_grows hkvs).2
  simp only [List.nil_append, List.length_append, List.length_singleton] at hend hstep
  omega

/-- A file and the same bytes in memory are parsed alike exactly if the bytes fit a string and no
array value overruns them. -/
theorem sameResult_iff (host : Host) (b : ByteString) :
    SameResult host b ↔ b.length ≤ host.maxSize ∧ ¬Overruns b :=
  ⟨fun h ↦ ⟨h.fits, h.not_overruns⟩, fun h ↦ sameResult_of_not_overruns h.1 h.2⟩

def missingString : ByteString :=
  [0x47, 0x47, 0x55, 0x46] ++ littleEndian 4 3 ++ littleEndian 8 0 ++ littleEndian 8 1 ++
    littleEndian 8 0 ++ littleEndian 4 9 ++ littleEndian 4 8 ++ littleEndian 8 1 ++
    littleEndian 8 5

/-- The file is accepted, the same bytes in memory are not. -/
theorem missingString_differs :
    (parseHeader sampleHost 2 (some missingString)).map (fun r ↦ r.1) = some (.returned true) ∧
      (parseFromMemory sampleHost 2 missingString).map (fun r ↦ r.1) = some (.returned false) ∧
      ¬SameResult sampleHost missingString := by
  refine ⟨by decide, by decide, fun h ↦ h.not_overruns ⟨24, 36, 61, ?_, ?_, ?_, by decide⟩⟩
  · exact ⟨by decide, ⟨.inl (by decide), by decide⟩, 0, by decide, .nil 24⟩
  · exact ⟨32, ⟨by decide, by decide⟩, by decide, by decide, rfl⟩
  · refine lies_array (n := 1) (by decide) (by decide) (.cons ?_ (.nil 61)) (.inl trivial)
    have htype : typeAt 36 missingString = .string := by decide
    rw [htype]
    exact .string (by decide) (by decide) (by decide) (.inl trivial)

end Cerberus.Gguf
