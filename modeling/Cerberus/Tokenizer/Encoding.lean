import Cerberus.Foundation.LongestMatch
import Cerberus.Tokenizer.Model

/-! Words, pieces and the frame of the identifiers. -/

namespace Cerberus.Tokenizer

open Foundation.Bytes Foundation.Text Foundation.LongestMatch

namespace CLIPTokenizer

variable {t : CLIPTokenizer} {w : ByteString}

theorem bestLen_eq (t : CLIPTokenizer) (rest : ByteString) :
    t.bestLen rest = Nat.findGreatest (fun n ↦ t.Known (rest.take n)) rest.length :=
  foldl_eq_findGreatest (fun n ↦ t.Known (rest.take n)) rest.length

theorem bpeLoop_longest (h : 0 < t.bestLen w) :
    Longest t.Known (w.take (t.bestLen w)) w := by
  rw [bestLen_eq] at h ⊢
  exact longest_take h

theorem bpeLoop_single (h : t.bestLen w = 0) (q : ByteString) : ¬ Longest t.Known q w := by
  rw [bestLen_eq] at h
  exact not_longest h q

theorem covers_bpeLoop (t : CLIPTokenizer) (w : ByteString) :
    Covers t.Known w (t.bpeLoop w) := by
  induction w using bpeLoop.induct t with
  | case1 =>
    rw [bpeLoop]
    exact .nil
  | case2 w hw hbest ih =>
    have hcover := Covers.longest (w := w.drop (t.bestLen w)) (p := w.take (t.bestLen w))
      (by simpa using bpeLoop_longest hbest) ih
    rw [List.take_append_drop] at hcover
    rw [bpeLoop, dif_neg hw, if_pos hbest]
    exact hcover
  | case3 w hw hbest ih =>
    rw [bpeLoop, dif_neg hw, if_neg hbest]
    obtain ⟨a, r, rfl⟩ := List.exists_cons_of_ne_nil hw
    exact .single (bpeLoop_single (Nat.eq_zero_of_not_pos hbest)) ih

def pieceId (t : CLIPTokenizer) (piece : ByteString) : Int := (t.vocab[piece]?).getD unkToken

/-- A piece that is no token is a single byte, so looking its bytes up finds nothing new. -/
theorem subwordIds_eq {ps : List ByteString} (h : Covers t.Known w ps) :
    ps.flatMap t.subwordIds = ps.map t.pieceId := by
  induction h with
  | nil => rfl
  | @longest p w ps hp h ih =>
    have hsome : ∃ id, t.vocab[p]? = some id := by
      apply Option.isSome_iff_exists.mp
      exact Std.ExtTreeMap.mem_iff_isSome_getElem?.mp hp.isKnown
    obtain ⟨id, hid⟩ := hsome
    rw [List.flatMap_cons, List.map_cons, ih]
    simp [subwordIds, pieceId, hid]
  | @single a w ps ha h ih =>
    have hone : t.subwordIds [a] = [t.pieceId [a]] := by
      cases hid : t.vocab[[a]]? with
      | none => simp [subwordIds, pieceId, hid]
      | some id => simp [subwordIds, pieceId, hid]
    rw [List.flatMap_cons, List.map_cons, ih, hone, List.singleton_append]

theorem wordIds_token {id : Int} (hw : w ≠ []) (h : t.vocab[w]? = some id) :
    t.wordIds w = [id] := by
  simp [wordIds, hw, h]

theorem wordIds_pieces {ps : List ByteString} (h : t.vocab[w]? = none)
    (hps : Covers t.Known w ps) : t.wordIds w = ps.map t.pieceId := by
  have hunknown : ¬ t.Known w := by
    rw [Known, Std.ExtTreeMap.mem_iff_isSome_getElem?, h]
    simp
  have hbpe : t.bpeEncodeWord w = t.bpeLoop w := by
    unfold bpeEncodeWord
    split
    · next hnil =>
      rw [hnil, bpeLoop]
      rfl
    · rfl
  have hps' := hps.unique (covers_bpeLoop t w)
  rw [← subwordIds_eq hps, hps', ← hbpe]
  unfold wordIds
  split
  · next hnil => simp [hnil, bpeEncodeWord]
  · rw [h]

theorem encodeRaw_eq (t : CLIPTokenizer) (text : ByteString) :
    t.encodeRaw text = (splitWords (normalizeText text)).flatMap t.wordIds := by
  unfold encodeRaw
  by_cases h : normalizeText text = []
  · have hnone : splitWords [] = [] := by
      rw [splitWords, words_none (by simp [extractWord_eq_none])]
      rfl
    simp [h, hnone]
  · simp [h]

theorem content_take (content : List Int) (n : Nat) :
    (if content ≠ [] ∧ n > 0 then if content.length > n then content.take n else content else []) =
      content.take n := by
  by_cases hn : n = 0
  · simp [hn]
  · by_cases hc : content = []
    · simp [hc]
    · rw [if_pos ⟨hc, Nat.pos_of_ne_zero hn⟩]
      split
      · rfl
      · rw [List.take_of_length_le (by omega)]

theorem encode_eq (t : CLIPTokenizer) (text : ByteString) {maxLength : Nat} (h : 2 ≤ maxLength) :
    t.encode text maxLength = bosToken :: ((t.encodeRaw text).take (maxLength - 2) ++
      List.replicate (maxLength - 1 - ((t.encodeRaw text).take (maxLength - 2)).length)
        eosToken) := by
  have hlen := List.length_take_le (maxLength - 2) (t.encodeRaw text)
  have hroom : maxLength > 1 := h
  unfold encode
  simp only [if_pos hroom, content_take]
  generalize (t.encodeRaw text).take (maxLength - 2) = p at hlen ⊢
  have hshort : ([bosToken] ++ p).length < maxLength := by
    simp only [List.length_append, List.length_singleton]
    omega
  have hpad : maxLength - 1 - p.length = maxLength - 2 - p.length + 1 := by omega
  have htokens : ([bosToken] ++ p ++ [eosToken]) ++
      List.replicate (maxLength - ([bosToken] ++ p ++ [eosToken]).length) padToken =
        bosToken :: (p ++ List.replicate (maxLength - 1 - p.length) eosToken) := by
    have hcount :
        maxLength - ([bosToken] ++ p ++ [eosToken]).length = maxLength - 2 - p.length := by
      simp only [List.length_append, List.length_singleton]
      omega
    rw [hcount, hpad, List.replicate_succ]
    simp [padToken, eosToken]
  have hlast : (bosToken :: (p ++ List.replicate (maxLength - 1 - p.length) eosToken))[
      maxLength - 1]? = some eosToken := by
    obtain ⟨n, rfl⟩ := Nat.exists_eq_add_of_le' h
    rw [show n + 2 - 1 = n + 1 from rfl, List.getElem?_cons_succ,
      List.getElem?_append_right (by omega), List.getElem?_replicate, if_pos (by omega)]
  rw [if_neg (by omega), if_pos hshort, htokens, if_neg (fun hc ↦ hc.2.1 hlast)]

theorem encode_length (t : CLIPTokenizer) (text : ByteString) {maxLength : Nat}
    (h : 2 ≤ maxLength) : (t.encode text maxLength).length = maxLength := by
  have hlen := List.length_take_le (maxLength - 2) (t.encodeRaw text)
  rw [encode_eq t text h, List.length_cons, List.length_append, List.length_replicate]
  omega

end CLIPTokenizer

theorem filter_spacedStep (result : ByteString) (c : UInt8) :
    (spacedStep result c).filter isWordByte = result.filter isWordByte ++
      [tolower c].filter isWordByte := by
  have hblank : isWordByte blank = false := by decide
  simp only [spacedStep]
  by_cases hp : ispunct (tolower c) = true
  · rw [if_pos hp]
    split
    · simp [List.filter_append, List.filter_cons, hblank]
    · simp [List.filter_append, List.filter_cons, hblank]
  · rw [if_neg hp, List.filter_append]

theorem filter_spaced (text result : ByteString) :
    (text.foldl spacedStep result).filter isWordByte =
      result.filter isWordByte ++ (text.map tolower).filter isWordByte := by
  induction text generalizing result with
  | nil => simp
  | cons c text ih =>
    rw [List.foldl_cons, ih, filter_spacedStep, List.append_assoc, ← List.filter_append,
      List.singleton_append, List.map_cons]

theorem filter_collapsed (text : ByteString) (collapsed : ByteString × Bool) :
    (text.foldl collapsedStep collapsed).1.filter isWordByte =
      collapsed.1.filter isWordByte ++ text.filter isWordByte := by
  have hblank : isWordByte blank = false := by decide
  induction text generalizing collapsed with
  | nil => simp
  | cons c text ih =>
    have hstep : (collapsedStep collapsed c).1.filter isWordByte =
        collapsed.1.filter isWordByte ++ [c].filter isWordByte := by
      unfold collapsedStep
      split
      · next hc =>
        split
        · rw [List.filter_append]
        · simp [hc, hblank]
      · rw [List.filter_append]
    rw [List.foldl_cons, ih, hstep, List.append_assoc, ← List.filter_append,
      List.singleton_append]

theorem filter_dropWhile_blank (s : ByteString) :
    (s.dropWhile isBlank).filter isWordByte = s.filter isWordByte := by
  induction s with
  | nil => rfl
  | cons c s ih =>
    rw [List.dropWhile_cons]
    split
    · next hc =>
      have hc' : c = blank := by simpa [isBlank] using hc
      have hblank : isWordByte blank = false := by decide
      rw [ih, hc', List.filter_cons_of_neg (by simp [hblank])]
    · rfl

/-- The words of a text are its bytes in lower case, without the white space. -/
theorem words_normalizeText (text : ByteString) :
    (splitWords (normalizeText text)).flatten = (text.map tolower).filter isWordByte := by
  have hsplit (s : ByteString) : splitWords s = words s := by
    rw [splitWords, List.filter_eq_self]
    intro word hword
    simpa using (mem_words hword).1
  rw [hsplit, words_flatten, normalizeText, List.rdropWhile, List.filter_reverse,
    filter_dropWhile_blank, ← List.filter_reverse, List.reverse_reverse, filter_dropWhile_blank,
    filter_collapsed, filter_spaced]
  rfl

/-- The identifiers are a start token, a prefix of those of the text and then end tokens; each word
of the text has its own identifier or is cut into pieces without a gap or an overlap. -/
theorem encode_frame (t : CLIPTokenizer) (text : ByteString) (maxLength : Nat)
    (h : 2 ≤ maxLength) :
    (t.encode text maxLength).length = maxLength ∧
    (∃ n, t.encode text maxLength = bosToken ::
      ((t.encodeRaw text).take (maxLength - 2) ++ List.replicate n eosToken)) ∧
    t.encodeRaw text = (splitWords (normalizeText text)).flatMap t.wordIds ∧
    (splitWords (normalizeText text)).flatten = (text.map tolower).filter isWordByte ∧
    ∀ w ∈ splitWords (normalizeText text),
      (∀ id, t.vocab[w]? = some id → t.wordIds w = [id]) ∧
      (t.vocab[w]? = none → ∃! pieces, Covers t.Known w pieces ∧ pieces.flatten = w ∧
        t.wordIds w = pieces.map t.pieceId) := by
  refine ⟨t.encode_length text h, ⟨_, t.encode_eq text h⟩, t.encodeRaw_eq text,
    words_normalizeText text, ?_⟩
  intro w hw
  have hne : w ≠ [] := by
    rw [splitWords, List.mem_filter] at hw
    simpa using hw.2
  constructor
  · intro id hid
    exact CLIPTokenizer.wordIds_token hne hid
  · intro hnone
    have hcover := t.covers_bpeLoop w
    refine ⟨t.bpeLoop w, ⟨hcover, hcover.flatten_eq, CLIPTokenizer.wordIds_pieces hnone hcover⟩, ?_⟩
    intro pieces hpieces
    exact hpieces.1.unique hcover

def syllables : CLIPTokenizer := .ofVocab (.ofList [(lit "in", (258 : Int)), (lit "inter", 272)])

/-- The one word of the text is no token. It begins with one, and its last two letters are
unknown. -/
theorem encode_frame_syllables :
    syllables.encode (lit "Interim") 4 = [bosToken, 272, unkToken, eosToken] ∧
    syllables.wordIds (lit "interim") = [272, unkToken, unkToken] ∧
    ∃! pieces, Covers syllables.Known (lit "interim") pieces ∧ pieces.flatten = lit "interim" ∧
      syllables.wordIds (lit "interim") = pieces.map syllables.pieceId := by
  obtain ⟨-, -, -, -, hwords⟩ := encode_frame syllables (lit "Interim") 4 (by decide)
  have hmem : lit "interim" ∈ splitWords (normalizeText (lit "Interim")) := by decide +kernel
  exact ⟨by decide +kernel, by decide +kernel, (hwords _ hmem).2 (by decide +kernel)⟩

end Cerberus.Tokenizer
