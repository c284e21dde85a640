import Cerberus.Foundation.FiniteMap
import Cerberus.Tokenizer.Model

/-! The identifiers of a vocabulary that is loaded from files. -/

namespace Cerberus.Tokenizer

open Std Foundation Foundation.Bytes Foundation.Wire

def vocabEntries (files : ByteString → Option ByteString) (vocabFile : ByteString) :
    List (ByteString × Int) := (vocabLines files vocabFile).filterMap vocabEntry

def lineWords (line : ByteString) : List ByteString :=
  (mergeEntry line).toList.flatMap (fun e ↦ [e.1 ++ e.2, e.1, e.2])

/-- The words of the merges file in the order in which they get their identifiers. -/
def mergeWords (files : ByteString → Option ByteString) (bpeMergesFile : ByteString) :
    List ByteString :=
  (((files bpeMergesFile).map dataLines).getD []).flatMap lineWords

def firstId (entries : List (ByteString × Int)) : Int :=
  entries.foldl (fun n e ↦ if e.2 ≥ n then e.2 + 1 else n) 0

/-- Words with the numbers from `n` on. -/
def numbered (n : Int) : List ByteString → List (ByteString × Int)
  | [] => []
  | w :: ws => (w, n) :: numbered (n + 1) ws

def assign (vocab : Dict Int) (entries : List (ByteString × Int)) : Dict Int :=
  entries.foldl (fun m e ↦ m.insert e.1 e.2) vocab

def lastId (entries : List (ByteString × Int)) (w : ByteString) : Option Int :=
  (entries.reverse.find? (fun e ↦ e.1 = w)).map Prod.snd

variable {l l' : Loading} {entries : List (ByteString × Int)} {ws : List ByteString}
  {a b w : ByteString} {i n : Int}

theorem loadVocabLine_eq {line : ByteString} (h : loadVocabLine l line = some l') :
    l'.vocab = assign l.vocab (vocabEntry line).toList ∧
    l'.tokenId = (vocabEntry line).toList.foldl (fun n e ↦ if e.2 ≥ n then e.2 + 1 else n)
      l.tokenId := by
  unfold loadVocabLine at h
  cases hentry : vocabEntry line with
  | none =>
    rw [hentry] at h
    cases h
    exact ⟨rfl, rfl⟩
  | some e =>
    obtain ⟨word, id⟩ := e
    simp only [hentry] at h
    by_cases hid : id ≥ l.tokenId
    · rw [if_pos hid] at h
      split at h
      · cases h
        simp [assign, hid]
      · cases h
    · rw [if_neg hid] at h
      cases h
      simp [assign, hid]

theorem loadVocabLines_eq {lines : List ByteString} (h : lines.foldlM loadVocabLine l = some l') :
    l'.vocab = assign l.vocab (lines.filterMap vocabEntry) ∧
    l'.tokenId = (lines.filterMap vocabEntry).foldl (fun n e ↦ if e.2 ≥ n then e.2 + 1 else n)
      l.tokenId := by
  induction lines generalizing l with
  | nil =>
    cases h
    exact ⟨rfl, rfl⟩
  | cons line lines ih =>
    rw [List.foldlM_cons] at h
    obtain ⟨m, hm, h⟩ := Option.bind_eq_some_iff.mp h
    obtain ⟨hvocab, hid⟩ := ih h
    obtain ⟨hvocab', hid'⟩ := loadVocabLine_eq hm
    rw [hvocab, hid, hvocab', hid']
    cases hentry : vocabEntry line with
    | none =>
      rw [List.filterMap_cons_none hentry]
      exact ⟨rfl, rfl⟩
    | some e =>
      rw [List.filterMap_cons_some hentry]
      exact ⟨rfl, rfl⟩

theorem assignNext_eq (h : l.assignNext w = some l') :
    l'.vocab = l.vocab.insert w l.tokenId ∧ l'.tokenId = l.tokenId + 1 := by
  unfold Loading.assignNext at h
  split at h
  · cases h
    exact ⟨rfl, rfl⟩
  · cases h

theorem loadMergeLine_eq {line : ByteString} (h : loadMergeLine l line = some l') :
    l'.vocab = assign l.vocab (numbered l.tokenId (lineWords line)) ∧
    l'.tokenId = l.tokenId + (lineWords line).length := by
  unfold loadMergeLine at h
  unfold lineWords
  cases hentry : mergeEntry line with
  | none =>
    rw [hentry] at h
    cases h
    exact ⟨rfl, by simp⟩
  | some e =>
    obtain ⟨left, right⟩ := e
    simp only [hentry] at h
    obtain ⟨l₁, h₁, h⟩ := Option.bind_eq_some_iff.mp h
    obtain ⟨l₂, h₂, h₃⟩ := Option.bind_eq_some_iff.mp h
    obtain ⟨hvocab₁, hid₁⟩ := assignNext_eq h₁
    obtain ⟨hvocab₂, hid₂⟩ := assignNext_eq h₂
    obtain ⟨hvocab₃, hid₃⟩ := assignNext_eq h₃
    constructor
    · rw [hvocab₃, hvocab₂, hid₂, hvocab₁, hid₁]
      rfl
    · rw [hid₃, hid₂, hid₁]
      simp only [Option.toList_some, List.flatMap_cons, List.flatMap_nil, List.append_nil,
        List.length_cons, List.length_nil]
      omega

theorem numbered_append (n : Int) (ws vs : List ByteString) :
    numbered n (ws ++ vs) = numbered n ws ++ numbered (n + ws.length) vs := by
  induction ws generalizing n with
  | nil => simp [numbered]
  | cons w ws ih =>
    have hn : n + 1 + ws.length = n + (w :: ws).length := by
      rw [List.length_cons]
      omega
    rw [List.cons_append, numbered, ih, numbered, hn, List.cons_append]

theorem loadMergeLines_eq {lines : List ByteString} (h : lines.foldlM loadMergeLine l = some l') :
    l'.vocab = assign l.vocab (numbered l.tokenId (lines.flatMap lineWords)) := by
  induction lines generalizing l with
  | nil =>
    cases h
    rfl
  | cons line lines ih =>
    rw [List.foldlM_cons] at h
    obtain ⟨m, hm, h⟩ := Option.bind_eq_some_iff.mp h
    obtain ⟨hvocab, hid⟩ := loadMergeLine_eq hm
    rw [ih h, hvocab, hid, List.flatMap_cons, numbered_append, assign, assign, assign,
      List.foldl_append]

def special (vocab : Dict Int) : Dict Int :=
  (vocab.insert startOfText bosToken).insert endOfText eosToken

theorem loadFromFiles_vocab {files : ByteString → Option ByteString}
    {bpeMergesFile vocabFile : ByteString}
    (h : loadFromFiles files bpeMergesFile vocabFile = some (.ok l)) :
    l.vocab = special (assign ∅ (vocabEntries files vocabFile ++
      numbered (firstId (vocabEntries files vocabFile)) (mergeWords files bpeMergesFile))) := by
  unfold loadFromFiles at h
  obtain ⟨l₁, h₁, h⟩ := Option.bind_eq_some_iff.mp h
  obtain ⟨hvocab₁, hid₁⟩ := loadVocabLines_eq h₁
  cases hmerges : files bpeMergesFile with
  | none =>
    rw [hmerges] at h
    cases h
  | some merges =>
    rw [hmerges] at h
    obtain ⟨l₂, h₂, h⟩ := Option.bind_eq_some_iff.mp h
    have hvocab₂ := loadMergeLines_eq h₂
    have hwords : mergeWords files bpeMergesFile = (dataLines merges).flatMap lineWords := by
      rw [mergeWords, hmerges]
      rfl
    split at h
    · cases h
    · cases h
      rw [hvocab₂, hvocab₁, hid₁, hwords, assign, assign, assign, List.foldl_append]
      rfl

theorem lastId_append (entries entries' : List (ByteString × Int)) (w : ByteString) :
    lastId (entries ++ entries') w = (lastId entries' w).or (lastId entries w) := by
  rw [lastId, List.reverse_append, List.find?_append, Option.map_or]
  rfl

theorem lastId_cons (e : ByteString × Int) (entries : List (ByteString × Int)) (w : ByteString) :
    lastId (e :: entries) w = (lastId entries w).or (if e.1 = w then some e.2 else none) := by
  have h := lastId_append [e] entries w
  rw [List.singleton_append] at h
  rw [h]
  congr 1
  by_cases he : e.1 = w
  · simp [lastId, he]
  · simp [lastId, he]

theorem get_assign (vocab : Dict Int) (entries : List (ByteString × Int)) (w : ByteString) :
    (assign vocab entries)[w]? = (lastId entries w).or vocab[w]? :=
  FiniteMap.get_foldl_insert (fun e : ByteString × Int ↦ e.1) Prod.snd entries vocab w

theorem lastId_numbered_none (n : Int) : lastId (numbered n ws) w = none ↔ w ∉ ws := by
  induction ws generalizing n with
  | nil => simp [numbered, lastId]
  | cons v ws ih =>
    rw [numbered, lastId_cons, Option.or_eq_none_iff, ih, List.mem_cons, not_or, and_comm]
    simp [eq_comm]

theorem lastId_numbered (n : Int) : lastId (numbered n ws) w = some i ↔
    ∃ j : Nat, ws[j]? = some w ∧ w ∉ ws.drop (j + 1) ∧ i = n + j := by
  induction ws generalizing n with
  | nil => simp [numbered, lastId]
  | cons v ws ih =>
    rw [numbered, lastId_cons, Option.or_eq_some_iff, ih, lastId_numbered_none]
    constructor
    · rintro (⟨j, hj, hlast, rfl⟩ | ⟨hw, hv⟩)
      · exact ⟨j + 1, hj, hlast, by push_cast; ring⟩
      · split at hv
        · next he =>
          cases hv
          exact ⟨0, by simp [← he], by simpa using hw, by simp⟩
        · cases hv
    · rintro ⟨j, hj, hlast, rfl⟩
      cases j with
      | zero =>
        right
        have hv : v = w := by simpa using hj
        exact ⟨by simpa using hlast, by simp [hv]⟩
      | succ j => exact .inl ⟨j, hj, hlast, by push_cast; ring⟩

theorem lt_firstId_of_mem {e : ByteString × Int} (h : e ∈ entries) : e.2 < firstId entries := by
  induction entries using List.reverseRecOn with
  | nil => cases h
  | append_singleton entries d ih =>
    have hstep : firstId (entries ++ [d]) =
        if d.2 ≥ firstId entries then d.2 + 1 else firstId entries := by
      simp [firstId, List.foldl_append]
    rw [hstep]
    rcases List.mem_append.mp h with h | h
    · have hlt := ih h
      split <;> omega
    · rw [List.mem_singleton.mp h]
      split <;> omega

theorem lt_firstId (h : lastId entries w = some i) : i < firstId entries := by
  obtain ⟨e, he, rfl⟩ := Option.map_eq_some_iff.mp h
  exact lt_firstId_of_mem (List.mem_reverse.mp (List.mem_of_find?_eq_some he))

def Plain (w : ByteString) : Prop := w ≠ startOfText ∧ w ≠ endOfText

/-- No later assignment to a word of the vocabulary file takes its identifier away. -/
def Kept (assigned : List ByteString) (w : ByteString) : Prop := w ∉ assigned ∧ Plain w

/-- The identifiers that stand at the end are all different: those of the vocabulary file among each
other and from the two reserved ones, and the two that the counter gives out although they are
reserved. -/
structure Collisionless (entries : List (ByteString × Int)) (assigned : List ByteString) :
    Prop where
  distinct : ∀ a b i, Kept assigned a → Kept assigned b → lastId entries a = some i →
    lastId entries b = some i → a = b
  unreserved : ∀ a, Kept assigned a →
    lastId entries a ≠ some bosToken ∧ lastId entries a ≠ some eosToken
  counted : ∀ (j : Nat) w, assigned[j]? = some w →
    firstId entries + j = bosToken ∨ firstId entries + j = eosToken →
      ¬ Plain w ∨ w ∈ assigned.drop (j + 1)

def InjectiveIds (vocab : Dict Int) : Prop :=
  ∀ (a b : ByteString) (i : Int), vocab[a]? = some i → vocab[b]? = some i → a = b

theorem special_ne : startOfText ≠ endOfText := by
  intro h
  exact absurd (lit_injective h) (by decide)

theorem special_plain (vocab : Dict Int) (h : Plain w) : (special vocab)[w]? = vocab[w]? := by
  rw [special, FiniteMap.get_insert, FiniteMap.get_insert, if_neg h.2.symm, if_neg h.1.symm]

theorem special_start (vocab : Dict Int) : (special vocab)[startOfText]? = some bosToken := by
  rw [special, FiniteMap.get_insert, FiniteMap.get_insert, if_neg special_ne.symm, if_pos rfl]

theorem special_end (vocab : Dict Int) : (special vocab)[endOfText]? = some eosToken := by
  rw [special, FiniteMap.get_insert, if_pos rfl]

theorem plain_or (w : ByteString) : w = startOfText ∨ w = endOfText ∨ Plain w := by
  by_cases hs : w = startOfText
  · exact .inl hs
  · by_cases he : w = endOfText
    · exact .inr (.inl he)
    · exact .inr (.inr ⟨hs, he⟩)

theorem injectiveIds_special (vocab : Dict Int) : InjectiveIds (special vocab) ↔
    (∀ (a b : ByteString) (i : Int), Plain a → Plain b → vocab[a]? = some i →
      vocab[b]? = some i → a = b) ∧
    ∀ a : ByteString, Plain a → vocab[a]? ≠ some bosToken ∧ vocab[a]? ≠ some eosToken := by
  constructor
  · intro h
    refine ⟨?_, ?_⟩
    · intro a b i hap hbp ha hb
      rw [← special_plain vocab hap] at ha
      rw [← special_plain vocab hbp] at hb
      exact h a b i ha hb
    · intro a hap
      constructor
      · intro ha
        rw [← special_plain vocab hap] at ha
        exact hap.1 (h a startOfText bosToken ha (special_start vocab))
      · intro ha
        rw [← special_plain vocab hap] at ha
        exact hap.2 (h a endOfText eosToken ha (special_end vocab))
  · rintro ⟨hdistinct, hreserved⟩ a b i ha hb
    have hne : bosToken ≠ eosToken := by decide
    -- a reserved identifier leads back to its token
    have hstart {w : ByteString} (hw : (special vocab)[w]? = some bosToken) : w = startOfText := by
      rcases plain_or w with rfl | rfl | hp
      · rfl
      · rw [special_end] at hw
        exact absurd (Option.some.inj hw).symm hne
      · rw [special_plain vocab hp] at hw
        exact absurd hw (hreserved w hp).1
    have hend {w : ByteString} (hw : (special vocab)[w]? = some eosToken) : w = endOfText := by
      rcases plain_or w with rfl | rfl | hp
      · rw [special_start] at hw
        exact absurd (Option.some.inj hw) hne
      · rfl
      · rw [special_plain vocab hp] at hw
        exact absurd hw (hreserved w hp).2
    rcases plain_or a with rfl | rfl | hap
    · rw [special_start] at ha
      exact (hstart (hb.trans ha.symm)).symm
    · rw [special_end] at ha
      exact (hend (hb.trans ha.symm)).symm
    · rcases plain_or b with rfl | rfl | hbp
      · rw [special_start] at hb
        exact hstart (ha.trans hb.symm)
      · rw [special_end] at hb
        exact hend (ha.trans hb.symm)
      · rw [special_plain vocab hap] at ha
        rw [special_plain vocab hbp] at hb
        exact hdistinct a b i hap hbp ha hb

theorem get_assigned (entries : List (ByteString × Int)) (assigned : List ByteString) :
    (assign ∅ (entries ++ numbered (firstId entries) assigned))[w]? = some i ↔
      (∃ j : Nat, assigned[j]? = some w ∧ w ∉ assigned.drop (j + 1) ∧
        i = firstId entries + j) ∨
      w ∉ assigned ∧ lastId entries w = some i := by
  rw [get_assign, lastId_append, ExtTreeMap.getElem?_empty, Option.or_none, Option.or_eq_some_iff,
    lastId_numbered, lastId_numbered_none]

theorem collisionless_iff (entries : List (ByteString × Int)) (assigned : List ByteString) :
    InjectiveIds (special (assign ∅ (entries ++ numbered (firstId entries) assigned))) ↔
      Collisionless entries assigned := by
  rw [injectiveIds_special]
  constructor
  · rintro ⟨hdistinct, hreserved⟩
    refine ⟨?_, ?_, ?_⟩
    · intro a b i ha hb hia hib
      exact hdistinct a b i ha.2 hb.2 ((get_assigned _ _).mpr (.inr ⟨ha.1, hia⟩))
        ((get_assigned _ _).mpr (.inr ⟨hb.1, hib⟩))
    · intro a ha
      constructor
      · intro hi
        exact (hreserved a ha.2).1 ((get_assigned _ _).mpr (.inr ⟨ha.1, hi⟩))
      · intro hi
        exact (hreserved a ha.2).2 ((get_assigned _ _).mpr (.inr ⟨ha.1, hi⟩))
    · intro j w hj hid
      by_contra hnot
      obtain ⟨hp, hlast⟩ := not_or.mp hnot
      have hget := (get_assigned entries assigned).mpr (.inl ⟨j, hj, hlast, rfl⟩)
      rcases hid with hid | hid
      · exact (hreserved w (not_not.mp hp)).1 (hid ▸ hget)
      · exact (hreserved w (not_not.mp hp)).2 (hid ▸ hget)
  · intro h
    refine ⟨?_, ?_⟩
    · intro a b i hap hbp ha hb
      rcases (get_assigned _ _).mp ha with ⟨j, hj, -, rfl⟩ | ⟨hna, hia⟩
      · rcases (get_assigned _ _).mp hb with ⟨k, hk, -, hik⟩ | ⟨hnb, hib⟩
        · have hjk : j = k := by omega
          subst hjk
          exact Option.some.inj (hj.symm.trans hk)
        · have hlt := lt_firstId hib
          omega
      · rcases (get_assigned _ _).mp hb with ⟨k, hk, -, rfl⟩ | ⟨hnb, hib⟩
        · have hlt := lt_firstId hia
          omega
        · exact h.distinct a b i ⟨hna, hap⟩ ⟨hnb, hbp⟩ hia hib
    · intro a hap
      have hfree {i : Int} (hi : i = bosToken ∨ i = eosToken)
          (ha : (assign ∅ (entries ++ numbered (firstId entries) assigned))[a]? = some i) :
          False := by
        rcases (get_assigned _ _).mp ha with ⟨j, hj, hlast, rfl⟩ | ⟨hna, hia⟩
        · rcases h.counted j a hj hi with hp | hmem
          · exact hp hap
          · exact hlast hmem
        · have hunreserved := h.unreserved a ⟨hna, hap⟩
          rcases hi with rfl | rfl
          · exact hunreserved.1 hia
          · exact hunreserved.2 hia
      exact ⟨fun ha ↦ hfree (.inl rfl) ha, fun ha ↦ hfree (.inr rfl) ha⟩

/-- The identifiers of a loaded vocabulary are different, and the reserved ones belong to the
special tokens, exactly when the two files give rise to no collision. -/
theorem vocabulary_injective_iff {files : ByteString → Option ByteString}
    {bpeMergesFile vocabFile : ByteString} {l : Loading}
    (h : loadFromFiles files bpeMergesFile vocabFile = some (.ok l)) :
    (InjectiveIds l.vocab ∧ ∀ a : ByteString,
      (l.vocab[a]? = some bosToken → a = startOfText) ∧
      (l.vocab[a]? = some eosToken → a = endOfText)) ↔
      Collisionless (vocabEntries files vocabFile) (mergeWords files bpeMergesFile) := by
  rw [loadFromFiles_vocab h, ← collisionless_iff]
  constructor
  · rintro ⟨hinjective, -⟩
    exact hinjective
  · intro hinjective
    refine ⟨hinjective, fun a ↦ ⟨?_, ?_⟩⟩
    · intro ha
      exact hinjective a startOfText bosToken ha (special_start _)
    · intro ha
      exact hinjective a endOfText eosToken ha (special_end _)

def crowded (path : ByteString) : Option ByteString :=
  if path = lit "vocab" then some (lit "x 49405\n")
  else if path = lit "merges" then some (lit "a b\n") else none

theorem vocabulary_injective_iff_crowded :
    ∃ l, loadFromFiles crowded (lit "merges") (lit "vocab") = some (.ok l) ∧
      ((InjectiveIds l.vocab ∧ ∀ a : ByteString,
        (l.vocab[a]? = some bosToken → a = startOfText) ∧
        (l.vocab[a]? = some eosToken → a = endOfText)) ↔
        Collisionless (vocabEntries crowded (lit "vocab"))
          (mergeWords crowded (lit "merges"))) := by
  have h : ∃ l, loadFromFiles crowded (lit "merges") (lit "vocab") = some (.ok l) := ⟨_, rfl⟩
  obtain ⟨l, hl⟩ := h
  exact ⟨l, hl, vocabulary_injective_iff hl⟩

/-- The counter gives a word the identifier of the start token. -/
theorem merged_word_starts_text :
    ∃ l, loadFromFiles crowded (lit "merges") (lit "vocab") = some (.ok l) ∧
      l.vocab[lit "ab"]? = some bosToken ∧ l.vocab[startOfText]? = some bosToken := by
  refine ⟨_, rfl, ?_, ?_⟩
  · decide +kernel
  · decide +kernel

end Cerberus.Tokenizer
