import Cerberus.Foundation.Text
import Cerberus.Foundation.Wire

namespace Cerberus.Tokenizer

open Std Foundation.Bytes Foundation.Text Foundation.Wire

def bosToken : Int := 49406

def eosToken : Int := 49407

def padToken : Int := 49407

def unkToken : Int := 49407

def startOfText : ByteString := lit "<|startoftext|>"

def endOfText : ByteString := lit "<|endoftext|>"

def blank : UInt8 := 32

/-- A tokenizer, with its vocabulary in the order in which the hash table lists it. -/
structure CLIPTokenizer where
  vocab : Dict Int
  listing : List (ByteString × Int)
  listing_perm : listing.Perm vocab.toList

def CLIPTokenizer.ofVocab (vocab : Dict Int) : CLIPTokenizer where
  vocab := vocab
  listing := vocab.toList
  listing_perm := .refl _

/-- The first loop of the normalization: lower case, and blanks around punctuation. -/
def spacedStep (result : ByteString) (c : UInt8) : ByteString :=
  let lc := tolower c
  if ispunct lc then
    let result := if result ≠ [] ∧ result.getLast? ≠ some blank then result ++ [blank] else result
    result ++ [lc] ++ [blank]
  else result ++ [lc]

/-- The second loop: of several blanks in a row only the first one is kept. -/
def collapsedStep (collapsed : ByteString × Bool) (c : UInt8) : ByteString × Bool :=
  if c = blank then if !collapsed.2 then (collapsed.1 ++ [c], true) else collapsed
  else (collapsed.1 ++ [c], false)

def isBlank (c : UInt8) : Bool := c = blank

def normalizeText (text : ByteString) : ByteString :=
  let result := text.foldl spacedStep []
  let collapsed := (result.foldl collapsedStep ([], false)).1
  (collapsed.dropWhile isBlank).rdropWhile isBlank

def splitWords (text : ByteString) : List ByteString :=
  (words text).filter (fun word ↦ word ≠ [])

namespace CLIPTokenizer

variable (t : CLIPTokenizer)

def Known (w : ByteString) : Prop := w ∈ t.vocab

instance : DecidablePred t.Known := fun w ↦ inferInstanceAs (Decidable (w ∈ t.vocab))

def bestLen (rest : ByteString) : Nat :=
  (List.range rest.length).foldl
    (fun best i ↦ if t.Known (rest.take (i + 1)) then i + 1 else best) 0

/-- The loop of `bpe_encode_word_`, over the part of the word from its position on. -/
def bpeLoop (rest : ByteString) : List ByteString :=
  if _h : rest = [] then []
  else if 0 < t.bestLen rest then rest.take (t.bestLen rest) :: bpeLoop (rest.drop (t.bestLen rest))
  else rest.take 1 :: bpeLoop (rest.drop 1)
termination_by rest.length
decreasing_by
  all_goals
    have hpos := List.length_pos_iff.mpr _h
    simp only [List.length_drop]
    omega

def bpeEncodeWord (word : ByteString) : List ByteString :=
  if word = [] then [] else if t.Known word then [word] else t.bpeLoop word

/-- A piece is looked up as a whole, and byte by byte if it is no token. -/
def subwordIds (sw : ByteString) : List Int :=
  match t.vocab[sw]? with
  | some id => [id]
  | none => sw.map (fun c ↦ (t.vocab[[c]]?).getD unkToken)

/-- What the loop of `encode_raw` adds for one word. -/
def wordIds (word : ByteString) : List Int :=
  if word = [] then []
  else match t.vocab[word]? with
    | some id => [id]
    | none => (t.bpeEncodeWord word).flatMap t.subwordIds

def encodeRaw (text : ByteString) : List Int :=
  let normalized := normalizeText text
  if normalized = [] then [] else (splitWords normalized).flatMap t.wordIds

def encode (text : ByteString) (maxLength : Nat) : List Int :=
  if maxLength = 0 then []
  else
    let content := t.encodeRaw text
    let maxContent := if maxLength > 1 then maxLength - 2 else 0
    let tokens := [bosToken] ++
      if content ≠ [] ∧ maxContent > 0 then
        if content.length > maxContent then content.take maxContent else content
      else []
    let tokens := if tokens.length < maxLength then tokens ++ [eosToken] else tokens
    let tokens := tokens ++ List.replicate (maxLength - tokens.length) padToken
    if tokens.length ≥ maxLength ∧ tokens[maxLength - 1]? ≠ some eosToken ∧
        tokens[maxLength - 1]? ≠ some padToken then tokens.set (maxLength - 1) eosToken
    else tokens

end CLIPTokenizer

/-- The table from ids to tokens that `decode` keeps for each thread, whatever the tokenizer. -/
abbrev ReverseMap := ExtTreeMap Int ByteString

/-- A later token of the listing replaces an earlier one of the same id. -/
def reverseOf (listing : List (ByteString × Int)) (reverseMap : ReverseMap) : ReverseMap :=
  listing.foldl (fun m e ↦ m.insert e.2 e.1) reverseMap

def unknown : ByteString := lit "<unk>"

def isSpecial (id : Int) : Bool := id = bosToken ∨ id = eosToken ∨ id = padToken

/-- The output of `decode` and whether it is still to get its first token. -/
def decodeStep (reverseMap : ReverseMap) (oss : ByteString × Bool) (id : Int) : ByteString × Bool :=
  if isSpecial id then oss
  else ((if oss.2 then oss.1 else oss.1 ++ [blank]) ++ (reverseMap[id]?).getD unknown, false)

/-- `decode` with the table of the calling thread, which it may leave filled. -/
def CLIPTokenizer.decode (t : CLIPTokenizer) (reverseMap : ReverseMap) (ids : List Int) :
    ByteString × ReverseMap :=
  let reverseMap :=
    if reverseMap.isEmpty ∧ ¬ t.vocab.isEmpty then reverseOf t.listing reverseMap else reverseMap
  ((ids.foldl (decodeStep reverseMap) ([], true)).1, reverseMap)

structure Loading where
  vocab : Dict Int := ∅
  bpeRanks : Dict Int := ∅
  tokenId : Int := 0

namespace Loading

/-- `vocab_[word] = token_id++`, which is not defined where the counter is at its end. -/
def assignNext (l : Loading) (word : ByteString) : Option Loading :=
  if fits 64 (l.tokenId + 1) then
    some { l with vocab := l.vocab.insert word l.tokenId, tokenId := l.tokenId + 1 }
  else none

end Loading

/-- The lines of a file that neither are empty nor begin with `#`. -/
def dataLines (file : ByteString) : List ByteString :=
  (lines file).filter (fun line ↦ line ≠ [] ∧ line.head? ≠ some 35)

/-- `viss >> word >> id` -/
def vocabEntry (line : ByteString) : Option (ByteString × Int) :=
  (extractWord line).bind (fun e ↦ (stoll e.2).map (fun id ↦ (e.1, id)))

/-- `iss >> left >> right` -/
def mergeEntry (line : ByteString) : Option (ByteString × ByteString) :=
  (extractWord line).bind (fun e ↦ (extractWord e.2).map (fun e' ↦ (e.1, e'.1)))

def loadVocabLine (l : Loading) (line : ByteString) : Option Loading :=
  match vocabEntry line with
  | none => some l
  | some (word, id) =>
    let l := { l with vocab := l.vocab.insert word id }
    if id ≥ l.tokenId then
      if fits 64 (id + 1) then some { l with tokenId := id + 1 } else none
    else some l

def loadMergeLine (l : Loading) (line : ByteString) : Option Loading :=
  match mergeEntry line with
  | none => some l
  | some (left, right) => do
    let merged := left ++ right
    let l := { l with bpeRanks := l.bpeRanks.insert merged l.tokenId }
    let l ← l.assignNext merged
    let l ← l.assignNext left
    l.assignNext right

/-- The vocabulary file is left out where it has no name or cannot be opened. -/
def vocabLines (files : ByteString → Option ByteString) (vocabFile : ByteString) :
    List ByteString :=
  if vocabFile = [] then [] else ((files vocabFile).map dataLines).getD []

/-- `load_from_files_` on the files of a file system. The result is `none` where the counter
overflows, and an error leaves nothing that is used. -/
def loadFromFiles (files : ByteString → Option ByteString) (bpeMergesFile vocabFile : ByteString) :
    Option (Except ByteString Loading) := do
  let l ← (vocabLines files vocabFile).foldlM loadVocabLine {}
  match files bpeMergesFile with
  | none => some (.error (lit "Cannot open BPE merges file: " ++ bpeMergesFile))
  | some merges =>
    let l ← (dataLines merges).foldlM loadMergeLine l
    if l.vocab.isEmpty then some (.error (lit "No valid entries found in merges file"))
    else some (.ok { l with
      vocab := (l.vocab.insert startOfText bosToken).insert endOfText eosToken })

end Cerberus.Tokenizer
