import Cerberus.Foundation.JsonPrint

namespace Cerberus.Inference

open Std Foundation Foundation.Bytes Foundation.Json

/-- `json::escape`. -/
def escape (raw : ByteString) : ByteString :=
  raw.flatMap (fun c ↦
    if c = 34 then lit "\\\""
    else if c = 92 then lit "\\\\"
    else if c = 10 then lit "\\n"
    else if c = 13 then lit "\\r"
    else if c = 9 then lit "\\t"
    else [c])

structure OpenAIMessage where
  role : ByteString
  content : ByteString

structure OpenAIChoice where
  index : Int32 := 0
  message : OpenAIMessage
  finishReason : ByteString

structure Usage where
  promptTokens : UInt32 := 0
  completionTokens : UInt32 := 0
  totalTokens : UInt32 := 0

structure OpenAIChatCompletionResponse where
  id : ByteString
  object : ByteString := lit "chat.completion"
  created : Int64 := 0
  model : ByteString
  choices : List OpenAIChoice
  usage : Usage := {}

def OpenAIChoice.toJson (c : OpenAIChoice) : ByteString :=
  lit "\x7b\"index\":" ++ signedDecimal c.index.toInt ++ lit "," ++
  lit "\"message\":\x7b\"role\":\"" ++ escape c.message.role ++
  lit "\",\"content\":\"" ++ escape c.message.content ++ lit "\"\x7d," ++
  lit "\"finish_reason\":\"" ++ escape c.finishReason ++ lit "\"\x7d"

/-- The field `object` is not looked at. -/
def OpenAIChatCompletionResponse.toJson (r : OpenAIChatCompletionResponse) : ByteString :=
  lit "\x7b" ++
  lit "\"id\":\"" ++ escape r.id ++ lit "\"," ++
  lit "\"object\":\"chat.completion\"," ++
  lit "\"created\":" ++ signedDecimal r.created.toInt ++ lit "," ++
  lit "\"model\":\"" ++ escape r.model ++ lit "\"," ++
  lit "\"usage\":\x7b" ++
  lit "\"prompt_tokens\":" ++ decimal r.usage.promptTokens.toNat ++ lit "," ++
  lit "\"completion_tokens\":" ++ decimal r.usage.completionTokens.toNat ++ lit "," ++
  lit "\"total_tokens\":" ++ decimal r.usage.totalTokens.toNat ++
  lit "\x7d," ++
  lit "\"choices\":[" ++ List.intercalate (lit ",") (r.choices.map (·.toJson)) ++
  lit "]\x7d"

section reading

def field (v : Value) (name : String) : Option Value :=
  match v with
  | .object l => l.lookup (lit name)
  | _ => none

def text : Value → Option ByteString
  | .string s => some s
  | _ => none

def items : Value → Option (List Value)
  | .array l => some l
  | _ => none

def integer : Value → Option Int
  | .number n => (leadingInteger n.text).filter (fun z ↦ signedDecimal z = n.text)
  | _ => none

def unsigned (v : Value) : Option UInt32 := do
  let z ← integer v
  (some (UInt32.ofNat z.toNat)).filter (fun n ↦ (n.toNat : Int) = z)

def readMessage (v : Value) : Option OpenAIMessage := do
  let role ← field v "role" >>= text
  let content ← field v "content" >>= text
  pure ⟨role, content⟩

def readChoice (v : Value) : Option OpenAIChoice := do
  let z ← field v "index" >>= integer
  let index ← (some (Int32.ofInt z)).filter (fun n ↦ n.toInt = z)
  let message ← field v "message" >>= readMessage
  let finishReason ← field v "finish_reason" >>= text
  pure ⟨index, message, finishReason⟩

def readUsage (v : Value) : Option Usage := do
  let promptTokens ← field v "prompt_tokens" >>= unsigned
  let completionTokens ← field v "completion_tokens" >>= unsigned
  let totalTokens ← field v "total_tokens" >>= unsigned
  pure ⟨promptTokens, completionTokens, totalTokens⟩

def readResponse (v : Value) : Option OpenAIChatCompletionResponse := do
  let id ← field v "id" >>= text
  let object ← field v "object" >>= text
  let z ← field v "created" >>= integer
  let created ← (some (Int64.ofInt z)).filter (fun n ↦ n.toInt = z)
  let model ← field v "model" >>= text
  let usage ← field v "usage" >>= readUsage
  let choices ← field v "choices" >>= items >>= List.mapM readChoice
  pure ⟨id, object, created, model, choices, usage⟩

end reading

/-- The text is a JSON text of just one value, in which the fields of the response are read. -/
def OpenAIChatCompletionResponse.WrittenFaithfully (r : OpenAIChatCompletionResponse) : Prop :=
  ∃ v, (∀ v', Text ValueText v' r.toJson ↔ v' = v) ∧ ∃ d, readResponse v = some d ∧
    d.id = r.id ∧ d.model = r.model ∧ d.usage = r.usage ∧ d.choices = r.choices

def OpenAIChatCompletionResponse.texts (r : OpenAIChatCompletionResponse) : List ByteString :=
  r.id :: r.model :: r.choices.flatMap (fun c ↦ [c.message.role, c.message.content, c.finishReason])

def Utf8 (v : ByteString) : Prop := ∃ s, v = encodeChars s

/-- No control character but those that have an escape of their own. -/
def Printable (v : ByteString) : Prop := ∀ b ∈ v, 32 ≤ b ∨ b = 10 ∨ b = 13 ∨ b = 9

instance (v : ByteString) : Decidable (Printable v) :=
  inferInstanceAs (Decidable (∀ b ∈ v, 32 ≤ b ∨ b = 10 ∨ b = 13 ∨ b = 9))

/-- The escapes of `json::escape`. -/
def escaper : Escaper where
  short b :=
    if b = 34 then some 34
    else if b = 92 then some 92
    else if b = 10 then some 110
    else if b = 13 then some 114
    else if b = 9 then some 116
    else none
  sound b d h := by
    split_ifs at h with hb hb hb hb hb
    all_goals
      cases h
      subst hb
      exact ⟨_, rfl, by decide⟩
  quote := ⟨34, rfl⟩
  backslash := ⟨92, rfl⟩

theorem escape_eq (raw : ByteString) : escape raw = escaper.escape raw := by
  have hpiece (c : UInt8) : escaper.piece c =
      if c = 34 then lit "\\\"" else if c = 92 then lit "\\\\" else if c = 10 then lit "\\n"
      else if c = 13 then lit "\\r" else if c = 9 then lit "\\t" else [c] := by
    unfold Escaper.piece escaper
    dsimp only
    split_ifs <;> rfl
  rw [escape, Escaper.escape, funext hpiece]

theorem covers_iff {v : ByteString} (h : Utf8 v) : escaper.Covers v ↔ Printable v := by
  have hshort (b : UInt8) :
      (escaper.short b = none → 32 ≤ b) ↔ (32 ≤ b ∨ b = 10 ∨ b = 13 ∨ b = 9) := by
    simp only [escaper]
    split_ifs <;> simp_all
  simp only [Escaper.Covers, Printable, hshort]
  exact and_iff_right h

def number (z : Int) : Value := .number ⟨signedDecimal z, numeral_signedDecimal z⟩

def OpenAIChoice.toValue (c : OpenAIChoice) : Value := .object [
  (lit "index", number c.index.toInt),
  (lit "message", .object [
    (lit "role", .string c.message.role),
    (lit "content", .string c.message.content)]),
  (lit "finish_reason", .string c.finishReason)]

def Usage.toValue (u : Usage) : Value := .object [
  (lit "prompt_tokens", number u.promptTokens.toNat),
  (lit "completion_tokens", number u.completionTokens.toNat),
  (lit "total_tokens", number u.totalTokens.toNat)]

def OpenAIChatCompletionResponse.toValue (r : OpenAIChatCompletionResponse) : Value := .object [
  (lit "id", .string r.id),
  (lit "object", .string (lit "chat.completion")),
  (lit "created", number r.created.toInt),
  (lit "model", .string r.model),
  (lit "usage", r.usage.toValue),
  (lit "choices", .array (r.choices.map (·.toValue)))]

theorem print_string (s : ByteString) :
    escaper.print (.string s) = 34 :: (escape s ++ [34]) := by
  rw [escape_eq]
  rfl

theorem print_number (z : Int) : escaper.print (number z) = signedDecimal z := rfl

theorem OpenAIChoice.toJson_eq (c : OpenAIChoice) : c.toJson = escaper.print c.toValue := by
  simp only [toValue, print_object, enclosed, commas, List.map_cons, List.map_nil,
    List.intercalate, List.intersperse, List.flatten_cons, List.flatten_nil, List.append_nil,
    Escaper.member, Escaper.enquote, ← escape_eq, toJson,
    List.append_assoc, List.cons_append, List.nil_append, print_string, print_number]
  rfl

theorem Usage.print_eq (u : Usage) : escaper.print u.toValue =
    lit "\x7b\"prompt_tokens\":" ++ decimal u.promptTokens.toNat ++ lit "," ++
    lit "\"completion_tokens\":" ++ decimal u.completionTokens.toNat ++ lit "," ++
    lit "\"total_tokens\":" ++ decimal u.totalTokens.toNat ++ lit "\x7d" := by
  simp only [toValue, print_object, enclosed, commas, List.map_cons, List.map_nil,
    List.intercalate, List.intersperse, List.flatten_cons, List.flatten_nil, List.append_nil,
    Escaper.member, Escaper.enquote, ← escape_eq, List.append_assoc, List.cons_append,
    List.nil_append, print_number]
  rfl

theorem print_choices (l : List OpenAIChoice) : escaper.print (.array (l.map (·.toValue))) =
    91 :: (List.intercalate (lit ",") (l.map (·.toJson)) ++ [93]) := by
  have hcomma : lit "," = [44] := by decide
  rw [print_array, enclosed_comp, hcomma]
  simp only [← OpenAIChoice.toJson_eq]
  rfl

theorem OpenAIChatCompletionResponse.toJson_eq (r : OpenAIChatCompletionResponse) :
    r.toJson = escaper.print r.toValue := by
  rw [toValue, print_object]
  simp only [enclosed, commas, List.map_cons, List.map_nil, List.intercalate, List.intersperse,
    List.flatten_cons, List.flatten_nil, List.append_nil, Escaper.member, Escaper.enquote,
    ← escape_eq, print_string, print_number]
  rw [print_choices, Usage.print_eq]
  delta toJson
  simp only [List.append_assoc, List.cons_append, List.nil_append]
  rfl

theorem integer_number (z : Int) : integer (number z) = some z := by
  simp [integer, number, leadingInteger_signedDecimal]

theorem unsigned_number (n : UInt32) : unsigned (number n.toNat) = some n := by
  simp [unsigned, integer_number]

theorem lit_beq (a b : String) : (lit a == lit b) = (a == b) := by
  rw [Bool.eq_iff_iff, beq_iff_eq, beq_iff_eq, lit_injective.eq_iff]

theorem readChoice_toValue (c : OpenAIChoice) : readChoice c.toValue = some c := by
  simp [readChoice, OpenAIChoice.toValue, field, List.lookup, readMessage, text, integer_number,
    lit_beq, Option.filter]

theorem readUsage_toValue (u : Usage) : readUsage u.toValue = some u := by
  simp [readUsage, Usage.toValue, field, List.lookup, unsigned_number, lit_beq]

theorem readChoices_toValue (l : List OpenAIChoice) :
    (l.map (·.toValue)).mapM readChoice = some l := by
  induction l with
  | nil => rfl
  | cons c l ih => simp [List.mapM_cons, readChoice_toValue, ih]

theorem readResponse_toValue (r : OpenAIChatCompletionResponse) :
    readResponse r.toValue = some { r with object := lit "chat.completion" } := by
  simp [readResponse, OpenAIChatCompletionResponse.toValue, field, List.lookup, text, items,
    integer_number, readUsage_toValue, readChoices_toValue, lit_beq, Option.filter,
    -List.mapM_map]

theorem utf8_lit (s : String) : Utf8 (lit s) := by
  refine ⟨s.toList, ?_⟩
  rw [lit, ← String.utf8Encode_toList]
  simp [List.utf8Encode, encodeChars]

theorem covers_names : ∀ s ∈ ["id", "object", "chat.completion", "created", "model", "usage",
    "prompt_tokens", "completion_tokens", "total_tokens", "choices", "index", "message", "role",
    "content", "finish_reason"], escaper.Covers (lit s) := by
  intro s hs
  rw [covers_iff (utf8_lit s)]
  revert s hs
  decide +kernel

theorem coversAll_number (z : Int) : escaper.CoversAll (number z) := trivial

theorem coversAll_string (s : ByteString) : escaper.CoversAll (.string s) ↔ escaper.Covers s :=
  Iff.rfl

theorem coversAll_choice (c : OpenAIChoice) : escaper.CoversAll c.toValue ↔
    ∀ s ∈ [c.message.role, c.message.content, c.finishReason], escaper.Covers s := by
  have hnames := covers_names
  simp only [List.forall_mem_cons] at hnames
  simp [OpenAIChoice.toValue, coversAll_object, coversAll_number, coversAll_string, hnames,
    and_assoc]

theorem coversAll_response (r : OpenAIChatCompletionResponse) :
    escaper.CoversAll r.toValue ↔ ∀ s ∈ r.texts, escaper.Covers s := by
  have hnames := covers_names
  simp only [List.forall_mem_cons] at hnames
  have husage : escaper.CoversAll r.usage.toValue := by
    simp [Usage.toValue, coversAll_object, coversAll_number, hnames]
  have hchoices : escaper.CoversAll (.array (r.choices.map (·.toValue))) ↔
      ∀ c ∈ r.choices, ∀ s ∈ [c.message.role, c.message.content, c.finishReason],
        escaper.Covers s := by
    rw [coversAll_array, List.forall_mem_map]
    exact forall₂_congr (fun c _ ↦ coversAll_choice c)
  have hflat := List.forall_mem_flatMap (p := escaper.Covers) (l := r.choices)
    (f := fun c ↦ [c.message.role, c.message.content, c.finishReason])
  rw [OpenAIChatCompletionResponse.texts, List.forall_mem_cons, List.forall_mem_cons, hflat,
    ← hchoices]
  simp only [OpenAIChatCompletionResponse.toValue, coversAll_object, List.forall_mem_cons,
    coversAll_number, coversAll_string, husage, hnames]
  simp

theorem writtenFaithfully_iff_covers (r : OpenAIChatCompletionResponse) :
    r.WrittenFaithfully ↔ escaper.CoversAll r.toValue := by
  simp only [OpenAIChatCompletionResponse.WrittenFaithfully, r.toJson_eq, text_print_iff]
  constructor
  · rintro ⟨v, hv, -⟩
    exact ((hv v).mpr rfl).2
  · intro h
    exact ⟨r.toValue, fun v' ↦ and_iff_left h, _, readResponse_toValue r, rfl, rfl, rfl, rfl⟩

/-- A response is valid JSON of its fields just if none of its texts has a control character
besides the line break, the carriage return and the tabulator. -/
theorem writtenFaithfully_iff (r : OpenAIChatCompletionResponse) (h : ∀ s ∈ r.texts, Utf8 s) :
    r.WrittenFaithfully ↔ ∀ s ∈ r.texts, Printable s := by
  rw [writtenFaithfully_iff_covers, coversAll_response]
  exact forall₂_congr (fun s hs ↦ covers_iff (h s hs))

def answer (content : String) : OpenAIChatCompletionResponse where
  id := lit "chatcmpl-1"
  model := lit "mistral"
  choices := [{ message := ⟨lit "assistant", lit content⟩, finishReason := lit "stop" }]

theorem answer_utf8 (content : String) : ∀ s ∈ (answer content).texts, Utf8 s := by
  simp only [OpenAIChatCompletionResponse.texts, answer, List.flatMap_cons, List.flatMap_nil,
    List.append_nil, List.forall_mem_cons]
  exact ⟨utf8_lit _, utf8_lit _, utf8_lit _, utf8_lit _, utf8_lit _, by simp⟩

theorem writtenFaithfully_two_lines : (answer "one\n\"two\"").WrittenFaithfully :=
  (writtenFaithfully_iff (answer "one\n\"two\"") (answer_utf8 _)).mpr (by decide +kernel)

/-- The character U+0001 is written as it is. -/
theorem control_character_raw : ¬∀ r : OpenAIChatCompletionResponse,
    (∀ s ∈ r.texts, Utf8 s) → r.WrittenFaithfully := by
  intro h
  have hwritten := h (answer "\u0001") (answer_utf8 _)
  rw [writtenFaithfully_iff_covers, coversAll_response] at hwritten
  have hcovers := hwritten (lit "\u0001") (by decide +kernel)
  exact absurd ((covers_iff (utf8_lit _)).mp hcovers) (by decide +kernel)

end Cerberus.Inference
