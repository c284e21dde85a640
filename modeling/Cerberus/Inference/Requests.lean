import Cerberus.Foundation.Scan
import Cerberus.Inference.Responses

namespace Cerberus.Inference

open Std Foundation Foundation.Bytes Foundation.Json Foundation.Scan

def isBlank (b : UInt8) : Bool := b == 32 || b == 9 || b == 10 || b == 13

/-- Where the `json_get` functions look: after the first place with the key between quotes and the
next colon, at the first byte that is no white space. -/
def locate (json : ByteString) (key : String) : Option ByteString := do
  let rest ← after (quoted 34 (lit key)) json
  let (_, rest) ← cut 58 rest
  let value := rest.dropWhile isBlank
  if value = [] then none else some value

/-- The view is empty where there is no string. -/
def jsonGetStr (json : ByteString) (key : String) : ByteString :=
  match locate json key with
  | some (34 :: rest) =>
    match cut 34 rest with
    | some (value, _) => value
    | none => []
  | _ => []

def unquoted : ByteString → ByteString
  | 34 :: rest => rest
  | value => value

/-- `std::strtol` with a `long` of 64 bits; `none` is a text without a number. -/
def strtol (num : ByteString) : Option Int :=
  (leadingInteger num).map (fun z ↦ max (-2 ^ 63) (min z (2 ^ 63 - 1)))

def isIntByte (b : UInt8) : Bool := isDigit b || b == 45

def isFloatByte (b : UInt8) : Bool :=
  isDigit b || b == 46 || b == 45 || b == 43 || b == 101 || b == 69

def readInt (value : ByteString) : Option Int32 :=
  (strtol ((unquoted value).takeWhile isIntByte)).map Int32.ofInt

def jsonGetInt (json : ByteString) (key : String) : Option Int32 :=
  (locate json key).bind readInt

section

variable {F : Type} (strtof : ByteString → F)

def readFloat (value : ByteString) : F := strtof ((unquoted value).takeWhile isFloatByte)

/-- What is written to `out`, also where `std::strtof` converts nothing and returns zero. -/
def jsonGetFloat (json : ByteString) (key : String) : Option F :=
  (locate json key).map (readFloat strtof)

structure OpenAIChatCompletionRequest (F : Type) where
  model : ByteString := []
  messages : List OpenAIMessage := []
  stream : Bool := false
  maxTokens : UInt32 := 2048
  temperature : F
  topP : F
  seed : Int64 := -1

def stringAfterColon (search : ByteString) : Option (ByteString × ByteString) := do
  let (_, rest) ← cut 58 search
  let (_, rest) ← cut 34 rest
  cut 34 rest

def messageContent (search : ByteString) : Option ByteString := do
  let rest ← after (lit "\"content\"") search
  let (content, _) ← stringAfterColon rest
  pure content

theorem stringAfterColon_length {search role rest : ByteString}
    (h : stringAfterColon search = some (role, rest)) : rest.length < search.length := by
  simp only [stringAfterColon, Option.bind_eq_bind, Option.bind_eq_some_iff] at h
  obtain ⟨⟨p, q⟩, hp, ⟨p', q'⟩, hp', hrest⟩ := h
  have h₁ := congrArg List.length (cut_eq_some hp)
  have h₂ := congrArg List.length (cut_eq_some hp')
  have h₃ := congrArg List.length (cut_eq_some hrest)
  simp only [List.length_append, List.length_cons] at h₁ h₂ h₃
  omega

/-- The loop over the roles; the content is looked for from the closing quote of the role on. -/
def scanMessages (search : ByteString) : List OpenAIMessage :=
  match _h : (after (lit "\"role\"") search).bind stringAfterColon with
  | none => []
  | some (role, rest) =>
    match messageContent (34 :: rest) with
    | some content => ⟨role, content⟩ :: scanMessages rest
    | none => scanMessages rest
termination_by search.length
decreasing_by
  all_goals
    obtain ⟨r, hr, hrest⟩ := Option.bind_eq_some_iff.mp _h
    exact Nat.lt_of_lt_of_le (stringAfterColon_length hrest) (suffix_of_after hr).length_le

variable [One F]

def OpenAIChatCompletionRequest.fromJson (body : ByteString) :
    Option (OpenAIChatCompletionRequest F) :=
  let req : OpenAIChatCompletionRequest F := { temperature := 1, topP := 1 }
  let modelSv := jsonGetStr body "model"
  let req := if modelSv = [] then req else { req with model := modelSv }
  let req := { req with
    maxTokens := ((jsonGetInt body "max_tokens").map (·.toUInt32)).getD req.maxTokens
    temperature := (jsonGetFloat strtof body "temperature").getD req.temperature
    topP := (jsonGetFloat strtof body "top_p").getD req.topP }
  let msgSv := jsonGetStr body "messages"
  some (if msgSv = [] then req else { req with messages := scanMessages msgSv })

end

structure Chat where
  model : ByteString
  messages : List OpenAIMessage
  maxTokens : Option Nat
  temperature : Option Number
  topP : Option Number

def natural (v : Value) : Option Nat := do
  let z ← integer v
  if 0 ≤ z then some z.toNat else none

def numeral : Value → Option Number
  | .number n => some n
  | _ => none

def optional {α : Type} (read : Value → Option α) (v : Value) (name : String) :
    Option (Option α) :=
  match field v name with
  | none => some none
  | some .null => some none
  | some x => (read x).map some

def readChat (v : Value) : Option Chat := do
  let model ← field v "model" >>= text
  let messages ← field v "messages" >>= items >>= List.mapM readMessage
  let maxTokens ← optional natural v "max_tokens"
  let temperature ← optional numeral v "temperature"
  let topP ← optional numeral v "top_p"
  pure ⟨model, messages, maxTokens, temperature, topP⟩

def names : Value → List ByteString
  | .object l => l.map Prod.fst
  | _ => []

/-- A well-formed body: a JSON text of an object in which a chat can be read. -/
structure ChatBody where
  text : ByteString
  value : Value
  chat : Chat
  wellFormed : Text ValueText value text
  distinct : (names value).Nodup
  reads : readChat value = some chat

/-- After the first place with the key between quotes, wherever that is, comes a colon and then,
after white space, the rest of the text. -/
def Leads (key : String) (t u : ByteString) : Prop :=
  ∃ p q w, t = p ++ quoted 34 (lit key) ++ (q ++ 58 :: (w ++ u)) ∧
    (∀ p' r, t = p' ++ quoted 34 (lit key) ++ r → p.length ≤ p'.length) ∧
    58 ∉ q ∧ Space w ∧ Solid u

/-- What can be read where the key leads to, or else the default, is the given value. -/
def Stands {α : Type} (key : String) (read : ByteString → Option α) (default : α) (t : ByteString)
    (a : α) : Prop :=
  (∃ u, Leads key t u ∧ read u = some a) ∨ (∀ u, Leads key t u → read u = none) ∧ default = a

section

variable {F : Type} (strtof : ByteString → F) [One F] (b : ChatBody)

/-- The request has the messages and the other fields of the body, and the defaults of those that
are missing. -/
def ChatBody.ReadCompletely : Prop :=
  ∃ req, OpenAIChatCompletionRequest.fromJson strtof b.text = some req ∧
    req.messages = b.chat.messages ∧ req.model = b.chat.model ∧
    req.maxTokens.toNat = b.chat.maxTokens.getD 2048 ∧
    req.temperature = (b.chat.temperature.map (strtof ·.text)).getD 1 ∧
    req.topP = (b.chat.topP.map (strtof ·.text)).getD 1

/-- There are no messages, and where the keys lead to stand the values of the body: of the model
the bytes themselves between two quotes, of the numbers ones that are read with these values. -/
structure ChatBody.Legible : Prop where
  messages : b.chat.messages = []
  model : ∀ x, x ≠ [] →
    ((34 ∉ x ∧ ∃ r, Leads "model" b.text (34 :: (x ++ 34 :: r))) ↔ x = b.chat.model)
  maxTokens : Stands "max_tokens" (fun u ↦ (readInt u).map (fun n ↦ n.toUInt32.toNat)) 2048 b.text
    (b.chat.maxTokens.getD 2048)
  temperature : Stands "temperature" (fun u ↦ some (readFloat strtof u)) 1 b.text
    ((b.chat.temperature.map (strtof ·.text)).getD 1)
  topP : Stands "top_p" (fun u ↦ some (readFloat strtof u)) 1 b.text
    ((b.chat.topP.map (strtof ·.text)).getD 1)

/-- The key leads to the text of the value that the body gives it, and nowhere if it gives none. -/
def ChatBody.Keyed (key : String) : Prop :=
  match field b.value key with
  | some v => ∃ x r, ValueText v x ∧ Ends r ∧ Leads key b.text (x ++ r)
  | none => ∀ u, ¬Leads key b.text u

end

variable {t u x r : ByteString} {key : String} {b : UInt8}

theorem isBlank_iff : isBlank b = true ↔ IsSpace b := by
  simp [isBlank, IsSpace, or_assoc]

theorem dropWhile_isBlank {s : ByteString} :
    (s.dropWhile isBlank = u ∧ u ≠ []) ↔ ∃ w, s = w ++ u ∧ Space w ∧ Solid u := by
  constructor
  · rintro ⟨rfl, hne⟩
    have hhead := List.head_dropWhile_not isBlank hne
    refine ⟨s.takeWhile isBlank, List.takeWhile_append_dropWhile.symm, ?_, ?_⟩
    · intro b hb
      exact isBlank_iff.mp (List.mem_takeWhile_imp hb)
    · obtain ⟨b, r, hb⟩ := List.exists_cons_of_ne_nil hne
      refine ⟨b, r, hb, fun hspace ↦ ?_⟩
      simp [hb, isBlank_iff.mpr hspace] at hhead
  · rintro ⟨w, rfl, hw, b, r, rfl, hb⟩
    have hall : ∀ c ∈ w, isBlank c = true := fun c hc ↦ isBlank_iff.mpr (hw c hc)
    have hstop : ¬isBlank b = true := fun h ↦ hb (isBlank_iff.mp h)
    rw [List.dropWhile_append_of_pos hall, List.dropWhile_cons_of_neg hstop]
    exact ⟨rfl, by simp⟩

theorem locate_eq_some : locate t key = some u ↔ Leads key t u := by
  have hlocate : locate t key = some u ↔ ∃ r, after (quoted 34 (lit key)) t = some r ∧
      ∃ q s, cut 58 r = some (q, s) ∧ s.dropWhile isBlank = u ∧ u ≠ [] := by
    simp only [locate, Option.bind_eq_bind, Option.bind_eq_some_iff, Prod.exists]
    grind
  rw [hlocate]
  simp only [after_eq_some_iff, cut_eq_some_iff, dropWhile_isBlank]
  constructor
  · rintro ⟨r, ⟨p, rfl, hfirst⟩, q, s, ⟨rfl, hq⟩, w, rfl, hw, hu⟩
    exact ⟨p, q, w, rfl, hfirst, hq, hw, hu⟩
  · rintro ⟨p, q, w, rfl, hfirst, hq, hw, hu⟩
    exact ⟨_, ⟨p, rfl, hfirst⟩, q, _, ⟨rfl, hq⟩, w, rfl, hw, hu⟩

theorem jsonGetStr_eq (hx : x ≠ []) :
    jsonGetStr t key = x ↔ 34 ∉ x ∧ ∃ r, Leads key t (34 :: (x ++ 34 :: r)) := by
  simp only [← locate_eq_some]
  constructor
  · intro h
    rw [jsonGetStr] at h
    split at h
    · next rest hlocate =>
      split at h
      · next value r hcut =>
        subst h
        obtain ⟨rfl, hquote⟩ := cut_eq_some_iff.mp hcut
        exact ⟨hquote, r, hlocate⟩
      · exact absurd h.symm hx
    · exact absurd h.symm hx
  · rintro ⟨hquote, r, hlocate⟩
    simp [jsonGetStr, hlocate, cut_append hquote]

theorem quote_not_mem_jsonGetStr : 34 ∉ jsonGetStr t key := by
  by_cases h : jsonGetStr t key = []
  · simp [h]
  · exact ((jsonGetStr_eq h).mp rfl).1

theorem scanMessages_eq_nil (h : 34 ∉ x) : scanMessages x = [] := by
  have hnone : after (lit "\"role\"") x = none := by
    rw [after_eq_none (by decide)]
    intro hinside
    have hquote : (34 : UInt8) ∈ lit "\"role\"" := by decide
    exact h (hinside.subset hquote)
  rw [scanMessages]
  split
  · rfl
  · next heq => simp [hnone] at heq

theorem stands_iff {α : Type} {read : ByteString → Option α} {default a : α} :
    ((locate t key).bind read).getD default = a ↔ Stands key read default t a := by
  simp only [Stands, ← locate_eq_some]
  cases locate t key with
  | none => simp
  | some u =>
    cases hread : read u with
    | none => simp [hread]
    | some c => simp [hread]

section

variable {F : Type} (strtof : ByteString → F) [One F]

/-- There is never a message: the array does not begin with a quote, and what stands between two
quotes has none. -/
theorem fromJson_eq (body : ByteString) : OpenAIChatCompletionRequest.fromJson strtof body = some {
    model := jsonGetStr body "model"
    maxTokens := ((jsonGetInt body "max_tokens").map (·.toUInt32)).getD 2048
    temperature := (jsonGetFloat strtof body "temperature").getD 1
    topP := (jsonGetFloat strtof body "top_p").getD 1 } := by
  simp only [OpenAIChatCompletionRequest.fromJson, scanMessages_eq_nil quote_not_mem_jsonGetStr]
  split_ifs <;> simp_all

theorem model_iff {m : ByteString} : jsonGetStr t key = m ↔
    ∀ x, x ≠ [] → ((34 ∉ x ∧ ∃ r, Leads key t (34 :: (x ++ 34 :: r))) ↔ x = m) := by
  have hread (x : ByteString) (hx : x ≠ []) :
      jsonGetStr t key = x ↔ 34 ∉ x ∧ ∃ r, Leads key t (34 :: (x ++ 34 :: r)) := jsonGetStr_eq hx
  constructor
  · rintro rfl x hx
    rw [← hread x hx, eq_comm]
  · intro h
    by_cases hm : m = []
    · by_contra hne
      rw [hm] at hne h
      exact hne ((h _ hne).mp ((hread _ hne).mp rfl))
    · exact (hread m hm).mpr ((h m hm).mpr rfl)

theorem maxTokens_iff {n : Nat} :
    (((jsonGetInt t key).map Int32.toUInt32).getD 2048).toNat = n ↔
      Stands key (fun u ↦ (readInt u).map (fun n ↦ n.toUInt32.toNat)) 2048 t n := by
  rw [← stands_iff, jsonGetInt]
  cases locate t key with
  | none => rfl
  | some u =>
    cases hread : readInt u with
    | none => simp [hread]
    | some k => simp [hread]

theorem float_iff {a : F} : (jsonGetFloat strtof t key).getD 1 = a ↔
    Stands key (fun u ↦ some (readFloat strtof u)) 1 t a := by
  rw [← stands_iff, jsonGetFloat, Option.map_eq_bind]
  rfl

/-- A body is read completely just if it has no messages, and each key leads to its value. -/
theorem readCompletely_iff (b : ChatBody) : b.ReadCompletely strtof ↔ b.Legible strtof := by
  simp only [ChatBody.ReadCompletely, fromJson_eq, Option.some.injEq, exists_eq_left', model_iff,
    maxTokens_iff, float_iff]
  constructor
  · rintro ⟨hmessages, hmodel, hmax, htemperature, htop⟩
    exact ⟨hmessages.symm, hmodel, hmax, htemperature, htop⟩
  · intro h
    exact ⟨h.messages.symm, h.model, h.maxTokens, h.temperature, h.topP⟩

end

theorem jsonGetStr_keyed {m : ByteString} (hx : StringText m x) (h : Leads key t (x ++ r)) :
    jsonGetStr t key = m ↔ x = Json.quoted m := by
  have honly := (prints_string m).only x
  have htext := hx
  obtain ⟨e, s, hchars, rfl, rfl⟩ := hx
  have hlocate : locate t key = some (34 :: (e ++ 34 :: r)) := by
    rw [locate_eq_some.mpr h]
    simp
  obtain ⟨p, q, hp, -, hfirst⟩ := first_quote e r
  have hread : jsonGetStr t key = p := by
    simp [jsonGetStr, hlocate, hfirst, cut_append hp]
  rw [hread]
  constructor
  · rintro rfl
    refine (honly q r htext ?_).1
    simpa [Json.quoted] using hfirst.symm
  · intro heq
    obtain ⟨-, s', hs', hplain⟩ := honly r r htext (by rw [heq])
    have hquote : 34 ∉ encodeChars s := by
      rw [hs']
      simp only [encodeChars, List.mem_flatMap, not_exists, not_and]
      exact fun c hc ↦ quote_not_mem (hplain c hc)
    have he : e = encodeChars s := by simpa [Json.quoted] using heq
    have hcut := cut_append hp q
    rw [← hfirst, he, cut_append hquote] at hcut
    simpa using (congrArg (Option.map Prod.fst) hcut).symm

theorem unquoted_keyed (hne : x ≠ []) (hx : ∀ b ∈ x, numeric b = true) :
    unquoted (x ++ r) = x ++ r := by
  obtain ⟨b, u, rfl⟩ := List.exists_cons_of_ne_nil hne
  have hb : b ≠ 34 := by
    rintro rfl
    have hquote := hx 34 List.mem_cons_self
    revert hquote
    decide
  rw [List.cons_append, unquoted]
  simpa using hb

theorem takeWhile_keyed {f : UInt8 → Bool} (hx : ∀ b ∈ x, f b = true) (hr : Ends r)
    (hf : ∀ b, f b = true → numeric b = true) : (x ++ r).takeWhile f = x := by
  rw [List.takeWhile_append_of_pos hx]
  cases r with
  | nil => simp
  | cons b r =>
    have hb : ¬f b = true := fun hb ↦ by
      have hends := hr b rfl
      rw [hf b hb] at hends
      cases hends
    simp [hb]

theorem isFloatByte_eq (b : UInt8) : isFloatByte b = numeric b := by
  simp only [isFloatByte, numeric]
  grind

theorem readFloat_keyed {F : Type} (strtof : ByteString → F) (n : Number) (hr : Ends r) :
    readFloat strtof (n.text ++ r) = strtof n.text := by
  obtain ⟨b, u, hn, -⟩ := n.numeral.head
  have hnumeric := n.numeral.numeric
  rw [readFloat, unquoted_keyed (by simp [hn]) hnumeric]
  simp only [funext isFloatByte_eq]
  rw [takeWhile_keyed hnumeric hr (fun _ ↦ id)]

theorem readInt_keyed (k : Nat) (hr : Ends r) : readInt (decimal k ++ r) =
    some (Int32.ofInt (min k (2 ^ 63 - 1))) := by
  have hdigits : ∀ b ∈ decimal k, isDigit b = true := fun b hb ↦ isDigit_decimal hb
  have hread : leadingInteger (decimal k) = some (k : Int) := leadingInteger_signedDecimal (.ofNat k)
  have hnumeric : ∀ b ∈ decimal k, numeric b = true := fun b hb ↦ numeric_of_isDigit (hdigits b hb)
  rw [readInt, unquoted_keyed (x := decimal k) (digits_ne_nil 10 k) hnumeric,
    takeWhile_keyed (fun b hb ↦ by simp [isIntByte, hdigits b hb]) hr ?_, strtol, hread]
  · simp
  · intro b hb
    simp only [isIntByte, numeric] at hb ⊢
    grind

theorem ChatBody.fields (b : ChatBody) : field b.value "model" = some (.string b.chat.model) ∧
    optional natural b.value "max_tokens" = some b.chat.maxTokens ∧
    optional numeral b.value "temperature" = some b.chat.temperature ∧
    optional numeral b.value "top_p" = some b.chat.topP := by
  have hreads := b.reads
  simp only [readChat, Option.bind_eq_bind, Option.bind_eq_some_iff] at hreads
  obtain ⟨m, ⟨v, hfield, hv⟩, messages, -, maxTokens, hmax, temperature, htemperature, topP, htop,
    hchat⟩ := hreads
  rw [← Option.some.inj hchat]
  refine ⟨?_, hmax, htemperature, htop⟩
  cases v with
  | string s => rw [hfield, Option.some.inj hv]
  | _ => cases hv

theorem ChatBody.Keyed.model {b : ChatBody} (h : b.Keyed "model") :
    jsonGetStr b.text "model" = b.chat.model ↔
      ∃ r, Leads "model" b.text (Json.quoted b.chat.model ++ r) := by
  rw [Keyed, b.fields.1] at h
  obtain ⟨x, r, hx, -, hleads⟩ := h
  rw [jsonGetStr_keyed hx hleads]
  constructor
  · rintro rfl
    exact ⟨r, hleads⟩
  · rintro ⟨r', hleads'⟩
    have heq := (locate_eq_some.mpr hleads).symm.trans (locate_eq_some.mpr hleads')
    exact ((prints_string b.chat.model).only x r' r hx (Option.some.inj heq).symm).1

theorem natural_eq {v : Value} {n : Nat} (h : natural v = some n) :
    ∃ z : Number, v = .number z ∧ z.text = decimal n := by
  simp only [natural, Option.bind_eq_bind, Option.bind_eq_some_iff] at h
  obtain ⟨k, hk, hn⟩ := h
  split at hn
  · next hpos =>
    cases v with
    | number z =>
      obtain ⟨-, htext⟩ := Option.filter_eq_some_iff.mp hk
      obtain ⟨m, rfl⟩ := Int.eq_ofNat_of_zero_le hpos
      obtain rfl : m = n := by simpa using hn
      exact ⟨z, rfl, (by simpa using htext : signedDecimal (m : Int) = z.text).symm⟩
    | _ => cases hk
  · cases hn

theorem toNat_ofInt_min (k : Nat) : (Int32.ofInt (min k (2 ^ 63 - 1))).toUInt32.toNat = k ↔
    k < 2 ^ 32 := by
  change (BitVec.ofInt 32 (min (k : Int) (2 ^ 63 - 1))).toNat = k ↔ k < 2 ^ 32
  rw [BitVec.toNat_ofInt]
  omega

theorem null_keyed {F : Type} (strtof : ByteString → F) (r : ByteString) :
    readInt (lit "null" ++ r) = none ∧ readFloat strtof (lit "null" ++ r) = strtof [] := by
  have hnull : lit "null" = [110, 117, 108, 108] := by decide
  rw [hnull]
  exact ⟨rfl, rfl⟩

theorem locate_eq_none (h : ∀ u, ¬Leads key t u) : locate t key = none :=
  Option.eq_none_iff_forall_ne_some.mpr fun u hu ↦ h u (locate_eq_some.mp hu)

theorem ChatBody.Keyed.maxTokens {b : ChatBody} (h : b.Keyed "max_tokens") :
    (((jsonGetInt b.text "max_tokens").map Int32.toUInt32).getD 2048).toNat =
      b.chat.maxTokens.getD 2048 ↔ ∀ n ∈ b.chat.maxTokens, n < 2 ^ 32 := by
  have hfield := b.fields.2.1
  rw [optional] at hfield
  rw [Keyed] at h
  split at hfield
  · next hnone =>
    rw [hnone] at h
    rw [← Option.some.inj hfield, jsonGetInt, locate_eq_none h]
    simp
  · next hnull =>
    rw [hnull] at h
    obtain ⟨x, r, rfl, -, hleads⟩ := h
    rw [← Option.some.inj hfield, jsonGetInt, locate_eq_some.mpr hleads, Option.bind_some,
      (null_keyed id r).1]
    simp
  · next v hv hsome =>
    rw [hsome] at h
    obtain ⟨x, r, hx, hr, hleads⟩ := h
    obtain ⟨n, hn, hchat⟩ := Option.map_eq_some_iff.mp hfield
    obtain ⟨z, rfl, hz⟩ := natural_eq hn
    obtain rfl : x = z.text := hx
    rw [hz] at hleads
    rw [← hchat, jsonGetInt, locate_eq_some.mpr hleads, Option.bind_some, readInt_keyed n hr]
    simpa using toNat_ofInt_min n

theorem ChatBody.Keyed.float {F : Type} (strtof : ByteString → F) [One F] {b : ChatBody}
    (h : b.Keyed key) {o : Option Number} (ho : optional numeral b.value key = some o) :
    (jsonGetFloat strtof b.text key).getD 1 = (o.map (strtof ·.text)).getD 1 ↔
      (field b.value key = some .null → strtof [] = 1) := by
  rw [optional] at ho
  rw [Keyed] at h
  split at ho
  · next hnone =>
    rw [hnone] at h
    rw [← Option.some.inj ho, jsonGetFloat, locate_eq_none h]
    simp [hnone]
  · next hnull =>
    rw [hnull] at h
    obtain ⟨x, r, rfl, -, hleads⟩ := h
    rw [← Option.some.inj ho, jsonGetFloat, locate_eq_some.mpr hleads, Option.map_some,
      (null_keyed strtof r).2]
    simp [hnull]
  · next v hv hsome =>
    rw [hsome] at h
    obtain ⟨x, r, hx, hr, hleads⟩ := h
    cases v with
    | number z =>
      obtain rfl : x = z.text := hx
      rw [← Option.some.inj ho, jsonGetFloat, locate_eq_some.mpr hleads, Option.map_some,
        readFloat_keyed strtof z hr]
      simp [hsome]
    | _ => cases ho

/-- A body whose keys lead to its own values is read completely just if it has no messages, the
model is written without escapes, the number of tokens has 32 bits, and nothing is null that is read
as another number then. -/
theorem readCompletely_keyed {F : Type} (strtof : ByteString → F) [One F] (b : ChatBody)
    (h : ∀ key ∈ ["model", "max_tokens", "temperature", "top_p"], b.Keyed key) :
    b.ReadCompletely strtof ↔ b.chat.messages = [] ∧
      (∃ r, Leads "model" b.text (Json.quoted b.chat.model ++ r)) ∧
      (∀ n ∈ b.chat.maxTokens, n < 2 ^ 32) ∧
      ∀ key ∈ ["temperature", "top_p"], field b.value key = some .null → strtof [] = 1 := by
  obtain ⟨-, -, htemperature, htop⟩ := b.fields
  simp only [ChatBody.ReadCompletely, fromJson_eq, Option.some.injEq, exists_eq_left',
    (h "model" (by simp)).model, (h "max_tokens" (by simp)).maxTokens,
    (h "temperature" (by simp)).float strtof htemperature,
    (h "top_p" (by simp)).float strtof htop, List.forall_mem_cons, List.not_mem_nil,
    false_imp_iff, implies_true, and_true]
  rw [eq_comm]

def greeting : ChatBody where
  text := lit ("\x7b\"model\":\"m\",\"messages\":[" ++
    "\x7b\"role\":\"user\",\"content\":\"hi\"\x7d]\x7d")
  value := .object [(lit "model", .string (lit "m")), (lit "messages", .array [
    .object [(lit "role", .string (lit "user")), (lit "content", .string (lit "hi"))]])]
  chat := ⟨lit "m", [⟨lit "user", lit "hi"⟩], none, none, none⟩
  wellFormed := by
    have hcovers : ∀ s ∈ ["model", "m", "messages", "role", "user", "content", "hi"],
        escaper.Covers (lit s) := by
      intro s hs
      rw [covers_iff (utf8_lit s)]
      revert s hs
      decide +kernel
    simp only [List.forall_mem_cons] at hcovers
    refine (text_print_iff (E := escaper) _ _).mpr ⟨rfl, ?_⟩
    simp [coversAll_object, coversAll_array, coversAll_string, hcovers]
  distinct := by decide +kernel
  reads := by
    simp [readChat, field, List.lookup, lit_beq, text, items, readMessage, optional]

/-- The message is not read. -/
theorem messages_dropped : greeting.chat.messages ≠ [] ∧
    ¬greeting.ReadCompletely (fun _ ↦ (1 : ℚ)) := by
  refine ⟨by simp [greeting], ?_⟩
  rintro ⟨req, hread, hmessages, -⟩
  rw [fromJson_eq, Option.some.injEq] at hread
  rw [← hread] at hmessages
  simp [greeting] at hmessages

end Cerberus.Inference
