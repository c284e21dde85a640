import Cerberus.Jwt.Model

namespace Cerberus.Jwt

open Foundation.Bytes Foundation.Base64 Foundation.Scan Security

/-- The payload up to the audiences: all of it that the subject and the audiences decide. -/
def opening (sub : ByteString) (aud : List ByteString) : ByteString :=
  lit "\x7b\"sub\":\"" ++ sub ++ lit "\",\"iss\":\"cerberus\",\"aud\":[\"" ++ audienceText aud ++
    lit "]"

def SessionConfig.closing (cfg : SessionConfig) (e : Issuing) : ByteString :=
  lit "\"iat\":" ++ decimal e.now.toNat ++ lit ",\"exp\":" ++
    decimal (cfg.expiry e.now).toNat ++ lit ",\"jti\":\"" ++ e.generateJti ++
    lit "\",\"offline_capable\":true,\"mode\":\"local\"\x7d"

variable {cfg : SessionConfig} {e : Issuing} {sub : ByteString} {aud : List ByteString}

theorem payloadJson_eq : cfg.payloadJson e sub aud = opening sub aud ++ 44 :: cfg.closing e := by
  have hlit : lit "],\"iat\":" = lit "]" ++ 44 :: lit "\"iat\":" := by decide
  simp [SessionConfig.payloadJson, opening, SessionConfig.closing, hlit]

theorem not_mem_decimal {n : Nat} {b : UInt8} (h : isDigit b = false) : b ∉ decimal n := by
  intro hb
  rw [isDigit_decimal hb] at h
  cases h

theorem takeWhile_isDigit_append {c : UInt8} (hc : isDigit c = false) (z r : ByteString) :
    (z ++ c :: r).takeWhile isDigit = z.takeWhile isDigit := by
  rw [List.takeWhile_append]
  split
  · next h =>
    have hall : z.takeWhile isDigit = z := (List.takeWhile_prefix _).eq_of_length h
    simp [hc, hall]
  · rfl

theorem leadingU64_append {c : UInt8} (hc : isDigit c = false) (hs : isSpace c = false)
    (z r : ByteString) : leadingU64 (z ++ c :: r) = leadingU64 z := by
  have hdigits : ((z ++ c :: r).dropWhile isSpace).takeWhile isDigit =
      (z.dropWhile isSpace).takeWhile isDigit := by
    rw [List.dropWhile_append]
    split
    · next h =>
      rw [List.isEmpty_iff.mp h]
      simp [hs, hc]
    · exact takeWhile_isDigit_append hc _ _
  rw [leadingU64, hdigits, leadingU64]

/-- Reading digits in 64 bits is reading them and then forgetting what does not fit. -/
theorem foldl_digits (s : ByteString) (h : ∀ b ∈ s, isDigit b = true) (n : Nat) :
    s.foldl (fun v b ↦ v * 10 + (b - 48).toUInt64) (UInt64.ofNat n) =
      UInt64.ofNat (s.foldl (fun v b ↦ 10 * v + (b.toNat - 48)) n) := by
  induction s generalizing n with
  | nil => rfl
  | cons b s ih =>
    have hb : 48 ≤ b := by
      have hd := h b (by simp)
      simp only [isDigit, Bool.and_eq_true, decide_eq_true_eq] at hd
      exact hd.1
    have hdigit : UInt64.ofNat n * 10 + (b - 48).toUInt64 =
        UInt64.ofNat (10 * n + (b.toNat - 48)) := by
      have hsub : (b - 48).toUInt64 = UInt64.ofNat (b.toNat - 48) := by
        rw [← UInt64.toNat_inj]
        have hlt := b.toNat_lt
        rw [UInt8.toNat_toUInt64, UInt8.toNat_sub_of_le _ _ hb, UInt64.toNat_ofNat']
        exact (Nat.mod_eq_of_lt (by omega)).symm
      rw [hsub, mul_comm 10 n, UInt64.ofNat_add, UInt64.ofNat_mul]
      rfl
    rw [List.foldl_cons, List.foldl_cons, hdigit]
    exact ih (fun b hm ↦ h b (by simp [hm])) _

theorem leadingU64_decimal (n : UInt64) : leadingU64 (decimal n.toNat) = n := by
  have hdigits : (decimal n.toNat).dropWhile isSpace = decimal n.toNat := by
    obtain ⟨b, r, hb⟩ := List.exists_cons_of_ne_nil (digits_ne_nil 10 n.toNat)
    rw [← decimal] at hb
    have hdigit : isDigit b = true := isDigit_decimal (n := n.toNat) (by simp [hb])
    rw [hb, List.dropWhile_cons_of_neg (by simp [(plain_of_isDigit hdigit).1])]
  have hall : (decimal n.toNat).takeWhile isDigit = decimal n.toNat :=
    List.takeWhile_eq_self_iff.mpr (fun _ hb ↦ isDigit_decimal hb)
  have hfold := foldl_digits (decimal n.toNat) (fun _ hb ↦ isDigit_decimal hb) 0
  rw [leadingU64, hdigits, hall]
  rw [value_decimal] at hfold
  simpa using hfold

theorem not_mem_hexDigit (v : Fin 16) : hexDigit v ≠ 34 := by
  revert v
  decide

theorem quote_not_mem_jti : 34 ∉ e.generateJti := by
  simp only [Issuing.generateJti, List.mem_append, not_or, List.mem_ofFn, not_exists]
  refine ⟨⟨⟨by decide, fun i ↦ not_mem_hexDigit _⟩, by decide⟩, not_mem_decimal (by decide)⟩

def claim (name : String) (value rest : ByteString) : ByteString :=
  34 :: (lit name ++ 34 :: 58 :: (value ++ rest))

def Issuing.fromJti (e : Issuing) : ByteString :=
  claim "jti" (34 :: (e.generateJti ++ [34])) (lit ",\"offline_capable\":true,\"mode\":\"local\"\x7d")

def SessionConfig.fromExp (cfg : SessionConfig) (e : Issuing) : ByteString :=
  claim "exp" (decimal (cfg.expiry e.now).toNat) (44 :: e.fromJti)

theorem closing_eq :
    cfg.closing e = claim "iat" (decimal e.now.toNat) (44 :: cfg.fromExp e) := by
  have hiat : lit "\"iat\":" = 34 :: (lit "iat" ++ [34, 58]) := by decide
  have hexp : lit ",\"exp\":" = 44 :: 34 :: (lit "exp" ++ [34, 58]) := by decide
  have hjti : lit ",\"jti\":\"" = 44 :: 34 :: (lit "jti" ++ [34, 58, 34]) := by decide
  have hend : lit "\",\"offline_capable\":true,\"mode\":\"local\"\x7d" =
    34 :: lit ",\"offline_capable\":true,\"mode\":\"local\"\x7d" := by decide
  simp [SessionConfig.closing, SessionConfig.fromExp, Issuing.fromJti, claim, hiat, hexp, hjti,
    hend]

theorem after_claim {n name : String} {value : ByteString} (r : ByteString) (hn : 34 ∉ lit n)
    (hcolon : 58 ∉ lit n) (hname : 34 ∉ lit name) (hv : 34 ∉ value) :
    after (key n) (claim name value (44 :: 34 :: r)) =
      if lit n = lit name then some (58 :: (value ++ 44 :: 34 :: r))
      else after (key n) (34 :: r) := by
  have hvalue : 34 ∉ 58 :: (value ++ [44]) := by simpa using hv
  have hne : lit n ≠ 58 :: (value ++ [44]) := fun he ↦ hcolon (by simp [he])
  have hrest : 58 :: (value ++ 44 :: 34 :: r) = 58 :: (value ++ [44]) ++ 34 :: r := by simp
  rw [key, claim, after_quoted hn hname, hrest, after_quoted hn hvalue, if_neg hne]

theorem after_iat_closing : after (key "iat") (cfg.closing e) =
    some (58 :: (decimal e.now.toNat ++ 44 :: cfg.fromExp e)) := by
  rw [closing_eq]
  exact (after_claim _ (by decide) (by decide) (by decide) (not_mem_decimal rfl)).trans
    (if_pos rfl)

theorem after_closing {n : String} (hn : 34 ∉ lit n) (hcolon : 58 ∉ lit n)
    (hiat : lit n ≠ lit "iat") : after (key n) (cfg.closing e) = after (key n) (cfg.fromExp e) := by
  rw [closing_eq]
  exact (after_claim _ hn hcolon (by decide) (not_mem_decimal rfl)).trans (if_neg hiat)

theorem after_exp_closing : after (key "exp") (cfg.closing e) =
    some (58 :: (decimal (cfg.expiry e.now).toNat ++ 44 :: e.fromJti)) := by
  rw [after_closing (by decide) (by decide) (by decide)]
  exact (after_claim _ (by decide) (by decide) (by decide) (not_mem_decimal rfl)).trans
    (if_pos rfl)

theorem after_jti_closing : after (key "jti") (cfg.closing e) =
    some (58 :: 34 :: (e.generateJti ++
      34 :: lit ",\"offline_capable\":true,\"mode\":\"local\"\x7d")) := by
  have hexp : after (key "jti") (cfg.fromExp e) = after (key "jti") e.fromJti :=
    (after_claim _ (by decide) (by decide) (by decide) (not_mem_decimal rfl)).trans
      (if_neg (by decide))
  rw [after_closing (by decide) (by decide) (by decide), hexp, Issuing.fromJti, claim, key,
    after_quoted (by decide) (by decide), if_pos rfl]
  simp

theorem numberValue_decimal (n : UInt64) (r : ByteString) :
    numberValue (58 :: (decimal n.toNat ++ 44 :: r)) = some n := by
  simp [numberValue, cut, leadingU64_append (c := 44) rfl rfl, leadingU64_decimal]

/-- The number behind a key that is found in the opening: that of the opening if there is a
colon, else the time of issue. -/
theorem numberValue_append (q : ByteString) :
    numberValue (q ++ 44 :: cfg.closing e) = some ((numberValue q).getD e.now) := by
  by_cases hq : 58 ∈ q
  · obtain ⟨y, z, rfl, hy⟩ := List.eq_append_cons_of_mem hq
    simp [numberValue, cut_append hy, leadingU64_append (c := 44) rfl rfl]
  · have hpre : 58 ∉ q ++ 44 :: 34 :: (lit "iat" ++ [34]) := by
      simp only [List.mem_append, not_or]
      exact ⟨hq, by decide⟩
    have hsplit : q ++ 44 :: cfg.closing e = (q ++ 44 :: 34 :: (lit "iat" ++ [34])) ++
        58 :: (decimal e.now.toNat ++ 44 :: cfg.fromExp e) := by
      rw [closing_eq]
      simp [claim]
    rw [hsplit, numberValue, cut_append hpre, numberValue, cut_of_not_mem hq]
    simp [leadingU64_append (c := 44) rfl rfl, leadingU64_decimal]

theorem stringValue_eq {p a v : ByteString} (hp : 58 ∉ p) (ha : 34 ∉ a) (hv : 34 ∉ v)
    (r : ByteString) : stringValue (p ++ 58 :: (a ++ 34 :: (v ++ 34 :: r))) = some v := by
  simp [stringValue, cut_append hp, cut_append ha, cut_append hv]

/-- Without a colon in the opening, the string behind a key that is found there is the name of
the claim after the time of issue. -/
theorem stringValue_append_of_not_mem {q : ByteString} (hq : 58 ∉ q) :
    stringValue (q ++ 44 :: cfg.closing e) = some (lit "exp") := by
  have hpre : 58 ∉ q ++ 44 :: 34 :: (lit "iat" ++ [34]) := by
    simp only [List.mem_append, not_or]
    exact ⟨hq, by decide⟩
  have hnow : 34 ∉ decimal e.now.toNat ++ [44] := by
    simp only [List.mem_append, not_or]
    exact ⟨not_mem_decimal rfl, by decide⟩
  have hexp : 34 ∉ lit "exp" := by decide
  rw [← stringValue_eq hpre hnow hexp (58 :: (decimal (cfg.expiry e.now).toNat ++ 44 :: e.fromJti)),
    closing_eq]
  simp [claim, SessionConfig.fromExp]

theorem stringValue_append (q : ByteString) :
    ∃ x, ∀ cfg e, stringValue (q ++ 44 :: SessionConfig.closing cfg e) = some x := by
  by_cases hq : 58 ∈ q
  · obtain ⟨y, z, rfl, hy⟩ := List.eq_append_cons_of_mem hq
    by_cases hz : 34 ∈ z
    · obtain ⟨z₁, z₂, rfl, hz₁⟩ := List.eq_append_cons_of_mem hz
      by_cases hz₂ : 34 ∈ z₂
      · obtain ⟨w₁, w₂, rfl, hw₁⟩ := List.eq_append_cons_of_mem hz₂
        refine ⟨w₁, fun cfg e ↦ ?_⟩
        rw [← stringValue_eq hy hz₁ hw₁ (w₂ ++ 44 :: cfg.closing e)]
        simp
      · refine ⟨z₂ ++ [44], fun cfg e ↦ ?_⟩
        have hw : 34 ∉ z₂ ++ [44] := by simp [hz₂]
        rw [← stringValue_eq hy hz₁ hw (lit "iat" ++ 34 :: 58 :: (decimal e.now.toNat ++
          44 :: cfg.fromExp e)), closing_eq]
        simp [claim]
    · refine ⟨lit "iat", fun cfg e ↦ ?_⟩
      have hw : 34 ∉ z ++ [44] := by simp [hz]
      have hiat : 34 ∉ lit "iat" := by decide
      rw [← stringValue_eq hy hw hiat (58 :: (decimal e.now.toNat ++ 44 :: cfg.fromExp e)),
        closing_eq]
      simp [claim]
  · exact ⟨lit "exp", fun cfg e ↦ stringValue_append_of_not_mem hq⟩

theorem after_payload {n : String} (hn : 44 ∉ lit n) :
    after (key n) (cfg.payloadJson e sub aud) =
      ((after (key n) (opening sub aud)).map (· ++ 44 :: cfg.closing e)).or
        (after (key n) (cfg.closing e)) := by
  have hkey : 44 ∉ key n := by simpa [key, quoted] using hn
  rw [payloadJson_eq, after_append_cons (by simp [key, quoted]) hkey]

theorem read_iat_of_none (h : after (key "iat") (opening sub aud) = none) :
    (readClaims (cfg.payloadJson e sub aud)).iat = e.now := by
  simp only [readClaims, extractJsonU64]
  rw [after_payload (by decide), h, after_iat_closing]
  simp [numberValue_decimal]

theorem read_iat_of_some {q : ByteString} (h : after (key "iat") (opening sub aud) = some q) :
    (readClaims (cfg.payloadJson e sub aud)).iat = (numberValue q).getD e.now := by
  simp only [readClaims, extractJsonU64]
  rw [after_payload (by decide), h]
  simp [numberValue_append]

theorem read_exp_of_none (h : after (key "exp") (opening sub aud) = none) :
    (readClaims (cfg.payloadJson e sub aud)).exp = cfg.expiry e.now := by
  simp only [readClaims, extractJsonU64]
  rw [after_payload (by decide), h, after_exp_closing]
  simp [numberValue_decimal]

theorem read_exp_of_some {q : ByteString} (h : after (key "exp") (opening sub aud) = some q) :
    (readClaims (cfg.payloadJson e sub aud)).exp = (numberValue q).getD e.now := by
  simp only [readClaims, extractJsonU64]
  rw [after_payload (by decide), h]
  simp [numberValue_append]

theorem read_jti_of_none (h : after (key "jti") (opening sub aud) = none) :
    (readClaims (cfg.payloadJson e sub aud)).jti = e.generateJti := by
  simp only [readClaims, extractJsonStringValue]
  rw [after_payload (by decide), h, after_jti_closing]
  have hvalue := stringValue_eq (p := []) (a := []) (by simp) (by simp) (quote_not_mem_jti (e := e))
    (lit ",\"offline_capable\":true,\"mode\":\"local\"\x7d")
  simp only [List.nil_append] at hvalue
  simp [hvalue]

theorem read_jti_of_some {q : ByteString} (h : after (key "jti") (opening sub aud) = some q) :
    (readClaims (cfg.payloadJson e sub aud)).jti =
      (stringValue (q ++ 44 :: cfg.closing e)).getD [] := by
  simp only [readClaims, extractJsonStringValue]
  rw [after_payload (by decide), h]
  simp

theorem read_sub : (readClaims (cfg.payloadJson e sub aud)).sub = sub.takeWhile (· ≠ 34) := by
  have hopen : lit "\x7b\"sub\":\"" = [123] ++ 34 :: (lit "sub" ++ 34 :: [58, 34]) := by decide
  have hclose : lit "\",\"iss\":\"cerberus\",\"aud\":[\"" =
    34 :: lit ",\"iss\":\"cerberus\",\"aud\":[\"" := by decide
  obtain ⟨q, hq⟩ := cut_takeWhile (c := 34) sub (lit ",\"iss\":\"cerberus\",\"aud\":[\"" ++
    (audienceText aud ++ (lit "]" ++ 44 :: cfg.closing e)))
  have hafter : after (key "sub") (cfg.payloadJson e sub aud) =
      some ([58] ++ 34 :: (sub ++ 34 :: (lit ",\"iss\":\"cerberus\",\"aud\":[\"" ++
        (audienceText aud ++ (lit "]" ++ 44 :: cfg.closing e))))) := by
    rw [payloadJson_eq, opening, hopen, hclose]
    simp only [List.append_assoc, List.cons_append, List.nil_append]
    refine (after_skip (c := 34) (p := [123]) (by decide) _ _).trans ?_
    exact (after_quoted (by decide) (by decide) _).trans (if_pos rfl)
  simp only [readClaims, extractJsonStringValue, hafter, Option.bind_some, stringValue]
  simp [cut, hq]

theorem bracketed_append {w : ByteString} (h : 91 ∈ w) (x : ByteString) :
    bracketed (w ++ 93 :: x) = bracketed (w ++ [93]) := by
  obtain ⟨y, z, rfl, hy⟩ := List.eq_append_cons_of_mem h
  obtain ⟨q, hq⟩ := cut_takeWhile (c := 93) z x
  obtain ⟨q', hq'⟩ := cut_takeWhile (c := 93) z []
  simp [bracketed, cut_append hy, hq, hq']

theorem opening_eq : opening sub aud =
    (lit "\x7b\"sub\":\"" ++ (sub ++ lit "\",\"iss\":\"cerberus\",")) ++
      (key "aud" ++ 58 :: 91 :: 34 :: (audienceText aud ++ [93])) := by
  have hclose : lit "\",\"iss\":\"cerberus\",\"aud\":[\"" =
    lit "\",\"iss\":\"cerberus\"," ++ (key "aud" ++ [58, 91, 34]) := by decide
  have hend : lit "]" = [93] := by decide
  simp [opening, hclose, hend]

theorem read_aud : (readClaims (cfg.payloadJson e sub aud)).aud =
    extractAudiences (opening sub aud) := by
  obtain ⟨q, hq, t, rfl⟩ := after_of_infix
    (lit "\x7b\"sub\":\"" ++ (sub ++ lit "\",\"iss\":\"cerberus\",")) (key "aud")
    (58 :: 91 :: 34 :: (audienceText aud ++ [93]))
  have hbody := bracketed_append (w := t ++ 58 :: 91 :: 34 :: audienceText aud) (by simp)
    (44 :: cfg.closing e)
  rw [← opening_eq] at hq
  simp only [readClaims, extractAudiences]
  rw [after_payload (by decide), hq]
  simp only [List.append_assoc, List.cons_append] at hbody
  simp [hbody]

theorem after_opening {n : String} (hsub : 34 ∉ sub) (hn : 34 ∉ lit n) (hcolon : 58 ∉ lit n)
    (hcomma : 44 ∉ lit n) (hkeys : lit n ≠ lit "sub" ∧ lit n ≠ lit "iss" ∧ lit n ≠ lit "cerberus") :
    after (key n) (opening sub aud) =
      if lit n = sub then
        some (lit ",\"iss\":\"cerberus\",\"aud\":" ++ 91 :: 34 :: (audienceText aud ++ [93]))
      else if lit n = lit "aud" then some (58 :: 91 :: 34 :: (audienceText aud ++ [93]))
      else after (key n) (34 :: 58 :: 91 :: 34 :: (audienceText aud ++ [93])) := by
  have hpieces : opening sub aud = [123] ++ 34 :: (lit "sub" ++ 34 :: ([58] ++ 34 :: (sub ++
      34 :: ([44] ++ 34 :: (lit "iss" ++ 34 :: ([58] ++ 34 :: (lit "cerberus" ++
        34 :: ([44] ++ 34 :: (lit "aud" ++
          34 :: 58 :: 91 :: 34 :: (audienceText aud ++ [93])))))))))) := by
    have hopen : lit "\x7b\"sub\":\"" = [123] ++ 34 :: (lit "sub" ++ 34 :: [58, 34]) := by decide
    have hclose : lit "\",\"iss\":\"cerberus\",\"aud\":[\"" = 34 :: 44 :: 34 :: (lit "iss" ++
      34 :: 58 :: 34 :: (lit "cerberus" ++ 34 :: 44 :: 34 :: (lit "aud" ++ [34, 58, 91, 34]))) := by
      decide
    have hend : lit "]" = [93] := by decide
    simp [opening, hopen, hclose, hend]
  have hrest : lit ",\"iss\":\"cerberus\",\"aud\":" = [44] ++ 34 :: (lit "iss" ++ 34 :: ([58] ++
      34 :: (lit "cerberus" ++ 34 :: ([44] ++ 34 :: (lit "aud" ++ [34, 58]))))) := by decide
  have hcolon' : lit n ≠ [58] := fun he ↦ hcolon (by simp [he])
  have hcomma' : lit n ≠ [44] := fun he ↦ hcomma (by simp [he])
  obtain ⟨hn₁, hn₂, hn₃⟩ := hkeys
  rw [hpieces, key, quoted, after_skip (by decide), ← quoted,
    after_quoted hn (by decide), if_neg hn₁, after_quoted hn (by decide), if_neg hcolon',
    after_quoted hn hsub]
  split
  · rw [hrest]
    simp
  · rw [after_quoted hn (by decide), if_neg hcomma', after_quoted hn (by decide), if_neg hn₂,
      after_quoted hn (by decide), if_neg hcolon', after_quoted hn (by decide), if_neg hn₃,
      after_quoted hn (by decide), if_neg hcomma', after_quoted hn (by decide)]

theorem bracketed_eq {y : ByteString} (hy : 91 ∉ y) (z : ByteString) :
    bracketed (y ++ 91 :: (z ++ [93])) = some (z.takeWhile (· ≠ 93)) := by
  obtain ⟨q, hq⟩ := cut_takeWhile (c := 93) z []
  simp [bracketed, cut_append hy, hq]

/-- For a subject without quotes, the audiences are read from their own text, up to the first
bracket that closes. -/
theorem extractAudiences_opening (hsub : 34 ∉ sub) : extractAudiences (opening sub aud) =
    quotedStrings none ((34 :: audienceText aud).takeWhile (· ≠ 93)) := by
  have hafter := @after_opening sub aud "aud" hsub (by decide) (by decide) (by decide) (by decide)
  have hbody {y : ByteString} (hy : 91 ∉ y) := bracketed_eq hy (34 :: audienceText aud)
  simp only [List.cons_append] at hbody
  rw [extractAudiences, hafter]
  split
  · rw [Option.bind_some, hbody (by decide)]
    rfl
  · rw [if_pos rfl, Option.bind_some, ← List.singleton_append, hbody (by decide)]
    rfl

end Cerberus.Jwt
