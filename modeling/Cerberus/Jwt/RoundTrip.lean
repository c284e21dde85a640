import Cerberus.Jwt.Forgery

namespace Cerberus.Jwt

open Foundation.Bytes Foundation.Base64 Foundation.Scan Security

/-- A letter, a digit, or one of `_`, `.`, `@` and `-`. -/
def isIdentifierChar (b : UInt8) : Bool :=
  (48 ≤ b && b ≤ 57) || (65 ≤ b && b ≤ 90) || (97 ≤ b && b ≤ 122) || b == 95 || b == 46 ||
    b == 64 || b == 45

def Identifier (t : ByteString) : Prop := t ≠ [] ∧ ∀ b ∈ t, isIdentifierChar b = true

/-- The audiences of a token: those asked for, with `psiforcedb` at the end if it is not there. -/
def issuedAudiences (aud : List ByteString) : List ByteString :=
  if lit "psiforcedb" ∈ aud then aud else aud ++ [lit "psiforcedb"]

def quotedList : List ByteString → ByteString
  | [] => []
  | [a] => 34 :: (a ++ [34])
  | a :: b :: l => 34 :: (a ++ 34 :: 44 :: quotedList (b :: l))

variable {d : CryptoBridge} {s : JWTSession} {e : Issuing} {c : Checking} {cfg : SessionConfig}
  {sub a t : ByteString} {aud l : List ByteString} {n : String}

theorem quotedList_append (h : l ≠ []) (a : ByteString) :
    quotedList (l ++ [a]) = quotedList l ++ 44 :: 34 :: (a ++ [34]) := by
  induction l using quotedList.induct with
  | case1 => exact absurd rfl h
  | case2 b => simp [quotedList]
  | case3 b b' l ih =>
    have htail := ih (by simp)
    simp only [List.cons_append] at htail ⊢
    rw [quotedList, htail, quotedList]
    simp

theorem intercalate_eq (h : l ≠ []) :
    34 :: ((lit "\",\"").intercalate l ++ lit "\"") = quotedList l := by
  have hsep : lit "\",\"" = [34, 44, 34] := by decide
  have hend : lit "\"" = [34] := by decide
  rw [hsep, hend]
  induction l using quotedList.induct with
  | case1 => exact absurd rfl h
  | case2 a => simp [quotedList, List.intercalate]
  | case3 a b l ih =>
    rw [quotedList, ← ih (by simp)]
    simp [List.intercalate, List.intersperse]

theorem audienceText_eq (h : aud ≠ []) :
    34 :: audienceText aud = quotedList (issuedAudiences aud) := by
  have hpsi : lit ",\"psiforcedb\"" = 44 :: 34 :: (lit "psiforcedb" ++ [34]) := by decide
  have hne : aud.isEmpty = false := by simpa [List.isEmpty_eq_false_iff] using h
  rw [audienceText, issuedAudiences, hne, if_neg (by simp), ← List.cons_append, intercalate_eq h]
  split
  · next hm => rw [if_pos (by simpa using hm), List.append_nil]
  · next hm => rw [if_neg (by simpa using hm), quotedList_append h, hpsi]

theorem after_quotedList_cons (ha : 34 ∉ a) (hn : 34 ∉ lit n) (hcomma : lit n ≠ [44])
    (b : ByteString) (l : List ByteString) (r : ByteString) :
    after (key n) (quotedList (a :: b :: l) ++ r) =
      if lit n = a then some (44 :: (quotedList (b :: l) ++ r))
      else after (key n) (quotedList (b :: l) ++ r) := by
  obtain ⟨x, hx⟩ : ∃ x, quotedList (b :: l) = 34 :: x := by
    cases l with
    | nil => exact ⟨_, rfl⟩
    | cons b' l => exact ⟨_, rfl⟩
  have hpieces : quotedList (a :: b :: l) ++ r = 34 :: (a ++ 34 :: ([44] ++ 34 :: (x ++ r))) := by
    rw [quotedList, hx]
    simp
  rw [hpieces, key, after_quoted hn ha, after_quoted hn (by decide), if_neg hcomma, hx]
  rfl

theorem after_quotedList_single (ha : 34 ∉ a) (hn : 34 ∉ lit n) (r : ByteString) :
    after (key n) (quotedList [a] ++ r) = if lit n = a then some r else after (key n) (34 :: r) := by
  have hpieces : quotedList [a] ++ r = 34 :: (a ++ 34 :: r) := by simp [quotedList]
  rw [hpieces, key, after_quoted hn ha]

theorem after_quotedList_of_not_mem (hl : l ≠ []) (hq : ∀ a ∈ l, 34 ∉ a) (hn : 34 ∉ lit n)
    (hcomma : lit n ≠ [44]) (r : ByteString) (hno : lit n ∉ l) :
    after (key n) (quotedList l ++ r) = after (key n) (34 :: r) := by
  induction l using quotedList.induct with
  | case1 => exact absurd rfl hl
  | case2 a =>
    rw [after_quotedList_single (hq a (by simp)) hn, if_neg (fun he ↦ hno (by simp [he]))]
  | case3 a b l ih =>
    rw [after_quotedList_cons (hq a (by simp)) hn hcomma, if_neg (fun he ↦ hno (by simp [he]))]
    exact ih (by simp) (fun x hx ↦ hq x (by simp [hx])) (fun hm ↦ hno (by simp [hm]))

theorem mem_quotedList {x : UInt8} (h : x ∈ quotedList l) : x = 34 ∨ x = 44 ∨ ∃ a ∈ l, x ∈ a := by
  induction l using quotedList.induct with
  | case1 => cases h
  | case2 a =>
    simp only [quotedList, List.mem_cons, List.mem_append, List.not_mem_nil, or_false] at h
    grind
  | case3 a b l ih =>
    simp only [quotedList, List.mem_cons, List.mem_append] at h
    rcases h with h | h | h | h | h
    · exact .inl h
    · exact .inr (.inr ⟨a, by simp, h⟩)
    · exact .inl h
    · exact .inr (.inl h)
    · rcases ih h with h | h | ⟨a', ha', h⟩
      · exact .inl h
      · exact .inr (.inl h)
      · exact .inr (.inr ⟨a', by simp [ha'], h⟩)

theorem after_quotedList_of_mem (hq : ∀ a ∈ l, 34 ∉ a ∧ 58 ∉ a) (hn : 34 ∉ lit n)
    (hcomma : lit n ≠ [44]) (r : ByteString) (hmem : lit n ∈ l) :
    ∃ q, after (key n) (quotedList l ++ r) = some (q ++ r) ∧ 58 ∉ q := by
  induction l using quotedList.induct with
  | case1 => cases hmem
  | case2 a =>
    refine ⟨[], ?_, by simp⟩
    rw [after_quotedList_single (hq a (by simp)).1 hn, if_pos (List.mem_singleton.mp hmem)]
    rfl
  | case3 a b l ih =>
    rw [after_quotedList_cons (hq a (by simp)).1 hn hcomma]
    by_cases ha : lit n = a
    · refine ⟨44 :: quotedList (b :: l), by rw [if_pos ha]; rfl, ?_⟩
      intro hm
      rcases List.mem_cons.mp hm with h | h
      · exact absurd h (by decide)
      · rcases mem_quotedList h with h | h | ⟨x, hx, h⟩
        · exact absurd h (by decide)
        · exact absurd h (by decide)
        · exact (hq x (by simp [hx])).2 h
    · rw [if_neg ha]
      exact ih (fun x hx ↦ hq x (by simp [hx])) ((List.mem_cons.mp hmem).resolve_left ha)

theorem quotedStrings_some (h : 34 ∉ t) (tok r : ByteString) :
    quotedStrings (some tok) (t ++ 34 :: r) =
      (if (tok ++ t).isEmpty then [] else [tok ++ t]) ++ quotedStrings none r := by
  induction t generalizing tok with
  | nil => simp [quotedStrings]
  | cons b t ih =>
    have hb : b ≠ 34 := fun he ↦ h (by simp [he])
    rw [List.cons_append, quotedStrings, if_neg hb, ih (fun hm ↦ h (by simp [hm]))]
    simp

theorem quotedStrings_quotedList (hl : ∀ a ∈ l, 34 ∉ a ∧ a ≠ []) :
    quotedStrings none (quotedList l) = l := by
  induction l using quotedList.induct with
  | case1 => rfl
  | case2 a =>
    obtain ⟨hq, hne⟩ := hl a (by simp)
    rw [quotedList, quotedStrings, if_pos rfl, quotedStrings_some hq]
    simp [quotedStrings, hne]
  | case3 a b l ih =>
    obtain ⟨hq, hne⟩ := hl a (by simp)
    have htail := ih (fun x hx ↦ hl x (by simp [hx]))
    rw [quotedList, quotedStrings, if_pos rfl, quotedStrings_some hq, quotedStrings,
      if_neg (show ¬ (44 : UInt8) = 34 by decide), htail]
    simp [hne]

theorem Identifier.plain (h : Identifier t) : 34 ∉ t ∧ 58 ∉ t ∧ 93 ∉ t := by
  have hno (b : UInt8) (hb : isIdentifierChar b = false) : b ∉ t := by
    intro hm
    rw [h.2 b hm] at hb
    cases hb
  exact ⟨hno 34 rfl, hno 58 rfl, hno 93 rfl⟩

theorem identifier_issuedAudiences (h : ∀ a ∈ aud, Identifier a) :
    ∀ a ∈ issuedAudiences aud, Identifier a := by
  have hpsi : Identifier (lit "psiforcedb") := ⟨by decide, by decide +kernel⟩
  unfold issuedAudiences
  split
  · exact h
  · intro a ha
    rcases List.mem_append.mp ha with ha | ha
    · exact h a ha
    · rw [List.mem_singleton.mp ha]
      exact hpsi

theorem issuedAudiences_ne_nil (h : aud ≠ []) : issuedAudiences aud ≠ [] := by
  unfold issuedAudiences
  split
  · exact h
  · simp

theorem mem_issuedAudiences (hn : lit n ≠ lit "psiforcedb") :
    lit n ∈ issuedAudiences aud ↔ lit n ∈ aud := by
  unfold issuedAudiences
  split
  · exact Iff.rfl
  · simp [hn]

/-- The names that `validate_token` looks for behind the audiences. -/
def Late (n : String) : Prop := n = "iat" ∨ n = "exp" ∨ n = "jti"

theorem Late.letters (h : Late n) : 34 ∉ lit n ∧ 58 ∉ lit n ∧ 44 ∉ lit n ∧ lit n ≠ [44] ∧
    lit n ≠ [58, 91] ∧ lit n ≠ lit "psiforcedb" ∧ lit n ≠ lit "aud" ∧
    lit n ≠ lit "sub" ∧ lit n ≠ lit "iss" ∧ lit n ≠ lit "cerberus" := by
  rcases h with rfl | rfl | rfl <;> decide

def behindSubject (aud : List ByteString) : ByteString :=
  lit ",\"iss\":\"cerberus\",\"aud\":" ++ 91 :: 34 :: (audienceText aud ++ [93])

theorem after_subject (h : Late n) (hs : 34 ∉ sub) (hn : lit n = sub) :
    after (key n) (opening sub aud) = some (behindSubject aud) := by
  obtain ⟨h₁, h₂, h₃, -, -, -, -, hkeys⟩ := h.letters
  rw [after_opening hs h₁ h₂ h₃ hkeys, if_pos hn, behindSubject]

theorem after_audiences (h : Late n) (hs : 34 ∉ sub) (hn : lit n ≠ sub) (hne : aud ≠ []) :
    after (key n) (opening sub aud) =
      after (key n) (quotedList (issuedAudiences aud) ++ [93]) := by
  obtain ⟨h₁, h₂, h₃, -, h₅, -, haud, hkeys⟩ := h.letters
  rw [after_opening hs h₁ h₂ h₃ hkeys, if_neg hn, if_neg haud, ← audienceText_eq hne]
  exact (after_quoted h₁ (p := [58, 91]) (by decide) _).trans (if_neg h₅)

theorem after_of_not_mem (h : Late n) (hs : 34 ∉ sub) (hn : lit n ≠ sub) (hne : aud ≠ [])
    (haud : ∀ a ∈ aud, 34 ∉ a) (hno : lit n ∉ aud) :
    after (key n) (opening sub aud) = none := by
  obtain ⟨h₁, -, -, h₄, -, h₆, -⟩ := h.letters
  have hplain (a : ByteString) (ha : a ∈ issuedAudiences aud) : 34 ∉ a := by
    unfold issuedAudiences at ha
    split at ha
    · exact haud a ha
    · rcases List.mem_append.mp ha with ha | ha
      · exact haud a ha
      · rw [List.mem_singleton.mp ha]
        decide
  rw [after_audiences h hs hn hne, after_quotedList_of_not_mem (issuedAudiences_ne_nil hne) hplain
    h₁ h₄ _ (fun hm ↦ hno ((mem_issuedAudiences h₆).mp hm))]
  rcases h with rfl | rfl | rfl <;> decide

theorem after_of_mem (h : Late n) (hs : 34 ∉ sub) (hn : lit n ≠ sub) (hne : aud ≠ [])
    (haud : ∀ a ∈ aud, Identifier a) (hmem : lit n ∈ aud) :
    ∃ q, after (key n) (opening sub aud) = some q ∧ 58 ∉ q := by
  obtain ⟨h₁, -, -, h₄, -, h₆, -⟩ := h.letters
  have hplain (a : ByteString) (ha : a ∈ issuedAudiences aud) : 34 ∉ a ∧ 58 ∉ a :=
    ⟨(identifier_issuedAudiences haud a ha).plain.1, (identifier_issuedAudiences haud a ha).plain.2.1⟩
  obtain ⟨q, hq, hcolon⟩ := after_quotedList_of_mem hplain h₁ h₄ [93]
    ((mem_issuedAudiences h₆).mpr hmem)
  exact ⟨q ++ [93], by rw [after_audiences h hs hn hne, hq], by simpa using hcolon⟩

theorem numberValue_behindSubject : numberValue (behindSubject aud) = some 0 := by
  have hlit : lit ",\"iss\":\"cerberus\",\"aud\":" =
    lit ",\"iss\"" ++ 58 :: ([] ++ 34 :: lit "cerberus\",\"aud\":") := by decide
  have hzero (r : ByteString) : leadingU64 (34 :: r) = 0 := by
    simp [leadingU64, isSpace, isDigit]
  rw [behindSubject, hlit, numberValue, List.append_assoc]
  simp [cut_append (show (58 : UInt8) ∉ lit ",\"iss\"" by decide), hzero]

theorem stringValue_behindSubject (r : ByteString) :
    stringValue (behindSubject aud ++ r) = some (lit "cerberus") := by
  have hlit : lit ",\"iss\":\"cerberus\",\"aud\":" =
    lit ",\"iss\"" ++ 58 :: ([] ++ 34 :: (lit "cerberus" ++ 34 :: lit ",\"aud\":")) := by decide
  have hvalue := stringValue_eq (p := lit ",\"iss\"") (a := []) (v := lit "cerberus") (by decide)
    (by decide) (by decide) (lit ",\"aud\":" ++ 91 :: 34 :: (audienceText aud ++ 93 :: r))
  rw [← hvalue, behindSubject, hlit]
  simp

structure Returned (cfg : SessionConfig) (e : Issuing) (sub : ByteString) (aud : List ByteString)
    (p : JWTPayload) : Prop where
  sub : p.sub = sub
  aud : p.aud = issuedAudiences aud
  iat : p.iat = e.now
  exp : p.exp = cfg.expiry e.now
  jti : p.jti = e.generateJti

/-- No subject and no audience is taken for one of the keys that are read later. -/
structure Unmistakable (e : Issuing) (sub : ByteString) (aud : List ByteString) : Prop where
  subject_exp : sub ≠ lit "exp"
  subject_jti : sub ≠ lit "jti"
  subject_iat : sub = lit "iat" → e.now = 0
  audience_exp : lit "exp" ∉ aud
  audience_jti : lit "jti" ∉ aud

theorem late_iat : Late "iat" := .inl rfl

theorem late_exp : Late "exp" := .inr (.inl rfl)

theorem late_jti : Late "jti" := .inr (.inr rfl)

section

variable (hsub : Identifier sub) (hne : aud ≠ []) (haud : ∀ a ∈ aud, Identifier a)

include hsub hne haud

theorem read_iat : (readClaims (cfg.payloadJson e sub aud)).iat =
    if sub = lit "iat" then 0 else e.now := by
  split
  · next h =>
    rw [read_iat_of_some (after_subject late_iat hsub.plain.1 h.symm), numberValue_behindSubject]
    rfl
  · next h =>
    by_cases hmem : lit "iat" ∈ aud
    · obtain ⟨q, hq, hcolon⟩ := after_of_mem late_iat hsub.plain.1 (Ne.symm h) hne haud hmem
      rw [read_iat_of_some hq, numberValue, cut_of_not_mem hcolon]
      rfl
    · exact read_iat_of_none (after_of_not_mem late_iat hsub.plain.1 (Ne.symm h) hne
        (fun a ha ↦ (haud a ha).plain.1) hmem)

theorem read_exp : (readClaims (cfg.payloadJson e sub aud)).exp =
    if sub = lit "exp" then 0 else if lit "exp" ∈ aud then e.now else cfg.expiry e.now := by
  split
  · next h =>
    rw [read_exp_of_some (after_subject late_exp hsub.plain.1 h.symm), numberValue_behindSubject]
    rfl
  · next h =>
    split
    · next hmem =>
      obtain ⟨q, hq, hcolon⟩ := after_of_mem late_exp hsub.plain.1 (Ne.symm h) hne haud hmem
      rw [read_exp_of_some hq, numberValue, cut_of_not_mem hcolon]
      rfl
    · next hmem =>
      exact read_exp_of_none (after_of_not_mem late_exp hsub.plain.1 (Ne.symm h) hne
        (fun a ha ↦ (haud a ha).plain.1) hmem)

theorem read_jti : (readClaims (cfg.payloadJson e sub aud)).jti =
    if sub = lit "jti" then lit "cerberus" else if lit "jti" ∈ aud then lit "exp"
    else e.generateJti := by
  split
  · next h =>
    rw [read_jti_of_some (after_subject late_jti hsub.plain.1 h.symm), stringValue_behindSubject]
    rfl
  · next h =>
    split
    · next hmem =>
      obtain ⟨q, hq, hcolon⟩ := after_of_mem late_jti hsub.plain.1 (Ne.symm h) hne haud hmem
      rw [read_jti_of_some hq, stringValue_append_of_not_mem hcolon]
      rfl
    · next hmem =>
      exact read_jti_of_none (after_of_not_mem late_jti hsub.plain.1 (Ne.symm h) hne
        (fun a ha ↦ (haud a ha).plain.1) hmem)

theorem read_audiences : (readClaims (cfg.payloadJson e sub aud)).aud = issuedAudiences aud := by
  have hid := identifier_issuedAudiences haud
  have hbracket : (quotedList (issuedAudiences aud)).takeWhile (· ≠ 93) =
      quotedList (issuedAudiences aud) := by
    rw [List.takeWhile_eq_self_iff]
    intro b hb
    have hne93 : b ≠ 93 := by
      rintro rfl
      rcases mem_quotedList hb with h | h | ⟨a, ha, h⟩
      · exact absurd h (by decide)
      · exact absurd h (by decide)
      · exact (hid a ha).plain.2.2 h
    simpa using hne93
  rw [read_aud, extractAudiences_opening hsub.plain.1, audienceText_eq hne, hbracket]
  exact quotedStrings_quotedList (fun a ha ↦ ⟨(hid a ha).plain.1, (hid a ha).1⟩)

end

theorem allowed_issuedAudiences {allowed : List ByteString}
    (h : allowed = [] ∨ ∃ a, (a = lit "psiforcedb" ∨ a ∈ aud) ∧ a ∈ allowed) :
    (allowed.isEmpty || (issuedAudiences aud).any (fun a ↦ allowed.contains a)) = true := by
  rcases h with rfl | ⟨a, ha, hallowed⟩
  · rfl
  · have hmem : a ∈ issuedAudiences aud := by
      unfold issuedAudiences
      grind
    rw [Bool.or_eq_true, List.any_eq_true]
    exact .inr ⟨a, hmem, by simpa using hallowed⟩

theorem generateJti_long {t : ByteString} (h : t.length ≤ 46) : t ≠ e.generateJti := by
  rintro rfl
  have hpos := length_decimal_pos e.jtiNow.toNat
  rw [length_generateJti] at h
  omega

theorem expiry_ne_now (h : 0 < cfg.tokenLifetime) (now : UInt64) : cfg.expiry now ≠ now := by
  intro he
  have hzero : cfg.tokenLifetime.toUInt64 = 0 := by
    simpa [SessionConfig.expiry] using he
  have hlifetime : cfg.tokenLifetime = 0 := by
    simpa using congrArg UInt64.toInt64 hzero
  rw [hlifetime] at h
  exact absurd h (by decide)

/-- For identifiers, before the token expires or is revoked, and for a session that takes one of
its audiences: the token returns what went into it exactly when no identifier is the name of a
claim that is looked for behind it. -/
theorem round_trip_iff (hd : d.Sized) (hs : s.config.jwtSecret ≠ []) (he : e.up = true)
    (hc : c.up = true) (hsub : Identifier sub) (hne : aud ≠ []) (haud : ∀ a ∈ aud, Identifier a)
    (hlen : (s.createToken d e sub aud).length ≤ 8192)
    (hallowed : s.config.allowedAudiences = [] ∨
      ∃ a, (a = lit "psiforcedb" ∨ a ∈ aud) ∧ a ∈ s.config.allowedAudiences)
    (hlifetime : 0 < s.config.tokenLifetime) (hbefore : c.now < s.config.expiry e.now)
    (hlive : s.isRevoked e.generateJti = false) :
    (∃ p, s.validateToken d c (s.createToken d e sub aud) = .ok p ∧
      Returned s.config e sub aud p) ↔ Unmistakable e sub aud := by
  rw [validateToken_issued hd hs he hc, if_pos hlen]
  constructor
  · rintro ⟨p, hok, hp⟩
    obtain ⟨-, -, -, rfl⟩ := judge_ok.mp hok
    obtain ⟨-, -, hiat, hexp, hjti⟩ := hp
    rw [audited_iat, read_iat hsub hne haud] at hiat
    rw [audited_exp, read_exp hsub hne haud] at hexp
    rw [audited_jti, read_jti hsub hne haud] at hjti
    have hexp₁ : sub ≠ lit "exp" := by
      intro h
      rw [if_pos h] at hexp
      rw [← hexp] at hbefore
      exact absurd hbefore (by simp)
    have hjti₁ : sub ≠ lit "jti" := by
      intro h
      rw [if_pos h] at hjti
      exact generateJti_long (by decide) hjti
    refine ⟨hexp₁, hjti₁, ?_, ?_, ?_⟩
    · intro h
      rw [if_pos h] at hiat
      exact hiat.symm
    · intro h
      rw [if_neg hexp₁, if_pos h] at hexp
      exact expiry_ne_now hlifetime e.now hexp.symm
    · intro h
      rw [if_neg hjti₁, if_pos h] at hjti
      exact generateJti_long (by decide) hjti
  · intro h
    have hiat : (readClaims (s.config.payloadJson e sub aud)).iat = e.now := by
      rw [read_iat hsub hne haud]
      split
      · next hi => exact (h.subject_iat hi).symm
      · rfl
    have hexp : (readClaims (s.config.payloadJson e sub aud)).exp = s.config.expiry e.now := by
      rw [read_exp hsub hne haud, if_neg h.subject_exp, if_neg h.audience_exp]
    have hjti : (readClaims (s.config.payloadJson e sub aud)).jti = e.generateJti := by
      rw [read_jti hsub hne haud, if_neg h.subject_jti, if_neg h.audience_jti]
    have haudiences : (readClaims (s.config.payloadJson e sub aud)).aud = issuedAudiences aud :=
      read_audiences hsub hne haud
    refine ⟨_, judge_ok.mpr ⟨?_, ?_, ?_, rfl⟩, ⟨?_, ?_, ?_, ?_, ?_⟩⟩
    · rw [JWTPayload.isAudienceAllowed, haudiences]
      exact allowed_issuedAudiences hallowed
    · rwa [hexp]
    · rw [hjti, hlive, Bool.and_false]
    · rw [audited_sub, read_sub, takeWhile_quote_eq_self.mpr hsub.plain.1]
    · rw [audited_aud, haudiences]
    · rw [audited_iat, hiat]
    · rw [audited_exp, hexp]
    · rw [audited_jti, hjti]

theorem round_trip_iff_alice : ∃ p,
    sampleSession.validateToken sampleBridge { now := 1700000001 }
        (sampleSession.createToken sampleBridge { now := 1700000000 } (lit "alice@example.org")
          [lit "iat", lit "cerberus"]) = .ok p ∧
      Returned sampleSession.config { now := 1700000000 } (lit "alice@example.org")
        [lit "iat", lit "cerberus"] p := by
  refine (round_trip_iff sampleBridge_sized (by decide) rfl rfl ⟨by decide, by decide +kernel⟩
    (by simp) ?_ (by decide +kernel) (.inr ⟨lit "psiforcedb", .inl rfl, by decide +kernel⟩)
    (by decide) (by decide) (by decide)).mpr ?_
  · unfold Identifier
    decide +kernel
  · exact ⟨by decide, by decide, by decide, by decide, by decide⟩

/-- The subject `jti` is taken for the key: the identifier of the token is read as the issuer. -/
theorem subject_taken_for_key : ∃ p,
    sampleSession.validateToken sampleBridge { now := 1700000001 }
        (sampleSession.createToken sampleBridge { now := 1700000000 } (lit "jti")
          [lit "cerberus"]) = .ok p ∧ p.jti = lit "cerberus" ∧
      ¬ Returned sampleSession.config { now := 1700000000 } (lit "jti") [lit "cerberus"] p := by
  have hread : (sampleSession.validateToken sampleBridge { now := 1700000001 }
      (sampleSession.createToken sampleBridge { now := 1700000000 } (lit "jti")
        [lit "cerberus"])).toOption.map JWTPayload.jti = some (lit "cerberus") := by
    decide +kernel
  generalize sampleSession.validateToken sampleBridge _ _ = answer at hread ⊢
  cases answer with
  | error err => cases hread
  | ok p =>
    have hjti : p.jti = lit "cerberus" := by simpa [Except.toOption] using hread
    refine ⟨p, rfl, hjti, fun hp ↦ ?_⟩
    exact generateJti_long (by decide) (hjti.symm.trans hp.jti)

end Cerberus.Jwt
