import Cerberus.Jwt.Claims

namespace Cerberus.Jwt

open Foundation.Bytes Foundation.Base64 Foundation.Scan Security

variable {d : CryptoBridge} {s : JWTSession} {e : Issuing} {c : Checking} {sub : ByteString}
  {aud : List ByteString} {p p' : JWTPayload}

theorem dot_not_mem_encode (t : ByteString) : dot ∉ base64urlEncode t := by
  intro h
  have hchar := isBase64urlChar_encode h
  exact absurd hchar (by decide)

theorem encode_not_empty {t : ByteString} (h : t ≠ []) : (base64urlEncode t).isEmpty = false := by
  have hpos := List.length_pos_iff.mpr h
  rw [List.isEmpty_eq_false_iff, ← List.length_pos_iff, length_encode]
  omega

theorem validateJwtStructure_segments {h p g : ByteString} (hh : h ≠ []) (hp : p ≠ [])
    (hg : g ≠ []) : validateJwtStructure
      (base64urlEncode h ++ dot :: (base64urlEncode p ++ dot :: base64urlEncode g)) =
        decide ((base64urlEncode h ++
          dot :: (base64urlEncode p ++ dot :: base64urlEncode g)).length ≤ 8192) := by
  have hcount (t : ByteString) : (base64urlEncode t).count dot = 0 :=
    List.count_eq_zero.mpr (dot_not_mem_encode t)
  have hletters (t : ByteString) :
      (base64urlEncode t).all (fun c ↦ c == dot || isBase64urlChar c) = true := by
    rw [List.all_eq_true]
    intro x hx
    simp [isBase64urlChar_encode hx]
  have hne : (base64urlEncode h ++ dot :: (base64urlEncode p ++ dot :: base64urlEncode g)).isEmpty =
      false := by
    simp [List.isEmpty_eq_false_iff]
  simp [validateJwtStructure, cut_append (dot_not_mem_encode _), hne, encode_not_empty hh,
    encode_not_empty hp, encode_not_empty hg, hcount, hletters, List.count_append]

theorem splitJwt_segments {h p g : ByteString} (hh : h ≠ []) (hp : p ≠ []) (hg : g ≠ []) :
    splitJwt (base64urlEncode h ++ dot :: (base64urlEncode p ++ dot :: base64urlEncode g)) =
      ⟨base64urlEncode h, base64urlEncode p, base64urlEncode g,
        base64urlEncode h ++ dot :: base64urlEncode p, true⟩ := by
  simp [splitJwt, cut_append (dot_not_mem_encode _), dot_not_mem_encode,
    encode_not_empty hh, encode_not_empty hp, encode_not_empty hg]

theorem foldl_xor_self (t : ByteString) :
    (List.zipWith (· ^^^ ·) t t).foldl (· ||| ·) (0 : UInt8) = 0 := by
  induction t with
  | nil => rfl
  | cons b t ih => simpa using ih

theorem verifyHmacSignature_issued (hs : s.config.jwtSecret ≠ []) {h p input : ByteString} :
    s.verifyHmacSignature d true
      ⟨h, p, base64urlEncode (d.hmacSha256 s.config.jwtSecret input), input, true⟩ = true := by
  rw [JWTSession.verifyHmacSignature, if_neg (by simpa using hs)]
  simp only [CryptoBridge.askHmacSha256, if_true, foldl_xor_self]
  simp

theorem headerJson_ne_nil (cfg : SessionConfig) (e : Issuing) (sub : ByteString) :
    cfg.headerJson e sub ≠ [] := by
  have hlit : lit "\x7b\"alg\":\"" ≠ [] := by decide
  simp [SessionConfig.headerJson, hlit]

theorem payloadJson_ne_nil (cfg : SessionConfig) (e : Issuing) (sub : ByteString)
    (aud : List ByteString) : cfg.payloadJson e sub aud ≠ [] := by
  simp [payloadJson_eq]

/-- A token is judged by the claims read back from its payload, unless it is too long. -/
theorem validateToken_issued (hd : d.Sized) (hs : s.config.jwtSecret ≠ []) (he : e.up = true)
    (hc : c.up = true) : s.validateToken d c (s.createToken d e sub aud) =
      if (s.createToken d e sub aud).length ≤ 8192
      then s.judge c (readClaims (s.config.payloadJson e sub aud)) else .error .structural := by
  have hheader := headerJson_ne_nil s.config e sub
  have hpayload := payloadJson_ne_nil s.config e sub aud
  have hsig (input : ByteString) : d.hmacSha256 s.config.jwtSecret input ≠ [] :=
    List.ne_nil_of_length_pos (by simp [hd s.config.jwtSecret input])
  have htoken : s.createToken d e sub aud = base64urlEncode (s.config.headerJson e sub) ++
      dot :: (base64urlEncode (s.config.payloadJson e sub aud) ++ dot :: base64urlEncode
        (d.hmacSha256 s.config.jwtSecret (base64urlEncode (s.config.headerJson e sub) ++
          dot :: base64urlEncode (s.config.payloadJson e sub aud)))) := by
    simp [JWTSession.createToken, CryptoBridge.askHmacSha256, he]
  rw [JWTSession.validateToken, htoken, validateJwtStructure_segments hheader hpayload (hsig _),
    splitJwt_segments hheader hpayload (hsig _)]
  simp only [hc, verifyHmacSignature_issued hs, decode_encode, Bool.not_true, Bool.not_eq_true',
    decide_eq_false_iff_not, Bool.false_eq_true, if_false, List.isEmpty_iff, hpayload, ite_not]

@[simp] theorem audited_sub : (p.audited c).sub = p.sub := rfl

@[simp] theorem audited_aud : (p.audited c).aud = p.aud := rfl

@[simp] theorem audited_iat : (p.audited c).iat = p.iat := rfl

@[simp] theorem audited_exp : (p.audited c).exp = p.exp := rfl

@[simp] theorem audited_jti : (p.audited c).jti = p.jti := rfl

theorem judge_ok : s.judge c p = .ok p' ↔
    p.isAudienceAllowed s.config.allowedAudiences = true ∧ c.now < p.exp ∧
      (!p.jti.isEmpty && s.isRevoked p.jti) = false ∧ p.audited c = p' := by
  unfold JWTSession.judge
  split_ifs with haud hexp hrev
  · simp_all
  · simp_all
  · simp_all
  · simp_all

theorem length_createToken (hd : d.Sized) (he : e.up = true) :
    (s.createToken d e sub aud).length = (4 * (s.config.headerJson e sub).length + 2) / 3 +
      (4 * (s.config.payloadJson e sub aud).length + 2) / 3 + 45 := by
  simp only [JWTSession.createToken, CryptoBridge.askHmacSha256, he, if_true, List.length_append,
    List.length_cons, length_encode, hd s.config.jwtSecret]
  omega

theorem length_decimal_pos (n : Nat) : 1 ≤ (decimal n).length :=
  List.length_pos_iff.mpr (digits_ne_nil 10 n)

theorem length_decimal_of_lt {n : Nat} (h : n < 10) : (decimal n).length = 1 := by
  rw [decimal, digits_eq 10 n (by decide), if_pos h]
  rfl

theorem length_generateJti : e.generateJti.length = 46 + (decimal e.jtiNow.toNat).length := by
  have h₁ : (lit "cerberus_jti_").length = 13 := by decide
  have h₂ : (lit "_").length = 1 := by decide
  simp only [Issuing.generateJti, List.length_append, List.length_ofFn, h₁, h₂]

theorem length_createToken_le (s₀ : JWTSession) (e₀ : Issuing) (sub : ByteString)
    (aud : List ByteString) (hd : d.Sized) (he₀ : e₀.up = true) (he : e.up = true)
    (hpqc : s₀.config.requirePqc = false) (hnow : e₀.now.toNat < 10)
    (hexp : (s₀.config.expiry e₀.now).toNat < 10) (hjti : e₀.jtiNow.toNat < 10) :
    (s₀.createToken d e₀ sub aud).length ≤ (s.createToken d e sub aud).length := by
  have hnow' := length_decimal_pos e.now.toNat
  have hexp' := length_decimal_pos (s.config.expiry e.now).toNat
  have hjti' := length_decimal_pos e.jtiNow.toNat
  have halg : (lit "HS256").length ≤
      (if s.config.requirePqc then lit "PQC-DILITHIUM-5" else lit "HS256").length := by
    split <;> decide
  have hheader : (s₀.config.headerJson e₀ sub).length ≤ (s.config.headerJson e sub).length := by
    simp only [SessionConfig.headerJson, hpqc, List.length_append, length_decimal_of_lt hnow,
      length_decimal_of_lt hexp, Bool.false_eq_true, if_false]
    omega
  have hpayload : (s₀.config.payloadJson e₀ sub aud).length ≤
      (s.config.payloadJson e sub aud).length := by
    simp only [SessionConfig.payloadJson, List.length_append, length_decimal_of_lt hnow,
      length_decimal_of_lt hexp, length_generateJti, length_decimal_of_lt hjti]
    omega
  rw [length_createToken hd he₀, length_createToken hd he]
  gcongr

end Cerberus.Jwt
