import Cerberus.Jwt.Tokens

namespace Cerberus.Jwt

open Foundation.Bytes Foundation.Base64 Foundation.Scan Security

/-- The audiences that a token may name: those that were asked for, and those that
`create_token` adds. -/
def Granted (aud : List ByteString) (a : ByteString) : Prop :=
  a ∈ aud ∨ a = lit "psiforcedb" ∨ aud = [] ∧ a = lit "cerberus"

/-- The payload says what `create_token` was asked for. -/
structure Genuine (cfg : SessionConfig) (e : Issuing) (sub : ByteString) (aud : List ByteString)
    (p : JWTPayload) : Prop where
  exp : p.exp = cfg.expiry e.now
  jti : p.jti = e.generateJti
  sub : p.sub = sub
  aud : ∀ a ∈ p.aud, Granted aud a

/-- Whatever the session, the clocks and the random digits: if the token for the subject and the
audiences is accepted, its payload is genuine. -/
def Unforgeable (d : CryptoBridge) (sub : ByteString) (aud : List ByteString) : Prop :=
  ∀ (s : JWTSession) (e : Issuing) (c : Checking) (p : JWTPayload), s.config.jwtSecret ≠ [] →
    e.up = true → c.up = true → s.validateToken d c (s.createToken d e sub aud) = .ok p →
    Genuine s.config e sub aud p

def Oversized (d : CryptoBridge) (sub : ByteString) (aud : List ByteString) : Prop :=
  ∀ (s : JWTSession) (e : Issuing), e.up = true → 8192 < (s.createToken d e sub aud).length

/-- The subject or the audiences have the key `exp`, and no number but zero behind the next
colon: every token for them has expired. -/
def Stillborn (sub : ByteString) (aud : List ByteString) : Prop :=
  (after (key "exp") (opening sub aud)).bind numberValue = some 0

/-- Nothing in the subject and the audiences is taken for a key or a delimiter. -/
structure Plain (sub : ByteString) (aud : List ByteString) : Prop where
  subject : 34 ∉ sub
  expiry : ¬ key "exp" <:+: opening sub aud
  identifier : ¬ key "jti" <:+: opening sub aud
  audiences : ∀ a ∈ quotedStrings none ((34 :: audienceText aud).takeWhile (· ≠ 93)), Granted aud a

variable {d : CryptoBridge} {s : JWTSession} {e : Issuing} {c : Checking} {sub : ByteString}
  {aud : List ByteString} {p : JWTPayload}

theorem read_of_accepted (hd : d.Sized) (hs : s.config.jwtSecret ≠ []) (he : e.up = true)
    (hc : c.up = true) (h : s.validateToken d c (s.createToken d e sub aud) = .ok p) :
    (s.createToken d e sub aud).length ≤ 8192 ∧
      c.now < (readClaims (s.config.payloadJson e sub aud)).exp ∧
      (readClaims (s.config.payloadJson e sub aud)).audited c = p := by
  rw [validateToken_issued hd hs he hc] at h
  split at h
  · next hlen =>
    obtain ⟨-, hexp, -, hp⟩ := judge_ok.mp h
    exact ⟨hlen, hexp, hp⟩
  · cases h

theorem after_eq_none_of_absent {n : String} (h : ¬ key n <:+: opening sub aud) :
    after (key n) (opening sub aud) = none :=
  (after_eq_none (by simp [key, quoted])).mpr h

theorem takeWhile_quote_eq_self : sub.takeWhile (· ≠ 34) = sub ↔ 34 ∉ sub := by
  rw [List.takeWhile_eq_self_iff]
  constructor
  · intro h hmem
    simpa using h 34 hmem
  · intro h b hb
    simpa using (fun he ↦ h (he ▸ hb) : b ≠ 34)

theorem Plain.genuine (h : Plain sub aud) (cfg : SessionConfig) (e : Issuing) (c : Checking) :
    Genuine cfg e sub aud ((readClaims (cfg.payloadJson e sub aud)).audited c) := by
  constructor
  · rw [audited_exp]
    exact read_exp_of_none (after_eq_none_of_absent h.expiry)
  · rw [audited_jti]
    exact read_jti_of_none (after_eq_none_of_absent h.identifier)
  · rw [audited_sub, read_sub]
    exact takeWhile_quote_eq_self.mpr h.subject
  · rw [audited_aud, read_aud, extractAudiences_opening h.subject]
    exact h.audiences

theorem Stillborn.exp_eq_zero (h : Stillborn sub aud) (cfg : SessionConfig) (e : Issuing) :
    (readClaims (cfg.payloadJson e sub aud)).exp = 0 := by
  obtain ⟨q, hq, hzero⟩ := Option.bind_eq_some_iff.mp h
  rw [read_exp_of_some hq, hzero]
  rfl

def openSession (lifetime : Int64) : JWTSession where
  config := { jwtSecret := [0], tokenLifetime := lifetime, allowedAudiences := [] }

theorem openSession_secret (lifetime : Int64) : (openSession lifetime).config.jwtSecret ≠ [] := by
  simp [openSession]

/-- If they are unforgeable and a token can be short, then the shortest tokens are genuine. -/
theorem Unforgeable.probe (hd : d.Sized) (h : Unforgeable d sub aud) (hfits : ¬ Oversized d sub aud)
    (lifetime : Int64) (now : UInt64) (hnow : now.toNat < 10)
    (hexp : ((openSession lifetime).config.expiry now).toNat < 10) (nonce : Fin 32 → Fin 16)
    (hlive : 0 < (readClaims ((openSession lifetime).config.payloadJson
      { now := now, nonce := nonce } sub aud)).exp) :
    Genuine (openSession lifetime).config { now := now, nonce := nonce } sub aud
      ((readClaims ((openSession lifetime).config.payloadJson
        { now := now, nonce := nonce } sub aud)).audited {}) := by
  obtain ⟨s', e', he', hlen⟩ : ∃ (s' : JWTSession) (e' : Issuing), e'.up = true ∧
      (s'.createToken d e' sub aud).length ≤ 8192 := by
    simpa [Oversized] using hfits
  have hshort := (length_createToken_le (openSession lifetime) { now := now, nonce := nonce } sub
    aud hd rfl he' rfl hnow hexp (by simp)).trans hlen
  apply h (openSession lifetime) _ {} _ (openSession_secret lifetime) rfl rfl
  rw [validateToken_issued hd (openSession_secret lifetime) rfl rfl, if_pos hshort]
  refine judge_ok.mpr ⟨rfl, hlive, ?_, rfl⟩
  simp [JWTSession.isRevoked, openSession]

theorem generateJti_ne : ({ nonce := fun _ ↦ 0 } : Issuing).generateJti ≠
    ({ nonce := fun _ ↦ 1 } : Issuing).generateJti := by
  decide

/-- Where the key `exp` is found too early, another number is read as the expiry: the time of
issue if no colon follows, else the number behind the colon, whatever the lifetime. -/
theorem Unforgeable.no_exp (hd : d.Sized) (h : Unforgeable d sub aud)
    (hfits : ¬ Oversized d sub aud) (hborn : ¬ Stillborn sub aud) :
    after (key "exp") (opening sub aud) = none := by
  by_contra hsome
  obtain ⟨q, hexp⟩ := Option.ne_none_iff_exists'.mp hsome
  cases hnumber : numberValue q with
  | none =>
    have hread : (readClaims ((openSession 1).config.payloadJson
        { now := 5, nonce := fun _ ↦ 0 } sub aud)).exp = 5 := by
      rw [read_exp_of_some hexp, hnumber]
      rfl
    have hwrong := (h.probe hd hfits 1 5 (by decide) (by decide)
      (fun _ ↦ 0) (by rw [hread]; decide)).exp
    rw [audited_exp, hread] at hwrong
    exact absurd hwrong (by decide)
  | some v =>
    have hread (lifetime : Int64) : (readClaims ((openSession lifetime).config.payloadJson
        { now := 0, nonce := fun _ ↦ 0 } sub aud)).exp = v := by
      rw [read_exp_of_some hexp, hnumber]
      rfl
    have hne : v ≠ 0 := by
      rintro rfl
      exact hborn (by rw [Stillborn, hexp, Option.bind_some, hnumber])
    have hpos : 0 < v := UInt64.pos_iff_ne_zero.mpr hne
    have hone := (h.probe hd hfits 1 0 (by decide) (by decide)
      (fun _ ↦ 0) (by rw [hread]; exact hpos)).exp
    have htwo := (h.probe hd hfits 2 0 (by decide) (by decide)
      (fun _ ↦ 0) (by rw [hread]; exact hpos)).exp
    rw [audited_exp, hread] at hone htwo
    exact absurd (hone.symm.trans htwo) (by decide)

theorem Unforgeable.plain (hd : d.Sized) (h : Unforgeable d sub aud)
    (hfits : ¬ Oversized d sub aud) (hborn : ¬ Stillborn sub aud) : Plain sub aud := by
  have hexp := h.no_exp hd hfits hborn
  have hlive : 0 < (openSession 1).config.expiry 0 := by decide
  have hgenuine (nonce : Fin 32 → Fin 16) := h.probe hd hfits 1 0
    (by decide) (by decide) nonce (by rw [read_exp_of_none hexp]; exact hlive)
  have hsub : 34 ∉ sub := by
    have hread := (hgenuine (fun _ ↦ 0)).sub
    rwa [audited_sub, read_sub, takeWhile_quote_eq_self] at hread
  refine ⟨hsub, (after_eq_none (by simp [key, quoted])).mp hexp, ?_, ?_⟩
  · -- A string found too early is the same for all random digits.
    intro hinfix
    cases hjti : after (key "jti") (opening sub aud) with
    | none => exact (after_eq_none (by simp [key, quoted])).mp hjti hinfix
    | some q =>
      obtain ⟨x, hx⟩ := stringValue_append q
      have hread (nonce : Fin 32 → Fin 16) := (hgenuine nonce).jti
      simp only [audited_jti, read_jti_of_some hjti, hx, Option.getD_some] at hread
      exact generateJti_ne ((hread (fun _ ↦ 0)).symm.trans (hread (fun _ ↦ 1)))
  · have hread := (hgenuine (fun _ ↦ 0)).aud
    rwa [audited_aud, read_aud, extractAudiences_opening hsub] at hread

/-- A subject and a list of audiences cannot forge the claims of their own token exactly when
no token for them is short enough, or each has expired, or nothing in them is taken for a key or
a delimiter. -/
theorem unforgeable_iff (hd : d.Sized) :
    Unforgeable d sub aud ↔ Oversized d sub aud ∨ Stillborn sub aud ∨ Plain sub aud := by
  constructor
  · intro h
    by_cases hfits : Oversized d sub aud
    · exact .inl hfits
    by_cases hborn : Stillborn sub aud
    · exact .inr (.inl hborn)
    exact .inr (.inr (h.plain hd hfits hborn))
  · intro h s e c p hs he hc hok
    obtain ⟨hlen, hexp, rfl⟩ := read_of_accepted hd hs he hc hok
    rcases h with hlong | hborn | hplain
    · have := hlong s e he
      omega
    · rw [hborn.exp_eq_zero] at hexp
      exact absurd hexp (by simp)
    · exact hplain.genuine s.config e c

def sampleBridge : CryptoBridge where
  sha256 data := (data ++ List.replicate 32 0).take 32
  hmacSha256 key message := (key ++ message ++ List.replicate 32 0).take 32

theorem sampleBridge_sized : sampleBridge.Sized := by
  intro key message
  rw [sampleBridge, List.length_take, List.length_append, List.length_replicate]
  omega

theorem unforgeable_iff_alice :
    Unforgeable sampleBridge (lit "alice") [lit "cerberus", lit "admin"] := by
  refine (unforgeable_iff sampleBridge_sized).mpr (.inr (.inr ⟨?_, ?_, ?_, ?_⟩))
  · decide
  · decide +kernel
  · decide +kernel
  · unfold Granted
    decide +kernel

def sampleSession : JWTSession where
  config := { jwtSecret := lit "secret" }

/-- A subject that brings its own expiry: it is read up to its first quote, and the token is
valid for three thousand years. -/
theorem subject_forges_expiry : ∃ p,
    sampleSession.validateToken sampleBridge { now := 1800000000 }
        (sampleSession.createToken sampleBridge { now := 1700000000 }
          (lit "bob\",\"exp\":99999999999,\"kid\":\"x") [lit "cerberus"]) = .ok p ∧
      p.sub = lit "bob" ∧ p.exp = 99999999999 ∧
      sampleSession.config.expiry 1700000000 = 1700086400 ∧
      ¬ Genuine sampleSession.config { now := 1700000000 }
        (lit "bob\",\"exp\":99999999999,\"kid\":\"x") [lit "cerberus"] p := by
  have hread : (sampleSession.validateToken sampleBridge { now := 1800000000 }
      (sampleSession.createToken sampleBridge { now := 1700000000 }
        (lit "bob\",\"exp\":99999999999,\"kid\":\"x") [lit "cerberus"])).toOption.map
      (fun p ↦ (p.sub, p.exp)) = some (lit "bob", 99999999999) := by
    decide +kernel
  have hexpiry : sampleSession.config.expiry 1700000000 = 1700086400 := by decide
  generalize sampleSession.validateToken sampleBridge _ _ = answer at hread ⊢
  cases answer with
  | error err => cases hread
  | ok p =>
    obtain ⟨hsub, hexp⟩ : p.sub = lit "bob" ∧ p.exp = 99999999999 := by
      simpa [Except.toOption] using hread
    refine ⟨p, rfl, hsub, hexp, hexpiry, fun hg ↦ ?_⟩
    have hwrong := hexp.symm.trans hg.exp
    rw [hexpiry] at hwrong
    exact absurd hwrong (by decide)

end Cerberus.Jwt
