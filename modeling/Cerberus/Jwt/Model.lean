import Cerberus.Foundation.Base64
import Cerberus.Foundation.Scan
import Cerberus.Foundation.Wire
import Cerberus.Security.CryptoBridge

namespace Cerberus.Jwt

open Std Foundation.Bytes Foundation.Base64 Foundation.Scan Foundation.Wire Security

structure SessionConfig where
  jwtSecret : ByteString := []
  tokenLifetime : Int64 := 86400
  requirePqc : Bool := false
  allowedAudiences : List ByteString := [lit "cerberus", lit "psiforcedb"]

structure JWTSession where
  config : SessionConfig := {}
  revokedJtis : Dict Int := ∅

structure JWTPayload where
  sub : ByteString
  iss : ByteString
  aud : List ByteString
  iat : UInt64
  exp : UInt64
  jti : ByteString
  claims : Dict ByteString := ∅
  deriving DecidableEq

def JWTPayload.isAudienceAllowed (p : JWTPayload) (allowed : List ByteString) : Bool :=
  allowed.isEmpty || p.aud.any (fun a ↦ allowed.contains a)

def key (name : String) : ByteString := quoted 34 (lit name)

/-- From the first quote after the next colon to the quote after that. -/
def stringValue (rest : ByteString) : Option ByteString := do
  let (_, rest) ← cut 58 rest
  let (_, rest) ← cut 34 rest
  let (value, _) ← cut 34 rest
  pure value

def extractJsonStringValue (json : ByteString) (name : String) : ByteString :=
  ((after (key name) json).bind stringValue).getD []

def leadingU64 (s : ByteString) : UInt64 :=
  ((s.dropWhile isSpace).takeWhile isDigit).foldl (fun v b ↦ v * 10 + (b - 48).toUInt64) 0

def numberValue (rest : ByteString) : Option UInt64 := (cut 58 rest).map (fun e ↦ leadingU64 e.2)

def extractJsonU64 (json : ByteString) (name : String) : UInt64 :=
  ((after (key name) json).bind numberValue).getD 0

/-- The strings between quotes that are not empty; the first argument is the part of a string
whose closing quote is still to come. -/
def quotedStrings : Option ByteString → ByteString → List ByteString
  | _, [] => []
  | none, b :: body => quotedStrings (if b = 34 then some [] else none) body
  | some tok, b :: body =>
    if b = 34 then (if tok.isEmpty then [] else [tok]) ++ quotedStrings none body
    else quotedStrings (some (tok ++ [b])) body

def bracketed (rest : ByteString) : Option ByteString := do
  let (_, rest) ← cut 91 rest
  let (body, _) ← cut 93 rest
  pure body

/-- The strings in the first brackets behind the first occurrence of the key `aud`. -/
def extractAudiences (json : ByteString) : List ByteString :=
  (((after (key "aud") json).bind bracketed).map (quotedStrings none)).getD []

/-- What `create_token` meets: its two readings of the clock, the random digits of the jti, and
whether the crypto library is there. -/
structure Issuing where
  now : UInt64 := 0
  nonce : Fin 32 → Fin 16 := fun _ ↦ 0
  jtiNow : UInt64 := 0
  up : Bool := true

def hexDigit (v : Fin 16) : UInt8 :=
  if v.val < 10 then 48 + v.val.toUInt8 else 97 + (v.val - 10).toUInt8

def Issuing.generateJti (e : Issuing) : ByteString :=
  lit "cerberus_jti_" ++ List.ofFn (fun i ↦ hexDigit (e.nonce i)) ++ lit "_" ++
    decimal e.jtiNow.toNat

/-- The sum is taken in 64 bits. -/
def SessionConfig.expiry (cfg : SessionConfig) (now : UInt64) : UInt64 :=
  now + cfg.tokenLifetime.toUInt64

def SessionConfig.headerJson (cfg : SessionConfig) (e : Issuing) (sub : ByteString) :
    ByteString :=
  lit "\x7b\"alg\":\"" ++ (if cfg.requirePqc then lit "PQC-DILITHIUM-5" else lit "HS256") ++
    lit "\",\"typ\":\"JWT\",\"kid\":\"" ++ sub ++ lit "_key\",\"iat\":" ++
    decimal e.now.toNat ++ lit ",\"exp\":" ++ decimal (cfg.expiry e.now).toNat ++ lit "\x7d"

def audienceText (aud : List ByteString) : ByteString :=
  if aud.isEmpty then lit "cerberus\",\"psiforcedb\""
  else
    (lit "\",\"").intercalate aud ++ lit "\"" ++
      (if aud.contains (lit "psiforcedb") then [] else lit ",\"psiforcedb\"")

def SessionConfig.payloadJson (cfg : SessionConfig) (e : Issuing) (sub : ByteString)
    (aud : List ByteString) : ByteString :=
  lit "\x7b\"sub\":\"" ++ sub ++ lit "\",\"iss\":\"cerberus\",\"aud\":[\"" ++ audienceText aud ++
    lit "],\"iat\":" ++ decimal e.now.toNat ++ lit ",\"exp\":" ++
    decimal (cfg.expiry e.now).toNat ++ lit ",\"jti\":\"" ++ e.generateJti ++
    lit "\",\"offline_capable\":true,\"mode\":\"local\"\x7d"

def dot : UInt8 := 46

def JWTSession.createToken (d : CryptoBridge) (s : JWTSession) (e : Issuing) (sub : ByteString)
    (aud : List ByteString) : ByteString :=
  let encodedHeader := base64urlEncode (s.config.headerJson e sub)
  let encodedPayload := base64urlEncode (s.config.payloadJson e sub aud)
  let signingInput := encodedHeader ++ dot :: encodedPayload
  let sig := d.askHmacSha256 e.up s.config.jwtSecret signingInput
  signingInput ++ dot :: base64urlEncode sig

structure JWTParts where
  encodedHeader : ByteString := []
  encodedPayload : ByteString := []
  encodedSignature : ByteString := []
  signingInput : ByteString := []
  complete : Bool := false

def splitJwt (jwt : ByteString) : JWTParts :=
  match cut dot jwt with
  | none => {}
  | some (header, rest) =>
    match cut dot rest with
    | none => {}
    | some (payload, signature) =>
      if dot ∈ signature then {}
      else
        { encodedHeader := header, encodedPayload := payload, encodedSignature := signature
          signingInput := header ++ dot :: payload
          complete := !header.isEmpty && !payload.isEmpty && !signature.isEmpty }

/-- Not empty and not too long, exactly two dots, no empty segment, and no other letters. -/
def validateJwtStructure (jwt : ByteString) : Bool :=
  !jwt.isEmpty && jwt.length ≤ 8192 && jwt.count dot == 2 &&
    (match cut dot jwt with
      | none => false
      | some (header, rest) => !header.isEmpty &&
        match cut dot rest with
        | none => false
        | some (payload, signature) => !payload.isEmpty && !signature.isEmpty) &&
    jwt.all (fun c ↦ c == dot || isBase64urlChar c)

/-- The comparison looks at every byte. -/
def JWTSession.verifyHmacSignature (d : CryptoBridge) (s : JWTSession) (up : Bool)
    (parts : JWTParts) : Bool :=
  if s.config.jwtSecret.isEmpty then false
  else
    let expected := base64urlEncode (d.askHmacSha256 up s.config.jwtSecret parts.signingInput)
    if parts.encodedSignature.length ≠ expected.length then false
    else
      (List.zipWith (· ^^^ ·) parts.encodedSignature expected).foldl (· ||| ·) 0 == 0

inductive JWTError
  | structural
  | segments
  | signature
  | payloadDecode
  | audience
  | expired
  | revoked
  deriving DecidableEq

def JWTError.text : JWTError → ByteString
  | .structural => lit "JWT structural validation failed: malformed or oversized token"
  | .segments => lit "JWT segment parsing failed"
  | .signature => lit "JWT signature verification failed: tampered or forged token"
  | .payloadDecode => lit "JWT payload decode failed"
  | .audience => lit "JWT audience rejected: token not scoped for this service"
  | .expired => lit "JWT expired"
  | .revoked => lit "JWT revoked"

def readClaims (json : ByteString) : JWTPayload where
  sub := extractJsonStringValue json "sub"
  iss := extractJsonStringValue json "iss"
  aud := extractAudiences json
  iat := extractJsonU64 json "iat"
  exp := extractJsonU64 json "exp"
  jti := extractJsonStringValue json "jti"

/-- What `validate_token` meets: whether the crypto library is there, and its readings of the
clock, for the expiry and for the claim `validation_at`. -/
structure Checking where
  up : Bool := true
  now : UInt64 := 0
  doneAt : UInt64 := 0

def JWTSession.isRevoked (s : JWTSession) (jti : ByteString) : Bool := s.revokedJtis.contains jti

def JWTPayload.audited (p : JWTPayload) (c : Checking) : JWTPayload :=
  let claims := p.claims.insert (lit "validation_result") (lit "success")
  { p with claims := claims.insert (lit "validation_at") (decimal c.doneAt.toNat) }

def JWTSession.judge (s : JWTSession) (c : Checking) (p : JWTPayload) :
    Except JWTError JWTPayload :=
  if !p.isAudienceAllowed s.config.allowedAudiences then .error .audience
  else if p.exp ≤ c.now then .error .expired
  else if !p.jti.isEmpty && s.isRevoked p.jti then .error .revoked
  else .ok (p.audited c)

def JWTSession.validateToken (d : CryptoBridge) (s : JWTSession) (c : Checking)
    (jwt : ByteString) : Except JWTError JWTPayload :=
  if !validateJwtStructure jwt then .error .structural
  else
    let parts := splitJwt jwt
    if !parts.complete then .error .segments
    else if !s.verifyHmacSignature d c.up parts then .error .signature
    else
      let payloadBytes := base64urlDecode parts.encodedPayload
      if payloadBytes.isEmpty then .error .payloadDecode
      else s.judge c (readClaims payloadBytes)

end Cerberus.Jwt
