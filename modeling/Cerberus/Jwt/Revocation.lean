import Cerberus.Foundation.FiniteMap
import Cerberus.Foundation.Trace
import Cerberus.Jwt.RoundTrip

namespace Cerberus.Jwt

open Foundation.Bytes Foundation.Base64 Foundation.FiniteMap Foundation.Scan Foundation.Trace Security

def JWTSession.invalidateToken (s : JWTSession) (now : Int) (jti : ByteString) : JWTSession :=
  if jti.isEmpty then s else { s with revokedJtis := s.revokedJtis.insert jti now }

inductive RefreshError
  | rejected (err : JWTError)
  | missingJti
  deriving DecidableEq

def RefreshError.text : RefreshError → ByteString
  | .rejected err => err.text
  | .missingJti => lit "JWT missing jti — cannot refresh anonymous token"

def JWTSession.refreshToken (d : CryptoBridge) (s : JWTSession) (c : Checking) (e : Issuing)
    (now : Int) (jwt : ByteString) :
    JWTSession × Except RefreshError (ByteString × ByteString) :=
  match s.validateToken d c jwt with
  | .error err => (s, .error (.rejected err))
  | .ok p =>
    if p.jti.isEmpty then (s, .error .missingJti)
    else (s.invalidateToken now p.jti, .ok (s.createToken d e p.sub p.aud, p.jti))

inductive Call
  | createToken (e : Issuing) (sub : ByteString) (aud : List ByteString)
  | validateToken (c : Checking) (jwt : ByteString)
  | refreshToken (c : Checking) (e : Issuing) (now : Int) (jwt : ByteString)
  | invalidateToken (now : Int) (jti : ByteString)

def JWTSession.serve (d : CryptoBridge) (s : JWTSession) : Call → JWTSession
  | .createToken _ _ _ => s
  | .validateToken _ _ => s
  | .refreshToken c e now jwt => (s.refreshToken d c e now jwt).1
  | .invalidateToken now jti => s.invalidateToken now jti

def Serves (d : CryptoBridge) (s : JWTSession) (call : Call) (s' : JWTSession) : Prop :=
  s' = s.serve d call

inductive Issues (d : CryptoBridge) : JWTSession × Call → ByteString → ByteString → Prop
  | create (s : JWTSession) (e : Issuing) (sub : ByteString) (aud : List ByteString) :
      Issues d (s, .createToken e sub aud) (s.createToken d e sub aud) e.generateJti
  | refresh {s : JWTSession} {c : Checking} {e : Issuing} {now : Int} {jwt : ByteString}
      {p : JWTPayload} : s.validateToken d c jwt = .ok p → p.jti ≠ [] →
      Issues d (s, .refreshToken c e now jwt) (s.createToken d e p.sub p.aud) e.generateJti

inductive Refreshes (d : CryptoBridge) : JWTSession × Call → ByteString → Prop
  | accepted {s : JWTSession} {c : Checking} {e : Issuing} {now : Int} {jwt : ByteString}
      {p : JWTPayload} : s.validateToken d c jwt = .ok p → p.jti ≠ [] →
      Refreshes d (s, .refreshToken c e now jwt) jwt

def Invalidates (x : JWTSession × Call) (jti : ByteString) : Prop :=
  ∃ now, x.2 = .invalidateToken now jti

/-- What revocation does and does not do: a token that was refreshed is not accepted again, and
one that was not, and whose generated identifier was not invalidated, is not rejected as
revoked. -/
structure Exact (d : CryptoBridge) (tr : List (JWTSession × Call)) (u : JWTSession) : Prop where
  refreshed : ∀ x ∈ tr, ∀ t, Refreshes d x t → ∀ c p, u.validateToken d c t ≠ .ok p
  spared : ∀ x ∈ tr, ∀ t jti, Issues d x t jti → (∀ y ∈ tr, ¬ Refreshes d y t) →
    (∀ y ∈ tr, ¬ Invalidates y jti) → ∀ c, u.validateToken d c t ≠ .error .revoked

/-- No two calls that hand out tokens generate the same identifier. -/
def Distinct (d : CryptoBridge) (tr : List (JWTSession × Call)) : Prop :=
  tr.Pairwise (fun x y ↦ ∀ t t' jti, Issues d x t jti → ¬ Issues d y t' jti)

/-- Signatures cannot be forged: a token that a refresh accepts was handed out before. -/
def Authentic (d : CryptoBridge) (tr : List (JWTSession × Call)) : Prop :=
  ∀ pre x post, tr = pre ++ x :: post → ∀ t, Refreshes d x t → ∃ y ∈ pre, ∃ jti, Issues d y t jti

/-- The call puts no key `jti` before the one of the payload. -/
def Unambiguous : Call → Prop
  | .createToken _ sub aud => ¬ key "jti" <:+: opening sub aud
  | _ => True

variable {d : CryptoBridge} {s u : JWTSession} {e : Issuing} {c : Checking} {p : JWTPayload}
  {sub t a body jti : ByteString} {aud : List ByteString} {call : Call}
  {x : JWTSession × Call} {tr : List (JWTSession × Call)}

def mark (t : ByteString) : ByteString :=
  (readClaims (base64urlDecode (splitJwt t).encodedPayload)).jti

theorem judge_revoked (h : s.judge c p = .error .revoked) :
    p.jti ≠ [] ∧ s.isRevoked p.jti = true := by
  unfold JWTSession.judge at h
  split_ifs at h with haud hexp hrev
  · cases h
  · cases h
  · simpa using hrev

theorem validateToken_cases :
    s.validateToken d c t =
        s.judge c (readClaims (base64urlDecode (splitJwt t).encodedPayload)) ∨
      ∃ err, err ≠ .revoked ∧ s.validateToken d c t = .error err := by
  unfold JWTSession.validateToken
  dsimp only
  split_ifs
  · exact .inr ⟨.structural, by decide, rfl⟩
  · exact .inr ⟨.segments, by decide, rfl⟩
  · exact .inr ⟨.signature, by decide, rfl⟩
  · exact .inr ⟨.payloadDecode, by decide, rfl⟩
  · exact .inl rfl

theorem validateToken_ok (h : s.validateToken d c t = .ok p) :
    s.judge c (readClaims (base64urlDecode (splitJwt t).encodedPayload)) = .ok p := by
  rcases validateToken_cases (d := d) (s := s) (c := c) (t := t) with hj | ⟨err, -, he⟩
  · rw [← hj, h]
  · rw [h] at he
    cases he

theorem validateToken_revoked (h : s.validateToken d c t = .error .revoked) :
    mark t ≠ [] ∧ s.isRevoked (mark t) = true := by
  rcases validateToken_cases (d := d) (s := s) (c := c) (t := t) with hj | ⟨err, hne, he⟩
  · exact judge_revoked (hj.symm.trans h)
  · rw [h] at he
    cases he
    exact absurd rfl hne

theorem jti_of_accepted (h : s.validateToken d c t = .ok p) : p.jti = mark t := by
  obtain ⟨-, -, -, rfl⟩ := judge_ok.mp (validateToken_ok h)
  rfl

theorem not_revoked_of_accepted (h : s.validateToken d c t = .ok p) (hne : mark t ≠ []) :
    s.isRevoked (mark t) = false := by
  obtain ⟨-, -, hrev, -⟩ := judge_ok.mp (validateToken_ok h)
  rw [mark] at hne ⊢
  simpa [hne] using hrev

theorem payload_createToken : base64urlDecode (splitJwt (s.createToken d e sub aud)).encodedPayload =
    s.config.payloadJson e sub aud := by
  simp [JWTSession.createToken, splitJwt, cut_append (dot_not_mem_encode _), dot_not_mem_encode,
    decode_encode]

theorem isRevoked_invalidateToken {now : Int} {j : ByteString} :
    (s.invalidateToken now jti).isRevoked j = true ↔
      s.isRevoked j = true ∨ jti ≠ [] ∧ j = jti := by
  unfold JWTSession.invalidateToken
  split
  · next h => simp_all
  · next h =>
    have hne : jti ≠ [] := by simpa using h
    simp only [JWTSession.isRevoked, Std.ExtTreeMap.contains_insert, Bool.or_eq_true, hne, ne_eq,
      not_false_eq_true, true_and, Std.compare_eq_iff_eq, beq_iff_eq]
    grind

theorem isRevoked_serve {j : ByteString} : (s.serve d call).isRevoked j = true ↔
    s.isRevoked j = true ∨
      j ≠ [] ∧ (Invalidates (s, call) j ∨ ∃ t, Refreshes d (s, call) t ∧ mark t = j) := by
  cases call with
  | createToken e sub aud =>
    have hno (t : ByteString) : ¬ Refreshes d (s, .createToken e sub aud) t := by
      intro h
      cases h
    simp [JWTSession.serve, Invalidates, hno]
  | validateToken c jwt =>
    have hno (t : ByteString) : ¬ Refreshes d (s, .validateToken c jwt) t := by
      intro h
      cases h
    simp [JWTSession.serve, Invalidates, hno]
  | invalidateToken now jti =>
    have hno (t : ByteString) : ¬ Refreshes d (s, .invalidateToken now jti) t := by
      intro h
      cases h
    rw [JWTSession.serve, isRevoked_invalidateToken]
    simp only [Invalidates, Call.invalidateToken.injEq, hno]
    grind
  | refreshToken c e now jwt =>
    have hinv : ¬ Invalidates (s, .refreshToken c e now jwt) j := by
      rintro ⟨now', h⟩
      cases h
    simp only [JWTSession.serve, JWTSession.refreshToken, hinv, false_or]
    cases hv : s.validateToken d c jwt with
    | error err =>
      have hno (t : ByteString) : ¬ Refreshes d (s, .refreshToken c e now jwt) t := by
        intro h
        cases h with
        | accepted hok _ => simp [hv] at hok
      simp [hno]
    | ok p =>
      have hmark := jti_of_accepted hv
      by_cases hp : p.jti = []
      · have hno (t : ByteString) : ¬ Refreshes d (s, .refreshToken c e now jwt) t := by
          intro h
          cases h with
          | accepted hok hne =>
            rw [hv] at hok
            cases hok
            exact hne hp
        simp [hno, hp]
      · have hyes (t : ByteString) : Refreshes d (s, .refreshToken c e now jwt) t ↔ t = jwt := by
          constructor
          · intro h
            cases h
            rfl
          · rintro rfl
            exact .accepted hv hp
        simp only [List.isEmpty_iff, hp, if_false, isRevoked_invalidateToken, hyes]
        grind

theorem quoted_of_mem_quotedStrings (body : ByteString) :
    (∀ a ∈ quotedStrings none body, 34 ∉ a ∧ quoted 34 a <:+: body) ∧
    (∀ tok, 34 ∉ tok → ∀ a ∈ quotedStrings (some tok) body,
      34 ∉ a ∧ quoted 34 a <:+: 34 :: (tok ++ body)) := by
  induction body with
  | nil => simp [quotedStrings]
  | cons b body ih =>
    obtain ⟨hnone, hsome⟩ := ih
    constructor
    · intro a ha
      rw [quotedStrings] at ha
      split at ha
      · next hb =>
        obtain ⟨hq, hin⟩ := hsome [] (by simp) a ha
        exact ⟨hq, by simpa [hb] using hin⟩
      · obtain ⟨hq, hin⟩ := hnone a ha
        exact ⟨hq, hin.trans (List.infix_cons_iff.mpr (.inr List.infix_rfl))⟩
    · intro tok htok a ha
      rw [quotedStrings] at ha
      split at ha
      · next hb =>
        rcases List.mem_append.mp ha with ha | ha
        · split at ha
          · cases ha
          · rw [List.mem_singleton] at ha
            subst ha hb
            exact ⟨htok, [], body, by simp [quoted]⟩
        · obtain ⟨hq, hin⟩ := hnone a ha
          refine ⟨hq, hin.trans ⟨34 :: (tok ++ [b]), [], by simp⟩⟩
      · next hb =>
        have htok' : 34 ∉ tok ++ [b] := by
          simp only [List.mem_append, List.mem_singleton, not_or]
          exact ⟨htok, Ne.symm hb⟩
        obtain ⟨hq, hin⟩ := hsome (tok ++ [b]) htok' a ha
        exact ⟨hq, by simpa using hin⟩

theorem quoted_of_mem_extractAudiences (h : a ∈ extractAudiences t) :
    34 ∉ a ∧ quoted 34 a <:+: t := by
  unfold extractAudiences at h
  cases haud : after (key "aud") t with
  | none => simp [haud] at h
  | some rest =>
    cases hbody : bracketed rest with
    | none => simp [haud, hbody] at h
    | some body =>
      obtain ⟨⟨y, r⟩, hopen, ⟨z, r'⟩, hclose, he⟩ : ∃ e, cut 91 rest = some e ∧
          ∃ e', cut 93 e.2 = some e' ∧ e'.1 = body := by
        simpa [bracketed, Option.bind_eq_some_iff] using hbody
      subst he
      obtain ⟨hq, hin⟩ := (quoted_of_mem_quotedStrings z).1 a (by simpa [haud, hbody] using h)
      have hrest : z <:+: rest := by
        have hr : r = z ++ 93 :: r' := cut_eq_some hclose
        rw [cut_eq_some hopen, hr]
        exact ⟨y ++ [91], 93 :: r', by simp⟩
      exact ⟨hq, (hin.trans hrest).trans (suffix_of_after haud).isInfix⟩

theorem quoted_subject (sub : ByteString) (aud : List ByteString) :
    quoted 34 (sub.takeWhile (· ≠ 34)) <:+: opening sub aud := by
  have hopen : lit "\x7b\"sub\":\"" = lit "\x7b\"sub\":" ++ [34] := by decide
  have hclose : lit "\",\"iss\":\"cerberus\",\"aud\":[\"" =
    34 :: lit ",\"iss\":\"cerberus\",\"aud\":[\"" := by decide
  obtain ⟨q, hq⟩ := cut_takeWhile (c := 34) sub
    (lit ",\"iss\":\"cerberus\",\"aud\":[\"" ++ (audienceText aud ++ lit "]"))
  refine ⟨lit "\x7b\"sub\":", q, ?_⟩
  rw [opening, hopen, hclose]
  have hsplit := cut_eq_some hq
  simp only [List.append_assoc, List.cons_append, List.nil_append] at hsplit ⊢
  rw [hsplit]
  simp [quoted]

theorem no_key_of_plain (hsub : 34 ∉ sub) (hne : sub ≠ lit "jti")
    (haud : ∀ a ∈ aud, 34 ∉ a ∧ a ≠ lit "jti") : ¬ key "jti" <:+: opening sub aud := by
  rw [← after_eq_none (by simp [key, quoted])]
  by_cases hnil : aud = []
  · obtain ⟨h₁, h₂, h₃, -, h₅, -, h₇, hkeys⟩ := late_jti.letters
    rw [hnil, after_opening hsub h₁ h₂ h₃ hkeys, if_neg (Ne.symm hne), if_neg h₇]
    decide
  · exact after_of_not_mem late_jti hsub (Ne.symm hne) hnil (fun a ha ↦ (haud a ha).1)
      (fun hm ↦ (haud _ hm).2 rfl)

theorem no_key_of_read {cfg : SessionConfig} (h : ¬ key "jti" <:+: opening sub aud) :
    ¬ key "jti" <:+: opening (readClaims (cfg.payloadJson e sub aud)).sub
      (readClaims (cfg.payloadJson e sub aud)).aud := by
  rw [read_sub, read_aud]
  apply no_key_of_plain
  · intro hm
    simpa using List.mem_takeWhile_imp hm
  · intro he
    have hin := quoted_subject sub aud
    rw [he] at hin
    exact h hin
  · intro a ha
    obtain ⟨hq, hin⟩ := quoted_of_mem_extractAudiences ha
    refine ⟨hq, ?_⟩
    rintro rfl
    exact h hin

/-- A token was made for a subject and audiences that do not bring in the key. -/
def Clean (d : CryptoBridge) (t jti : ByteString) : Prop :=
  ∃ (s : JWTSession) (e : Issuing) (sub : ByteString) (aud : List ByteString),
    t = s.createToken d e sub aud ∧ jti = e.generateJti ∧ ¬ key "jti" <:+: opening sub aud

theorem Clean.mark_eq (h : Clean d t jti) : mark t = jti := by
  obtain ⟨s, e, sub, aud, rfl, rfl, hkey⟩ := h
  rw [mark, payload_createToken]
  exact read_jti_of_none (after_eq_none_of_absent hkey)

/-- Every token of a run is clean: a refreshed one because the token before it was. -/
theorem clean_of_issues (ha : Authentic d tr) (hok : ∀ x ∈ tr, Unambiguous x.2)
    {pre post : List (JWTSession × Call)} (hsplit : tr = pre ++ x :: post)
    (hi : Issues d x t jti) : Clean d t jti := by
  induction hn : pre.length using Nat.strong_induction_on generalizing pre x post t jti with
  | _ n ih =>
    cases hi with
    | create s e sub aud =>
      have hkey := hok (s, .createToken e sub aud) (by rw [hsplit]; simp)
      exact ⟨s, e, sub, aud, rfl, rfl, hkey⟩
    | @refresh s c e now jwt p hv hne =>
      obtain ⟨y, hy, jti', hi'⟩ := ha pre _ post hsplit jwt (.accepted hv hne)
      obtain ⟨pre₁, pre₂, rfl⟩ := List.append_of_mem hy
      have hbefore : Clean d jwt jti' := by
        have hsplit' : tr = pre₁ ++ y :: (pre₂ ++ (s, .refreshToken c e now jwt) :: post) := by
          rw [hsplit]
          simp
        refine ih pre₁.length ?_ hsplit' hi' rfl
        rw [← hn]
        simp
      obtain ⟨s', e', sub, aud, rfl, -, hkey⟩ := hbefore
      obtain ⟨-, -, -, rfl⟩ := judge_ok.mp (validateToken_ok hv)
      refine ⟨s, e, _, _, rfl, rfl, ?_⟩
      rw [payload_createToken, audited_sub, audited_aud]
      exact no_key_of_read hkey

theorem isRevoked_run {j : ByteString} (h : Run (Serves d) s tr u) :
    u.isRevoked j = true ↔ s.isRevoked j = true ∨
      j ≠ [] ∧ ∃ x ∈ tr, Invalidates x j ∨ ∃ t, Refreshes d x t ∧ mark t = j := by
  induction h with
  | nil s => simp
  | @cons s s' u call tr hstep _ ih =>
    rw [ih, hstep, isRevoked_serve]
    simp only [List.mem_cons, exists_eq_or_imp]
    rw [or_assoc, ← and_or_left]

theorem Refreshes.mark_ne_nil (h : Refreshes d x t) : mark t ≠ [] := by
  cases h with
  | accepted hv hne => rwa [← jti_of_accepted hv]

theorem Issues.unique {t' : ByteString} (h : Issues d x t jti) (h' : Issues d x t' jti) :
    t = t' := by
  cases h with
  | create => cases h'; rfl
  | refresh hv =>
    cases h' with
    | refresh hv' =>
      rw [hv] at hv'
      cases hv'
      rfl

theorem Distinct.eq {y : JWTSession × Call} {t' : ByteString} (hd : Distinct d tr) (hx : x ∈ tr)
    (hy : y ∈ tr) (h : Issues d x t jti) (h' : Issues d y t' jti) : t = t' := by
  by_cases he : x = y
  · subst he
    exact h.unique h'
  · have hsymm : Std.Symm (fun x y : JWTSession × Call ↦
        ∀ t t' jti, Issues d x t jti → ¬ Issues d y t' jti) :=
      ⟨fun x y hxy t t' jti hy hx ↦ hxy t' t jti hx hy⟩
    exact absurd h' (List.Pairwise.forall hd hx hy he t t' jti h)

/-- From a session that has revoked nothing: if the calls put no key `jti` in the subjects and
the audiences, then revocation is exact. -/
theorem revocation_exact (h : Run (Serves d) s tr u) (hs : s.revokedJtis = ∅)
    (hd : Distinct d tr) (ha : Authentic d tr) (hok : ∀ x ∈ tr, Unambiguous x.2) :
    Exact d tr u := by
  constructor
  · intro x hx t hr c p hacc
    have hrev : u.isRevoked (mark t) = true :=
      (isRevoked_run h).mpr (.inr ⟨hr.mark_ne_nil, x, hx, .inr ⟨t, hr, rfl⟩⟩)
    rw [not_revoked_of_accepted hacc hr.mark_ne_nil] at hrev
    cases hrev
  · intro x hx t jti hi hnot hinv c hrej
    obtain ⟨pre, post, hsplit⟩ := List.append_of_mem hx
    have hmark := (clean_of_issues ha hok hsplit hi).mark_eq
    obtain ⟨-, hrev⟩ := validateToken_revoked hrej
    rw [hmark, isRevoked_run h] at hrev
    rcases hrev with hrev | ⟨-, y, hy, hjti | ⟨t', hr, ht'⟩⟩
    · simp [JWTSession.isRevoked, hs] at hrev
    · exact hinv y hy hjti
    · -- the refreshed token was handed out too, so it is this one
      obtain ⟨pre', post', hsplit'⟩ := List.append_of_mem hy
      obtain ⟨z, hz, jti', hi'⟩ := ha pre' y post' hsplit' t' hr
      obtain ⟨pre₁, pre₂, rfl⟩ := List.append_of_mem hz
      have hsplit₁ : tr = pre₁ ++ z :: (pre₂ ++ y :: post') := by
        rw [hsplit']
        simp
      have hjti := (clean_of_issues ha hok hsplit₁ hi').mark_eq
      obtain rfl : jti' = jti := hjti.symm.trans ht'
      obtain rfl := hd.eq hx (by rw [hsplit₁]; simp) hi hi'
      exact hnot y hy hr

def sampleIssuing (n : Fin 16) : Issuing where
  now := 1700000000
  nonce := fun _ ↦ n

def sampleToken (sub : ByteString) (n : Fin 16) : ByteString :=
  sampleSession.createToken sampleBridge (sampleIssuing n) sub [lit "cerberus"]

def sampleRefresh (sub : ByteString) : Call :=
  .refreshToken { now := 1700000001 } (sampleIssuing 2) 0 (sampleToken sub 0)

def twoTokens (sub sub' : ByteString) : List (JWTSession × Call) :=
  [(sampleSession, .createToken (sampleIssuing 0) sub [lit "cerberus"]),
    (sampleSession, .createToken (sampleIssuing 1) sub' [lit "cerberus"]),
    (sampleSession, sampleRefresh sub)]

theorem twoTokens_run (sub sub' : ByteString) : Run (Serves sampleBridge) sampleSession
    (twoTokens sub sub') (sampleSession.serve sampleBridge (sampleRefresh sub)) :=
  .cons rfl (.cons rfl (.cons rfl (.nil _)))

theorem twoTokens_distinct (sub sub' : ByteString) :
    Distinct sampleBridge (twoTokens sub sub') := by
  have h₀₁ : (sampleIssuing 1).generateJti ≠ (sampleIssuing 0).generateJti := by decide
  have h₀₂ : (sampleIssuing 2).generateJti ≠ (sampleIssuing 0).generateJti := by decide
  have h₁₂ : (sampleIssuing 2).generateJti ≠ (sampleIssuing 1).generateJti := by decide
  simp only [Distinct, twoTokens, List.pairwise_cons, List.mem_cons, List.not_mem_nil, or_false,
    forall_eq_or_imp, forall_eq, false_implies, implies_true, List.Pairwise.nil, and_true]
  refine ⟨⟨?_, ?_⟩, ?_⟩
  · intro t t' jti h h'
    cases h
    generalize hj : (sampleIssuing 0).generateJti = j at h'
    cases h'
    exact h₀₁ hj.symm
  · intro t t' jti h h'
    cases h
    generalize hj : (sampleIssuing 0).generateJti = j at h'
    cases h'
    exact h₀₂ hj.symm
  · intro t t' jti h h'
    cases h
    generalize hj : (sampleIssuing 1).generateJti = j at h'
    cases h'
    exact h₁₂ hj.symm

theorem twoTokens_authentic (sub sub' : ByteString) :
    Authentic sampleBridge (twoTokens sub sub') := by
  intro pre x post hsplit t hr
  rcases pre with _ | ⟨y, _ | ⟨y', _ | ⟨y'', pre⟩⟩⟩
  · obtain ⟨rfl, -⟩ := List.cons.inj hsplit
    cases hr
  · obtain ⟨-, hsplit⟩ := List.cons.inj hsplit
    obtain ⟨rfl, -⟩ := List.cons.inj hsplit
    cases hr
  · obtain ⟨hy, hsplit⟩ := List.cons.inj hsplit
    obtain ⟨-, hsplit⟩ := List.cons.inj hsplit
    obtain ⟨hx, -⟩ := List.cons.inj hsplit
    rw [← hx, sampleRefresh] at hr
    cases hr
    exact ⟨y, by simp, (sampleIssuing 0).generateJti, hy ▸ .create _ _ _ _⟩
  · simp [twoTokens] at hsplit

theorem revocation_exact_two_subjects :
    Exact sampleBridge (twoTokens (lit "alice") (lit "bob"))
      (sampleSession.serve sampleBridge (sampleRefresh (lit "alice"))) := by
  refine revocation_exact (twoTokens_run _ _) rfl (twoTokens_distinct _ _)
    (twoTokens_authentic _ _) ?_
  simp only [twoTokens, List.mem_cons, List.not_mem_nil, or_false, forall_eq_or_imp, forall_eq]
  exact ⟨by unfold Unambiguous; decide +kernel, by unfold Unambiguous; decide +kernel, trivial⟩

/-- Both tokens of the subject `jti` have the identifier `cerberus`: to refresh one of them is to
revoke the other. -/
theorem refresh_revokes_other_token : ∃ tr u, Run (Serves sampleBridge) sampleSession tr u ∧
    sampleSession.revokedJtis = ∅ ∧ Distinct sampleBridge tr ∧ Authentic sampleBridge tr ∧
    ¬ Exact sampleBridge tr u := by
  refine ⟨twoTokens (lit "jti") (lit "jti"), _, twoTokens_run _ _, rfl, twoTokens_distinct _ _,
    twoTokens_authentic _ _, fun hex ↦ ?_⟩
  have hother : sampleToken (lit "jti") 0 ≠ sampleToken (lit "jti") 1 := by decide +kernel
  refine hex.spared _ (by simp [twoTokens]) (sampleToken (lit "jti") 1)
    (sampleIssuing 1).generateJti (.create _ _ _ _) ?_ ?_ { now := 1700000002 } (by decide +kernel)
  · intro y hy hr
    simp only [twoTokens, List.mem_cons, List.not_mem_nil, or_false] at hy
    rcases hy with rfl | rfl | rfl
    · cases hr
    · cases hr
    · generalize ht : sampleToken (lit "jti") 1 = t at hr
      cases hr
      exact hother ht.symm
  · rintro y hy ⟨now, hinv⟩
    simp only [twoTokens, List.mem_cons, List.not_mem_nil, or_false] at hy
    rcases hy with rfl | rfl | rfl <;> cases hinv

end Cerberus.Jwt
