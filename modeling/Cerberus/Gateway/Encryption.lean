import Cerberus.Gateway.Gate

namespace Cerberus.Gateway

open Foundation.Bytes Foundation.LittleEndian MaintenanceDb Rbpc Security Function

/-- The request is not one about sessions, and gets past the checks of its session and its mode. -/
def Passes (g : CerberusApiGateway) (m : Moment) (opcode : CerberusOpcode) (token : UInt16) : Prop :=
  opcode ∉ [.handshakeInit, .handshakeComp, .sessionAuth, .sessionClose] ∧
    ∃ s, Found g m token s ∧ (requiredMode opcode).level ≤ s.mode.level ∧
      if token = 0 then s.isExpired (m.now 2) = false
      else s.authenticated = true ∧ s.isExpired (m.now 0) = false ∧
        { s with lastActivity := m.now 1 }.isExpired (m.now 2) = false

def Indifferent (host : Host) (g : CerberusApiGateway) (m : Moment)
    (payload payload' : ByteString) : Prop :=
  ∀ us, g.userSecurity = some us →
    (credentials payload).map (fun c ↦
      us.verifyConfirmation host.bridge m.rbpc g.rbpcNodeId c.1 c.2) =
    (credentials payload').map (fun c ↦
      us.verifyConfirmation host.bridge m.rbpc g.rbpcNodeId c.1 c.2)

def Blind (host : Host) (g : CerberusApiGateway) (m : Moment) (opcode : CerberusOpcode)
    (payload payload' : ByteString) : Prop :=
  if opcode = .inferenceQuery ∨ opcode = .inferenceStats then True
  else if opcode = .inferenceExport ∨ opcode = .inferenceClear then
    g.lcmd = none ∨ Indifferent host g m payload payload'
  else payload' = payload

/-- The failed attempts of the node are counted in an `int`. -/
def CountsInt (g : CerberusApiGateway) : Prop :=
  ∀ us st, g.userSecurity = some us → us.states[g.rbpcNodeId]? = some st →
    -2 ^ 31 ≤ st.failedAttempts ∧ st.failedAttempts < 2 ^ 31

variable {host : Host} {g g' g₁ : CerberusApiGateway} {m : Moment} {h h' : ANBPHeader}
  {opcode : CerberusOpcode} {token : UInt16} {seq : UInt32} {key : SharedSecret}
  {s : GatewaySession} {payload payload' data : ByteString} {nowUs nowUs' : UInt64}

theorem permit_isNone : (g.permit m h).2 = none ↔ ∃ s, g.sessions h.sessionToken = some s ∧
    s.isExpired (m.now 2) = false ∧ (requiredMode h.opcode).level ≤ s.mode.level := by
  unfold CerberusApiGateway.permit
  dsimp only
  rcases getSession_cases g h.sessionToken (m.now 2) (m.now 3) with ⟨he, hexp⟩ | ⟨s, hs, hexp, he⟩
  · rw [he]
    simp only [reduceCtorEq, false_iff]
    rintro ⟨s, hs, hno, -⟩
    rw [hexp s hs] at hno
    cases hno
  · rw [he, hs]
    simp [hexp]

theorem validateSession_cases (hop : opcode ∉ [.handshakeInit, .handshakeComp, .sessionAuth,
      .sessionClose]) (ho : h.opcode = opcode) :
    h.sessionToken = 0 ∧ g.validateSession m h = (g, none) ∨
      h.sessionToken ≠ 0 ∧ (g.validateSession m h).2.isSome ∧
        (∀ s, g.sessions h.sessionToken = some s → s.authenticated = true →
          s.isExpired (m.now 0) = true) ∨
      ∃ s, h.sessionToken ≠ 0 ∧ g.sessions h.sessionToken = some s ∧ s.authenticated = true ∧
        s.isExpired (m.now 0) = false ∧ g.validateSession m h = ({ g with
          sessions := update g.sessions h.sessionToken (some { s with lastActivity := m.now 1 }) },
          none) := by
  have hinit : h.opcode ≠ .handshakeInit := fun he ↦ hop (by simp [← ho, he])
  have hauth : h.opcode ≠ .sessionAuth := fun he ↦ hop (by simp [← ho, he])
  unfold CerberusApiGateway.validateSession
  by_cases ht : h.sessionToken = 0
  · exact .inl ⟨ht, by simp [ht]⟩
  rw [if_pos ⟨hinit, hauth, ht⟩]
  refine .inr ?_
  rcases getSession_cases g h.sessionToken (m.now 0) (m.now 1) with ⟨he, hexp⟩ | ⟨s, hs, hexp, he⟩
  · rw [he]
    exact .inl ⟨ht, rfl, fun s hs _ ↦ hexp s hs⟩
  · rw [he]
    cases ha : s.authenticated with
    | true => exact .inr ⟨s, ht, hs, ha, hexp, by simp [ha]⟩
    | false =>
      refine .inl ⟨ht, by simp, fun s' hs' ha' ↦ ?_⟩
      obtain rfl : s' = s := Option.some.inj (hs'.symm.trans hs)
      rw [ha] at ha'
      cases ha'

theorem vet_of_validated
    (hop : h.opcode ∉ [.handshakeInit, .handshakeComp, .sessionAuth, .sessionClose])
    (hv : (g.cleanupExpiredSessions m).validateSession m h = (g₁, none)) :
    (∃ g₂, g.vet m h = .inr g₂) ↔ (g₁.permit m h).2 = none := by
  simp only [List.mem_cons, List.not_mem_nil, or_false, not_or] at hop
  obtain ⟨hinit, hcomp, hauth, hclose⟩ := hop
  unfold CerberusApiGateway.vet
  dsimp only
  rw [if_neg hinit, hv]
  dsimp only
  rw [if_neg (not_or.mpr ⟨hcomp, hauth⟩), if_neg hclose]
  cases hp : g₁.permit m h with
  | mk g₂ message => cases message <;> simp

theorem vet_dispatches : (∃ g₁, g.vet m h = .inr g₁) ↔ Passes g m h.opcode h.sessionToken := by
  by_cases hop : h.opcode ∈ [.handshakeInit, .handshakeComp, .sessionAuth, .sessionClose]
  · have hno : ¬ Passes g m h.opcode h.sessionToken := fun hp ↦ hp.1 hop
    simp only [hno, iff_false]
    rintro ⟨g₁, he⟩
    simp only [List.mem_cons, List.not_mem_nil, or_false] at hop
    unfold CerberusApiGateway.vet at he
    dsimp only at he
    split at he
    · cases he
    · split at he
      · cases he
      · split at he
        · cases he
        · rw [if_pos (by tauto)] at he
          cases he
  · simp only [Passes, hop, not_false_iff, true_and]
    rcases validateSession_cases (g := g.cleanupExpiredSessions m) (m := m) hop rfl with
      ⟨ht, hv⟩ | ⟨ht, hv, hdead⟩ | ⟨s, ht, hs, ha, hexp, hv⟩
    · simp only [vet_of_validated hop hv, permit_isNone, sessions_cleanup, if_pos ht, and_comm]
    · constructor
      · rintro ⟨g₁, he⟩
        obtain ⟨s, hs, hexp, -, hrest⟩ := vet_dispatched he
        obtain ⟨hexp', ha⟩ := hrest ht
        rw [hdead s (sessions_cleanup.mpr ⟨hs, hexp⟩) ha] at hexp'
        cases hexp'
      · rintro ⟨s, hs, -, hrest⟩
        rw [if_neg ht] at hrest
        rw [hdead s (sessions_cleanup.mpr hs) hrest.1] at hrest
        exact absurd hrest.2.1 (by simp)
    · have hfound := sessions_cleanup.mp hs
      rw [vet_of_validated hop hv, permit_isNone]
      simp only [update_self, Option.some.injEq, exists_eq_left', if_neg ht]
      constructor
      · rintro ⟨hexp', hlevel⟩
        exact ⟨s, hfound, hlevel, ha, hexp, hexp'⟩
      · rintro ⟨s', hs', hlevel, -, -, hexp'⟩
        obtain rfl : s' = s := Option.some.inj (hs'.1.symm.trans hfound.1)
        exact ⟨hexp', hlevel⟩

/-- The ways `verify_confirmation` can end: it looks at neither the PIN nor the word, or it tells
apart a wrong PIN, a wrong word and success. -/
theorem verifyConfirmation_cases (d : CryptoBridge) (us : UserSecurity) (m : Rbpc.Moment)
    (nodeId : ByteString) :
    (∃ a ∈ [Rbpc.Answer.nodeNotProvisioned, .confirmationDisabled, .confirmationSetNotFound,
        .wordNotRegistered], ∀ pin word, us.verifyConfirmation d m nodeId pin word = (us, a)) ∨
      ∃ st, us.states[nodeId]? = some st ∧ ∀ pin word,
        us.verifyConfirmation d m nodeId pin word = us.fail nodeId st .pinLocked .pinRefused ∨
        us.verifyConfirmation d m nodeId pin word = us.fail nodeId st .wordLocked .wordRefused ∨
        us.verifyConfirmation d m nodeId pin word =
          (us.setState nodeId (authenticated st (m.now 0)), .ok) := by
  unfold UserSecurity.verifyConfirmation
  split
  · exact .inl ⟨_, by simp, fun _ _ ↦ rfl⟩
  · next st hst =>
    split
    · exact .inl ⟨_, by simp, fun _ _ ↦ rfl⟩
    · split
      · exact .inl ⟨_, by simp, fun _ _ ↦ rfl⟩
      · split
        · exact .inl ⟨_, by simp, fun _ _ ↦ rfl⟩
        · refine .inr ⟨st, hst, fun pin word ↦ ?_⟩
          split
          · exact .inl rfl
          · split
            · exact .inr (.inl rfl)
            · exact .inr (.inr rfl)

def settle (g : CerberusApiGateway) :
    Option (UserSecurity × Rbpc.Answer) → CerberusApiGateway × Option ByteString
  | none => (g, some (lit "RBPC pin+word required (binary len+data)"))
  | some (us, a) => ({ g with userSecurity := some us }, if a = .ok then none else some (refusal a))

theorem confirm_eq_settle {us : UserSecurity} (hus : g.userSecurity = some us) :
    g.confirm host m payload = settle g ((credentials payload).map (fun c ↦
      us.verifyConfirmation host.bridge m.rbpc g.rbpcNodeId c.1 c.2)) := by
  unfold CerberusApiGateway.confirm
  rw [hus]
  dsimp only
  cases credentials payload with
  | none => rfl
  | some c =>
    obtain ⟨pin, word⟩ := c
    dsimp only [Option.map_some]
    cases us.verifyConfirmation host.bridge m.rbpc g.rbpcNodeId pin word with
    | mk us' a => cases a <;> simp [settle]

theorem head_refusal {s : String} {t : ByteString} {b : UInt8} {a : Rbpc.Answer}
    (ha : a.text = lit s ++ t) (hs : (lit s).head? = some b) : (refusal a).head? = some b := by
  simp [refusal, ha, List.head?_append, hs]

/-- The texts of `verify_confirmation` start with different letters. -/
theorem head_refusal_pin {st : RBPCState} {us : UserSecurity} {nodeId : ByteString} :
    (refusal (us.fail nodeId st .pinLocked .pinRefused).2).head? = some 80 := by
  unfold UserSecurity.fail
  dsimp only
  split
  · exact head_refusal (List.append_nil _).symm (by decide)
  · exact head_refusal (List.append_assoc ..) (by decide)

theorem head_refusal_word {st : RBPCState} {us : UserSecurity} {nodeId : ByteString} :
    (refusal (us.fail nodeId st .wordLocked .wordRefused).2).head? = some 87 := by
  unfold UserSecurity.fail
  dsimp only
  split
  · exact head_refusal (List.append_nil _).symm (by decide)
  · exact head_refusal (List.append_assoc ..) (by decide)

theorem head_refusal_unread : ∀ a ∈ [Rbpc.Answer.nodeNotProvisioned, .confirmationDisabled,
    .confirmationSetNotFound, .wordNotRegistered], a ≠ .ok ∧ (refusal a).head? ≠ some 82 := by
  decide

theorem head_required :
    (lit "RBPC pin+word required (binary len+data)").head? = some 82 := by decide

theorem head_refusal_verify {d : CryptoBridge} {us : UserSecurity} {rm : Rbpc.Moment}
    {nodeId pin word : ByteString} (ha : (us.verifyConfirmation d rm nodeId pin word).2 ≠ .ok) :
    (refusal (us.verifyConfirmation d rm nodeId pin word).2).head? ≠ some 82 := by
  rcases verifyConfirmation_cases d us rm nodeId with ⟨a, hmem, hall⟩ | ⟨st, -, hall⟩
  · rw [hall]
    exact (head_refusal_unread a hmem).2
  · rcases hall pin word with he | he | he
    · rw [he, head_refusal_pin]
      decide
    · rw [he, head_refusal_word]
      decide
    · rw [he] at ha
      exact absurd rfl ha

theorem settle_some_ne_none {v : UserSecurity × Rbpc.Answer}
    (hv : v.2 ≠ .ok → (refusal v.2).head? ≠ some 82) : settle g none ≠ settle g (some v) := by
  intro he
  have hmessage := congrArg Prod.snd he
  simp only [settle] at hmessage
  split at hmessage
  · cases hmessage
  · next hno =>
    apply hv hno
    rw [← Option.some.inj hmessage, head_required]

theorem settle_verify_injective {d : CryptoBridge} {us : UserSecurity} {rm : Rbpc.Moment}
    {nodeId : ByteString} {c c' : ByteString × ByteString}
    (he : settle g (some (us.verifyConfirmation d rm nodeId c.1 c.2)) =
      settle g (some (us.verifyConfirmation d rm nodeId c'.1 c'.2))) :
    us.verifyConfirmation d rm nodeId c.1 c.2 = us.verifyConfirmation d rm nodeId c'.1 c'.2 := by
  rcases verifyConfirmation_cases d us rm nodeId with ⟨a, -, hall⟩ | ⟨st, -, hall⟩
  · rw [hall, hall]
  have hpin : (us.fail nodeId st .pinLocked .pinRefused).2 ≠ .ok := by
    unfold UserSecurity.fail
    dsimp only
    split <;> simp
  have hword : (us.fail nodeId st .wordLocked .wordRefused).2 ≠ .ok := by
    unfold UserSecurity.fail
    dsimp only
    split <;> simp
  have hne : refusal (us.fail nodeId st .pinLocked .pinRefused).2 ≠
      refusal (us.fail nodeId st .wordLocked .wordRefused).2 := by
    intro heq
    have hhead := congrArg List.head? heq
    rw [head_refusal_pin, head_refusal_word] at hhead
    exact absurd hhead (by decide)
  have hmessage := congrArg Prod.snd he
  simp only [settle] at hmessage
  rcases hall c.1 c.2 with hc | hc | hc <;> rcases hall c'.1 c'.2 with hc' | hc' | hc' <;>
    rw [hc, hc'] at hmessage ⊢
  all_goals simp only [hpin, hword, if_false, if_true, Option.some.injEq, reduceCtorEq] at hmessage
  · exact absurd hmessage hne
  · exact absurd hmessage.symm hne

theorem confirm_eq_iff :
    g.confirm host m payload = g.confirm host m payload' ↔ Indifferent host g m payload payload' := by
  cases hus : g.userSecurity with
  | none => simp [CerberusApiGateway.confirm, Indifferent, hus]
  | some us =>
    rw [confirm_eq_settle hus, confirm_eq_settle hus]
    simp only [Indifferent, hus, Option.some.injEq, forall_eq']
    refine ⟨fun he ↦ ?_, fun he ↦ by rw [he]⟩
    cases hc : credentials payload with
    | none =>
      cases hc' : credentials payload' with
      | none => rfl
      | some c' =>
        rw [hc, hc'] at he
        exact absurd he (settle_some_ne_none head_refusal_verify)
    | some c =>
      cases hc' : credentials payload' with
      | none =>
        rw [hc, hc'] at he
        exact absurd he.symm (settle_some_ne_none head_refusal_verify)
      | some c' =>
        rw [hc, hc'] at he
        exact congrArg some (settle_verify_injective he)

theorem confirm_passed_eq (hp : (g.confirm host m payload).2 = none)
    (hp' : (g.confirm host m payload').2 = none) :
    g.confirm host m payload = g.confirm host m payload' := by
  rw [confirm_eq_iff]
  intro us hus
  obtain ⟨pin, word, hc, hok⟩ := confirm_passed hp hus
  obtain ⟨pin', word', hc', hok'⟩ := confirm_passed hp' hus
  rw [hc, hc', Option.map_some, Option.map_some, Option.some.injEq]
  rcases verifyConfirmation_cases host.bridge us m.rbpc g.rbpcNodeId with
    ⟨a, -, hall⟩ | ⟨st, -, hall⟩
  · rw [hall, hall]
  · have hfail (pin word : ByteString)
        (hok : (us.verifyConfirmation host.bridge m.rbpc g.rbpcNodeId pin word).2 = .ok) :
        us.verifyConfirmation host.bridge m.rbpc g.rbpcNodeId pin word =
          (us.setState g.rbpcNodeId (authenticated st (m.rbpc.now 0)), .ok) := by
      rcases hall pin word with he | he | he
      · rw [he] at hok
        unfold UserSecurity.fail at hok
        dsimp only at hok
        split at hok <;> cases hok
      · rw [he] at hok
        unfold UserSecurity.fail at hok
        dsimp only at hok
        split at hok <;> cases hok
      · exact he
    rw [hfail pin word hok, hfail pin' word' hok']

theorem length_signedDecimal {n : Int} (hlow : -2 ^ 31 ≤ n) (hhigh : n < 2 ^ 31) :
    (signedDecimal n).length ≤ 11 := by
  have hdigits {k : Nat} (hk : k ≤ 2 ^ 31) : (decimal k).length ≤ 10 := by
    rw [decimal, digits, List.length_map]
    exact (Nat.length_toDigits_le_iff (by decide) (by decide)).mpr (by omega)
  cases n with
  | ofNat k =>
    have hk : k ≤ 2 ^ 31 := by
      have hcast : (k : Int) < 2 ^ 31 := hhigh
      omega
    exact (hdigits hk).trans (by decide)
  | negSucc k =>
    have hk : k + 1 ≤ 2 ^ 31 := by omega
    have hsign : (lit "-").length = 1 := by decide
    have hlen := hdigits hk
    simp only [signedDecimal, List.length_append, hsign]
    omega

theorem length_refusal {a : Rbpc.Answer} : (refusal a).length ≤ a.text.length + 9 := by
  have hburned : (lit " [BURNED]").length = 9 := by decide
  unfold refusal
  split
  · simp [hburned]
  · simp

theorem length_fail_text {us : UserSecurity} {nodeId : ByteString} {st : RBPCState}
    {burnt : Rbpc.Answer} {failed : Int → Rbpc.Answer} (hlow : -2 ^ 31 ≤ st.failedAttempts)
    (hburnt : burnt.text.length ≤ 200)
    (hfailed : ∀ n, (failed n).text.length ≤ (signedDecimal n).length + 100) :
    (us.fail nodeId st burnt failed).2.text.length ≤ 200 := by
  unfold UserSecurity.fail
  dsimp only
  split
  · exact hburnt
  · have hbound := length_signedDecimal (n := st.failedAttempts + 1) (by omega) (by omega)
    have hlen := hfailed (st.failedAttempts + 1)
    omega

theorem length_verify_text (d : CryptoBridge) (us : UserSecurity) (rm : Rbpc.Moment)
    (nodeId pin word : ByteString)
    (hint : ∀ st, us.states[nodeId]? = some st → -2 ^ 31 ≤ st.failedAttempts) :
    (us.verifyConfirmation d rm nodeId pin word).2.text.length ≤ 200 := by
  have hattempt (s t : String) (n : Int) (hs : (lit s).length + (lit t).length ≤ 100) :
      (lit s ++ signedDecimal n ++ lit t).length ≤ (signedDecimal n).length + 100 := by
    simp only [List.length_append]
    omega
  rcases verifyConfirmation_cases d us rm nodeId with ⟨a, hmem, hall⟩ | ⟨st, hst, hall⟩
  · have hconst : ∀ a ∈ [Rbpc.Answer.nodeNotProvisioned, .confirmationDisabled,
        .confirmationSetNotFound, .wordNotRegistered], a.text.length ≤ 200 := by decide
    rw [hall]
    exact hconst a hmem
  · rcases hall pin word with he | he | he
    · rw [he]
      exact length_fail_text (hint st hst) (by decide)
        (fun n ↦ hattempt _ _ n (by decide))
    · rw [he]
      exact length_fail_text (hint st hst) (by decide)
        (fun n ↦ hattempt _ _ n (by decide))
    · rw [he]
      exact Nat.zero_le 200

theorem confirm_message_length (hint : CountsInt g) {message : ByteString}
    (hm : (g.confirm host m payload).2 = some message) : message.length + 8 ≤ maxPayloadSize := by
  cases hus : g.userSecurity with
  | none => simp [CerberusApiGateway.confirm, hus] at hm
  | some us =>
    rw [confirm_eq_settle hus] at hm
    cases hc : credentials payload with
    | none =>
      rw [hc] at hm
      obtain rfl := Option.some.inj hm
      decide
    | some c =>
      rw [hc, Option.map_some] at hm
      simp only [settle] at hm
      split at hm
      · cases hm
      · obtain rfl := Option.some.inj hm
        have htext := length_verify_text host.bridge us m.rbpc g.rbpcNodeId c.1 c.2
          (fun st hst ↦ (hint us st hus hst).1)
        have hlen := length_refusal
          (a := (us.verifyConfirmation host.bridge m.rbpc g.rbpcNodeId c.1 c.2).2)
        unfold maxPayloadSize
        omega

theorem encode_eq {r : Reply} (hlen : r.payload.length ≤ maxPayloadSize) :
    r.encode nowUs = serializeHeader
      { opcode := r.opcode, payloadLength := .ofNat r.payload.length, sequenceId := r.sequenceId
        sessionToken := r.sessionToken, timestampUs := nowUs } ++ r.payload := by
  simp [Reply.encode, buildMessage, Nat.not_lt.mpr hlen]

theorem encode_of_long {r : Reply} (hlen : maxPayloadSize < r.payload.length) :
    r.encode nowUs = [] := by
  simp [Reply.encode, buildMessage, hlen]

theorem encode_injective {r r' : Reply} (hlen : r.payload.length ≤ maxPayloadSize)
    (he : r.encode nowUs = r'.encode nowUs) : r'.payload = r.payload := by
  rw [encode_eq hlen] at he
  by_cases hlen' : r'.payload.length ≤ maxPayloadSize
  · rw [encode_eq hlen'] at he
    exact (List.append_inj_right he (by simp)).symm
  · rw [encode_of_long (Nat.lt_of_not_le hlen')] at he
    have hempty := congrArg List.length he
    simp [headerSize] at hempty

theorem head_exportInference (db : LocalMaintenanceDB) :
    (g.exportInference host m h db).2.payload.head? = some 123 := by
  have hfalse : (lit "\x7b\"exported\":false\x7d").head? = some 123 := by decide
  have htrue : (lit "\x7b\"exported\":true,\"path\":\"").head? = some 123 := by decide
  unfold CerberusApiGateway.exportInference
  dsimp only
  split
  · exact hfalse
  · split
    · simp [ANBPHeader.reply, List.head?_append, htrue]
    · exact hfalse

theorem head_clearInference (db : LocalMaintenanceDB) :
    (g.clearInference host h db).2.payload.head? = some 123 := by
  have hcleared : (lit "\x7b\"cleared\":").head? = some 123 := by decide
  simp [CerberusApiGateway.clearInference, ANBPHeader.reply, List.head?_append, hcleared]

theorem head_error (message : ByteString) : (h.error message).payload.head? = some 1 := by
  simp [ANBPHeader.error, Reply.error, littleEndian]

def conclude (host : Host) (m : Moment) (h : ANBPHeader) (db : LocalMaintenanceDB) :
    CerberusApiGateway × Option ByteString → CerberusApiGateway × Reply
  | (g, some message) => (g, h.error message)
  | (g, none) =>
    if h.opcode = .inferenceExport then g.exportInference host m h db
    else g.clearInference host h db

theorem dispatch_destructive (hq : ¬ (h.opcode = .inferenceQuery ∨ h.opcode = .inferenceStats))
    (hop : h.opcode = .inferenceExport ∨ h.opcode = .inferenceClear) {db : LocalMaintenanceDB}
    (hdb : g.lcmd = some db) :
    g.dispatch host m h payload = conclude host m h db (g.confirm host m payload) := by
  unfold CerberusApiGateway.dispatch
  rw [if_neg hq, if_pos hop, hdb]
  dsimp only
  cases g.confirm host m payload with
  | mk g₁ message => cases message <;> rfl

theorem head_conclude (db : LocalMaintenanceDB) :
    (conclude host m h db (g, none)).2.payload.head? = some 123 := by
  simp only [conclude]
  split
  · exact head_exportInference db
  · exact head_clearInference db

theorem refused_ne_passed {message : ByteString} {e : CerberusApiGateway × Reply}
    (hlen : message.length + 8 ≤ maxPayloadSize) (hhead : e.2.payload.head? = some 123) :
    (h.error message).encode nowUs ≠ e.2.encode nowUs := by
  intro he
  have hfit : (h.error message).payload.length ≤ maxPayloadSize := by
    simp only [ANBPHeader.error, Reply.error, List.length_append, length_littleEndian]
    omega
  have hpayload := encode_injective hfit he
  rw [hpayload, head_error] at hhead
  exact absurd hhead (by decide)

theorem confirm_eq_of_dispatch (hint : CountsInt g)
    (hq : ¬ (h.opcode = .inferenceQuery ∨ h.opcode = .inferenceStats))
    (hop : h.opcode = .inferenceExport ∨ h.opcode = .inferenceClear) {db : LocalMaintenanceDB}
    (hdb : g.lcmd = some db)
    (hg : (g.dispatch host m h payload).1 = (g.dispatch host m h payload').1)
    (hr : (g.dispatch host m h payload).2.encode nowUs =
      (g.dispatch host m h payload').2.encode nowUs) :
    g.confirm host m payload = g.confirm host m payload' := by
  rw [dispatch_destructive hq hop hdb, dispatch_destructive hq hop hdb] at hg hr
  have hlen (p message : ByteString) (hm : (g.confirm host m p).2 = some message) :
      message.length + 8 ≤ maxPayloadSize := confirm_message_length hint hm
  cases hc : g.confirm host m payload with
  | mk g₁ r =>
    cases hc' : g.confirm host m payload' with
    | mk g₂ r' =>
      rw [hc, hc'] at hg hr
      cases r with
      | some message =>
        cases r' with
        | some message' =>
          have hfit : (h.error message).payload.length ≤ maxPayloadSize := by
            have hshort := hlen payload message (by rw [hc])
            simp only [ANBPHeader.error, Reply.error, List.length_append, length_littleEndian]
            omega
          have hpayload := encode_injective hfit hr
          simp only [ANBPHeader.error, Reply.error] at hpayload
          rw [(List.append_inj_right hpayload (by simp)).symm]
          exact congrArg (fun g ↦ (g, some message')) hg
        | none =>
          have hshort := hlen payload message (by rw [hc])
          exact absurd hr (refused_ne_passed hshort (head_conclude db))
      | none =>
        cases r' with
        | some message' =>
          have hshort := hlen payload' message' (by rw [hc'])
          exact absurd hr.symm (refused_ne_passed hshort (head_conclude db))
        | none =>
          rw [← hc, ← hc']
          exact confirm_passed_eq (by rw [hc]) (by rw [hc'])

/-- Two payloads of a dispatched request are answered alike exactly when it is blind to what they
differ in. -/
theorem dispatch_eq_iff (hlen : payload.length ≤ maxPayloadSize) (hint : CountsInt g) :
    (g.dispatch host m h payload).1 = (g.dispatch host m h payload').1 ∧
        (g.dispatch host m h payload).2.encode nowUs =
          (g.dispatch host m h payload').2.encode nowUs ↔
      Blind host g m h.opcode payload payload' := by
  unfold Blind
  by_cases hq : h.opcode = .inferenceQuery ∨ h.opcode = .inferenceStats
  · simp [CerberusApiGateway.dispatch, hq]
  rw [if_neg hq]
  by_cases hop : h.opcode = .inferenceExport ∨ h.opcode = .inferenceClear
  · rw [if_pos hop]
    cases hdb : g.lcmd with
    | none => simp [CerberusApiGateway.dispatch, hq, hop, hdb]
    | some db =>
      rw [← confirm_eq_iff]
      simp only [reduceCtorEq, false_or]
      constructor
      · rintro ⟨hg, hr⟩
        exact confirm_eq_of_dispatch hint hq hop hdb hg hr
      · intro he
        rw [dispatch_destructive hq hop hdb, dispatch_destructive hq hop hdb, he]
        exact ⟨rfl, rfl⟩
  · rw [if_neg hop]
    simp only [CerberusApiGateway.dispatch, if_neg hq, if_neg hop, true_and]
    constructor
    · intro he
      have hpayload := encode_injective (r := h.reply payload) hlen he
      exact hpayload
    · rintro rfl
      rfl

/-- The header that `buildMessage` writes. -/
def builtHeader (opcode : CerberusOpcode) (token : UInt16) (seq : UInt32) (payload : ByteString)
    (encrypt : Bool) (nowUs : UInt64) : ANBPHeader where
  opcode := opcode
  payloadLength := .ofNat payload.length
  sequenceId := seq
  sessionToken := token
  flags := if encrypt then flagEncrypted else 0
  timestampUs := nowUs

theorem handleRequest_message (hlen : payload.length ≤ maxPayloadSize)
    (hlen' : payload'.length = payload.length) {encrypt : Bool}
    (hdata : data =
      serializeHeader (builtHeader opcode token seq payload encrypt nowUs) ++ payload') :
    g.handleRequest host m data =
      (if !g.initialized then some (g, .error .errGeneral 0 0 (lit "Gateway not initialized"))
        else g.respond host m (builtHeader opcode token seq payload encrypt nowUs) payload').map
          (fun e ↦ (e.1, e.2.encode (m.systemUs 1))) := by
  have hsize : (UInt32.ofNat payload.length).toNat = payload.length := by
    rw [UInt32.toNat_ofNat', Nat.mod_eq_of_lt]
    unfold maxPayloadSize at hlen
    omega
  have hread : deserializeHeader data =
      some (builtHeader opcode token seq payload encrypt nowUs) := by
    rw [hdata]
    exact deserializeHeader_serializeHeader rfl rfl (hsize.trans hlen'.symm) (hlen' ▸ hlen)
  unfold CerberusApiGateway.handleRequest
  simp only [hread]
  have hpayload : (data.drop headerSize).take
      (builtHeader opcode token seq payload encrypt nowUs).payloadLength.toNat = payload' := by
    rw [hdata, List.drop_append_of_le_length (by simp), List.drop_eq_nil_of_le (by simp),
      List.nil_append]
    exact List.take_of_length_le (by simp [builtHeader, hsize, hlen'])
  rw [hpayload]

theorem respond_builtHeader (nowUs nowUs' : UInt64) : g.respond host m
    (builtHeader opcode token seq payload true nowUs) payload' =
      g.respond host m (builtHeader opcode token seq payload false nowUs') payload' := rfl

theorem SameContext.countsInt (hc : SameContext g g₁) (hint : CountsInt g) : CountsInt g₁ := by
  intro us st hus hst
  rw [hc.userSecurity] at hus
  rw [hc.rbpcNodeId] at hst
  exact hint us st hus hst

theorem SameContext.blind (hc : SameContext g g₁) :
    Blind host g₁ m opcode payload payload' ↔ Blind host g m opcode payload payload' := by
  simp only [Blind, Indifferent, hc.lcmd, hc.userSecurity, hc.rbpcNodeId]

/-- An encrypted message is handled as the plain one exactly when the gateway does not look at its
payload, or looks at it and cannot tell it from the plain one: it never decrypts. -/
theorem encryption_transparent_iff (hlen : payload.length ≤ maxPayloadSize) (hint : CountsInt g) :
    g.handleRequest host m (buildMessage opcode token seq payload true (some key) nowUs) =
        g.handleRequest host m (buildMessage opcode token seq payload false none nowUs') ↔
      (g.initialized = true → Passes g m opcode token →
        Blind host g m opcode payload (mask key payload)) := by
  have hsecret : buildMessage opcode token seq payload true (some key) nowUs =
      serializeHeader (builtHeader opcode token seq payload true nowUs) ++ mask key payload := by
    simp [buildMessage, builtHeader, Nat.not_lt.mpr hlen]
  have hplain : buildMessage opcode token seq payload false none nowUs' =
      serializeHeader (builtHeader opcode token seq payload false nowUs') ++ payload := by
    simp [buildMessage, builtHeader, Nat.not_lt.mpr hlen]
  rw [handleRequest_message hlen length_mask hsecret, handleRequest_message hlen rfl hplain,
    respond_builtHeader nowUs nowUs']
  cases g.initialized with
  | false => simp
  | true =>
    simp only [Bool.not_true, Bool.false_eq_true, if_false, forall_true_left]
    have hpasses := vet_dispatches (g := g) (m := m)
      (h := builtHeader opcode token seq payload false nowUs')
    have hcontext := vet_outcome (g := g) (m := m)
      (h := builtHeader opcode token seq payload false nowUs')
    unfold CerberusApiGateway.respond
    cases ha : g.vet m (builtHeader opcode token seq payload false nowUs') with
    | inl answer =>
      have hno : ¬ Passes g m opcode token := by
        intro hp
        obtain ⟨g₁, he⟩ := hpasses.mpr hp
        rw [ha] at he
        cases he
      simp [hno]
    | inr g₁ =>
      rw [ha] at hcontext
      have hp : Passes g m opcode token := hpasses.mp ⟨g₁, ha⟩
      simp only [Option.map_some, Option.some.injEq, Prod.mk.injEq, hp, forall_true_left]
      rw [eq_comm, eq_comm (a := Reply.encode _ _)]
      rw [dispatch_eq_iff hlen (hcontext.1.countsInt hint), hcontext.1.blind]
      rfl

def keyed : CerberusApiGateway where
  initialized := true
  sessions := update (fun _ ↦ none) 1 (some
    { sharedSecret := announcedSecret, lastActivity := 0, mode := .act, authenticated := true })
  lcmd := some {}

theorem keyed_countsInt : CountsInt keyed := by
  intro us st hus
  cases hus

theorem encryption_transparent_iff_query :
    (keyed.sessions 1).map (fun s ↦ s.sharedSecret) = some announcedSecret ∧
      [1, 2].length ≤ maxPayloadSize ∧ CountsInt keyed ∧
      keyed.handleRequest sampleHost {}
          (buildMessage .inferenceQuery 1 1 [1, 2] true (some announcedSecret) 0) =
        keyed.handleRequest sampleHost {}
          (buildMessage .inferenceQuery 1 1 [1, 2] false none 0) :=
  ⟨rfl, by decide, keyed_countsInt, (encryption_transparent_iff (by decide) keyed_countsInt).mpr
    (fun _ _ ↦ trivial)⟩

/-- `GET_STATUS` echoes its payload: the client gets it back encrypted. -/
theorem encrypted_payload_read_as_plain :
    (keyed.sessions 1).map (fun s ↦ s.sharedSecret) = some announcedSecret ∧
      (keyed.handleRequest sampleHost {}
          (buildMessage .getStatus 1 1 [1, 2] true (some announcedSecret) 0)).map
        (fun e ↦ e.2.drop headerSize) = some [1, 3] ∧
      (keyed.handleRequest sampleHost {} (buildMessage .getStatus 1 1 [1, 2] false none 0)).map
        (fun e ↦ e.2.drop headerSize) = some [1, 2] ∧
      keyed.handleRequest sampleHost {}
          (buildMessage .getStatus 1 1 [1, 2] true (some announcedSecret) 0) ≠
        keyed.handleRequest sampleHost {} (buildMessage .getStatus 1 1 [1, 2] false none 0) := by
  have hsecret : (keyed.handleRequest sampleHost {}
      (buildMessage .getStatus 1 1 [1, 2] true (some announcedSecret) 0)).map
        (fun e ↦ e.2.drop headerSize) = some [1, 3] := by decide
  have hplain : (keyed.handleRequest sampleHost {}
      (buildMessage .getStatus 1 1 [1, 2] false none 0)).map
        (fun e ↦ e.2.drop headerSize) = some [1, 2] := by decide
  refine ⟨rfl, hsecret, hplain, fun he ↦ ?_⟩
  rw [he, hplain] at hsecret
  exact absurd hsecret (by decide)

end Cerberus.Gateway
