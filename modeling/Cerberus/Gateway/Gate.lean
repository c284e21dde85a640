import Cerberus.Gateway.Effects
import Cerberus.Rbpc.Guesses

namespace Cerberus.Gateway

open Foundation.Bytes Foundation.LittleEndian Foundation.Trace MaintenanceDb Rbpc Security Function

/-- The request may clear or export the inference records: it is for a live session that is
authenticated and has the mode for it, and where there is a `UserSecurity`, the PIN and the word
of its payload are confirmed. -/
structure Authorised (host : Host) (g : CerberusApiGateway) (m : Moment) (h : ANBPHeader)
    (payload : ByteString) (s : GatewaySession) : Prop where
  opcode : h.opcode = .inferenceClear ∨ h.opcode = .inferenceExport
  session : g.sessions h.sessionToken = some s
  unexpired : s.isExpired (m.sweep h.sessionToken) = false ∧ s.isExpired (m.now 0) = false
  authenticated : s.authenticated = true
  mode : s.mode = .execute ∨ s.mode = .agentic
  confirmed : ∀ us, g.userSecurity = some us → ∃ pin word, credentials payload = some (pin, word) ∧
    (us.verifyConfirmation host.bridge m.rbpc g.rbpcNodeId pin word).2 = .ok

variable {host : Host} {g g' g₁ u : CerberusApiGateway} {m : Moment} {h : ANBPHeader} {k t : UInt16}
  {payload data : ByteString} {c : Call} {tr : List (CerberusApiGateway × Call)}

/-- A request that is dispatched has a live session with the required mode, which is
authenticated unless its token is zero. -/
theorem vet_dispatched (ha : g.vet m h = .inr g₁) :
    ∃ s, g.sessions h.sessionToken = some s ∧ s.isExpired (m.sweep h.sessionToken) = false ∧
      (requiredMode h.opcode).level ≤ s.mode.level ∧
      (h.sessionToken ≠ 0 → s.isExpired (m.now 0) = false ∧ s.authenticated = true) := by
  unfold CerberusApiGateway.vet at ha
  dsimp only at ha
  by_cases hinit : h.opcode = .handshakeInit
  · rw [if_pos hinit] at ha
    cases ha
  rw [if_neg hinit] at ha
  cases hv : (g.cleanupExpiredSessions m).validateSession m h with
  | mk g₂ message =>
    have hstanding := validateSession_standing (g := g.cleanupExpiredSessions m) (m := m) (h := h)
    rw [hv] at ha hstanding
    cases message with
    | some message => cases ha
    | none =>
      dsimp only at ha
      by_cases hcomp : h.opcode = .handshakeComp ∨ h.opcode = .sessionAuth
      · rw [if_pos hcomp] at ha
        cases ha
      rw [if_neg hcomp] at ha
      by_cases hclose : h.opcode = .sessionClose
      · rw [if_pos hclose] at ha
        cases ha
      rw [if_neg hclose] at ha
      cases hp : g₂.permit m h with
      | mk g₃ message =>
        rw [hp] at ha
        cases message with
        | some message => cases ha
        | none =>
          obtain ⟨b, mode, hst, hlevel⟩ := permit_passed (g := g₂) (m := m) (h := h) (by rw [hp])
          rw [hstanding] at hst
          obtain ⟨s, hs, he⟩ := Option.map_eq_some_iff.mp hst
          cases he
          obtain ⟨hg, hexp⟩ := sessions_cleanup.mp hs
          refine ⟨s, hg, hexp, hlevel, fun ht ↦ ?_⟩
          have hauth : h.opcode ≠ .sessionAuth := fun he ↦ hcomp (.inr he)
          obtain ⟨s', hs', hexp', ha'⟩ := validateSession_passed (g := g.cleanupExpiredSessions m)
            (m := m) hinit (by rw [hv]) hauth ht
          obtain rfl : s' = s := Option.some.inj (hs'.symm.trans hs)
          exact ⟨hexp', ha'⟩

theorem confirm_same (host : Host) (g : CerberusApiGateway) (m : Moment) (payload : ByteString) :
    (g.confirm host m payload).1.lcmd = g.lcmd ∧
    (g.confirm host m payload).1.written = g.written := by
  unfold CerberusApiGateway.confirm
  split
  · exact ⟨rfl, rfl⟩
  · split
    · exact ⟨rfl, rfl⟩
    · split <;> exact ⟨rfl, rfl⟩

theorem confirm_passed (hc : (g.confirm host m payload).2 = none) {us : UserSecurity}
    (hus : g.userSecurity = some us) : ∃ pin word, credentials payload = some (pin, word) ∧
      (us.verifyConfirmation host.bridge m.rbpc g.rbpcNodeId pin word).2 = .ok := by
  unfold CerberusApiGateway.confirm at hc
  rw [hus] at hc
  dsimp only at hc
  split at hc
  · cases hc
  · next pin word hcred =>
    refine ⟨pin, word, hcred, ?_⟩
    split at hc
    · next he => rw [he]
    · cases hc

/-- Only the two destructive requests change the database or write a file, and only after the
check. -/
theorem dispatch_changes (hd : (g.dispatch host m h payload).1.lcmd ≠ g.lcmd ∨
    (g.dispatch host m h payload).1.written ≠ g.written) :
    (h.opcode = .inferenceClear ∨ h.opcode = .inferenceExport) ∧
      (g.confirm host m payload).2 = none := by
  have hsame := confirm_same host g m payload
  unfold CerberusApiGateway.dispatch at hd
  split at hd
  · split at hd
    · simp at hd
    · split at hd <;> simp at hd
  · split at hd
    · next hop =>
      split at hd
      · simp at hd
      · split at hd
        · next he =>
          rw [he] at hsame
          rcases hd with hd | hd
          · exact absurd hsame.1 hd
          · exact absurd hsame.2 hd
        · next he => exact ⟨hop.symm, by rw [he]⟩
    · simp at hd

/-- In every run, a request changes the database or exports its records only if it is authorised
to. -/
theorem destructive_gate (hrun : Run (Serves host) {} tr u) (he : (g, .request m data) ∈ tr)
    {message : ByteString} (hh : g.handleRequest host m data = some (g', message))
    (hchange : g'.lcmd ≠ g.lcmd ∨ g'.written ≠ g.written) :
    ∃ h s, deserializeHeader data = some h ∧
      Authorised host g m h (payloadOf h data) s := by
  have hzero : g.standing 0 = none :=
    (hrun.invariant (I := fun g ↦ g.standing 0 = none) (fun _ _ _ ↦ serves_zero) rfl).1 _ he
  rcases handleRequest_cases hh with ⟨-, rfl⟩ | ⟨h, r, -, hparsed, hr⟩
  · exact (hchange.elim (fun hne ↦ hne rfl) (fun hne ↦ hne rfl)).elim
  have hvet := vet_outcome (g := g) (m := m) (h := h)
  unfold CerberusApiGateway.respond at hr
  split at hr
  · next answer ha =>
    rw [ha] at hvet
    obtain ⟨hcontext, -⟩ := hvet _ hr
    exact (hchange.elim (fun hne ↦ hne hcontext.lcmd) (fun hne ↦ hne hcontext.written)).elim
  · next g₁ ha =>
    rw [ha] at hvet
    obtain ⟨hcontext, -⟩ := hvet
    obtain rfl := congrArg Prod.fst (Option.some.inj hr)
    rw [← hcontext.lcmd, ← hcontext.written] at hchange
    obtain ⟨hop, hconf⟩ := dispatch_changes hchange
    obtain ⟨s, hs, hexp, hlevel, hauth⟩ := vet_dispatched ha
    have htoken : h.sessionToken ≠ 0 := by
      intro hz
      simp [CerberusApiGateway.standing, ← hz, hs] at hzero
    obtain ⟨hexp', ha'⟩ := hauth htoken
    refine ⟨h, s, hparsed, ⟨hop, hs, ⟨hexp, hexp'⟩, ha', ?_, ?_⟩⟩
    · have hrequired : (requiredMode h.opcode).level = 3 := by
        rcases hop with hop | hop <;> rw [hop] <;> decide
      rw [hrequired] at hlevel
      cases hmode : s.mode <;> simp [hmode, PermissionMode.level] at hlevel ⊢
    · intro us hus
      rw [← hcontext.userSecurity] at hus
      rw [← hcontext.rbpcNodeId]
      exact confirm_passed hconf hus

def sampleHost : Host where
  bridge := sampleBridge
  tempDirectory := lit "/tmp"
  totalMs := fun _ ↦ lit "0"
  averageMs := fun _ _ ↦ lit "0"

def request (opcode : CerberusOpcode) (token : UInt16) (payload : ByteString) : Call :=
  .request {} (buildMessage opcode token 1 payload false none 0)

def opening : List Call :=
  [.setPrivacyContext (some {}) (some enrolled) sampleNode, .initializeGateway,
    request .handshakeInit 0 [], request .sessionAuth 1 []]

/-- The run to an authenticated session in which the operator allows `EXECUTE`. -/
def raised : List (CerberusApiGateway × Call) × CerberusApiGateway :=
  follow (CerberusApiGateway.serve sampleHost) {} (opening ++ [.setPermissionMode 1 .execute])

def exportMessage : ByteString :=
  buildMessage .inferenceExport 1 1 (littleEndian 2 samplePin.length ++ samplePin ++
    littleEndian 2 9 ++ lit "tangerine") false none 0

theorem destructive_gate_export : ∃ (tr : List (CerberusApiGateway × Call))
    (u g' : CerberusApiGateway) (message : ByteString), Run (Serves sampleHost) {} tr u ∧
      (raised.2, .request {} exportMessage) ∈ tr ∧
      raised.2.handleRequest sampleHost {} exportMessage = some (g', message) ∧
      g'.written ≠ raised.2.written ∧ ∃ h s, deserializeHeader exportMessage = some h ∧
        Authorised sampleHost raised.2 {} h (payloadOf h exportMessage) s := by
  have hwritten : ((raised.2.handleRequest sampleHost {} exportMessage).map
      (fun e ↦ e.1.written.length)) = some 1 ∧ raised.2.written = [] := by decide
  obtain ⟨⟨g', message⟩, hh, hlen⟩ := Option.map_eq_some_iff.mp hwritten.1
  have hserve : Serves sampleHost raised.2 (.request {} exportMessage) g' := by
    simp [Serves, CerberusApiGateway.serve, hh]
  have hrun : Run (Serves sampleHost) {} _ g' :=
    (run_follow _ _ _).append (.cons hserve (.nil _))
  have hmem : (raised.2, .request {} exportMessage) ∈
      raised.1 ++ [(raised.2, .request {} exportMessage)] := by simp
  have hchange : g'.written ≠ raised.2.written := by
    intro he
    rw [he, hwritten.2] at hlen
    exact absurd hlen (by decide)
  exact ⟨_, g', g', message, hrun, hmem, hh, hchange,
    destructive_gate hrun hmem hh (.inr hchange)⟩

end Cerberus.Gateway
