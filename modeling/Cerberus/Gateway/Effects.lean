import Cerberus.Gateway.Model

namespace Cerberus.Gateway

open Foundation.Bytes Foundation.LittleEndian MaintenanceDb Rbpc Security Function

def CerberusApiGateway.standing (g : CerberusApiGateway) (k : UInt16) :
    Option (Bool × PermissionMode) :=
  (g.sessions k).map (fun s ↦ (s.authenticated, s.mode))

structure SameContext (g g' : CerberusApiGateway) : Prop where
  lcmd : g'.lcmd = g.lcmd
  userSecurity : g'.userSecurity = g.userSecurity
  rbpcNodeId : g'.rbpcNodeId = g.rbpcNodeId
  written : g'.written = g.written
  initialized : g'.initialized = g.initialized

variable {host : Host} {g g' g₁ : CerberusApiGateway} {m : Moment} {h : ANBPHeader} {k t : UInt16}
  {s : GatewaySession} {now now' : Int} {payload : ByteString} {r : Reply}

theorem SameContext.rfl : SameContext g g := ⟨.refl _, .refl _, .refl _, .refl _, .refl _⟩

theorem SameContext.trans (h : SameContext g g₁) (h' : SameContext g₁ g') : SameContext g g' :=
  ⟨h'.lcmd.trans h.lcmd, h'.userSecurity.trans h.userSecurity, h'.rbpcNodeId.trans h.rbpcNodeId,
    h'.written.trans h.written, h'.initialized.trans h.initialized⟩

theorem getSession_cases (g : CerberusApiGateway) (t : UInt16) (now now' : Int) :
    g.getSession t now now' = (g, none) ∧
      (∀ s, g.sessions t = some s → s.isExpired now = true) ∨
    ∃ s, g.sessions t = some s ∧ s.isExpired now = false ∧
      g.getSession t now now' =
        ({ g with sessions := update g.sessions t (some { s with lastActivity := now' }) },
          some { s with lastActivity := now' }) := by
  unfold CerberusApiGateway.getSession
  cases hs : g.sessions t with
  | none => exact .inl ⟨rfl, by simp⟩
  | some s =>
    cases he : s.isExpired now with
    | true => exact .inl ⟨by simp [he], by simpa using he⟩
    | false => exact .inr ⟨s, rfl, he, by simp [he]⟩

theorem getSession_context (g : CerberusApiGateway) (t : UInt16) (now now' : Int) :
    SameContext g (g.getSession t now now').1 := by
  rcases getSession_cases g t now now' with ⟨h, -⟩ | ⟨s, -, -, h⟩
  · rw [h]
    exact .rfl
  · rw [h]
    exact ⟨rfl, rfl, rfl, rfl, rfl⟩

@[simp] theorem getSession_standing (g : CerberusApiGateway) (t : UInt16) (now now' : Int) :
    (g.getSession t now now').1.standing = g.standing := by
  rcases getSession_cases g t now now' with ⟨h, -⟩ | ⟨s, hs, -, h⟩
  · rw [h]
  · rw [h]
    funext k
    simp only [CerberusApiGateway.standing, update_apply]
    split
    · next hk => simp [hk, hs]
    · rfl

theorem getSession_some (h : (g.getSession t now now').2 = some s) :
    ∃ s₀, g.sessions t = some s₀ ∧ s₀.isExpired now = false ∧ s.authenticated = s₀.authenticated ∧
      s.mode = s₀.mode ∧ s.lastActivity = now' ∧ (g.getSession t now now').1.sessions t = some s := by
  rcases getSession_cases g t now now' with
    ⟨he, -⟩ | ⟨s₀, hs, hexp, he⟩
  · simp [he] at h
  · rw [he] at h ⊢
    cases h
    exact ⟨s₀, hs, hexp, rfl, rfl, rfl, by simp⟩

theorem standing_cleanup : (g.cleanupExpiredSessions m).standing k =
    ((g.sessions k).filter (fun s ↦ !s.isExpired (m.sweep k))).map
      (fun s ↦ (s.authenticated, s.mode)) := rfl

theorem validateSession_context : SameContext g (g.validateSession m h).1 := by
  unfold CerberusApiGateway.validateSession
  split
  · have hcontext := getSession_context g h.sessionToken (m.now 0) (m.now 1)
    split
    · next he => rwa [he] at hcontext
    · next he => rwa [he] at hcontext
  · exact .rfl

@[simp] theorem validateSession_standing : (g.validateSession m h).1.standing = g.standing := by
  unfold CerberusApiGateway.validateSession
  split
  · have hstanding := getSession_standing g h.sessionToken (m.now 0) (m.now 1)
    split
    · next he => rwa [he] at hstanding
    · next he => rwa [he] at hstanding
  · rfl

/-- A request that passes the first check has no token, asks for authentication, or belongs to a
session that is authenticated. -/
theorem validateSession_passed (hinit : h.opcode ≠ .handshakeInit)
    (hp : (g.validateSession m h).2 = none) (hauth : h.opcode ≠ .sessionAuth)
    (ht : h.sessionToken ≠ 0) :
    ∃ s, g.sessions h.sessionToken = some s ∧ s.isExpired (m.now 0) = false ∧
      s.authenticated = true := by
  unfold CerberusApiGateway.validateSession at hp
  rw [if_pos ⟨hinit, hauth, ht⟩] at hp
  split at hp
  · cases hp
  · next g₁ s he =>
    obtain ⟨s₀, hs, hexp, ha, -⟩ := getSession_some (g := g) (s := s) (congrArg Prod.snd he)
    refine ⟨s₀, hs, hexp, ?_⟩
    rw [← ha]
    by_contra hno
    simp [hno] at hp

theorem permit_context : SameContext g (g.permit m h).1 := by
  have hcontext := getSession_context g h.sessionToken (m.now 2) (m.now 3)
  unfold CerberusApiGateway.permit
  dsimp only
  split
  · next he => rwa [he] at hcontext
  · next he => rwa [he] at hcontext

@[simp] theorem permit_standing : (g.permit m h).1.standing = g.standing := by
  have hstanding := getSession_standing g h.sessionToken (m.now 2) (m.now 3)
  unfold CerberusApiGateway.permit
  dsimp only
  split
  · next he => rwa [he] at hstanding
  · next he => rwa [he] at hstanding

theorem permit_passed (hp : (g.permit m h).2 = none) :
    ∃ b mode, g.standing h.sessionToken = some (b, mode) ∧
      (requiredMode h.opcode).level ≤ mode.level := by
  unfold CerberusApiGateway.permit at hp
  dsimp only at hp
  split at hp
  · cases hp
  · next g₁ s he =>
    obtain ⟨s₀, hs, -, -, hmode, -⟩ := getSession_some (g := g) (s := s) (congrArg Prod.snd he)
    refine ⟨s₀.authenticated, s₀.mode, by simp [CerberusApiGateway.standing, hs], ?_⟩
    rw [← hmode]
    by_contra hno
    simp [Nat.lt_of_not_le hno] at hp

def Completes (g : CerberusApiGateway) (m : Moment) (h : ANBPHeader) : Prop :=
  (h.opcode = .handshakeComp ∨ h.opcode = .sessionAuth) ∧
    ((g.cleanupExpiredSessions m).validateSession m h).2 = none ∧
    ((((g.cleanupExpiredSessions m).validateSession m h).1.getSession h.sessionToken (m.now 2)
      (m.now 3)).2).isSome

def Closes (g : CerberusApiGateway) (m : Moment) (h : ANBPHeader) : Prop :=
  h.opcode = .sessionClose ∧ ((g.cleanupExpiredSessions m).validateSession m h).2 = none

inductive Outcome (g : CerberusApiGateway) (m : Moment) (h : ANBPHeader) :
    CerberusApiGateway → Prop
  | created {g' : CerberusApiGateway} (t : UInt16) : h.opcode = .handshakeInit → t ≠ 0 →
      (g.cleanupExpiredSessions m).standing t = none →
      g'.standing = update (g.cleanupExpiredSessions m).standing t (some (false, .none)) →
      Outcome g m h g'
  | completed {g' : CerberusApiGateway} : h.opcode ≠ .handshakeInit → Completes g m h →
      g'.standing =
        update (g.cleanupExpiredSessions m).standing h.sessionToken (some (true, .act)) →
      Outcome g m h g'
  | closed {g' : CerberusApiGateway} : h.opcode ≠ .handshakeInit → Closes g m h →
      g'.standing = update (g.cleanupExpiredSessions m).standing h.sessionToken none →
      Outcome g m h g'
  | kept {g' : CerberusApiGateway} : h.opcode ≠ .handshakeInit → ¬ Completes g m h → ¬ Closes g m h →
      g'.standing = (g.cleanupExpiredSessions m).standing → Outcome g m h g'

theorem confirm_standing (host : Host) (g : CerberusApiGateway) (m : Moment)
    (payload : ByteString) : (g.confirm host m payload).1.standing = g.standing := by
  unfold CerberusApiGateway.confirm
  split
  · rfl
  · split
    · rfl
    · split <;> rfl

theorem dispatch_standing (host : Host) (g : CerberusApiGateway) (m : Moment) (h : ANBPHeader)
    (payload : ByteString) : (g.dispatch host m h payload).1.standing = g.standing := by
  have hconfirm := confirm_standing host g m payload
  unfold CerberusApiGateway.dispatch
  split
  · split
    · rfl
    · split <;> rfl
  · split
    · split
      · rfl
      · split
        · next he => rwa [he] at hconfirm
        · next he =>
          rw [he] at hconfirm
          split
          · unfold CerberusApiGateway.exportInference
            dsimp only
            split
            · exact hconfirm
            · split <;> exact hconfirm
          · exact hconfirm
    · rfl

theorem createSession_spec (hc : g.createSession m = some (g', t)) : t ≠ 0 ∧
    g.standing t = none ∧ g'.standing = update g.standing t (some (false, .none)) ∧
      SameContext g g' := by
  obtain ⟨t', hfind, he⟩ := Option.map_eq_some_iff.mp hc
  cases he
  obtain ⟨hne, hfree⟩ : t ≠ 0 ∧ g.sessions t = none := by simpa using List.find?_some hfind
  refine ⟨hne, by simp [CerberusApiGateway.standing, hfree], ?_, ⟨rfl, rfl, rfl, rfl, rfl⟩⟩
  funext k
  simp only [CerberusApiGateway.standing, update_apply]
  split <;> rfl

theorem completeHandshake_context : SameContext g (g.completeHandshake m h).1 := by
  have hcontext := getSession_context g h.sessionToken (m.now 2) (m.now 3)
  unfold CerberusApiGateway.completeHandshake
  split
  · next he => rwa [he] at hcontext
  · next he =>
    rw [he] at hcontext
    exact hcontext.trans ⟨rfl, rfl, rfl, rfl, rfl⟩

theorem completeHandshake_standing : (g.completeHandshake m h).1.standing =
    if ((g.getSession h.sessionToken (m.now 2) (m.now 3)).2).isSome
    then update g.standing h.sessionToken (some (true, .act)) else g.standing := by
  have hstanding := getSession_standing g h.sessionToken (m.now 2) (m.now 3)
  unfold CerberusApiGateway.completeHandshake
  split
  · next he =>
    rw [he] at hstanding ⊢
    simpa using hstanding
  · next he =>
    rw [he] at hstanding ⊢
    funext k
    have hk := congrFun hstanding k
    simp only [CerberusApiGateway.standing] at hk
    simp only [Option.isSome_some, if_true, CerberusApiGateway.standing, update_apply]
    split
    · rfl
    · exact hk

theorem closeSession_standing : (g.closeSession t).1.standing = update g.standing t none := by
  funext k
  simp only [CerberusApiGateway.closeSession, CerberusApiGateway.standing, update_apply]
  split <;> rfl

theorem vet_outcome : match g.vet m h with
    | .inl answer => ∀ e, answer = some e → SameContext g e.1 ∧ Outcome g m h e.1
    | .inr g₁ => SameContext g g₁ ∧ Outcome g m h g₁ := by
  have hsweep : SameContext g (g.cleanupExpiredSessions m) := ⟨rfl, rfl, rfl, rfl, rfl⟩
  have hvalidated := hsweep.trans
    (validateSession_context (g := g.cleanupExpiredSessions m) (m := m) (h := h))
  unfold CerberusApiGateway.vet
  dsimp only
  by_cases hinit : h.opcode = .handshakeInit
  · rw [if_pos hinit]
    intro e he
    obtain ⟨⟨g₁, t⟩, hc, rfl⟩ := Option.map_eq_some_iff.mp he
    obtain ⟨ht, hfree, hnew, hcontext⟩ := createSession_spec hc
    exact ⟨hsweep.trans hcontext, .created t hinit ht hfree hnew⟩
  rw [if_neg hinit]
  have hstanding := validateSession_standing (g := g.cleanupExpiredSessions m) (m := m) (h := h)
  cases hv : (g.cleanupExpiredSessions m).validateSession m h with
  | mk g₁ message =>
    rw [hv] at hvalidated hstanding
    cases message with
    | some message =>
      rintro e ⟨⟩
      refine ⟨hvalidated, .kept hinit ?_ ?_ hstanding⟩
      · rintro ⟨-, hpass, -⟩
        simp [hv] at hpass
      · rintro ⟨-, hpass⟩
        simp [hv] at hpass
    | none =>
      by_cases hcomp : h.opcode = .handshakeComp ∨ h.opcode = .sessionAuth
      · dsimp only
        rw [if_pos hcomp]
        rintro e ⟨⟩
        refine ⟨hvalidated.trans completeHandshake_context, ?_⟩
        have hclose : ¬ Closes g m h := by
          rintro ⟨hop, -⟩
          rw [hop] at hcomp
          exact absurd hcomp (by decide)
        have hend := completeHandshake_standing (g := g₁) (m := m) (h := h)
        rw [hstanding] at hend
        split at hend
        · next hsome => exact .completed hinit ⟨hcomp, by rw [hv], by rw [hv]; exact hsome⟩ hend
        · next hsome =>
          refine .kept hinit ?_ hclose hend
          rintro ⟨-, -, hyes⟩
          rw [hv] at hyes
          exact hsome hyes
      · have hnot : ¬ Completes g m h := fun hyes ↦ hcomp hyes.1
        dsimp only
        rw [if_neg hcomp]
        by_cases hclose : h.opcode = .sessionClose
        · rw [if_pos hclose]
          rintro e ⟨⟩
          refine ⟨hvalidated.trans ⟨rfl, rfl, rfl, rfl, rfl⟩, .closed hinit ⟨hclose, by rw [hv]⟩ ?_⟩
          rw [closeSession_standing, hstanding]
        · have hopen : ¬ Closes g m h := fun hyes ↦ hclose hyes.1
          rw [if_neg hclose]
          have hgate := hvalidated.trans (permit_context (g := g₁) (m := m) (h := h))
          have hend := (permit_standing (g := g₁) (m := m) (h := h)).trans hstanding
          cases hp : g₁.permit m h with
          | mk g₂ message =>
            rw [hp] at hgate hend
            cases message with
            | some message =>
              rintro e ⟨⟩
              exact ⟨hgate, .kept hinit hnot hopen hend⟩
            | none => exact ⟨hgate, .kept hinit hnot hopen hend⟩

theorem respond_outcome {e : CerberusApiGateway × Reply}
    (hr : g.respond host m h payload = some e) : Outcome g m h e.1 := by
  have hvet := vet_outcome (g := g) (m := m) (h := h)
  unfold CerberusApiGateway.respond at hr
  split at hr
  · next answer ha =>
    rw [ha] at hvet
    exact (hvet e hr).2
  · next g₁ ha =>
    rw [ha] at hvet
    cases hr
    have hd := dispatch_standing host g₁ m h payload
    cases hvet.2 with
    | created t hop ht hfree hnew => exact .created t hop ht hfree (hd.trans hnew)
    | completed hop hc hend => exact .completed hop hc (hd.trans hend)
    | closed hop hc hend => exact .closed hop hc (hd.trans hend)
    | kept hop hc hcl hend => exact .kept hop hc hcl (hd.trans hend)

def payloadOf (h : ANBPHeader) (data : ByteString) : ByteString :=
  (data.drop headerSize).take h.payloadLength.toNat

inductive Effect (g : CerberusApiGateway) : Call → CerberusApiGateway → Prop
  | refused {m : Moment} {data : ByteString} : g.initialized = false ∨ deserializeHeader data = none →
      Effect g (.request m data) g
  | answered {m : Moment} {data : ByteString} {h : ANBPHeader} {g' : CerberusApiGateway} :
      g.initialized = true → deserializeHeader data = some h → Outcome g m h g' →
      Effect g (.request m data) g'
  | ranked {token : UInt16} {mode : PermissionMode} {b : Bool} {mode' : PermissionMode}
      {g' : CerberusApiGateway} : g.standing token = some (b, mode') →
      g'.standing = update g.standing token (some (b, mode)) →
      Effect g (.setPermissionMode token mode) g'
  | created {m : Moment} {t : UInt16} {g' : CerberusApiGateway} : t ≠ 0 → g.standing t = none →
      g'.standing = update g.standing t (some (false, .none)) → Effect g (.createSession m) g'
  | closed {token : UInt16} {g' : CerberusApiGateway} :
      g'.standing = update g.standing token none → Effect g (.closeSession token) g'
  | cleared {g' : CerberusApiGateway} : g'.standing = (fun _ ↦ none) → Effect g .shutdown g'
  | swept {m : Moment} : Effect g (.cleanupExpiredSessions m) (g.cleanupExpiredSessions m)
  | kept {c : Call} {g' : CerberusApiGateway} : (∀ m data, c ≠ .request m data) →
      (∀ m, c ≠ .createSession m) → g'.standing = g.standing → Effect g c g'

theorem handleRequest_cases {data message : ByteString}
    (hh : g.handleRequest host m data = some (g', message)) :
    (g.initialized = false ∨ deserializeHeader data = none) ∧ g' = g ∨
      ∃ h r, g.initialized = true ∧ deserializeHeader data = some h ∧
        g.respond host m h (payloadOf h data) = some (g', r) := by
  obtain ⟨⟨g₁, r⟩, hr, he⟩ := Option.map_eq_some_iff.mp hh
  cases he
  cases hinit : g.initialized with
  | false =>
    rw [hinit] at hr
    cases hr
    exact .inl ⟨.inl rfl, rfl⟩
  | true =>
    rw [hinit] at hr
    simp only [Bool.not_true, Bool.false_eq_true, if_false] at hr
    split at hr
    · next hnone =>
      cases hr
      exact .inl ⟨.inr hnone, rfl⟩
    · next h hparsed => exact .inr ⟨h, r, rfl, hparsed, hr⟩

theorem setPermissionMode_effect (token : UInt16) (mode : PermissionMode) :
    Effect g (.setPermissionMode token mode) (g.setPermissionMode token mode).1 := by
  unfold CerberusApiGateway.setPermissionMode
  cases hs : g.sessions token with
  | none => exact .kept (by simp) (by simp) rfl
  | some s =>
    have hstanding : g.standing token = some (s.authenticated, s.mode) := by
      simp [CerberusApiGateway.standing, hs]
    refine .ranked hstanding ?_
    funext k
    simp only [CerberusApiGateway.standing, update_apply]
    split <;> rfl

theorem serves_effect {c : Call} (hs : Serves host g c g') : Effect g c g' := by
  cases c with
  | request m data =>
    obtain ⟨⟨g₁, message⟩, hh, rfl⟩ := Option.map_eq_some_iff.mp hs
    rcases handleRequest_cases hh with ⟨hrefused, he⟩ | ⟨h, r, hinit, hparsed, hr⟩
    · dsimp only
      rw [he]
      exact .refused hrefused
    · exact .answered hinit hparsed (respond_outcome hr)
  | setPermissionMode token mode =>
    cases hs
    exact setPermissionMode_effect token mode
  | initializeGateway =>
    cases hs
    unfold CerberusApiGateway.initializeGateway
    split <;> exact .kept (by simp) (by simp) rfl
  | shutdown =>
    cases hs
    exact .cleared rfl
  | createSession m =>
    obtain ⟨⟨g₁, t⟩, hc, rfl⟩ := Option.map_eq_some_iff.mp hs
    obtain ⟨ht, hfree, hnew, -⟩ := createSession_spec hc
    exact .created ht hfree hnew
  | closeSession token =>
    cases hs
    exact .closed closeSession_standing
  | getSession token now now' =>
    cases hs
    exact .kept (by simp) (by simp) (getSession_standing g token now now')
  | cleanupExpiredSessions m =>
    cases hs
    exact .swept
  | setPrivacyContext lcmd us nodeId =>
    cases hs
    exact .kept (by simp) (by simp) rfl

def Found (g : CerberusApiGateway) (m : Moment) (k : UInt16) (s : GatewaySession) : Prop :=
  g.sessions k = some s ∧ s.isExpired (m.sweep k) = false

theorem sessions_cleanup :
    (g.cleanupExpiredSessions m).sessions k = some s ↔ Found g m k s := by
  simp [CerberusApiGateway.cleanupExpiredSessions, Option.filter_eq_some_iff, Found]

theorem standing_cleanup_of_found (hs : Found g m k s) :
    (g.cleanupExpiredSessions m).standing k = some (s.authenticated, s.mode) := by
  simp [CerberusApiGateway.standing, sessions_cleanup.mpr hs]

theorem validateSession_of_auth (hop : h.opcode = .sessionAuth) :
    g.validateSession m h = (g, none) := by
  simp [CerberusApiGateway.validateSession, hop]

theorem isSome_getSession : ((g.getSession t now now').2).isSome ↔
    ∃ s, g.sessions t = some s ∧ s.isExpired now = false := by
  rcases getSession_cases g t now now' with ⟨he, hexp⟩ | ⟨s, hs, hexp, he⟩
  · rw [he]
    refine ⟨by simp, fun ⟨s, hs, hno⟩ ↦ ?_⟩
    rw [hexp s hs] at hno
    cases hno
  · simp [he, hs, hexp]

theorem completes_auth (hop : h.opcode = .sessionAuth) : Completes g m h ↔
    ∃ s, Found g m h.sessionToken s ∧ s.isExpired (m.now 2) = false := by
  simp [Completes, validateSession_of_auth hop, isSome_getSession, sessions_cleanup, hop]

/-- `HANDSHAKE_COMP` completes the handshake only of a session that is authenticated already. -/
theorem completes_comp (hop : h.opcode = .handshakeComp) (ht : h.sessionToken ≠ 0) :
    Completes g m h ↔ ∃ s, Found g m h.sessionToken s ∧ s.authenticated = true ∧
      s.isExpired (m.now 0) = false ∧
        { s with lastActivity := m.now 1 }.isExpired (m.now 2) = false := by
  have hcheck : h.opcode ≠ .handshakeInit ∧ h.opcode ≠ .sessionAuth ∧ h.sessionToken ≠ 0 := by
    rw [hop]
    exact ⟨by decide, by decide, ht⟩
  unfold Completes CerberusApiGateway.validateSession
  rw [if_pos hcheck]
  rcases getSession_cases (g.cleanupExpiredSessions m) h.sessionToken (m.now 0) (m.now 1) with
    ⟨he, hexp⟩ | ⟨s, hs, hexp, he⟩
  · rw [he]
    constructor
    · rintro ⟨-, hpass, -⟩
      cases hpass
    · rintro ⟨s, hs, -, hno, -⟩
      rw [hexp s (sessions_cleanup.mpr hs)] at hno
      cases hno
  · rw [he]
    dsimp only
    have hfound := sessions_cleanup.mp hs
    constructor
    · rintro ⟨-, hpass, hsome⟩
      obtain ⟨s', hs', hexp'⟩ := isSome_getSession.mp hsome
      simp only [update_self, Option.some.injEq] at hs'
      rw [← hs'] at hexp'
      refine ⟨s, hfound, ?_, hexp, hexp'⟩
      by_contra hno
      simp [hno] at hpass
    · rintro ⟨s', hs', ha, -, hexp'⟩
      obtain rfl : s' = s := Option.some.inj (hs'.1.symm.trans hfound.1)
      exact ⟨.inl hop, by simp [ha], isSome_getSession.mpr ⟨_, update_self .., hexp'⟩⟩

theorem Completes.found (hc : Completes g m h) : ∃ s, Found g m h.sessionToken s := by
  obtain ⟨s, hs, -⟩ := isSome_getSession.mp hc.2.2
  have hstanding := congrFun (validateSession_standing (g := g.cleanupExpiredSessions m) (m := m)
    (h := h)) h.sessionToken
  cases hswept : (g.cleanupExpiredSessions m).sessions h.sessionToken with
  | none => simp [CerberusApiGateway.standing, hs, hswept] at hstanding
  | some s' => exact ⟨s', sessions_cleanup.mp hswept⟩

theorem serves_zero {c : Call} (hz : g.standing 0 = none) (hs : Serves host g c g') :
    g'.standing 0 = none := by
  have hno : g.sessions 0 = none := by simpa [CerberusApiGateway.standing] using hz
  have hswept (m : Moment) : (g.cleanupExpiredSessions m).standing 0 = none := by
    simp [standing_cleanup, hno]
  cases serves_effect hs with
  | refused => exact hz
  | @answered m data h _ _ _ hout =>
    cases hout with
    | created t _ ht _ hnew =>
      rw [hnew, update_of_ne ht.symm]
      exact hswept m
    | completed _ hc hnew =>
      obtain ⟨s, hs, -⟩ := hc.found
      have hne : h.sessionToken ≠ 0 := by
        intro he
        rw [he, hno] at hs
        cases hs
      rw [hnew, update_of_ne hne.symm]
      exact hswept m
    | closed _ _ hnew =>
      rw [hnew, update_apply]
      split
      · rfl
      · exact hswept m
    | kept _ _ _ hnew =>
      rw [hnew]
      exact hswept m
  | @ranked token _ _ _ _ hsome hnew =>
    have hne : token ≠ 0 := by
      rintro rfl
      rw [hz] at hsome
      cases hsome
    rw [hnew, update_of_ne hne.symm]
    exact hz
  | created ht _ hnew =>
    rw [hnew, update_of_ne ht.symm]
    exact hz
  | closed hnew =>
    rw [hnew, update_apply]
    split
    · rfl
    · exact hz
  | cleared hnew => rw [hnew]
  | swept => exact hswept _
  | kept _ _ hnew =>
    rw [hnew]
    exact hz

end Cerberus.Gateway
