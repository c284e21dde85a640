import Cerberus.Gateway.Gate

namespace Cerberus.Gateway

open Foundation.Bytes Foundation.LittleEndian Foundation.Trace Function

structure HandshakeCompleteRequest where
  sessionToken : UInt16
  authProof : ByteString
  authTimestampUs : UInt64

def HandshakeCompleteRequest.bytes (r : HandshakeCompleteRequest) : ByteString :=
  littleEndian 2 r.sessionToken.toNat ++ r.authProof ++ littleEndian 8 r.authTimestampUs.toNat

/-- The payload is a `HandshakeCompleteRequest` with the proof that the secret of the answer to
`HANDSHAKE_INIT` gives. -/
def Proof (k : UInt16) (payload : ByteString) : Prop :=
  ∃ context authUs, payload =
    HandshakeCompleteRequest.bytes ⟨k, computeAuthProof announcedSecret context, authUs⟩

def Reads (g : CerberusApiGateway) (data : ByteString) (h : ANBPHeader) : Prop :=
  g.initialized = true ∧ deserializeHeader data = some h

def Live (g : CerberusApiGateway) (m : Moment) (k : UInt16) (s : GatewaySession) : Prop :=
  Found g m k s ∧ s.isExpired (m.now 2) = false

def Presents (opcode : CerberusOpcode) (g : CerberusApiGateway) (m : Moment) (data : ByteString)
    (k : UInt16) : Prop :=
  ∃ h s, Reads g data h ∧ h.opcode = opcode ∧ h.sessionToken = k ∧ Live g m k s ∧
    Proof k (payloadOf h data)

def Ends (g : CerberusApiGateway) (m : Moment) (data : ByteString) (k : UInt16) : Prop :=
  ∃ h, Reads g data h ∧ ((∃ s, g.sessions k = some s ∧ s.isExpired (m.sweep k) = true) ∨
    h.sessionToken = k ∧ Closes g m h)

def Authenticated (g : CerberusApiGateway) (k : UInt16) : Prop :=
  ∃ mode, g.standing k = some (true, mode)

/-- The gateway with what happened in its run: the sessions for which a proof was sent, and
whether a `HANDSHAKE_COMP` with a proof has left its session unauthenticated. -/
structure Watched where
  gateway : CerberusApiGateway
  proven : UInt16 → Prop := fun _ ↦ False
  refused : Prop := False

inductive Watches (host : Host) (w : Watched) : Moment × ByteString → Watched → Prop
  | mk {m : Moment} {data message : ByteString} {g' : CerberusApiGateway} :
      w.gateway.handleRequest host m data = some (g', message) →
      Watches host w (m, data)
        { gateway := g'
          proven := fun k ↦ Presents .handshakeComp w.gateway m data k ∨
            Presents .sessionAuth w.gateway m data k ∨ w.proven k ∧ ¬ Ends w.gateway m data k
          refused := w.refused ∨
            ∃ k, Presents .handshakeComp w.gateway m data k ∧ ¬ Authenticated g' k }

/-- Every completed handshake was accepted, and every authenticated session was proven. -/
structure Faithful (w : Watched) : Prop where
  complete : ¬ w.refused
  sound : ∀ k, Authenticated w.gateway k → w.proven k

/-- For a live session that is not yet authenticated, the proof comes with `SESSION_AUTH`, always,
and never with `HANDSHAKE_COMP`. -/
def proves (w : Watched) (r : Moment × ByteString) : Prop :=
  ∀ h s, Reads w.gateway r.2 h → Live w.gateway r.1 h.sessionToken s → s.authenticated = false →
    (h.opcode = .sessionAuth → Proof h.sessionToken (payloadOf h r.2)) ∧
      (h.opcode = .handshakeComp → ¬ Proof h.sessionToken (payloadOf h r.2))

variable {host : Host} {g g' : CerberusApiGateway} {m : Moment} {h : ANBPHeader} {k : UInt16}
  {s : GatewaySession} {data message : ByteString} {w w' : Watched} {r : Moment × ByteString}

theorem Reads.unique {h' : ANBPHeader} (hr : Reads g data h) (hr' : Reads g data h') : h' = h :=
  Option.some.inj (hr'.2.symm.trans hr.2)

theorem Found.unique {s' : GatewaySession} (hs : Found g m k s) (hs' : Found g m k s') : s' = s :=
  Option.some.inj (hs'.1.symm.trans hs.1)

theorem authenticated_cleanup : Authenticated (g.cleanupExpiredSessions m) k ↔
    ∃ s, Found g m k s ∧ s.authenticated = true := by
  constructor
  · rintro ⟨mode, hst⟩
    obtain ⟨s, hs, he⟩ := Option.map_eq_some_iff.mp hst
    cases s
    cases he
    exact ⟨_, sessions_cleanup.mp hs, rfl⟩
  · rintro ⟨s, hs, ha⟩
    exact ⟨s.mode, by rw [standing_cleanup_of_found hs, ha]⟩

theorem Found.authenticated (hs : Found g m k s) (ha : s.authenticated = true) :
    Authenticated g k := ⟨s.mode, by simp [CerberusApiGateway.standing, hs.1, ha]⟩

theorem request_effect (hh : g.handleRequest host m data = some (g', message)) :
    g' = g ∧ (∀ h, ¬ Reads g data h) ∨ ∃ h, Reads g data h ∧ Outcome g m h g' := by
  rcases handleRequest_cases hh with ⟨hno, rfl⟩ | ⟨h, r, hinit, hp, hr⟩
  · refine .inl ⟨rfl, fun h hr ↦ ?_⟩
    rcases hno with hno | hno
    · exact absurd (hno.symm.trans hr.1) (by simp)
    · exact absurd (hno.symm.trans hr.2) (by simp)
  · exact .inr ⟨h, ⟨hinit, hp⟩, respond_outcome hr⟩

theorem authenticated_kept (hh : g.handleRequest host m data = some (g', message))
    (ha : Authenticated g k) (hend : ¬ Ends g m data k) : Authenticated g' k := by
  rcases request_effect hh with ⟨rfl, -⟩ | ⟨h, hr, hout⟩
  · exact ha
  obtain ⟨mode, hst⟩ := ha
  obtain ⟨s, hsome, he⟩ := Option.map_eq_some_iff.mp hst
  have hfound : Found g m k s := by
    refine ⟨hsome, ?_⟩
    by_contra hexp
    exact hend ⟨h, hr, .inl ⟨s, hsome, by simpa using hexp⟩⟩
  have hauth : Authenticated (g.cleanupExpiredSessions m) k :=
    authenticated_cleanup.mpr ⟨s, hfound, congrArg Prod.fst he⟩
  obtain ⟨mode', hswept⟩ := hauth
  cases hout with
  | created t _ _ hfree hnew =>
    have hne : k ≠ t := by
      rintro rfl
      rw [hswept] at hfree
      cases hfree
    exact ⟨mode', by rw [hnew, update_of_ne hne, hswept]⟩
  | completed _ _ hnew =>
    by_cases hk : k = h.sessionToken
    · exact ⟨.act, by rw [hnew, hk, update_self]⟩
    · exact ⟨mode', by rw [hnew, update_of_ne hk, hswept]⟩
  | closed _ hc hnew =>
    have hne : k ≠ h.sessionToken := fun hk ↦ hend ⟨h, hr, .inr ⟨hk.symm, hc⟩⟩
    exact ⟨mode', by rw [hnew, update_of_ne hne, hswept]⟩
  | kept _ _ _ hnew => exact ⟨mode', by rw [hnew, hswept]⟩

/-- A session is authenticated after a request if it was before, or the request is a
`SESSION_AUTH` for it. -/
theorem authenticated_source (hz : g.standing 0 = none)
    (hh : g.handleRequest host m data = some (g', message)) (ha : Authenticated g' k) :
    Authenticated g k ∧ ¬ Ends g m data k ∨
      ∃ h s, Reads g data h ∧ h.opcode = .sessionAuth ∧ h.sessionToken = k ∧ Live g m k s ∧
        s.authenticated = false := by
  rcases request_effect hh with ⟨rfl, hno⟩ | ⟨h, hr, hout⟩
  · exact .inl ⟨ha, fun ⟨h, hr, _⟩ ↦ hno h hr⟩
  -- A session that the sweep leaves authenticated, and that is not closed, was and remains so.
  have hbefore {s : GatewaySession} (hs : Found g m k s) (hauth : s.authenticated = true)
      (hopen : ¬ (h.sessionToken = k ∧ Closes g m h)) :
      Authenticated g k ∧ ¬ Ends g m data k := by
    refine ⟨hs.authenticated hauth, ?_⟩
    rintro ⟨h', hr', hend⟩
    obtain rfl := hr.unique hr'
    rcases hend with ⟨s', hs', hexp⟩ | hclose
    · obtain rfl : s' = s := Option.some.inj (hs'.symm.trans hs.1)
      rw [hs.2] at hexp
      cases hexp
    · exact hopen hclose
  have hswept (hst : g'.standing k = (g.cleanupExpiredSessions m).standing k) :
      ∃ s, Found g m k s ∧ s.authenticated = true := by
    obtain ⟨mode, hmode⟩ := ha
    exact authenticated_cleanup.mp ⟨mode, by rw [← hst, hmode]⟩
  cases hout with
  | created t hop _ _ hnew =>
    have hne : k ≠ t := by
      rintro rfl
      obtain ⟨mode, hmode⟩ := ha
      rw [hnew, update_self] at hmode
      cases hmode
    obtain ⟨s, hs, hauth⟩ := hswept (by rw [hnew, update_of_ne hne])
    refine .inl (hbefore hs hauth ?_)
    rintro ⟨-, hclose, -⟩
    rw [hop] at hclose
    exact absurd hclose (by decide)
  | completed _ hc hnew =>
    by_cases hk : k = h.sessionToken
    · have hopen : ¬ (h.sessionToken = k ∧ Closes g m h) := by
        rintro ⟨-, hclose, -⟩
        have hop := hc.1
        rw [hclose] at hop
        exact absurd hop (by decide)
      rcases hc.1 with hop | hop
      · have hne : h.sessionToken ≠ 0 := by
          obtain ⟨s, hs, -⟩ := hc.found
          intro he
          rw [he] at hs
          simp [CerberusApiGateway.standing, hs] at hz
        obtain ⟨s, hs, hauth, -⟩ := (completes_comp hop hne).mp hc
        exact .inl (hbefore (hk ▸ hs) hauth hopen)
      · obtain ⟨s, hs, hexp⟩ := (completes_auth hop).mp hc
        cases hauth : s.authenticated with
        | true => exact .inl (hbefore (hk ▸ hs) hauth hopen)
        | false => exact .inr ⟨h, s, hr, hop, hk.symm, ⟨hk ▸ hs, hexp⟩, hauth⟩
    · obtain ⟨s, hs, hauth⟩ := hswept (by rw [hnew, update_of_ne hk])
      exact .inl (hbefore hs hauth (fun hclose ↦ hk hclose.1.symm))
  | closed _ _ hnew =>
    have hne : k ≠ h.sessionToken := by
      rintro rfl
      obtain ⟨mode, hmode⟩ := ha
      rw [hnew, update_self] at hmode
      cases hmode
    obtain ⟨s, hs, hauth⟩ := hswept (by rw [hnew, update_of_ne hne])
    exact .inl (hbefore hs hauth (fun hclose ↦ hne hclose.1.symm))
  | kept _ _ hno hnew =>
    obtain ⟨s, hs, hauth⟩ := hswept (by rw [hnew])
    exact .inl (hbefore hs hauth (fun hclose ↦ hno hclose.2))

theorem authenticated_by_auth (hh : g.handleRequest host m data = some (g', message))
    (hr : Reads g data h) (hop : h.opcode = .sessionAuth) (hs : Live g m h.sessionToken s) :
    Authenticated g' h.sessionToken := by
  rcases request_effect hh with ⟨-, hno⟩ | ⟨h', hr', hout⟩
  · exact absurd hr (hno h)
  obtain rfl := hr.unique hr'
  have hc : Completes g m h' := (completes_auth hop).mpr ⟨s, hs.1, hs.2⟩
  cases hout with
  | created t hinit => exact absurd (hinit.symm.trans hop) (by decide)
  | completed _ _ hnew => exact ⟨.act, by rw [hnew, update_self]⟩
  | closed _ hclose => exact absurd (hclose.1.symm.trans hop) (by decide)
  | kept _ hno => exact absurd hc hno

theorem Found.authenticated_eq (hs : Found g m k s) (ha : Authenticated g k) :
    s.authenticated = true := by
  obtain ⟨mode, hst⟩ := ha
  simp only [CerberusApiGateway.standing, hs.1, Option.map_some, Option.some.injEq,
    Prod.mk.injEq] at hst
  exact hst.1

/-- There is no session zero, and a proof that was not refused has authenticated its session. -/
structure Regular (w : Watched) : Prop where
  zero : w.gateway.standing 0 = none
  accepted : ¬ w.refused → ∀ k, w.proven k → Authenticated w.gateway k

theorem watches_regular (hw : Regular w) (hs : Watches host w r w') : Regular w' := by
  obtain ⟨hh⟩ := hs
  rename_i m data message g'
  have hserves : Serves host w.gateway (.request m data) g' := by
    simp [Serves, CerberusApiGateway.serve, hh]
  refine ⟨serves_zero hw.zero hserves, fun hno k hk ↦ ?_⟩
  rcases hk with hk | ⟨h, s, hr, hop, rfl, hs, -⟩ | ⟨hk, hend⟩
  · by_contra hnot
    exact hno (.inr ⟨k, hk, hnot⟩)
  · exact authenticated_by_auth hh hr hop hs
  · exact authenticated_kept hh (hw.accepted (fun hno' ↦ hno (.inl hno')) k hk) hend

theorem watches_keeps (hw : Regular w) (hf : Faithful w) (hok : proves w r)
    (hs : Watches host w r w') : Faithful w' := by
  obtain ⟨hh⟩ := hs
  rename_i m data message g'
  constructor
  · rintro (hno | ⟨k, ⟨h, s, hr, hop, rfl, hs, hproof⟩, hnot⟩)
    · exact hf.complete hno
    · refine hnot (authenticated_kept hh (hs.1.authenticated ?_) ?_)
      · by_contra hauth
        exact (hok h s hr hs (by simpa using hauth)).2 hop hproof
      · rintro ⟨h', hr', ⟨s', hs', hexp⟩ | ⟨-, hclose, -⟩⟩
        · obtain rfl : s' = s := Option.some.inj (hs'.symm.trans hs.1.1)
          exact absurd (hexp.symm.trans hs.1.2) (by simp)
        · obtain rfl := hr.unique hr'
          exact absurd (hclose.symm.trans hop) (by decide)
  · intro k ha
    rcases authenticated_source hw.zero hh ha with ⟨hbefore, hend⟩ | ⟨h, s, hr, hop, rfl, hs, hauth⟩
    · exact .inr (.inr ⟨hf.sound k hbefore, hend⟩)
    · exact .inr (.inl ⟨h, s, hr, hop, rfl, hs, (hok h s hr hs hauth).1 hop⟩)

theorem watches_breaks (hw : Regular w) (hf : Faithful w) (hno : ¬ proves w r)
    (hs : Watches host w r w') : ¬ Faithful w' := by
  obtain ⟨hh⟩ := hs
  rename_i m data message g'
  intro hf'
  apply hno
  intro h s hr hs hauth
  have hnew : ¬ Authenticated w.gateway h.sessionToken := by
    intro ha
    exact absurd ((hs.1.authenticated_eq ha).symm.trans hauth) (by simp)
  constructor
  · intro hop
    rcases hf'.sound _ (authenticated_by_auth hh hr hop hs) with
      ⟨h', -, hr', hop', -⟩ | ⟨h', -, hr', -, -, -, hproof⟩ | ⟨hproven, -⟩
    · obtain rfl := hr.unique hr'
      exact absurd (hop'.symm.trans hop) (by decide)
    · obtain rfl := hr.unique hr'
      exact hproof
    · exact absurd (hw.accepted hf.complete _ hproven) hnew
  · intro hop hproof
    refine hf'.complete (.inr ⟨_, ⟨h, s, hr, hop, rfl, hs, hproof⟩, fun ha ↦ ?_⟩)
    rcases authenticated_source hw.zero hh ha with ⟨hbefore, -⟩ | ⟨h', -, hr', hop', -⟩
    · exact hnew hbefore
    · obtain rfl := hr.unique hr'
      exact absurd (hop'.symm.trans hop) (by decide)

/-- In a run of requests, every handshake with a proof is completed and no session is
authenticated without one, exactly when the clients of sessions that are not yet authenticated send
the proof with every `SESSION_AUTH` and with no `HANDSHAKE_COMP`. -/
theorem handshake_iff {tr : List (Watched × (Moment × ByteString))} {u : Watched}
    (hg : g.sessions = fun _ ↦ none) (hrun : Run (Watches host) { gateway := g } tr u) :
    Throughout Faithful tr u ↔ ∀ e ∈ tr, proves e.1 e.2 := by
  have hnone (k : UInt16) : g.standing k = none := by simp [CerberusApiGateway.standing, hg]
  have hregular : Regular { gateway := g } := ⟨hnone 0, fun _ _ hk ↦ hk.elim⟩
  have hfaithful : Faithful { gateway := g } := by
    refine ⟨fun hno ↦ hno, ?_⟩
    rintro k ⟨mode, hk⟩
    rw [hnone k] at hk
    cases hk
  exact hrun.throughout_iff (fun _ _ _ hw hs ↦ watches_regular hw hs)
    (fun _ _ _ hw hf hok hs ↦ watches_keeps hw hf hok hs)
    (fun _ _ _ hw hf hno hs ↦ watches_breaks hw hf hno hs) hregular hfaithful

def after (g : CerberusApiGateway) (data : ByteString) : CerberusApiGateway :=
  ((g.handleRequest sampleHost {} data).map Prod.fst).getD g

theorem watches_after (data : ByteString) (hw : w.gateway = g)
    (hsome : (g.handleRequest sampleHost {} data).isSome) :
    ∃ u, Watches sampleHost w ({}, data) u ∧ u.gateway = after g data := by
  obtain ⟨⟨g', message⟩, he⟩ := Option.isSome_iff_exists.mp hsome
  exact ⟨_, .mk (hw ▸ he), by simp [after, he]⟩

def plainMessage (opcode : CerberusOpcode) (token : UInt16) (payload : ByteString) : ByteString :=
  buildMessage opcode token 1 payload false none 0

def booted : CerberusApiGateway := ({} : CerberusApiGateway).initializeGateway

def initMessage : ByteString := plainMessage .handshakeInit 0 []

/-- The gateway with the session that `HANDSHAKE_INIT` gave the token one. -/
def opened : CerberusApiGateway := after booted initMessage

def sampleProof : ByteString :=
  HandshakeCompleteRequest.bytes ⟨1, computeAuthProof announcedSecret (lit "auth"), 0⟩

theorem sampleProof_proof : Proof 1 sampleProof := ⟨_, _, rfl⟩

theorem opened_live : ∃ s, Live opened {} 1 s ∧ s.authenticated = false := by
  have hlive : (opened.sessions 1).map (fun s ↦ (s.isExpired 0, s.authenticated)) =
      some (false, false) := by decide
  obtain ⟨s, hs, he⟩ := Option.map_eq_some_iff.mp hlive
  obtain ⟨hexp, ha⟩ := Prod.mk.inj he
  exact ⟨s, ⟨⟨hs, hexp⟩, hexp⟩, ha⟩

theorem init_opcode (hr : Reads booted initMessage h) : h.opcode = .handshakeInit := by
  have hop : (deserializeHeader initMessage).map (fun h ↦ h.opcode) = some .handshakeInit := by
    decide
  rw [hr.2] at hop
  exact Option.some.inj hop

theorem run_opened : ∃ w, Watches sampleHost { gateway := booted } ({}, initMessage) w ∧
    w.gateway = opened ∧ ∀ k, ¬ w.proven k := by
  obtain ⟨w, hw, hg⟩ := watches_after (w := { gateway := booted }) initMessage rfl (by decide)
  refine ⟨w, hw, hg, ?_⟩
  obtain ⟨hh⟩ := hw
  rintro k (⟨h, -, hr, hop, -⟩ | ⟨h, -, hr, hop, -⟩ | ⟨hk, -⟩)
  · exact absurd (hop.symm.trans (init_opcode hr)) (by decide)
  · exact absurd (hop.symm.trans (init_opcode hr)) (by decide)
  · exact hk

/-- The proof comes with `SESSION_AUTH`. -/
theorem handshake_iff_proven : ∃ tr u,
    Run (Watches sampleHost) { gateway := booted } tr u ∧
    tr.map (fun e ↦ e.2.2) = [initMessage, plainMessage .sessionAuth 1 sampleProof] ∧
    Throughout Faithful tr u := by
  obtain ⟨w, hw, hg, -⟩ := run_opened
  obtain ⟨u, hu, -⟩ := watches_after (plainMessage .sessionAuth 1 sampleProof) hg (by decide)
  have hrun : Run (Watches sampleHost) { gateway := booted } _ u := .cons hw (.cons hu (.nil u))
  refine ⟨_, u, hrun, rfl, (handshake_iff rfl hrun).mpr ?_⟩
  have hheader : (deserializeHeader (plainMessage .sessionAuth 1 sampleProof)).map
      (fun h ↦ (h.opcode, h.sessionToken, payloadOf h (plainMessage .sessionAuth 1 sampleProof))) =
        some (.sessionAuth, 1, sampleProof) := by decide +kernel
  simp only [List.forall_mem_cons]
  refine ⟨fun h s hr _ _ ↦ ?_, fun h s hr _ _ ↦ ?_, by simp⟩
  · rw [init_opcode hr]
    exact ⟨fun hop ↦ absurd hop (by decide), fun hop ↦ absurd hop (by decide)⟩
  · rw [hr.2, Option.map_some, Option.some.injEq, Prod.mk.injEq, Prod.mk.injEq] at hheader
    obtain ⟨hop, htoken, hpayload⟩ := hheader
    rw [hop, htoken, hpayload]
    exact ⟨fun _ ↦ sampleProof_proof, fun hop ↦ absurd hop (by decide)⟩

/-- `HANDSHAKE_COMP` with the proof is refused, and `SESSION_AUTH` without one authenticates. -/
theorem handshake_unfaithful :
    (∃ tr u, Run (Watches sampleHost) { gateway := booted } tr u ∧
      tr.map (fun e ↦ e.2.2) = [initMessage, plainMessage .handshakeComp 1 sampleProof] ∧
      u.refused ∧ ¬ Authenticated u.gateway 1) ∧
    ∃ tr u, Run (Watches sampleHost) { gateway := booted } tr u ∧
      tr.map (fun e ↦ e.2.2) = [initMessage, plainMessage .sessionAuth 1 []] ∧
      Authenticated u.gateway 1 ∧ ¬ u.proven 1 := by
  obtain ⟨w, hw, hg, hnot⟩ := run_opened
  constructor
  · obtain ⟨u, hu, hafter⟩ := watches_after (plainMessage .handshakeComp 1 sampleProof) hg
      (by decide)
    have hstanding : (after opened (plainMessage .handshakeComp 1 sampleProof)).standing 1 =
        some (false, .none) := by decide
    have hrefused : ¬ Authenticated u.gateway 1 := by
      rintro ⟨mode, hst⟩
      rw [hafter, hstanding] at hst
      exact absurd hst (by simp)
    refine ⟨_, u, .cons hw (.cons hu (.nil u)), rfl, ?_, hrefused⟩
    have hheader : (deserializeHeader (plainMessage .handshakeComp 1 sampleProof)).map
        (fun h ↦ (h.opcode, h.sessionToken,
          payloadOf h (plainMessage .handshakeComp 1 sampleProof))) =
          some (.handshakeComp, 1, sampleProof) := by decide +kernel
    obtain ⟨h, hp, he⟩ := Option.map_eq_some_iff.mp hheader
    rw [Prod.mk.injEq, Prod.mk.injEq] at he
    obtain ⟨s, hs, -⟩ := opened_live
    have hpresents : Presents .handshakeComp w.gateway {}
        (plainMessage .handshakeComp 1 sampleProof) 1 := by
      rw [hg]
      refine ⟨h, s, ⟨by decide, hp⟩, he.1, he.2.1, hs, ?_⟩
      rw [he.2.2]
      exact sampleProof_proof
    obtain ⟨hh⟩ := hu
    exact .inr ⟨1, hpresents, hrefused⟩
  · obtain ⟨u, hu, hafter⟩ := watches_after (plainMessage .sessionAuth 1 []) hg (by decide)
    have hstanding : (after opened (plainMessage .sessionAuth 1 [])).standing 1 =
        some (true, .act) := by decide
    refine ⟨_, u, .cons hw (.cons hu (.nil u)), rfl, ⟨.act, hafter ▸ hstanding⟩, ?_⟩
    have hheader : (deserializeHeader (plainMessage .sessionAuth 1 [])).map
        (fun h ↦ (h.opcode, payloadOf h (plainMessage .sessionAuth 1 []))) =
          some (.sessionAuth, []) := by decide
    obtain ⟨hh⟩ := hu
    rintro (⟨h, -, hr, hop, -⟩ | ⟨h, -, hr, -, -, -, context, authUs, hproof⟩ | ⟨hk, -⟩)
    · rw [hr.2, Option.map_some, hop, Option.some.injEq, Prod.mk.injEq] at hheader
      exact absurd hheader.1 (by decide)
    · rw [hr.2, Option.map_some, hproof, Option.some.injEq, Prod.mk.injEq] at hheader
      have hlen := congrArg List.length hheader.2
      simp [HandshakeCompleteRequest.bytes] at hlen
    · exact hnot 1 hk

end Cerberus.Gateway
