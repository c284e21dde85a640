import Cerberus.Gateway.Gate

namespace Cerberus.Gateway

open Foundation.Bytes Foundation.Trace Function

def CerberusApiGateway.modeOf (g : CerberusApiGateway) (k : UInt16) : Option PermissionMode :=
  (g.standing k).map Prod.snd

/-- The request finds the session expired and removes it before it does anything else. -/
def Swept (k : UInt16) (g : CerberusApiGateway) : Call → Prop
  | .request m data => g.initialized = true ∧ (deserializeHeader data).isSome ∧
      ∃ s, g.sessions k = some s ∧ s.isExpired (m.sweep k) = true
  | _ => False

structure Continues (host : Host) (k : UInt16) (g : CerberusApiGateway) (c : Call)
    (g' : CerberusApiGateway) : Prop where
  serves : Serves host g c g'
  operator : ∀ mode, c ≠ .setPermissionMode k mode
  unswept : ¬ Swept k g c
  present : (g'.sessions k).isSome

/-- A `SESSION_AUTH` for the session, or a `HANDSHAKE_COMP` while it is authenticated. -/
def Readmits (k : UInt16) (g : CerberusApiGateway) : Call → Prop
  | .request m data => g.initialized = true ∧ ∃ h s, deserializeHeader data = some h ∧
      h.sessionToken = k ∧ Found g m k s ∧
        (h.opcode = .sessionAuth ∧ s.isExpired (m.now 2) = false ∨
          h.opcode = .handshakeComp ∧ s.authenticated = true ∧ s.isExpired (m.now 0) = false ∧
            { s with lastActivity := m.now 1 }.isExpired (m.now 2) = false)
  | _ => False

variable {host : Host} {g g' g₀ u : CerberusApiGateway} {m : Moment} {h : ANBPHeader} {k : UInt16}
  {mode : PermissionMode} {data : ByteString} {c : Call} {b : Bool}
  {pre tr : List (CerberusApiGateway × Call)}

theorem modeOf_of_standing (hs : g.standing k = some (b, mode)) : g.modeOf k = some mode := by
  simp [CerberusApiGateway.modeOf, hs]

theorem readmits_iff (hk : k ≠ 0) (hinit : g.initialized = true)
    (hp : deserializeHeader data = some h) :
    Readmits k g (.request m data) ↔ h.sessionToken = k ∧ Completes g m h := by
  constructor
  · rintro ⟨-, h', s, hp', rfl, hs, hop⟩
    obtain rfl : h' = h := Option.some.inj (hp'.symm.trans hp)
    refine ⟨rfl, ?_⟩
    rcases hop with ⟨hop, hexp⟩ | ⟨hop, hrest⟩
    · exact (completes_auth hop).mpr ⟨s, hs, hexp⟩
    · exact (completes_comp hop hk).mpr ⟨s, hs, hrest⟩
  · rintro ⟨rfl, hc⟩
    rcases hc.1 with hop | hop
    · obtain ⟨s, hs, hrest⟩ := (completes_comp hop hk).mp hc
      exact ⟨hinit, h, s, hp, rfl, hs, .inr ⟨hop, hrest⟩⟩
    · obtain ⟨s, hs, hexp⟩ := (completes_auth hop).mp hc
      exact ⟨hinit, h, s, hp, rfl, hs, .inl ⟨hop, hexp⟩⟩

theorem answered_mode (hk : k ≠ 0) (hs : g.standing k = some (b, mode))
    (hinit : g.initialized = true) (hp : deserializeHeader data = some h)
    (hc : Continues host k g (.request m data) g') (hout : Outcome g m h g') :
    (Readmits k g (.request m data) → g'.modeOf k = some .act) ∧
      (¬ Readmits k g (.request m data) → g'.modeOf k = some mode) := by
  rw [readmits_iff hk hinit hp]
  obtain ⟨s, hsome, he⟩ := Option.map_eq_some_iff.mp hs
  cases he
  have hfound : Found g m k s := by
    refine ⟨hsome, ?_⟩
    by_contra hexp
    exact hc.unswept ⟨hinit, by simp [hp], s, hsome, by simpa using hexp⟩
  have hswept := standing_cleanup_of_found hfound
  have hpresent : g'.standing k ≠ none := by
    simpa [CerberusApiGateway.standing, ← Option.isSome_iff_ne_none] using hc.present
  cases hout with
  | created t hop ht hfree hnew =>
    have hne : k ≠ t := by
      rintro rfl
      rw [hswept] at hfree
      cases hfree
    refine ⟨fun hc ↦ ?_, fun _ ↦ ?_⟩
    · have hcomp := hc.2.1
      rw [hop] at hcomp
      exact absurd hcomp (by decide)
    · rw [CerberusApiGateway.modeOf, hnew, update_of_ne hne, hswept]
      rfl
  | completed _ hdone hnew =>
    constructor
    · rintro ⟨rfl, -⟩
      rw [CerberusApiGateway.modeOf, hnew, update_self]
      rfl
    · intro hno
      have hne : k ≠ h.sessionToken := fun he ↦ hno ⟨he.symm, hdone⟩
      rw [CerberusApiGateway.modeOf, hnew, update_of_ne hne, hswept]
      rfl
  | closed _ hclose hnew =>
    have hne : k ≠ h.sessionToken := by
      intro he
      rw [hnew, he, update_self] at hpresent
      exact hpresent rfl
    refine ⟨fun hc ↦ absurd hc.1.symm hne, fun _ ↦ ?_⟩
    rw [CerberusApiGateway.modeOf, hnew, update_of_ne hne, hswept]
    rfl
  | kept _ hno _ hnew =>
    refine ⟨fun hc ↦ absurd hc.2 hno, fun _ ↦ ?_⟩
    rw [CerberusApiGateway.modeOf, hnew, hswept]
    rfl

theorem continues_mode (hk : k ≠ 0) (hs : g.standing k = some (b, mode))
    (hc : Continues host k g c g') : (Readmits k g c → g'.modeOf k = some .act) ∧
      (¬ Readmits k g c → g'.modeOf k = some mode) := by
  have hpresent : g'.standing k ≠ none := by
    simpa [CerberusApiGateway.standing, ← Option.isSome_iff_ne_none] using hc.present
  cases serves_effect hc.serves with
  | refused hno =>
    refine ⟨?_, fun _ ↦ modeOf_of_standing hs⟩
    rintro ⟨hinit, h, -, hp, -⟩
    rcases hno with hno | hno
    · simp [hno] at hinit
    · simp [hno] at hp
  | answered hinit hp hout => exact answered_mode hk hs hinit hp hc hout
  | @ranked token mode _ _ _ _ hnew =>
    have hne : k ≠ token := by
      rintro rfl
      exact hc.operator mode rfl
    refine ⟨fun hno ↦ hno.elim, fun _ ↦ ?_⟩
    rw [CerberusApiGateway.modeOf, hnew, update_of_ne hne, hs]
    rfl
  | @created _ t _ _ hfree hnew =>
    have hne : k ≠ t := by
      rintro rfl
      rw [hs] at hfree
      cases hfree
    refine ⟨fun hno ↦ hno.elim, fun _ ↦ ?_⟩
    rw [CerberusApiGateway.modeOf, hnew, update_of_ne hne, hs]
    rfl
  | @closed token _ hnew =>
    have hne : k ≠ token := by
      rintro rfl
      rw [hnew, update_self] at hpresent
      exact hpresent rfl
    refine ⟨fun hno ↦ hno.elim, fun _ ↦ ?_⟩
    rw [CerberusApiGateway.modeOf, hnew, update_of_ne hne, hs]
    rfl
  | cleared hnew =>
    rw [hnew] at hpresent
    exact absurd rfl hpresent
  | @swept m =>
    refine ⟨fun hno ↦ hno.elim, fun _ ↦ ?_⟩
    obtain ⟨s, hsome⟩ := Option.isSome_iff_exists.mp hc.present
    have hfound := sessions_cleanup.mp hsome
    rw [CerberusApiGateway.modeOf, standing_cleanup_of_found hfound]
    simp only [CerberusApiGateway.standing, hfound.1, Option.map_some, Option.some.injEq,
      Prod.mk.injEq] at hs
    simp [hs.2]
  | kept hrequest _ hnew =>
    refine ⟨fun hno ↦ ?_, fun _ ↦ ?_⟩
    · cases c with
      | request m data => exact absurd rfl (hrequest m data)
      | _ => exact hno.elim
    · exact modeOf_of_standing (hnew ▸ hs)

/-- After the operator has set the mode of a session, it stays as it is exactly when it is `ACT`
or no message of the client readmits the session. -/
theorem mode_kept_iff (hpre : Run (Serves host) {} pre g)
    (hset : g.setPermissionMode k mode = (g₀, true)) (hrun : Run (Continues host k) g₀ tr u) :
    Throughout (fun g ↦ g.modeOf k = some mode) tr u ↔
      mode = .act ∨ ∀ e ∈ tr, ¬ Readmits k e.1 e.2 := by
  have hzero : g.standing 0 = none :=
    (hpre.invariant (I := fun g ↦ g.standing 0 = none) (fun _ _ _ ↦ serves_zero) rfl).2
  have hstart : k ≠ 0 ∧ g₀.modeOf k = some mode := by
    unfold CerberusApiGateway.setPermissionMode at hset
    split at hset
    · simp at hset
    · next s hs =>
      cases hset
      refine ⟨?_, by simp [CerberusApiGateway.modeOf, CerberusApiGateway.standing]⟩
      rintro rfl
      simp [CerberusApiGateway.standing, hs] at hzero
  have hstep (s : CerberusApiGateway) (c : Call) (t : CerberusApiGateway)
      (hi : s.modeOf k = some mode) (hc : Continues host k s c t) :
      (Readmits k s c → t.modeOf k = some .act) ∧
        (¬ Readmits k s c → t.modeOf k = some mode) := by
    obtain ⟨⟨b, mode'⟩, hs, rfl⟩ := Option.map_eq_some_iff.mp hi
    exact continues_mode hstart.1 hs hc
  by_cases hact : mode = .act
  · refine ⟨fun _ ↦ .inl hact, fun _ ↦ hrun.invariant (fun s c t hi hc ↦ ?_) hstart.2⟩
    by_cases hr : Readmits k s c
    · rw [(hstep s c t hi hc).1 hr, hact]
    · exact (hstep s c t hi hc).2 hr
  · have hkeep (s : CerberusApiGateway) (c : Call) (t : CerberusApiGateway) (_ : True)
        (hi : s.modeOf k = some mode) (hok : ¬ Readmits k s c) (hc : Continues host k s c t) :
        t.modeOf k = some mode := (hstep s c t hi hc).2 hok
    have hbreak (s : CerberusApiGateway) (c : Call) (t : CerberusApiGateway) (_ : True)
        (hi : s.modeOf k = some mode) (hno : ¬ ¬ Readmits k s c) (hc : Continues host k s c t) :
        ¬ t.modeOf k = some mode := by
      rw [(hstep s c t hi hc).1 (not_not.mp hno)]
      exact fun he ↦ hact (Option.some.inj he).symm
    rw [hrun.throughout_iff (fun _ _ _ _ _ ↦ trivial) hkeep hbreak trivial hstart.2]
    simp [hact]

/-- The gateway in which the operator has just allowed `EXECUTE`. -/
def allowed : CerberusApiGateway × Bool :=
  (follow (CerberusApiGateway.serve sampleHost) {} opening).2.setPermissionMode 1 .execute

theorem continues_request (hpresent : (g.serve sampleHost (.request {} data)).map
      (fun g' ↦ (g'.sessions k).isSome) = some true)
    (hlive : (g.sessions k).map (fun s ↦ s.isExpired 0) = some false) :
    ∃ g', Continues sampleHost k g (.request {} data) g' := by
  obtain ⟨g', hs, hk⟩ := Option.map_eq_some_iff.mp hpresent
  refine ⟨g', hs, by simp, ?_, hk⟩
  rintro ⟨-, -, s, hsome, hexp⟩
  rw [hsome] at hlive
  exact absurd (hexp.symm.trans (Option.some.inj hlive)) (by simp)

theorem mode_kept_iff_status : ∃ pre g tr u, Run (Serves sampleHost) {} pre g ∧
    g.setPermissionMode 1 .execute = (allowed.1, true) ∧
    Run (Continues sampleHost 1) allowed.1 tr u ∧
    tr = [(allowed.1, request .getStatus 1 [])] ∧
    Throughout (fun g ↦ g.modeOf 1 = some .execute) tr u := by
  have hpre := run_follow (CerberusApiGateway.serve sampleHost) {} opening
  have hset : allowed = (allowed.1, true) := Prod.ext rfl (by decide)
  obtain ⟨u, hu⟩ : ∃ u, Continues sampleHost 1 allowed.1 (request .getStatus 1 []) u :=
    continues_request (by decide) (by decide)
  have hrun : Run (Continues sampleHost 1) allowed.1 _ u := .cons hu (.nil u)
  refine ⟨_, _, _, u, hpre, hset, hrun, rfl, (mode_kept_iff hpre hset hrun).mpr (.inr ?_)⟩
  intro e he
  obtain rfl := List.mem_singleton.mp he
  rintro ⟨-, h, s, hp, -, -, hop⟩
  have hstatus : (deserializeHeader (buildMessage .getStatus 1 1 [] false none 0)).map
      (fun h ↦ h.opcode) = some .getStatus := by decide
  rw [hp] at hstatus
  have hopcode : h.opcode = .getStatus := Option.some.inj hstatus
  rw [hopcode] at hop
  rcases hop with ⟨hop, -⟩ | ⟨hop, -⟩
  · exact absurd hop (by decide)
  · exact absurd hop (by decide)

/-- The operator allows `EXECUTE`, and one message of the client takes it back. -/
theorem client_changes_mode : ∃ pre g tr u, Run (Serves sampleHost) {} pre g ∧
    g.setPermissionMode 1 .execute = (allowed.1, true) ∧
    Run (Continues sampleHost 1) allowed.1 tr u ∧
    tr = [(allowed.1, request .sessionAuth 1 [])] ∧ u.modeOf 1 = some .act ∧
    ¬ Throughout (fun g ↦ g.modeOf 1 = some .execute) tr u := by
  have hpre := run_follow (CerberusApiGateway.serve sampleHost) {} opening
  have hset : allowed = (allowed.1, true) := Prod.ext rfl (by decide)
  obtain ⟨u, hu⟩ : ∃ u, Continues sampleHost 1 allowed.1 (request .sessionAuth 1 []) u :=
    continues_request (by decide) (by decide)
  have hact : (allowed.1.serve sampleHost (request .sessionAuth 1 [])).map
      (fun g ↦ g.modeOf 1) = some (some .act) := by decide
  have hserves := hu.serves
  rw [Serves] at hserves
  rw [hserves] at hact
  have hmode : u.modeOf 1 = some .act := Option.some.inj hact
  refine ⟨_, _, _, u, hpre, hset, .cons hu (.nil u), rfl, hmode, ?_⟩
  rintro ⟨-, hend⟩
  rw [hmode] at hend
  exact absurd hend (by decide)

end Cerberus.Gateway
