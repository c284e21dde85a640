import Cerberus.Gateway.Effects

namespace Cerberus.Gateway

open Foundation.Trace Function

/-- What `generateSessionToken` draws from: its static counter, and the values that its random
device returns from now on. -/
structure TokenSource where
  counter : UInt32 := 1
  rd : Nat → UInt32

namespace TokenSource

def mixed (s : TokenSource) : UInt16 := (s.counter ^^^ (s.rd 0 <<< 1)).toUInt16

def advance (s : TokenSource) : TokenSource where
  counter := s.counter + 1
  rd := fun n ↦ s.rd (n + 1)

/-- The loop of `generateSessionToken`, cut off after some rounds. -/
def rounds : Nat → TokenSource → Option (UInt16 × TokenSource)
  | 0, _ => none
  | n + 1, s => if s.mixed = 0 then rounds n s.advance else some (s.mixed, s.advance)

/-- Two rounds are enough, see `rounds_eq`. -/
def generateSessionToken (s : TokenSource) : UInt16 × TokenSource :=
  if s.mixed = 0 then (s.advance.mixed, s.advance.advance) else (s.mixed, s.advance)

def tokens : Nat → TokenSource → List UInt16
  | 0, _ => []
  | n + 1, s => s.generateSessionToken.1 :: tokens n s.generateSessionToken.2

end TokenSource

inductive SessionCall
  | createSession (m : Moment) (source : TokenSource) (drawn : Nat)
  | closeSession (token : UInt16)

/-- A call on the session table; it has to return. -/
inductive SessionStep : CerberusApiGateway → SessionCall → CerberusApiGateway → Prop
  | created {g g' : CerberusApiGateway} {m : Moment} {source : TokenSource} {drawn : Nat}
      {token : UInt16} :
      g.createSession { m with generatedTokens := source.tokens drawn } = some (g', token) →
      SessionStep g (.createSession m source drawn) g'
  | closed (g : CerberusApiGateway) (token : UInt16) :
      SessionStep g (.closeSession token) (g.closeSession token).1

/-- With the counter of the generator at this value, and whatever its random device returns, the
call comes to a token, which is free and not zero, and opens that session and no other. -/
def CreatesSession (counter : UInt32) (g : CerberusApiGateway) : Prop :=
  ∀ (m : Moment) (rd : Nat → UInt32), ∃ drawn g' token,
    g.createSession { m with generatedTokens := (TokenSource.mk counter rd).tokens drawn } =
      some (g', token) ∧ token ≠ 0 ∧ g.sessions token = none ∧
      g'.sessions = update g.sessions token (some { lastActivity := m.now 0 })

/-- The token that is tried first is free, or no odd token is live. -/
def LeavesToken (g : CerberusApiGateway) : Prop :=
  g.sessions g.nextSessionToken = none ∨ ∀ t : UInt16, t % 2 = 1 → g.sessions t = none

variable {g g' : CerberusApiGateway} {m : Moment} {s : TokenSource} {c t : UInt32}
  {token : UInt16} {n : Nat} {source : TokenSource} {call : SessionCall}
  {tr : List (CerberusApiGateway × SessionCall)}

namespace TokenSource

theorem mixed_parity (s : TokenSource) : s.mixed.toNat % 2 = s.counter.toNat % 2 := by
  have hxor := Nat.xor_mod_two_eq (m := s.counter.toNat)
    (n := ((s.rd 0).toNat <<< ((1 : UInt32).toNat % 32)) % 2 ^ 32)
  simp only [mixed, UInt32.toNat_toUInt16, UInt32.toNat_xor, UInt32.toNat_shiftLeft]
  simp at hxor ⊢
  omega

theorem mixed_ne_zero (h : s.counter.toNat % 2 = 1) : s.mixed ≠ 0 := by
  intro h0
  have hodd := s.mixed_parity
  rw [h0, h] at hodd
  cases hodd

theorem advance_parity (h : s.counter.toNat % 2 = 0) : s.advance.counter.toNat % 2 = 1 := by
  simp only [advance, UInt32.toNat_add]
  have := s.counter.toNat_lt
  simp
  omega

theorem rounds_eq (s : TokenSource) (n : Nat) :
    rounds (n + 2) s = some s.generateSessionToken := by
  by_cases h : s.mixed = 0
  · have heven : s.counter.toNat % 2 = 0 := by
      rw [← s.mixed_parity, h]
      rfl
    simp [rounds, generateSessionToken, h, mixed_ne_zero (advance_parity heven)]
  · simp [rounds, generateSessionToken, h]

theorem generateSessionToken_ne_zero (s : TokenSource) : s.generateSessionToken.1 ≠ 0 := by
  unfold generateSessionToken
  split
  · next h =>
    apply mixed_ne_zero
    apply advance_parity
    rw [← s.mixed_parity, h]
    rfl
  · assumption

theorem odd_drawn (s : TokenSource) : ∃ t ∈ s.tokens 2, t.toNat % 2 = 1 := by
  by_cases hc : s.counter.toNat % 2 = 1
  · refine ⟨s.mixed, ?_, ?_⟩
    · simp [tokens, generateSessionToken, mixed_ne_zero hc]
    · rw [s.mixed_parity, hc]
  · have hnext : s.advance.counter.toNat % 2 = 1 := advance_parity (by omega)
    refine ⟨s.advance.mixed, ?_, ?_⟩
    · by_cases h : s.mixed = 0
      · simp [tokens, generateSessionToken, h]
      · simp [tokens, generateSessionToken, h, mixed_ne_zero hnext]
    · rw [s.advance.mixed_parity, hnext]

theorem xor_shift (h : c.toNat % 2 = t.toNat % 2) : c ^^^ (((c ^^^ t) >>> 1) <<< 1) = t := by
  apply UInt32.eq_of_toBitVec_eq
  ext i hi
  simp
  cases i with
  | zero =>
    simp [BitVec.getElem_eq_testBit_toNat, Nat.testBit_zero]
    grind
  | succ i => grind

def only (c : UInt32) (token : UInt16) : TokenSource where
  counter := c
  rd := fun n ↦
    let c := c + UInt32.ofNat n
    (c ^^^ (if c.toNat % 2 = 1 then token.toUInt32 else 0)) >>> 1

theorem only_advance : (only c token).advance = only (c + 1) token := by
  simp only [only, advance, mk.injEq, true_and]
  funext n
  have hn : c + UInt32.ofNat (n + 1) = c + 1 + UInt32.ofNat n := by
    rw [UInt32.ofNat_add, add_comm (UInt32.ofNat n), ← add_assoc]
    rfl
  rw [hn]

theorem only_mixed (ht : token.toNat % 2 = 1) :
    (only c token).mixed = if c.toNat % 2 = 1 then token else 0 := by
  have h0 : c + UInt32.ofNat 0 = c := by simp
  simp only [only, mixed, h0]
  split
  · next hc =>
    rw [xor_shift (by simpa [ht] using hc)]
    simp
  · next hc =>
    rw [xor_shift (by simp; omega)]
    rfl

theorem only_generates (ht : token.toNat % 2 = 1) :
    ∃ c', (only c token).generateSessionToken = (token, only c' token) := by
  have hne : token ≠ 0 := by
    rintro rfl
    cases ht
  unfold generateSessionToken
  by_cases hc : c.toNat % 2 = 1
  · exact ⟨c + 1, by simp [only_mixed ht, hc, hne, only_advance]⟩
  · have hnext : (c + 1).toNat % 2 = 1 :=
      advance_parity (s := only c token) (by simp only [only]; omega)
    refine ⟨c + 1 + 1, ?_⟩
    simp only [only_mixed ht, if_neg hc, if_true, only_advance, hnext]

theorem only_tokens (ht : token.toNat % 2 = 1) (n : Nat) :
    ∀ t ∈ (only c token).tokens n, t = token := by
  induction n generalizing c with
  | zero => simp [tokens]
  | succ n ih =>
    obtain ⟨c', hg⟩ := only_generates (c := c) ht
    intro t hmem
    rcases List.mem_cons.mp hmem with rfl | hmem
    · rw [hg]
    · rw [hg] at hmem
      exact ih t hmem

end TokenSource

theorem createSession_eq_some (hc : g.createSession m = some (g', token)) : token ≠ 0 ∧
    g.sessions token = none ∧
      g'.sessions = update g.sessions token (some { lastActivity := m.now 0 }) ∧
        g'.nextSessionToken ≠ 0 := by
  obtain ⟨t, hfind, he⟩ := Option.map_eq_some_iff.mp hc
  cases he
  obtain ⟨hne, hfree⟩ : token ≠ 0 ∧ g.sessions token = none := by
    simpa using List.find?_some hfind
  refine ⟨hne, hfree, rfl, ?_⟩
  dsimp only
  split
  · decide
  · assumption

theorem createSession_isSome : (g.createSession m).isSome ↔
    ∃ t ∈ g.nextSessionToken :: m.generatedTokens, t ≠ 0 ∧ g.sessions t = none := by
  simp [CerberusApiGateway.createSession]

theorem SessionStep.next_ne_zero (hs : SessionStep g call g') (h : g.nextSessionToken ≠ 0) :
    g'.nextSessionToken ≠ 0 := by
  cases hs with
  | created hc => exact (createSession_eq_some hc).2.2.2
  | closed => exact h

theorem createsSession_iff (h : g.nextSessionToken ≠ 0) :
    CreatesSession c g ↔ LeavesToken g := by
  constructor
  · intro hcreates
    by_contra hno
    obtain ⟨hnext, t, ht, hlive⟩ : g.sessions g.nextSessionToken ≠ none ∧
        ∃ t : UInt16, t % 2 = 1 ∧ g.sessions t ≠ none := by
      simpa [LeavesToken] using hno
    have hodd : t.toNat % 2 = 1 := by
      simpa using congrArg UInt16.toNat ht
    obtain ⟨n, g', token, hc, -, hfree, -⟩ := hcreates {} (TokenSource.only c t).rd
    obtain ⟨t', hmem, -, hfree'⟩ := createSession_isSome.mp (Option.isSome_of_eq_some hc)
    rcases List.mem_cons.mp hmem with rfl | hmem
    · exact hnext hfree'
    · rw [TokenSource.only_tokens hodd n t' hmem] at hfree'
      exact hlive hfree'
  · intro hleaves m rd
    obtain ⟨n, t, hmem, hne, hfree⟩ : ∃ n,
        ∃ t ∈ g.nextSessionToken :: (TokenSource.mk c rd).tokens n, t ≠ 0 ∧ g.sessions t = none := by
      rcases hleaves with hnext | hodd
      · exact ⟨0, g.nextSessionToken, by simp, h, hnext⟩
      · obtain ⟨t, hmem, ht⟩ := (TokenSource.mk c rd).odd_drawn
        refine ⟨2, t, List.mem_cons_of_mem _ hmem, ?_, hodd t ?_⟩
        · rintro rfl
          cases ht
        · apply UInt16.toNat_inj.mp
          simpa using ht
    obtain ⟨⟨g', token⟩, hc⟩ := Option.isSome_iff_exists.mp (createSession_isSome
      (g := g) (m := { m with generatedTokens := (TokenSource.mk c rd).tokens n }).mpr
        ⟨t, hmem, hne, hfree⟩)
    obtain ⟨hne', hfree', hsessions, -⟩ := createSession_eq_some hc
    exact ⟨n, g', token, hc, hne', hfree', hsessions⟩

/-- Opening a session succeeds for every sequence of random values exactly when the next token is
free or no odd token is live: where the table is full, and also where an odd token is taken and
the device does not come to another one, the loop goes on for ever. -/
theorem run_createsSession_iff (g₀ : CerberusApiGateway) (hnext : g₀.nextSessionToken ≠ 0)
    (hr : Run SessionStep g₀ tr g) (counter : UInt32) :
    CreatesSession counter g ↔ LeavesToken g := by
  apply createsSession_iff
  exact (hr.invariant (fun _ _ _ h hs ↦ SessionStep.next_ne_zero hs h) hnext).2

/-- The gateway after so many calls of `createSession`, each of which gets the next token. -/
def filled (n : Nat) : CerberusApiGateway where
  nextSessionToken := if UInt16.ofNat n + 1 = 0 then 1 else UInt16.ofNat n + 1
  sessions := fun t ↦ if 0 < t.toNat ∧ t.toNat ≤ n then some { lastActivity := 0 } else none

theorem filled_sessions (n : Nat) (t : UInt16) : (filled n).sessions t =
    if 0 < t.toNat ∧ t.toNat ≤ n then some { lastActivity := 0 } else none := rfl

theorem filled_step (source : TokenSource) (h : n + 1 < 65536) :
    SessionStep (filled n) (.createSession {} source 0) (filled (n + 1)) := by
  have hto : (UInt16.ofNat (n + 1)).toNat = n + 1 := by
    simp
    omega
  have hsucc : UInt16.ofNat n + 1 = UInt16.ofNat (n + 1) := by
    rw [UInt16.ofNat_add]
    rfl
  have hne : UInt16.ofNat (n + 1) ≠ 0 := by
    intro h0
    rw [h0] at hto
    cases hto
  have hnext : (filled n).nextSessionToken = UInt16.ofNat (n + 1) := by
    unfold filled
    rw [hsucc]
    exact if_neg hne
  have hfree : (filled n).sessions (UInt16.ofNat (n + 1)) = none := by
    rw [filled_sessions, hto]
    exact if_neg (by omega)
  have hsessions : update (filled n).sessions (UInt16.ofNat (n + 1)) (some { lastActivity := 0 }) =
      (filled (n + 1)).sessions := by
    funext t
    rw [update_apply, filled_sessions, filled_sessions]
    by_cases ht : t = UInt16.ofNat (n + 1)
    · rw [if_pos ht, if_pos (by rw [ht, hto]; omega)]
    · have htn : t.toNat ≠ n + 1 := fun he ↦ ht (UInt16.toNat_inj.mp (he.trans hto.symm))
      have hiff : (0 < t.toNat ∧ t.toNat ≤ n) ↔ (0 < t.toNat ∧ t.toNat ≤ n + 1) := by omega
      rw [if_neg ht]
      simp only [hiff]
  have hc : (filled n).createSession { generatedTokens := source.tokens 0 } =
      some (filled (n + 1), UInt16.ofNat (n + 1)) := by
    unfold CerberusApiGateway.createSession
    rw [hnext, List.find?_cons, decide_eq_true ⟨hne, hfree⟩]
    simp only [Option.map_some, hsessions]
    rfl
  exact .created hc

theorem filled_reachable (source : TokenSource) (h : n < 65536) :
    ∃ tr, Run SessionStep {} tr (filled n) := by
  induction n with
  | zero =>
    have h0 : filled 0 = {} := by
      have hsessions : (filled 0).sessions = fun _ ↦ none := by
        funext t
        rw [filled_sessions]
        exact if_neg (by omega)
      rw [show filled 0 = { filled 0 with sessions := fun _ ↦ none } by rw [← hsessions]]
      rfl
    rw [h0]
    exact ⟨[], .nil _⟩
  | succ n ih =>
    obtain ⟨tr, hr⟩ := ih (by omega)
    exact ⟨_, hr.append (.cons (filled_step source h) (.nil _))⟩

/-- The sessions 1 and 2 are live, and the next token is free. -/
theorem run_createsSession_iff_two_live : ∃ tr g, Run SessionStep {} tr g ∧
    g.sessions 1 ≠ none ∧ g.sessions 2 ≠ none ∧ CreatesSession 1 g := by
  obtain ⟨tr, hr⟩ := filled_reachable (n := 2) ⟨1, fun _ ↦ 0⟩ (by decide)
  have hfree : (filled 2).sessions (filled 2).nextSessionToken = none := rfl
  exact ⟨tr, filled 2, hr, by simp [filled_sessions], by simp [filled_sessions],
    (run_createsSession_iff {} (by decide) hr 1).mpr (.inl hfree)⟩

theorem filled_full : (filled 65535).createSession m = none := by
  rw [← Option.not_isSome_iff_eq_none, createSession_isSome]
  rintro ⟨t, -, hne, hfree⟩
  have hpos : 0 < t.toNat := by
    by_contra h0
    exact hne (UInt16.toNat_inj.mp (by simpa using h0))
  have hle : t.toNat ≤ 65535 := by
    have := t.toNat_lt
    omega
  simp [filled_sessions, hpos, hle] at hfree

theorem full_table_hangs : ¬ ∀ (tr : List (CerberusApiGateway × SessionCall))
    (g : CerberusApiGateway), Run SessionStep {} tr g → CreatesSession 1 g := by
  intro hall
  obtain ⟨tr, hr⟩ := filled_reachable (n := 65535) ⟨1, fun _ ↦ 0⟩ (by decide)
  obtain ⟨drawn, g', token, hc, -⟩ := hall tr _ hr {} (fun _ ↦ 0)
  rw [filled_full] at hc
  cases hc

end Cerberus.Gateway
