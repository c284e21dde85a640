import Cerberus.Rbpc.Guesses

namespace Cerberus.Rbpc

open Foundation Foundation.Bytes Foundation.Trace Foundation.FiniteMap Foundation.Wire
  MaintenanceDb Security

/-- The object, the PIN last issued to each node and the word registered since. -/
structure Ledger where
  sec : UserSecurity := {}
  pins : Dict ByteString := ∅
  words : Dict ByteString := ∅

def Ledger.record (d : CryptoBridge) (l : Ledger) (r : Request) : Ledger :=
  match r.call with
  | .generatePin node secret =>
    match l.sec.generatePin d r.moment node secret with
    | (s, none) => { l with sec := s }
    | (s, some pin) => { sec := s, pins := l.pins.insert node pin, words := l.words.erase node }
  | .registerMemorableWord node word salt =>
    match l.sec.registerMemorableWord d r.moment node word salt with
    | (s, .ok) => { l with sec := s, words := l.words.insert node word }
    | (s, _) => { l with sec := s }
  | .scrubAll => {}
  | _ => { l with sec := l.sec.serve d r }

def Records (d : CryptoBridge) (l : Ledger) (r : Request) (l' : Ledger) : Prop :=
  l' = l.record d r

/-- The commitments of a node are those of its PIN and of its word, each as far as the library
answered when it was made. -/
inductive Committed (d : CryptoBridge) (l : Ledger) (node : ByteString) : Prop
  | absent : l.sec.states[node]? = none → l.sec.confirmationSets[node]? = none →
      l.pins[node]? = none → Committed d l node
  | present {st : RBPCState} {cs : RBPCConfirmationSet} {pin : ByteString} :
      l.sec.states[node]? = some st → l.sec.confirmationSets[node]? = some cs →
      l.pins[node]? = some pin →
      (st.pinHash ≠ [] → st.pinHash = d.sha256 (pin ++ st.salt)) →
      (cs.wordCommitmentHash ≠ [] → ∃ word, l.words[node]? = some word ∧
        (cs.wordCommitmentHash = d.hmacSha256 [] commitmentLabel ∨ cs.wordCommitmentHash =
          d.hmacSha256 (d.sha256 (word ++ cs.wordSalt)) commitmentLabel)) →
      Committed d l node

variable {d : CryptoBridge} {s : UserSecurity} {l l' : Ledger} {m : Moment} {r : Request}
  {node pin word salt secret : ByteString} {st : RBPCState} {cs : RBPCConfirmationSet}

@[simp] theorem counted_pinHash : (counted st).pinHash = st.pinHash := by
  unfold counted
  split <;> rfl

@[simp] theorem counted_salt : (counted st).salt = st.salt := by
  unfold counted
  split <;> rfl

theorem Committed.setState (h : Committed d l node) (hst : l.sec.states[node]? = some st)
    {st' : RBPCState} (hhash : st'.pinHash = st.pinHash) (hsalt : st'.salt = st.salt) :
    Committed d { l with sec := l.sec.setState node st' } node := by
  cases h with
  | absent hnone => cases hnone.symm.trans hst
  | present hst' hcs hpin hp hw =>
    cases hst.symm.trans hst'
    have hst' : (l.sec.setState node st').states[node]? = some st' := by simp
    refine .present hst' hcs hpin ?_ hw
    rw [hhash, hsalt]
    exact hp

theorem Committed.frame (h : Committed d l node)
    (hst : l'.sec.states[node]? = l.sec.states[node]?)
    (hcs : l'.sec.confirmationSets[node]? = l.sec.confirmationSets[node]?)
    (hpins : l'.pins[node]? = l.pins[node]?) (hwords : l'.words[node]? = l.words[node]?) :
    Committed d l' node := by
  cases h with
  | absent h₁ h₂ h₃ => exact .absent (hst.trans h₁) (hcs.trans h₂) (hpins.trans h₃)
  | present h₁ h₂ h₃ hp hw =>
    exact .present (hst.trans h₁) (hcs.trans h₂) (hpins.trans h₃) hp (by rwa [hwords])

theorem verifyPin_committed (h : Committed d l node) :
    Committed d (l.record d ⟨.verifyPin node pin, m⟩) node := by
  have hend : PinEnd d l.sec m node pin _ := verifyPin_end
  simp only [Ledger.record, UserSecurity.serve]
  generalize l.sec.verifyPin d m node pin = p at hend ⊢
  cases hend with
  | closed => exact h
  | empty hst => exact h.setState hst counted_pinHash counted_salt
  | failed hst => exact h.setState hst counted_pinHash counted_salt
  | passed hst => exact h.setState hst rfl rfl

theorem verifyConfirmation_committed (h : Committed d l node) :
    Committed d (l.record d ⟨.verifyConfirmation node pin word, m⟩) node := by
  have hend : ConfirmationEnd d l.sec m node pin word _ := verifyConfirmation_end
  simp only [Ledger.record, UserSecurity.serve]
  generalize l.sec.verifyConfirmation d m node pin word = p at hend ⊢
  cases hend with
  | closed => exact h
  | pinFailed hst => exact h.setState hst counted_pinHash counted_salt
  | wordFailed hst => exact h.setState hst counted_pinHash counted_salt
  | passed hst => exact h.setState hst rfl rfl

theorem deriveCommitment_cases {up up' : Bool}
    (h : MemorableWord.deriveCommitment d up up' word salt ≠ []) :
    MemorableWord.deriveCommitment d up up' word salt = d.hmacSha256 [] commitmentLabel ∨
      MemorableWord.deriveCommitment d up up' word salt =
        d.hmacSha256 (d.sha256 (word ++ salt)) commitmentLabel := by
  cases up <;> cases up' <;>
    simp_all [MemorableWord.deriveCommitment, CryptoBridge.askHmacSha256, CryptoBridge.askSha256]

theorem registerMemorableWord_committed (h : Committed d l node) :
    Committed d (l.record d ⟨.registerMemorableWord node word salt, m⟩) node := by
  have hend : WordEnd d l.sec m node word salt _ := registerMemorableWord_end
  simp only [Ledger.record]
  generalize l.sec.registerMemorableWord d m node word salt = p at hend ⊢
  cases hend with
  | refused hne => cases ‹Answer› <;> first | exact h | exact absurd rfl hne
  | registered hcs hempty =>
    cases h with
    | absent _ hnone => cases hnone.symm.trans hcs
    | present hst hcs' hpin hp hw =>
      refine .present hst ((setConfirmationSet_confirmationSets node).trans (if_pos rfl)) hpin hp
        (fun hne ↦ ?_)
      exact ⟨word, by simp, deriveCommitment_cases hne⟩
  | differs => exact h

theorem generatePin_committed (h : Committed d l node) :
    Committed d (l.record d ⟨.generatePin node secret, m⟩) node := by
  have hend : IssueEnd d l.sec m node secret _ := generatePin_end
  simp only [Ledger.record]
  generalize l.sec.generatePin d m node secret = p at hend ⊢
  cases hend with
  | refused => exact h
  | @issued st cs pin _ _ hhash _ _ hnone =>
    have hst : ((l.sec.setState node st).setConfirmationSet node cs).states[node]? = some st := by
      simp
    have hcs : ((l.sec.setState node st).setConfirmationSet node cs).confirmationSets[node]? =
      some cs := by simp
    have hpin : (l.pins.insert node pin)[node]? = some pin := by simp
    refine .present hst hcs hpin (fun hne ↦ ?_) (fun hne ↦ absurd hnone hne)
    rw [hhash, CryptoBridge.askSha256] at hne ⊢
    split at hne
    · next hup => simp [hup]
    · exact absurd rfl hne

theorem record_sec : (l.record d r).sec = l.sec.serve d r := by
  obtain ⟨call, m⟩ := r
  cases call with
  | generatePin n secret =>
    simp only [Ledger.record, UserSecurity.serve]
    split <;> simp_all
  | registerMemorableWord n word salt =>
    simp only [Ledger.record, UserSecurity.serve]
    split <;> simp_all
  | _ => rfl

theorem record_other {node' : ByteString} (hn : r.call.nodeId = some node') (h : node' ≠ node) :
    (l.record d r).pins[node]? = l.pins[node]? ∧ (l.record d r).words[node]? = l.words[node]? := by
  obtain ⟨call, m⟩ := r
  cases call with
  | generatePin n secret =>
    obtain rfl : n = node' := Option.some.inj hn
    simp only [Ledger.record]
    split <;> simp [get_insert, get_erase, h]
  | registerMemorableWord n word salt =>
    obtain rfl : n = node' := Option.some.inj hn
    simp only [Ledger.record]
    split <;> simp [get_insert, h]
  | verifyPin n pin => exact ⟨rfl, rfl⟩
  | verifyConfirmation n pin word => exact ⟨rfl, rfl⟩
  | scrubAll => cases hn

theorem committed_empty : Committed d {} node := .absent (by simp) (by simp) (by simp)

theorem record_committed (h : Committed d l node) : Committed d (l.record d r) node := by
  cases hn : r.call.nodeId with
  | none =>
    obtain ⟨call, m⟩ := r
    cases call with
    | scrubAll =>
      have hgone : l.record d ⟨.scrubAll, m⟩ = {} := rfl
      rw [hgone]
      exact committed_empty
    | _ => cases hn
  | some n =>
    by_cases hne : n = node
    · subst hne
      obtain ⟨call, m⟩ := r
      cases call with
      | generatePin n' secret =>
        obtain rfl : n' = n := Option.some.inj hn
        exact generatePin_committed h
      | verifyPin n' pin =>
        obtain rfl : n' = n := Option.some.inj hn
        exact verifyPin_committed h
      | registerMemorableWord n' word salt =>
        obtain rfl : n' = n := Option.some.inj hn
        exact registerMemorableWord_committed h
      | verifyConfirmation n' pin word =>
        obtain rfl : n' = n := Option.some.inj hn
        exact verifyConfirmation_committed h
      | scrubAll => cases hn
    · obtain ⟨hst, hcs⟩ := serve_other (d := d) (s := l.sec) hn hne
      obtain ⟨hpins, hwords⟩ := record_other (d := d) (l := l) hn hne
      exact h.frame (record_sec ▸ hst) (record_sec ▸ hcs) hpins hwords

/-- The hash of the PIN was there when the PIN was issued, or is there now. -/
def UserSecurity.pinSealed (s : UserSecurity) (node : ByteString) (m : Moment) : Prop :=
  ∀ st, s.states[node]? = some st → isLocked st = true ∨ st.pinHash ≠ [] ∨ m.up 0 = true

/-- Where a confirmation gets as far as the word, the hash of the word was there when the word
was registered or is there now, and the word was not registered without a salt such that the
salt of the PIN ends it. -/
def Ledger.wordSealed (d : CryptoBridge) (l : Ledger) (node : ByteString) (m : Moment) : Prop :=
  ∀ st cs word, l.sec.states[node]? = some st → l.sec.confirmationSets[node]? = some cs →
    l.words[node]? = some word → isLocked st = false → cs.wordCommitmentHash ≠ [] →
    st.pinHash ≠ [] → m.up 0 = true → m.up 2 = true →
    (cs.wordCommitmentHash ≠ d.hmacSha256 [] commitmentLabel ∨ m.up 1 = true) ∧
      ¬ (m.up 1 = true ∧ cs.wordCommitmentHash ≠ d.hmacSha256 [] commitmentLabel ∧
        cs.wordSalt = [] ∧ st.salt ≠ [] ∧ st.salt <:+ word)

theorem pin_of_hash (hd : d.Ideal) (hp : st.pinHash ≠ [] → st.pinHash = d.sha256 (pin ++ st.salt))
    (hs : st.pinHash ≠ [] ∨ m.up 0 = true) {attempt : ByteString}
    (h : d.askSha256 (m.up 0) (attempt ++ st.salt) = st.pinHash) :
    m.up 0 = true ∧ st.pinHash ≠ [] ∧ attempt = pin := by
  cases hup : m.up 0 with
  | false =>
    simp only [hup, CryptoBridge.askSha256, Bool.false_eq_true, if_false, or_false] at h hs
    exact absurd h.symm hs
  | true =>
    simp only [hup, CryptoBridge.askSha256, if_true] at h
    have hne : st.pinHash ≠ [] := h ▸ hd.sha256_ne_nil _
    exact ⟨rfl, hne, List.append_cancel_right (hd.sha256_injective (h.trans (hp hne)))⟩

theorem word_of_commitment (hd : d.Ideal) {up up' : Bool} {attempt : ByteString}
    (hne : cs.wordCommitmentHash ≠ [])
    (hw : cs.wordCommitmentHash = d.hmacSha256 [] commitmentLabel ∨ cs.wordCommitmentHash =
      d.hmacSha256 (d.sha256 (word ++ cs.wordSalt)) commitmentLabel)
    (hs : up' = true →
      (cs.wordCommitmentHash ≠ d.hmacSha256 [] commitmentLabel ∨ up = true) ∧
        ¬ (up = true ∧ cs.wordCommitmentHash ≠ d.hmacSha256 [] commitmentLabel ∧
          cs.wordSalt = [] ∧ st.salt ≠ [] ∧ st.salt <:+ word))
    (h : MemorableWord.deriveCommitment d up up' attempt (saltOf st cs) =
      cs.wordCommitmentHash) : attempt = word := by
  cases up' with
  | false => exact absurd h.symm hne
  | true =>
    obtain ⟨hsealed, hcut⟩ := hs rfl
    simp only [MemorableWord.deriveCommitment, CryptoBridge.askHmacSha256, if_true] at h
    cases up with
    | false =>
      simp only [CryptoBridge.askSha256, Bool.false_eq_true, if_false, or_false] at h hsealed
      exact absurd h.symm hsealed
    | true =>
      simp only [CryptoBridge.askSha256, if_true] at h
      have hhashed : cs.wordCommitmentHash ≠ d.hmacSha256 [] commitmentLabel := by
        intro he
        exact hd.sha256_ne_nil _ (hd.hmac_injective _ (h.trans he))
      have heq : attempt ++ saltOf st cs = word ++ cs.wordSalt :=
        hd.sha256_injective (hd.hmac_injective _ (h.trans (hw.resolve_left hhashed)))
      by_cases hsalt : cs.wordSalt = []
      · simp only [saltOf, hsalt, List.isEmpty_nil, if_true, List.append_nil] at heq
        have hnone : st.salt = [] := by
          by_contra hst
          exact hcut ⟨rfl, hhashed, hsalt, hst, attempt, heq⟩
        simpa [hnone] using heq
      · simp only [saltOf, List.isEmpty_iff, hsalt, if_false] at heq
        exact List.append_cancel_right heq

theorem verifyPin_ok_iff {attempt : ByteString} :
    (s.verifyPin d m node attempt).2.text = [] ↔
      ∃ st, s.states[node]? = some st ∧ isLocked st = false ∧ attempt ≠ [] ∧
        d.askSha256 (m.up 0) (attempt ++ st.salt) = st.pinHash := by
  constructor
  · intro hok
    have hend : PinEnd d s m node attempt _ := verifyPin_end
    generalize s.verifyPin d m node attempt = p at hend hok
    cases hend with
    | closed ha => rcases ha with rfl | rfl <;> cases Answer.text_eq_nil.mp hok
    | empty => exact absurd hok (fail_text_ne_nil (by simp) (by simp))
    | failed => exact absurd hok (fail_text_ne_nil (by simp) (by simp))
    | passed hst hl hne hhash => exact ⟨_, hst, hl, hne, hhash⟩
  · rintro ⟨st, hst, hl, hne, hhash⟩
    simp [UserSecurity.verifyPin, hst, hl, hne, hhash, Answer.text]

theorem verifyConfirmation_ok_iff {attempt word : ByteString} :
    (s.verifyConfirmation d m node attempt word).2.text = [] ↔
      ∃ st cs, s.states[node]? = some st ∧ isLocked st = false ∧
        s.confirmationSets[node]? = some cs ∧ cs.wordCommitmentHash ≠ [] ∧
        d.askSha256 (m.up 0) (attempt ++ st.salt) = st.pinHash ∧
        MemorableWord.deriveCommitment d (m.up 1) (m.up 2) word (saltOf st cs) =
          cs.wordCommitmentHash := by
  constructor
  · intro hok
    have hend : ConfirmationEnd d s m node attempt word _ := verifyConfirmation_end
    generalize s.verifyConfirmation d m node attempt word = p at hend hok
    cases hend with
    | closed ha => rcases ha with rfl | rfl | rfl | rfl <;> cases Answer.text_eq_nil.mp hok
    | pinFailed => exact absurd hok (fail_text_ne_nil (by simp) (by simp))
    | wordFailed => exact absurd hok (fail_text_ne_nil (by simp) (by simp))
    | passed hst hl hcs hne hp hw => exact ⟨_, _, hst, hl, hcs, hne, hp, hw⟩
  · rintro ⟨st, cs, hst, hl, hcs, hne, hp, hw⟩
    simp [UserSecurity.verifyConfirmation, hst, hl, hcs, hne, hp, hw, Answer.text]

/-- The PIN is the only one that `verify_pin` takes, and with the registered word the only pair
that `verify_confirmation` takes. -/
def Ledger.failsClosed (d : CryptoBridge) (l : Ledger) (node pin : ByteString) (m : Moment) :
    Prop :=
  (∀ attempt, (l.sec.verifyPin d m node attempt).2.text = [] → attempt = pin) ∧
    ∀ attempt word, (l.sec.verifyConfirmation d m node attempt word).2.text = [] →
      attempt = pin ∧ l.words[node]? = some word

theorem failsClosed_of_sealed (hd : d.Ideal) (h : Committed d l node)
    (hpin : l.pins[node]? = some pin) (hs : l.sec.pinSealed node m)
    (hw : l.wordSealed d node m) : l.failsClosed d node pin m := by
  cases h with
  | absent _ _ hnone => cases hnone.symm.trans hpin
  | @present st cs pin' hst hcs hpin' hp hc =>
    obtain rfl : pin' = pin := Option.some.inj (hpin'.symm.trans hpin)
    have hknown (hl : isLocked st = false) : st.pinHash ≠ [] ∨ m.up 0 = true :=
      (hs st hst).resolve_left (by simp [hl])
    constructor
    · intro attempt hok
      obtain ⟨st', hst', hl, -, hhash⟩ := verifyPin_ok_iff.mp hok
      cases hst.symm.trans hst'
      exact (pin_of_hash hd hp (hknown hl) hhash).2.2
    · intro attempt word hok
      obtain ⟨st', cs', hst', hl, hcs', hne, hhash, hword⟩ := verifyConfirmation_ok_iff.mp hok
      cases hst.symm.trans hst'
      cases hcs.symm.trans hcs'
      obtain ⟨hup, hph, rfl⟩ := pin_of_hash hd hp (hknown hl) hhash
      obtain ⟨registered, hregistered, hcommitment⟩ := hc hne
      refine ⟨rfl, ?_⟩
      rw [hregistered, word_of_commitment hd hne hcommitment
        (fun hup' ↦ hw st cs registered hst hcs hregistered hl hne hph hup hup') hword]

/-- An attempt that is not the PIN passes when the hash was missing both times. -/
theorem pinSealed_of_failsClosed (h : l.failsClosed d node pin m) : l.sec.pinSealed node m := by
  intro st hst
  by_contra hc
  obtain ⟨hl, hhash, hup⟩ : isLocked st = false ∧ st.pinHash = [] ∧ m.up 0 = false := by
    simpa using hc
  have hok : (l.sec.verifyPin d m node (0 :: pin)).2.text = [] :=
    verifyPin_ok_iff.mpr ⟨st, hst, hl, by simp, by simp [CryptoBridge.askSha256, hup, hhash]⟩
  exact absurd (h.1 _ hok) (by simp)

theorem wordSealed_of_failsClosed (h : Committed d l node) (hpin : l.pins[node]? = some pin)
    (hf : l.failsClosed d node pin m) : l.wordSealed d node m := by
  intro st cs word hst hcs hword hl hne hph hup hup'
  cases h with
  | absent hnone => cases hnone.symm.trans hst
  | @present st' cs' pin' hst' hcs' hpin' hp hc =>
    cases hst.symm.trans hst'
    cases hcs.symm.trans hcs'
    obtain rfl : pin' = pin := Option.some.inj (hpin'.symm.trans hpin)
    have hright : d.askSha256 (m.up 0) (pin' ++ st.salt) = st.pinHash := by
      rw [hup, CryptoBridge.askSha256, if_pos rfl, hp hph]
    -- Every word whose commitment is the stored one is the registered word.
    have honly {attempt : ByteString} (ha : MemorableWord.deriveCommitment d (m.up 1) (m.up 2)
        attempt (saltOf st cs) = cs.wordCommitmentHash) : attempt = word := by
      have hok := verifyConfirmation_ok_iff.mpr ⟨st, cs, hst, hl, hcs, hne, hright, ha⟩
      exact Option.some.inj ((hf.2 _ _ hok).2.symm.trans hword)
    simp only [MemorableWord.deriveCommitment, hup', CryptoBridge.askHmacSha256, if_true] at honly
    constructor
    · by_contra hc'
      obtain ⟨hblind, hdown⟩ := not_or.mp hc'
      have hblind := (not_not.mp hblind).symm
      have hsame : 0 :: word = word := honly (by simpa [CryptoBridge.askSha256, hdown] using hblind)
      simp at hsame
    · rintro ⟨hup₁, hhashed, hnosalt, hsalt, rest, hrest⟩
      obtain ⟨registered, hregistered, hcommitment⟩ := hc hne
      obtain rfl : registered = word := Option.some.inj (hregistered.symm.trans hword)
      have hcut : rest = registered := by
        apply honly
        rw [hcommitment.resolve_left hhashed, hnosalt]
        simp [saltOf, hnosalt, CryptoBridge.askSha256, hup₁, hrest]
      rw [← hrest] at hcut
      exact hsalt (by simpa using hcut)

/-- In every state that a run from a new object reaches, for a node with a PIN: the calls fail
closed, whatever is tried, exactly when the hashes are sealed. -/
theorem fails_closed_iff {tr : List (Ledger × Request)} (hd : d.Ideal)
    (hrun : Run (Records d) {} tr l) (hpin : l.pins[node]? = some pin) :
    l.failsClosed d node pin m ↔ l.sec.pinSealed node m ∧ l.wordSealed d node m := by
  have hall : Throughout (fun l ↦ Committed d l node) tr l := by
    refine hrun.invariant (fun l r l' h hs ↦ ?_) committed_empty
    rw [hs]
    exact record_committed h
  constructor
  · intro hf
    exact ⟨pinSealed_of_failsClosed hf, wordSealed_of_failsClosed hall.2 hpin hf⟩
  · rintro ⟨hs, hw⟩
    exact failsClosed_of_sealed hd hall.2 hpin hs hw

theorem sampleBridge_ideal : sampleBridge.Ideal where
  sha256_injective := List.cons_injective
  sha256_ne_nil := by simp [sampleBridge]
  hmac_injective _ := List.cons_injective

theorem fails_closed_iff_enrolled : ∃ tr l, Run (Records sampleBridge) {} tr l ∧
    l.pins[sampleNode]? = some samplePin ∧
    l.failsClosed sampleBridge sampleNode samplePin {} := by
  have hrun : Run (Records sampleBridge) {} _ _ :=
    .cons (a := ⟨.generatePin sampleNode sampleSecret, {}⟩) rfl
      (.cons (a := register "tangerine") rfl (.nil _))
  refine ⟨_, _, hrun, ?hpin, (fails_closed_iff sampleBridge_ideal hrun ?hpin).mpr ⟨?_, ?_⟩⟩
  · decide
  · exact fun _ _ ↦ .inr (.inr rfl)
  · intro st cs word _ hcs _ _ _ _ _ _
    refine ⟨.inr rfl, fun hcut ↦ ?_⟩
    have hsalted : (Option.map RBPCConfirmationSet.wordSalt (some cs)) = some (lit "salt") := by
      rw [← hcs]
      decide
    simp only [Option.map_some, hcut.2.2.1] at hsalted
    cases hsalted

def outage : Moment := { up := fun _ ↦ false }

/-- A PIN issued without the library is the same for every node, and any PIN passes for it. -/
theorem unhashed_pin_accepted : ∃ tr l, Run (Records sampleBridge) {} tr l ∧
    l.pins[sampleNode]? = some (lit "012345") ∧
    (l.sec.verifyPin sampleBridge outage sampleNode (lit "999999")).2.text = [] ∧
    lit "999999" ≠ lit "012345" ∧
    ¬ l.failsClosed sampleBridge sampleNode (lit "012345") outage := by
  have hdiffer : lit "999999" ≠ lit "012345" := by decide
  have hrun : Run (Records sampleBridge) {} _ _ :=
    .cons (a := ⟨.generatePin sampleNode sampleSecret, outage⟩) rfl (.nil _)
  refine ⟨_, _, hrun, by decide, ?hok, hdiffer, fun hf ↦ hdiffer (hf.1 _ ?hok)⟩
  decide

end Cerberus.Rbpc
