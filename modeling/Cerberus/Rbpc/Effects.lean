import Cerberus.Foundation.FiniteMap
import Cerberus.Rbpc.Model

namespace Cerberus.Rbpc

open Foundation Foundation.Bytes Foundation.FiniteMap MaintenanceDb Security

variable {d : CryptoBridge} {s s' u : UserSecurity} {m : Moment} {r : Request}
  {node pin word salt : ByteString} {st : RBPCState} {cs : RBPCConfirmationSet}

/-- The ways `generate_pin` can end. -/
inductive IssueEnd (d : CryptoBridge) (s : UserSecurity) (m : Moment)
    (node secret : ByteString) : UserSecurity × Option ByteString → Prop
  | refused : node = [] ∨ secret = [] → IssueEnd d s m node secret (s, none)
  | issued {st : RBPCState} {cs : RBPCConfirmationSet} (pin : ByteString) :
      node ≠ [] → secret ≠ [] → st.pinHash = d.askSha256 (m.up 5) (pin ++ st.salt) →
      st.failedAttempts = 0 → isLocked st = false → cs.wordCommitmentHash = [] →
      IssueEnd d s m node secret ((s.setState node st).setConfirmationSet node cs, some pin)

theorem generatePin_end {secret : ByteString} :
    IssueEnd d s m node secret (s.generatePin d m node secret) := by
  unfold UserSecurity.generatePin
  split
  · next hempty => exact .refused (by simpa using hempty)
  · next hempty =>
    obtain ⟨hn, hs⟩ : node ≠ [] ∧ secret ≠ [] := by simpa using hempty
    exact .issued _ hn hs rfl rfl rfl rfl

/-- The ways `verify_pin` can end. -/
inductive PinEnd (d : CryptoBridge) (s : UserSecurity) (m : Moment) (node pin : ByteString) :
    UserSecurity × Answer → Prop
  | closed {a : Answer} : a = .nodeNotRegistered ∨ a = .pinDisabled →
      (∀ st, s.states[node]? = some st → isLocked st = true) → PinEnd d s m node pin (s, a)
  | empty {st : RBPCState} : s.states[node]? = some st → isLocked st = false → pin = [] →
      PinEnd d s m node pin (s.fail node st .emptyPinBurned .emptyPin)
  | failed {st : RBPCState} : s.states[node]? = some st → isLocked st = false → pin ≠ [] →
      d.askSha256 (m.up 0) (pin ++ st.salt) ≠ st.pinHash →
      PinEnd d s m node pin (s.fail node st .pinBurned .pinFailed)
  | passed {st : RBPCState} : s.states[node]? = some st → isLocked st = false → pin ≠ [] →
      d.askSha256 (m.up 0) (pin ++ st.salt) = st.pinHash →
      PinEnd d s m node pin (s.setState node (authenticated st (m.now 0)), .ok)

theorem verifyPin_end : PinEnd d s m node pin (s.verifyPin d m node pin) := by
  unfold UserSecurity.verifyPin
  cases hst : s.states[node]? with
  | none => exact .closed (.inl rfl) (by simp [hst])
  | some st =>
    simp only
    split
    · next hl => exact .closed (.inr rfl) (by simp [hst, hl])
    · next hl =>
      have hl : isLocked st = false := by simpa using hl
      split
      · next he => exact .empty hst hl (by simpa using he)
      · next he =>
        have he : pin ≠ [] := by simpa using he
        split
        · next hp => exact .passed hst hl he hp
        · next hp => exact .failed hst hl he hp

def Answer.deniesWord : Answer → Bool
  | .alreadyRegistered => true
  | .wordLocked => true
  | .wordRefused _ => true
  | _ => false

/-- The ways `register_memorable_word` can end. -/
inductive WordEnd (d : CryptoBridge) (s : UserSecurity) (m : Moment)
    (node word salt : ByteString) : UserSecurity × Answer → Prop
  | refused {a : Answer} : a ≠ .ok → a.deniesWord = false → WordEnd d s m node word salt (s, a)
  | registered {cs : RBPCConfirmationSet} : s.confirmationSets[node]? = some cs →
      cs.wordCommitmentHash = [] →
      WordEnd d s m node word salt
        (s.setConfirmationSet node (registered cs
          (MemorableWord.deriveCommitment d (m.up 0) (m.up 1) word salt) salt), .ok)
  | differs {cs : RBPCConfirmationSet} : MemorableWord.validate word = .ok →
      word.any isStructural = false → s.confirmationSets[node]? = some cs →
      cs.wordCommitmentHash ≠ [] →
      MemorableWord.deriveCommitment d (m.up 0) (m.up 1) word salt ≠ cs.wordCommitmentHash →
      WordEnd d s m node word salt (s, .alreadyRegistered)

theorem registerMemorableWord_end :
    WordEnd d s m node word salt (s.registerMemorableWord d m node word salt) := by
  unfold UserSecurity.registerMemorableWord
  split
  · next hv =>
    refine .refused hv ?_
    unfold MemorableWord.validate
    split_ifs <;> rfl
  · next hv =>
    have hv : MemorableWord.validate word = .ok := by simpa using hv
    split
    · exact .refused (by simp) rfl
    · next hstruct =>
      cases hcs : s.confirmationSets[node]? with
      | none => exact .refused (by simp) rfl
      | some cs =>
        simp only
        split
        · next hempty => exact .registered hcs (by simpa using hempty)
        · next hempty =>
          split
          · exact .refused (by simp) rfl
          · next hne => exact .differs hv (by simpa using hstruct) hcs (by simpa using hempty) hne

/-- The ways `verify_confirmation` can end. -/
inductive ConfirmationEnd (d : CryptoBridge) (s : UserSecurity) (m : Moment)
    (node pin word : ByteString) : UserSecurity × Answer → Prop
  | closed {a : Answer} : a = .nodeNotProvisioned ∨ a = .confirmationDisabled ∨
        a = .confirmationSetNotFound ∨ a = .wordNotRegistered →
      (∀ st cs, s.states[node]? = some st → s.confirmationSets[node]? = some cs →
        isLocked st = true ∨ cs.wordCommitmentHash = []) → ConfirmationEnd d s m node pin word (s, a)
  | pinFailed {st : RBPCState} {cs : RBPCConfirmationSet} : s.states[node]? = some st →
      isLocked st = false → s.confirmationSets[node]? = some cs → cs.wordCommitmentHash ≠ [] →
      d.askSha256 (m.up 0) (pin ++ st.salt) ≠ st.pinHash →
      ConfirmationEnd d s m node pin word (s.fail node st .pinLocked .pinRefused)
  | wordFailed {st : RBPCState} {cs : RBPCConfirmationSet} : s.states[node]? = some st →
      isLocked st = false → s.confirmationSets[node]? = some cs → cs.wordCommitmentHash ≠ [] →
      MemorableWord.deriveCommitment d (m.up 1) (m.up 2) word (saltOf st cs) ≠
        cs.wordCommitmentHash →
      ConfirmationEnd d s m node pin word (s.fail node st .wordLocked .wordRefused)
  | passed {st : RBPCState} {cs : RBPCConfirmationSet} : s.states[node]? = some st →
      isLocked st = false → s.confirmationSets[node]? = some cs → cs.wordCommitmentHash ≠ [] →
      d.askSha256 (m.up 0) (pin ++ st.salt) = st.pinHash →
      MemorableWord.deriveCommitment d (m.up 1) (m.up 2) word (saltOf st cs) =
        cs.wordCommitmentHash →
      ConfirmationEnd d s m node pin word (s.setState node (authenticated st (m.now 0)), .ok)

theorem verifyConfirmation_end :
    ConfirmationEnd d s m node pin word (s.verifyConfirmation d m node pin word) := by
  unfold UserSecurity.verifyConfirmation
  cases hst : s.states[node]? with
  | none => exact .closed (by simp) (by simp [hst])
  | some st =>
    simp only
    split
    · next hl =>
      exact .closed (by simp) (fun _ _ h _ ↦ .inl (Option.some.inj (hst.symm.trans h) ▸ hl))
    · next hl =>
      have hl : isLocked st = false := by simpa using hl
      cases hcs : s.confirmationSets[node]? with
      | none => exact .closed (by simp) (by simp [hcs])
      | some cs =>
        simp only
        split
        · next hempty =>
          have hempty : cs.wordCommitmentHash = [] := by simpa using hempty
          exact .closed (by simp)
            (fun _ _ _ h ↦ .inr (Option.some.inj (hcs.symm.trans h) ▸ hempty))
        · next hempty =>
          have hempty : cs.wordCommitmentHash ≠ [] := by simpa using hempty
          split
          · next hp => exact .pinFailed hst hl hcs hempty hp
          · next hp =>
            split
            · next hw => exact .wordFailed hst hl hcs hempty hw
            · next hw =>
              exact .passed hst hl hcs hempty (by simpa using hp) (by simpa using hw)

@[simp] theorem setState_states (node' : ByteString) :
    (s.setState node' st).states[node]? = if node' = node then some st else s.states[node]? :=
  get_insert _ _ _ _

@[simp] theorem setState_confirmationSets (node' : ByteString) :
    (s.setState node' st).confirmationSets = s.confirmationSets := rfl

@[simp] theorem setConfirmationSet_states (node' : ByteString) :
    (s.setConfirmationSet node' cs).states = s.states := rfl

@[simp] theorem setConfirmationSet_confirmationSets (node' : ByteString) :
    (s.setConfirmationSet node' cs).confirmationSets[node]? =
      if node' = node then some cs else s.confirmationSets[node]? :=
  get_insert _ _ _ _

@[simp] theorem fail_state (node' : ByteString) (burnt : Answer) (failed : Int → Answer) :
    (s.fail node' st burnt failed).1 = s.setState node' (counted st) := rfl

theorem registerMemorableWord_states :
    (s.registerMemorableWord d m node word salt).1.states = s.states := by
  have hend : WordEnd d s m node word salt _ := registerMemorableWord_end
  generalize s.registerMemorableWord d m node word salt = p at hend ⊢
  cases hend with
  | refused => rfl
  | registered => rfl
  | differs => rfl

theorem serve_other {node' : ByteString} (hn : r.call.nodeId = some node') (h : node' ≠ node) :
    (s.serve d r).states[node]? = s.states[node]? ∧
      (s.serve d r).confirmationSets[node]? = s.confirmationSets[node]? := by
  obtain ⟨call, m⟩ := r
  cases call with
  | generatePin n secret =>
    obtain rfl : n = node' := Option.some.inj hn
    have hend : IssueEnd d s m n secret _ := generatePin_end
    simp only [UserSecurity.serve]
    generalize s.generatePin d m n secret = p at hend ⊢
    cases hend <;> simp [h]
  | verifyPin n pin =>
    obtain rfl : n = node' := Option.some.inj hn
    have hend : PinEnd d s m n pin _ := verifyPin_end
    simp only [UserSecurity.serve]
    generalize s.verifyPin d m n pin = p at hend ⊢
    cases hend <;> simp [h]
  | registerMemorableWord n word salt =>
    obtain rfl : n = node' := Option.some.inj hn
    have hend : WordEnd d s m n word salt _ := registerMemorableWord_end
    simp only [UserSecurity.serve]
    generalize s.registerMemorableWord d m n word salt = p at hend ⊢
    cases hend <;> simp [h]
  | verifyConfirmation n pin word =>
    obtain rfl : n = node' := Option.some.inj hn
    have hend : ConfirmationEnd d s m n pin word _ := verifyConfirmation_end
    simp only [UserSecurity.serve]
    generalize s.verifyConfirmation d m n pin word = p at hend ⊢
    cases hend <;> simp [h]
  | scrubAll => cases hn

end Cerberus.Rbpc
