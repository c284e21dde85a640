import Cerberus.Rbpc.Guesses

namespace Cerberus.Rbpc

open Foundation Foundation.Bytes Foundation.Trace Foundation.FiniteMap MaintenanceDb Security

inductive Verdict
  | passed
  | failed
  deriving DecidableEq

/-- The answers of an attempt that was counted, and that of success; any other says nothing. -/
def Answer.verdict : Answer → Option Verdict
  | .ok => some .passed
  | .emptyPinBurned | .emptyPin _ | .pinBurned | .pinFailed _ => some .failed
  | .pinLocked | .pinRefused _ | .wordLocked | .wordRefused _ => some .failed
  | _ => none

def UserSecurity.verdict (d : CryptoBridge) (s : UserSecurity) (node : ByteString) (r : Request) :
    Option Verdict :=
  match r.call with
  | .verifyPin n pin => if n = node then (s.verifyPin d r.moment n pin).2.verdict else none
  | .verifyConfirmation n pin word =>
    if n = node then (s.verifyConfirmation d r.moment n pin word).2.verdict else none
  | _ => none

/-- The call puts credentials of the node to the test: the node is registered and not locked, and
for a confirmation it has a word. -/
def UserSecurity.tests (s : UserSecurity) (node : ByteString) : Call → Prop
  | .verifyPin n _ => n = node ∧ ∃ st, s.states[node]? = some st ∧ isLocked st = false
  | .verifyConfirmation n _ _ => n = node ∧ ∃ st cs, s.states[node]? = some st ∧
      isLocked st = false ∧ s.confirmationSets[node]? = some cs ∧ cs.wordCommitmentHash ≠ []
  | _ => False

/-- The digests of the credentials are the commitments that are stored for the node. -/
def UserSecurity.matchesStored (d : CryptoBridge) (s : UserSecurity) (node : ByteString)
    (r : Request) : Prop :=
  ∃ st, s.states[node]? = some st ∧
    match r.call with
    | .verifyPin _ pin =>
      pin ≠ [] ∧ d.askSha256 (r.moment.up 0) (pin ++ st.salt) = st.pinHash
    | .verifyConfirmation _ pin word =>
      d.askSha256 (r.moment.up 0) (pin ++ st.salt) = st.pinHash ∧
        ∃ cs, s.confirmationSets[node]? = some cs ∧
          MemorableWord.deriveCommitment d (r.moment.up 1) (r.moment.up 2) word (saltOf st cs) =
            cs.wordCommitmentHash
    | _ => False

structure UserSecurity.Judged (d : CryptoBridge) (s : UserSecurity) (node : ByteString)
    (r : Request) : Prop where
  passed : s.verdict d node r = some .passed ↔ s.tests node r.call ∧ s.matchesStored d node r
  failed : s.verdict d node r = some .failed ↔ s.tests node r.call ∧ ¬s.matchesStored d node r

def Call.enrolls : Call → Bool
  | .generatePin .. | .registerMemorableWord .. => true
  | _ => false

def Call.verifies : Call → Bool
  | .verifyPin .. | .verifyConfirmation .. => true
  | _ => false

theorem Call.nodeId_of_verifies {c : Call} (h : c.verifies = true) : ∃ n, c.nodeId = some n := by
  cases c with
  | verifyPin n pin => exact ⟨n, rfl⟩
  | verifyConfirmation n pin word => exact ⟨n, rfl⟩
  | _ => cases h

def verdicts (d : CryptoBridge) (node : ByteString) (tr : List (UserSecurity × Request)) :
    List Verdict :=
  tr.filterMap (fun e ↦ e.1.verdict d node e.2)

def threeFailures : List Verdict := [.failed, .failed, .failed]

/-- The node has failed so often since it last passed, and is burned after the third time. -/
structure UserSecurity.Standing (s : UserSecurity) (node : ByteString) (k : Nat) : Prop where
  le : k ≤ 3
  absent : s.states[node]? = none → k = 0
  state : ∀ st, s.states[node]? = some st → st.failedAttempts = k ∧ st.burned = decide (3 ≤ k)

variable {d : CryptoBridge} {s s' t u : UserSecurity} {m : Moment} {r : Request}
  {node pin word : ByteString} {st : RBPCState} {k : Nat}

theorem UserSecurity.Standing.keep (h : s.Standing node k)
    (hs : s'.states[node]? = s.states[node]?) : s'.Standing node k :=
  ⟨h.le, fun ha ↦ h.absent (hs ▸ ha), fun st hst ↦ h.state st (hs ▸ hst)⟩

theorem UserSecurity.Standing.burned_iff (h : s.Standing node k) :
    s.isBurned node = true ↔ k = 3 := by
  rw [UserSecurity.isBurned]
  cases hst : s.states[node]? with
  | none =>
    have hk := h.absent hst
    simp [hk]
  | some st =>
    obtain ⟨hattempts, hburned⟩ := h.state st hst
    have hle := h.le
    simp only [Option.any_some, isLocked, isActive, hburned, hattempts]
    grind

theorem UserSecurity.Standing.lt (h : s.Standing node k) (hst : s.states[node]? = some st)
    (hl : isLocked st = false) : k < 3 := by
  have hburned := h.burned_iff
  rw [UserSecurity.isBurned, hst, Option.any_some, hl] at hburned
  exact lt_of_le_of_ne h.le (fun he ↦ absurd (hburned.mpr he) (by decide))

theorem UserSecurity.Standing.counted (h : s.Standing node k) (hst : s.states[node]? = some st)
    (hk : k < 3) : (s.setState node (counted st)).Standing node (k + 1) := by
  obtain ⟨hattempts, hburned⟩ := h.state st hst
  refine ⟨hk, by simp, fun st' hst' ↦ ?_⟩
  rw [setState_states, if_pos rfl] at hst'
  obtain rfl := Option.some.inj hst'
  rw [Rbpc.counted]
  split
  · next hthree => exact ⟨by simp [hattempts], by simp; omega⟩
  · next hthree =>
    refine ⟨by simp [hattempts], ?_⟩
    have hsmall : ¬ 3 ≤ k + 1 := by omega
    have hsmall' : ¬ 3 ≤ k := by omega
    simp [hburned, hsmall, hsmall']

theorem UserSecurity.Standing.authenticated (h : s.Standing node k)
    (hst : s.states[node]? = some st) (hk : k < 3) (now : Int) :
    (s.setState node (authenticated st now)).Standing node 0 := by
  obtain ⟨-, hburned⟩ := h.state st hst
  refine ⟨by decide, by simp, fun st' hst' ↦ ?_⟩
  rw [setState_states, if_pos rfl] at hst'
  obtain rfl := Option.some.inj hst'
  have hsmall : ¬ 3 ≤ k := by omega
  exact ⟨rfl, by simp [Rbpc.authenticated, hburned, hsmall]⟩

def Follows (node : ByteString) (k : Nat) (s s' : UserSecurity) : Option Verdict → Prop
  | none => s'.states[node]? = s.states[node]?
  | some .failed => k < 3 ∧ s'.Standing node (k + 1)
  | some .passed => k < 3 ∧ s'.Standing node 0

theorem fail_verdict {burnt : Answer} {failed : Int → Answer}
    (hburnt : burnt.verdict = some .failed) (hfailed : ∀ n, (failed n).verdict = some .failed) :
    (s.fail node st burnt failed).2.verdict = some .failed := by
  simp only [UserSecurity.fail]
  split
  · exact hburnt
  · exact hfailed _

theorem fail_follows (h : s.Standing node k) (hst : s.states[node]? = some st)
    (hl : isLocked st = false) {burnt : Answer} {failed : Int → Answer}
    (hburnt : burnt.verdict = some .failed) (hfailed : ∀ n, (failed n).verdict = some .failed) :
    Follows node k s (s.fail node st burnt failed).1 (s.fail node st burnt failed).2.verdict := by
  have hverdict : (s.fail node st burnt failed).2.verdict = some .failed :=
    fail_verdict hburnt hfailed
  have hk := h.lt hst hl
  rw [hverdict, fail_state]
  exact ⟨hk, h.counted hst hk⟩

theorem verifyPin_follows (h : s.Standing node k) :
    Follows node k s (s.verifyPin d m node pin).1 (s.verifyPin d m node pin).2.verdict := by
  have hend : PinEnd d s m node pin _ := verifyPin_end
  generalize s.verifyPin d m node pin = p at hend ⊢
  cases hend with
  | closed ha _ =>
    rcases ha with rfl | rfl
    · exact rfl
    · exact rfl
  | empty hst hl _ => exact fail_follows h hst hl rfl (fun _ ↦ rfl)
  | failed hst hl _ _ => exact fail_follows h hst hl rfl (fun _ ↦ rfl)
  | passed hst hl _ _ =>
    have hk := h.lt hst hl
    exact ⟨hk, h.authenticated hst hk _⟩

theorem verifyConfirmation_follows (h : s.Standing node k) :
    Follows node k s (s.verifyConfirmation d m node pin word).1
      (s.verifyConfirmation d m node pin word).2.verdict := by
  have hend : ConfirmationEnd d s m node pin word _ := verifyConfirmation_end
  generalize s.verifyConfirmation d m node pin word = p at hend ⊢
  cases hend with
  | closed ha _ =>
    rcases ha with rfl | rfl | rfl | rfl
    · exact rfl
    · exact rfl
    · exact rfl
    · exact rfl
  | pinFailed hst hl => exact fail_follows h hst hl rfl (fun _ ↦ rfl)
  | wordFailed hst hl => exact fail_follows h hst hl rfl (fun _ ↦ rfl)
  | passed hst hl _ _ _ _ =>
    have hk := h.lt hst hl
    exact ⟨hk, h.authenticated hst hk _⟩

theorem serve_follows (h : s.Standing node k) (hv : r.call.verifies = true) :
    Follows node k s (s.serve d r) (s.verdict d node r) := by
  obtain ⟨call, m⟩ := r
  cases call with
  | verifyPin n pin =>
    by_cases hn : n = node
    · subst hn
      have hverdict : s.verdict d n ⟨.verifyPin n pin, m⟩ =
          (s.verifyPin d m n pin).2.verdict := if_pos rfl
      rw [hverdict]
      exact verifyPin_follows h
    · simp only [UserSecurity.verdict, if_neg hn]
      exact (serve_other rfl hn).1
  | verifyConfirmation n pin word =>
    by_cases hn : n = node
    · subst hn
      have hverdict : s.verdict d n ⟨.verifyConfirmation n pin word, m⟩ =
          (s.verifyConfirmation d m n pin word).2.verdict := if_pos rfl
      rw [hverdict]
      exact verifyConfirmation_follows h
    · simp only [UserSecurity.verdict, if_neg hn]
      exact (serve_other rfl hn).1
  | _ => cases hv

theorem UserSecurity.Judged.untested (hv : s.verdict d node r = none)
    (ht : ¬s.tests node r.call) : s.Judged d node r :=
  ⟨by simp [hv, ht], by simp [hv, ht]⟩

theorem UserSecurity.Judged.right (hv : s.verdict d node r = some .passed)
    (ht : s.tests node r.call) (hm : s.matchesStored d node r) : s.Judged d node r :=
  ⟨by simp [hv, ht, hm], by simp [hv, hm]⟩

theorem UserSecurity.Judged.wrong (hv : s.verdict d node r = some .failed)
    (ht : s.tests node r.call) (hm : ¬s.matchesStored d node r) : s.Judged d node r :=
  ⟨by simp [hv, hm], by simp [hv, ht, hm]⟩

theorem verifyPin_judged : s.Judged d node ⟨.verifyPin node pin, m⟩ := by
  have hverdict : s.verdict d node ⟨.verifyPin node pin, m⟩ =
      (s.verifyPin d m node pin).2.verdict := if_pos rfl
  have hend : PinEnd d s m node pin _ := verifyPin_end
  generalize s.verifyPin d m node pin = p at hend hverdict
  cases hend with
  | closed ha hclosed =>
    refine .untested (hverdict.trans (by rcases ha with rfl | rfl <;> rfl)) ?_
    rintro ⟨-, st, hst, hl⟩
    rw [hclosed st hst] at hl
    cases hl
  | empty hst hl he =>
    refine .wrong (hverdict.trans (fail_verdict rfl fun _ ↦ rfl)) ⟨rfl, _, hst, hl⟩ ?_
    rintro ⟨st', -, hne, -⟩
    exact hne he
  | failed hst hl _ hne =>
    refine .wrong (hverdict.trans (fail_verdict rfl fun _ ↦ rfl)) ⟨rfl, _, hst, hl⟩ ?_
    rintro ⟨st', hst', -, heq⟩
    obtain rfl := Option.some.inj (hst.symm.trans hst')
    exact hne heq
  | passed hst hl hne heq => exact .right hverdict ⟨rfl, _, hst, hl⟩ ⟨_, hst, hne, heq⟩

theorem verifyConfirmation_judged :
    s.Judged d node ⟨.verifyConfirmation node pin word, m⟩ := by
  have hverdict : s.verdict d node ⟨.verifyConfirmation node pin word, m⟩ =
      (s.verifyConfirmation d m node pin word).2.verdict := if_pos rfl
  have hend : ConfirmationEnd d s m node pin word _ := verifyConfirmation_end
  generalize s.verifyConfirmation d m node pin word = p at hend hverdict
  cases hend with
  | closed ha hclosed =>
    refine .untested (hverdict.trans (by rcases ha with rfl | rfl | rfl | rfl <;> rfl)) ?_
    rintro ⟨-, st, cs, hst, hl, hcs, hne⟩
    rcases hclosed st cs hst hcs with hlocked | hempty
    · rw [hlocked] at hl
      cases hl
    · exact hne hempty
  | pinFailed hst hl hcs hne hpin =>
    refine .wrong (hverdict.trans (fail_verdict rfl fun _ ↦ rfl)) ⟨rfl, _, _, hst, hl, hcs, hne⟩ ?_
    rintro ⟨st', hst', heq, -⟩
    obtain rfl := Option.some.inj (hst.symm.trans hst')
    exact hpin heq
  | wordFailed hst hl hcs hne hword =>
    refine .wrong (hverdict.trans (fail_verdict rfl fun _ ↦ rfl)) ⟨rfl, _, _, hst, hl, hcs, hne⟩ ?_
    rintro ⟨st', hst', -, cs', hcs', heq⟩
    obtain rfl := Option.some.inj (hst.symm.trans hst')
    obtain rfl := Option.some.inj (hcs.symm.trans hcs')
    exact hword heq
  | passed hst hl hcs hne hpin hword =>
    exact .right hverdict ⟨rfl, _, _, hst, hl, hcs, hne⟩ ⟨_, hst, hpin, _, hcs, hword⟩

theorem verifies_judged (hv : r.call.verifies = true) : s.Judged d node r := by
  obtain ⟨call, m⟩ := r
  cases call with
  | verifyPin n pin =>
    by_cases hn : n = node
    · subst hn
      exact verifyPin_judged
    · exact .untested (if_neg hn) (fun ht ↦ hn ht.1)
  | verifyConfirmation n pin word =>
    by_cases hn : n = node
    · subst hn
      exact verifyConfirmation_judged
    · exact .untested (if_neg hn) (fun ht ↦ hn ht.1)
  | _ => cases hv

theorem verdicts_cons (tr : List (UserSecurity × Request)) :
    verdicts d node ((s, r) :: tr) = (s.verdict d node r).toList ++ verdicts d node tr := by
  rw [verdicts, List.filterMap_cons]
  cases s.verdict d node r <;> rfl

theorem threeFailures_failed {v : List Verdict} :
    threeFailures <:+: List.replicate k .failed ++ .failed :: v ↔
      threeFailures <:+: List.replicate (k + 1) .failed ++ v := by
  rw [List.replicate_succ', List.append_assoc, List.singleton_append]

theorem threeFailures_passed {v : List Verdict} (hk : k < 3) :
    threeFailures <:+: List.replicate k .failed ++ .passed :: v ↔ threeFailures <:+: v := by
  interval_cases k <;> simp [threeFailures, List.infix_cons_iff, List.replicate_succ]

theorem standing_run {tr : List (UserSecurity × Request)} (h : Run (Serves d) s tr u)
    (hv : ∀ e ∈ tr, e.2.call.verifies = true) (hs : s.Standing node k) :
    ∃ k', u.Standing node k' ∧
      (k' = 3 ↔ threeFailures <:+: List.replicate k .failed ++ verdicts d node tr) ∧
      (k = 3 → u.states[node]? = s.states[node]?) := by
  induction h generalizing k with
  | nil s =>
    refine ⟨k, hs, ?_, fun _ ↦ rfl⟩
    have hle := hs.le
    rw [verdicts, List.filterMap_nil, List.append_nil]
    interval_cases k <;> decide
  | @cons s t u r tr hstep hrun ih =>
    have hfollows := serve_follows (d := d) hs (hv (s, r) (by simp))
    have hrest : ∀ e ∈ tr, e.2.call.verifies = true := fun e he ↦ hv e (by simp [he])
    subst hstep
    cases hverdict : s.verdict d node r with
    | none =>
      rw [hverdict] at hfollows
      obtain ⟨k', hk', hiff, hfixed⟩ := ih hrest (hs.keep hfollows)
      refine ⟨k', hk', ?_, fun hk ↦ (hfixed hk).trans hfollows⟩
      rwa [verdicts_cons, hverdict]
    | some v =>
      rw [hverdict] at hfollows
      rw [verdicts_cons, hverdict]
      cases v with
      | failed =>
        obtain ⟨hk, hnext⟩ := hfollows
        obtain ⟨k', hk', hiff, -⟩ := ih hrest hnext
        exact ⟨k', hk', hiff.trans threeFailures_failed.symm, fun he ↦ by omega⟩
      | passed =>
        obtain ⟨hk, hnext⟩ := hfollows
        obtain ⟨k', hk', hiff, -⟩ := ih hrest hnext
        exact ⟨k', hk', hiff.trans (threeFailures_passed hk).symm, fun he ↦ by omega⟩

theorem serve_enrolled (h : ∀ node, s.Standing node 0) (he : r.call.enrolls = true) :
    ∀ node, (s.serve d r).Standing node 0 := by
  intro node
  obtain ⟨call, m⟩ := r
  cases call with
  | generatePin n secret =>
    have hend : IssueEnd d s m n secret _ := generatePin_end
    simp only [UserSecurity.serve]
    generalize s.generatePin d m n secret = p at hend ⊢
    cases hend with
    | refused _ => exact h node
    | @issued st cs pin _ _ _ hattempts hl _ =>
      by_cases hn : n = node
      · refine ⟨by decide, fun _ ↦ rfl, fun st' hst' ↦ ?_⟩
        rw [setConfirmationSet_states, setState_states, if_pos hn] at hst'
        obtain rfl := Option.some.inj hst'
        have hburned : st.burned = false := by
          simp only [isLocked, Bool.or_eq_false_iff] at hl
          exact hl.1
        exact ⟨hattempts, hburned⟩
      · exact (h node).keep (by simp [hn])
  | registerMemorableWord n word salt =>
    refine (h node).keep ?_
    simp only [UserSecurity.serve]
    rw [registerMemorableWord_states]
  | _ => cases he

theorem enrolled_standing {setup : List (UserSecurity × Request)}
    (h : Run (Serves d) {} setup s) (he : ∀ e ∈ setup, e.2.call.enrolls = true) :
    ∀ node, s.Standing node 0 := by
  have hnew (node : ByteString) : UserSecurity.Standing {} node 0 :=
    ⟨by decide, fun _ ↦ rfl, fun st hst ↦ by simp at hst⟩
  have hstep (s : UserSecurity) (r : Request) (t : UserSecurity) (hs : ∀ node, s.Standing node 0)
      (hr : r.call.enrolls = true) (ht : Serves d s r t) : ∀ node, t.Standing node 0 := by
    rw [ht]
    exact serve_enrolled hs hr
  exact (h.guarded hstep hnew he).2

/-- After PINs were issued and words registered, whatever is verified in whatever order: a node is
burned exactly when three counted failures came without a success between them, it never counts
more than three, once burned its state stays, and a call for another node leaves it alone. A call
is a success or a failure as the digests of its credentials are the stored ones or not. -/
theorem burned_iff_three_failures {setup tr : List (UserSecurity × Request)}
    (hsetup : Run (Serves d) {} setup s) (henrolls : ∀ e ∈ setup, e.2.call.enrolls = true)
    (h : Run (Serves d) s tr u) (hverifies : ∀ e ∈ tr, e.2.call.verifies = true)
    (node : ByteString) :
    (u.isBurned node = true ↔ threeFailures <:+: verdicts d node tr) ∧
    (∀ st, u.states[node]? = some st →
      st.failedAttempts ≤ 3 ∧ (st.burned = true ↔ u.isBurned node = true)) ∧
    (∀ e ∈ tr, e.1.isBurned node = true → u.states[node]? = e.1.states[node]?) ∧
    (∀ e ∈ tr, e.2.call.nodeId ≠ some node →
      (e.1.serve d e.2).states[node]? = e.1.states[node]?) ∧
    (∀ e ∈ tr, e.1.Judged d node e.2) := by
  have hs := enrolled_standing hsetup henrolls node
  obtain ⟨k, hk, hiff, -⟩ := standing_run h hverifies hs
  rw [List.replicate_zero, List.nil_append] at hiff
  refine ⟨hk.burned_iff.trans hiff, fun st hst ↦ ?_, fun e he hb ↦ ?_, fun e he hn ↦ ?_,
    fun e he ↦ verifies_judged (hverifies e he)⟩
  · obtain ⟨hattempts, hburned⟩ := hk.state st hst
    have hle := hk.le
    refine ⟨by omega, ?_⟩
    rw [hburned, hk.burned_iff, decide_eq_true_iff]
    omega
  · obtain ⟨before, after, rfl⟩ := List.append_of_mem he
    obtain ⟨v, hpre, hv, hpost⟩ := h.cut
    obtain ⟨k₁, hk₁, -, -⟩ :=
      standing_run hpre (fun e' he' ↦ hverifies e' (by simp [he'])) hs
    obtain ⟨k₂, -, -, hfixed⟩ := standing_run (.cons hv hpost)
      (fun e' he' ↦ hverifies e' (List.mem_append_right _ he')) hk₁
    exact hfixed (hk₁.burned_iff.mp hb)
  · obtain ⟨n, hc⟩ := Call.nodeId_of_verifies (hverifies e he)
    refine (serve_other hc ?_).1
    rintro rfl
    exact hn hc

/-- A wrong PIN is forgiven for the right one; then three wrong words burn the node. -/
theorem burned_iff_three_failures_words : ∃ setup tr u,
    Run (Serves sampleBridge) {} setup enrolled ∧ Run (Serves sampleBridge) enrolled tr u ∧
      verdicts sampleBridge sampleNode tr = [.failed, .passed, .failed, .failed, .failed] ∧
      u.isBurned sampleNode = true := by
  have hsetup : Run (Serves sampleBridge) {} _ enrolled :=
    .cons (a := ⟨.generatePin sampleNode sampleSecret, {}⟩) rfl
      (.cons (a := ⟨.registerMemorableWord sampleNode (lit "tangerine") (lit "salt"), {}⟩) rfl
        (.nil _))
  have hrun : Run (Serves sampleBridge) enrolled _ _ :=
    .cons (a := ⟨.verifyPin sampleNode (lit "1"), {}⟩) rfl
      (.cons (a := ⟨.verifyPin sampleNode samplePin, {}⟩) rfl
        (.cons (a := confirm "clementine") rfl (.cons (a := confirm "nectarine") rfl
          (.cons (a := confirm "mandarine") rfl (.nil _)))))
  refine ⟨_, _, _, hsetup, hrun, by decide, ?_⟩
  refine (burned_iff_three_failures hsetup ?_ hrun ?_ sampleNode).1.mpr (by decide)
  · simp [Call.enrolls]
  · simp [Call.verifies, confirm]

end Cerberus.Rbpc
