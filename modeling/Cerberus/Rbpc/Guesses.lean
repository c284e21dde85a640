import Cerberus.Rbpc.Burn

namespace Cerberus.Rbpc

open Foundation Foundation.Bytes Foundation.Trace Foundation.FiniteMap MaintenanceDb Security

def UserSecurity.denied (d : CryptoBridge) (s : UserSecurity) (node : ByteString) (r : Request) :
    Option ByteString :=
  match r.call with
  | .registerMemorableWord n word salt =>
    if n = node ∧ (s.registerMemorableWord d r.moment n word salt).2.deniesWord = true
    then some word else none
  | .verifyConfirmation n pin word =>
    if n = node ∧ (s.verifyConfirmation d r.moment n pin word).2.deniesWord = true
    then some word else none
  | _ => none

def UserSecurity.confirms (d : CryptoBridge) (s : UserSecurity) (node : ByteString)
    (r : Request) : Bool :=
  match r.call with
  | .verifyConfirmation n pin word =>
    n = node && (s.verifyConfirmation d r.moment n pin word).2.text.isEmpty
  | _ => false

/-- The object, and the words shown to be wrong for a node since its PIN was issued or its last
confirmation succeeded. -/
structure Guessing where
  sec : UserSecurity := {}
  wrong : List ByteString := []

def Guessing.observe (d : CryptoBridge) (node : ByteString) (g : Guessing) (r : Request) :
    Guessing where
  sec := g.sec.serve d r
  wrong :=
    if r.call.reissues node || g.sec.confirms d node r then []
    else (g.sec.denied d node r).toList ++ g.wrong

def Observes (d : CryptoBridge) (node : ByteString) (g : Guessing) (r : Request)
    (g' : Guessing) : Prop :=
  g' = g.observe d node r

/-- A registration for the node that compares a word with the commitment, and the word is not
the registered one. Nothing counts this failure. -/
def UserSecurity.comparesWrongly (d : CryptoBridge) (s : UserSecurity) (node : ByteString)
    (r : Request) : Bool :=
  match r.call with
  | .registerMemorableWord n word salt =>
    n = node && MemorableWord.validate word = .ok && !word.any isStructural &&
      (s.confirmationSets[node]?).any (fun cs ↦ cs.wordCommitmentHash ≠ [] &&
        MemorableWord.deriveCommitment d (r.moment.up 0) (r.moment.up 1) word salt ≠
          cs.wordCommitmentHash)
  | _ => false

/-- A verification of the node's PIN with the right one, which forgets the failures so far. -/
def UserSecurity.resets (d : CryptoBridge) (s : UserSecurity) (node : ByteString)
    (r : Request) : Bool :=
  match r.call with
  | .verifyPin n pin =>
    n = node && pin ≠ [] && (s.states[node]?).any (fun st ↦ !isLocked st &&
      d.askSha256 (r.moment.up 0) (pin ++ st.salt) = st.pinHash)
  | _ => false

/-- No failure goes uncounted, and none that was counted is forgotten. -/
def Guessing.counts (d : CryptoBridge) (node : ByteString) (g : Guessing) (r : Request) : Prop :=
  g.sec.comparesWrongly d node r = false ∧ (g.sec.resets d node r = true → g.wrong = [])

def UserSecurity.spent (s : UserSecurity) (node : ByteString) : Int :=
  match s.states[node]? with
  | none => 3
  | some st => st.failedAttempts

def Guessing.Covered (node : ByteString) (g : Guessing) : Prop :=
  (g.wrong.length : Int) ≤ g.sec.spent node ∧ g.wrong.length ≤ 3

variable {d : CryptoBridge} {s : UserSecurity} {g g' : Guessing} {m : Moment} {r : Request}
  {node pin word salt secret : ByteString} {st : RBPCState}

theorem spent_of_state (h : s.states[node]? = some st) : s.spent node = st.failedAttempts := by
  simp [UserSecurity.spent, h]

theorem spent_counted : (s.setState node (counted st)).spent node = st.failedAttempts + 1 := by
  have hst : (s.setState node (counted st)).states[node]? = some (counted st) := by simp
  rw [spent_of_state hst]
  unfold counted
  split <;> rfl

theorem spent_authenticated {now : Int} :
    (s.setState node (authenticated st now)).spent node = 0 := by
  have hst : (s.setState node (authenticated st now)).states[node]? =
    some (authenticated st now) := by simp
  rw [spent_of_state hst]
  rfl

theorem failedAttempts_lt (h : isLocked st = false) : st.failedAttempts < 3 := by
  simp only [isLocked, isActive, Bool.or_eq_false_iff, Bool.not_eq_false', Bool.and_eq_true,
    decide_eq_true_eq] at h
  exact h.2.2

theorem deniesWord_fail {n : ByteString} {burnt : Answer} {failed : Int → Answer}
    (h : (s.fail n st burnt failed).2.deniesWord = true) :
    burnt.deniesWord = true ∨ ∃ k, (failed k).deniesWord = true := by
  simp only [UserSecurity.fail] at h
  split at h
  · exact .inl h
  · exact .inr ⟨_, h⟩

theorem fail_text_ne_nil {n : ByteString} {burnt : Answer} {failed : Int → Answer}
    (hb : burnt ≠ .ok) (hf : ∀ k, failed k ≠ .ok) : ¬ (s.fail n st burnt failed).2.text = [] := by
  simp only [UserSecurity.fail, Answer.text_eq_nil]
  split
  · exact hb
  · exact hf _

theorem counts_other (h : r.call.nodeId ≠ some node) :
    r.call.reissues node = false ∧ s.confirms d node r = false ∧ s.denied d node r = none := by
  obtain ⟨call, m⟩ := r
  cases call with
  | scrubAll => exact ⟨rfl, rfl, rfl⟩
  | generatePin n secret =>
    have hn : n ≠ node := fun hn ↦ h (congrArg some hn)
    simp [Call.reissues, UserSecurity.confirms, UserSecurity.denied, hn]
  | verifyPin n pin => exact ⟨rfl, rfl, rfl⟩
  | registerMemorableWord n word salt =>
    have hn : n ≠ node := fun hn ↦ h (congrArg some hn)
    simp [Call.reissues, UserSecurity.confirms, UserSecurity.denied, hn]
  | verifyConfirmation n pin word =>
    have hn : n ≠ node := fun hn ↦ h (congrArg some hn)
    simp [Call.reissues, UserSecurity.confirms, UserSecurity.denied, hn]

theorem serve_spent_other (h : r.call.nodeId ≠ some node) :
    s.spent node ≤ (s.serve d r).spent node ∨ (s.serve d r).spent node = 3 := by
  cases hn : r.call.nodeId with
  | none =>
    obtain ⟨call, m⟩ := r
    cases call with
    | scrubAll => exact .inr (by simp [UserSecurity.serve, UserSecurity.scrubAll, UserSecurity.spent])
    | _ => cases hn
  | some n =>
    have hne : n ≠ node := fun he ↦ h (hn.trans (congrArg some he))
    rw [UserSecurity.spent, UserSecurity.spent, (serve_other hn hne).1]
    exact .inl le_rfl

theorem Guessing.Covered.keep (h : g.Covered node) (hs : g'.wrong = g.wrong)
    (hspent : g.sec.spent node ≤ g'.sec.spent node ∨ g'.sec.spent node = 3) :
    g'.Covered node := by
  obtain ⟨hle, hthree⟩ := h
  rw [Guessing.Covered, hs]
  omega

theorem Guessing.Covered.fresh (hs : g'.wrong = []) (hspent : 0 ≤ g'.sec.spent node) :
    g'.Covered node := by
  simp [Guessing.Covered, hs, hspent]

theorem verifyPin_covered (h : g.Covered node)
    (hc : g.counts d node ⟨.verifyPin node pin, m⟩) :
    (g.observe d node ⟨.verifyPin node pin, m⟩).Covered node := by
  have hend : PinEnd d g.sec m node pin _ := verifyPin_end
  have hwrong : (g.observe d node ⟨.verifyPin node pin, m⟩).wrong = g.wrong := rfl
  have hsec : (g.observe d node ⟨.verifyPin node pin, m⟩).sec =
    (g.sec.verifyPin d m node pin).1 := rfl
  generalize g.sec.verifyPin d m node pin = p at hend hsec
  cases hend with
  | closed => exact h.keep hwrong (.inl (by rw [hsec]))
  | empty hst hl =>
    refine h.keep hwrong (.inl ?_)
    rw [hsec, fail_state, spent_counted, spent_of_state hst]
    omega
  | failed hst hl =>
    refine h.keep hwrong (.inl ?_)
    rw [hsec, fail_state, spent_counted, spent_of_state hst]
    omega
  | passed hst hl hpin hhash =>
    have hnone : g.wrong = [] := hc.2 (by simp [UserSecurity.resets, hpin, hst, hl, hhash])
    exact .fresh (hwrong.trans hnone) (by rw [hsec, spent_authenticated])

theorem registerMemorableWord_covered (h : g.Covered node)
    (hc : g.counts d node ⟨.registerMemorableWord node word salt, m⟩) :
    (g.observe d node ⟨.registerMemorableWord node word salt, m⟩).Covered node := by
  have hend : WordEnd d g.sec m node word salt _ := registerMemorableWord_end
  have hspent : (g.sec.registerMemorableWord d m node word salt).1.spent node =
      g.sec.spent node := by
    rw [UserSecurity.spent, registerMemorableWord_states, UserSecurity.spent]
  have hdenied : g.sec.denied d node ⟨.registerMemorableWord node word salt, m⟩ = none := by
    simp only [UserSecurity.denied]
    generalize g.sec.registerMemorableWord d m node word salt = p at hend
    cases hend with
    | refused _ hd => simp [hd]
    | registered => simp [Answer.deniesWord]
    | differs hv hs hcs hne hd =>
      have hwrongly : g.sec.comparesWrongly d node ⟨.registerMemorableWord node word salt, m⟩ =
          true := by
        simp [UserSecurity.comparesWrongly, hv, hcs, hne, hd]
        simpa using hs
      cases hc.1.symm.trans hwrongly
  refine h.keep ?_ (.inl hspent.ge)
  simp [Guessing.observe, Call.reissues, UserSecurity.confirms, hdenied]

theorem verifyConfirmation_covered (h : g.Covered node) :
    (g.observe d node ⟨.verifyConfirmation node pin word, m⟩).Covered node := by
  have hend : ConfirmationEnd d g.sec m node pin word _ := verifyConfirmation_end
  have hsec : (g.observe d node ⟨.verifyConfirmation node pin word, m⟩).sec =
    (g.sec.verifyConfirmation d m node pin word).1 := rfl
  have hwrong : (g.observe d node ⟨.verifyConfirmation node pin word, m⟩).wrong =
      if (g.sec.verifyConfirmation d m node pin word).2.text = [] then []
      else if (g.sec.verifyConfirmation d m node pin word).2.deniesWord = true
        then word :: g.wrong else g.wrong := by
    simp only [Guessing.observe, Call.reissues, UserSecurity.confirms, UserSecurity.denied]
    split_ifs <;> simp_all
  generalize g.sec.verifyConfirmation d m node pin word = p at hend hsec hwrong
  cases hend with
  | closed ha =>
    refine h.keep ?_ (.inl (by rw [hsec]))
    rw [hwrong]
    rcases ha with rfl | rfl | rfl | rfl <;> simp [Answer.text_eq_nil, Answer.deniesWord]
  | pinFailed hst hl =>
    refine h.keep ?_ (.inl (by rw [hsec, fail_state, spent_counted, spent_of_state hst]; omega))
    rw [hwrong, if_neg (fail_text_ne_nil (by simp) (by simp)), if_neg]
    intro hd
    simpa [Answer.deniesWord] using deniesWord_fail hd
  | wordFailed hst hl =>
    obtain ⟨hle, -⟩ := h
    have hlt := failedAttempts_lt hl
    rw [spent_of_state hst] at hle
    rw [if_neg (fail_text_ne_nil (by simp) (by simp))] at hwrong
    rw [Guessing.Covered, hsec, fail_state, spent_counted, hwrong]
    split <;> grind
  | passed hst hl =>
    refine .fresh ?_ (by rw [hsec, spent_authenticated])
    rw [hwrong, if_pos (Answer.text_eq_nil.mpr rfl)]

theorem generatePin_covered (h : g.Covered node) :
    (g.observe d node ⟨.generatePin node secret, m⟩).Covered node := by
  have hend : IssueEnd d g.sec m node secret _ := generatePin_end
  have hsec : (g.observe d node ⟨.generatePin node secret, m⟩).sec =
    (g.sec.generatePin d m node secret).1 := rfl
  generalize g.sec.generatePin d m node secret = p at hend hsec
  cases hend with
  | refused hempty =>
    refine h.keep ?_ (.inl (by rw [hsec]))
    have hno : (Call.generatePin node secret).reissues node = false := by
      simpa [Call.reissues, or_iff_not_imp_left] using hempty
    simp [Guessing.observe, hno, UserSecurity.confirms, UserSecurity.denied]
  | issued pin hn hs _ hattempts =>
    apply Guessing.Covered.fresh
    · simp [Guessing.observe, Call.reissues, hn, hs]
    · simp [hsec, UserSecurity.spent, hattempts]

theorem observe_covered (h : g.Covered node) (hc : g.counts d node r) :
    (g.observe d node r).Covered node := by
  by_cases hn : r.call.nodeId = some node
  · obtain ⟨call, m⟩ := r
    cases call with
    | generatePin n secret =>
      obtain rfl : n = node := Option.some.inj hn
      exact generatePin_covered h
    | verifyPin n pin =>
      obtain rfl : n = node := Option.some.inj hn
      exact verifyPin_covered h hc
    | registerMemorableWord n word salt =>
      obtain rfl : n = node := Option.some.inj hn
      exact registerMemorableWord_covered h hc
    | verifyConfirmation n pin word =>
      obtain rfl : n = node := Option.some.inj hn
      exact verifyConfirmation_covered h
    | scrubAll => cases hn
  · obtain ⟨hreissues, hconfirms, hdenied⟩ := counts_other (d := d) (s := g.sec) hn
    apply h.keep
    · simp [Guessing.observe, hreissues, hconfirms, hdenied]
    · exact serve_spent_other hn

/-- In every run from a new object in which no registration compares a wrong word with the
commitment of the node and no right PIN is verified after a wrong word, at most three different
words are shown to be wrong before the next confirmation succeeds. -/
theorem wrong_words_bounded {tr : List (Guessing × Request)}
    (hrun : Run (Observes d node) {} tr g) (hc : ∀ e ∈ tr, e.1.counts d node e.2) :
    Throughout (fun g ↦ g.wrong.dedup.length ≤ 3) tr g := by
  have hall : Throughout (Guessing.Covered node) tr g := by
    refine hrun.guarded (fun g r g' h hc hs ↦ ?_) ?_ hc
    · rw [hs]
      exact observe_covered h hc
    · simp [Guessing.Covered, UserSecurity.spent]
  have hdistinct {g : Guessing} (h : g.Covered node) : g.wrong.dedup.length ≤ 3 :=
    (List.dedup_sublist g.wrong).length_le.trans h.2
  exact ⟨fun e he ↦ hdistinct (hall.1 e he), hdistinct hall.2⟩

def samplePin : ByteString := PINGenerator.generate sampleBridge {} (sampleSecret ++ sampleNode)

def enrolled : UserSecurity :=
  [⟨.generatePin sampleNode sampleSecret, {}⟩,
    ⟨.registerMemorableWord sampleNode (lit "tangerine") (lit "salt"), {}⟩].foldl
    (fun s r ↦ s.serve sampleBridge r) {}

theorem enrolled_run : ∃ tr, Run (Observes sampleBridge sampleNode) {} tr ⟨enrolled, []⟩ ∧
    ∀ e ∈ tr, e.1.counts sampleBridge sampleNode e.2 := by
  refine ⟨_, .cons (a := ⟨.generatePin sampleNode sampleSecret, {}⟩) rfl
    (.cons (a := ⟨.registerMemorableWord sampleNode (lit "tangerine") (lit "salt"), {}⟩) ?_
      (.nil _)), ?_⟩
  · rfl
  · simp only [List.forall_mem_cons, Guessing.counts]
    decide

def register (word : String) : Request :=
  ⟨.registerMemorableWord sampleNode (lit word) (lit "salt"), {}⟩

def confirm (word : String) : Request := ⟨.verifyConfirmation sampleNode samplePin (lit word), {}⟩

/-- Three wrong words, and the node is burned. -/
theorem wrong_words_bounded_confirmations :
    ∃ tr g, Run (Observes sampleBridge sampleNode) {} tr g ∧
      (∀ e ∈ tr, e.1.counts sampleBridge sampleNode e.2) ∧ g.wrong.dedup.length = 3 ∧
      Throughout (fun g ↦ g.wrong.dedup.length ≤ 3) tr g := by
  obtain ⟨tr, hrun, hc⟩ := enrolled_run
  have hmore : Run (Observes sampleBridge sampleNode) ⟨enrolled, []⟩ _ _ :=
    .cons (a := confirm "clementine") rfl
      (.cons (a := confirm "nectarine") rfl (.cons (a := confirm "mandarine") rfl (.nil _)))
  have hall := hrun.append hmore
  refine ⟨_, _, hall, ?hcounts, by decide, wrong_words_bounded hall ?hcounts⟩
  refine List.forall_mem_append.mpr ⟨hc, ?_⟩
  simp only [List.forall_mem_cons, Guessing.counts]
  decide

/-- A registration tells wrong words from the right one without end, and a right PIN lets the
guessing start again. -/
theorem wrong_words_uncounted :
    (∃ tr, Run (Observes sampleBridge sampleNode) {} tr ⟨enrolled, []⟩) ∧
    (∃ tr g, Run (Observes sampleBridge sampleNode) ⟨enrolled, []⟩ tr g ∧
      (∀ e ∈ tr, e.2.call.reissues sampleNode = false) ∧
      g.wrong = [lit "bergamote", lit "mandarine", lit "nectarine", lit "clementine"] ∧
      g.sec.isBurned sampleNode = false) ∧
    ∃ tr g, Run (Observes sampleBridge sampleNode) ⟨enrolled, []⟩ tr g ∧
      (∀ e ∈ tr, e.2.call.reissues sampleNode = false) ∧
      g.wrong = [lit "bergamote", lit "mandarine", lit "nectarine", lit "clementine"] ∧
      g.sec.isBurned sampleNode = false := by
  obtain ⟨tr, hrun, -⟩ := enrolled_run
  refine ⟨⟨tr, hrun⟩, ⟨_, _, .cons (a := register "clementine") rfl
      (.cons (a := register "nectarine") rfl (.cons (a := register "mandarine") rfl
        (.cons (a := register "bergamote") rfl (.nil _)))), ?_, ?_, ?_⟩,
    ⟨_, _, .cons (a := confirm "clementine") rfl (.cons (a := confirm "nectarine") rfl
      (.cons (a := ⟨.verifyPin sampleNode samplePin, {}⟩) rfl (.cons (a := confirm "mandarine") rfl
        (.cons (a := confirm "bergamote") rfl (.nil _))))), ?_, ?_, ?_⟩⟩
  · simp [Call.reissues, register]
  · decide
  · decide
  · simp [Call.reissues, confirm]
  · decide
  · decide

end Cerberus.Rbpc
