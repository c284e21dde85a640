import Cerberus.Rbpc.FailClosed

namespace Cerberus.Rbpc

open Foundation Foundation.Bytes Foundation.Trace Foundation.FiniteMap MaintenanceDb Security

def Moment.Available (m : Moment) : Prop := ∀ i, m.up i = true

def Call.spares (node : ByteString) (c : Call) : Bool :=
  !c.reissues node && match c with
    | .scrubAll => false
    | _ => true

def UserSecurity.Issued (s : UserSecurity) (node pinHash salt : ByteString) : Prop :=
  ∃ st, s.states[node]? = some st ∧ st.pinHash = pinHash ∧ st.salt = salt

structure UserSecurity.Registered (s : UserSecurity) (node commitment salt : ByteString) : Prop where
  committed : commitment ≠ []
  set : ∃ cs, s.confirmationSets[node]? = some cs ∧ cs.wordCommitmentHash = commitment ∧
    cs.wordSalt = salt

variable {d : CryptoBridge} {s s₁ s₂ s₃ u : UserSecurity} {m m' m'' : Moment} {r : Request}
  {node secret pin word salt pinHash commitment : ByteString} {st : RBPCState}

theorem UserSecurity.Issued.setState (h : s.Issued node pinHash salt)
    {n : ByteString} {st' : RBPCState} (hst : s.states[n]? = some st) (hhash : st'.pinHash = st.pinHash)
    (hsalt : st'.salt = st.salt) : (s.setState n st').Issued node pinHash salt := by
  obtain ⟨st₀, hst₀, hhash₀, hsalt₀⟩ := h
  by_cases hn : n = node
  · subst hn
    obtain rfl := Option.some.inj (hst.symm.trans hst₀)
    exact ⟨st', by simp, hhash.trans hhash₀, hsalt.trans hsalt₀⟩
  · exact ⟨st₀, by simp [hn, hst₀], hhash₀, hsalt₀⟩

theorem counted_keeps (st : RBPCState) :
    (counted st).pinHash = st.pinHash ∧ (counted st).salt = st.salt := by
  unfold counted
  split
  · exact ⟨rfl, rfl⟩
  · exact ⟨rfl, rfl⟩

theorem serve_issued (h : s.Issued node pinHash salt) (hr : r.call.spares node = true) :
    (s.serve d r).Issued node pinHash salt := by
  obtain ⟨call, m⟩ := r
  cases call with
  | generatePin n secret =>
    have hend : IssueEnd d s m n secret _ := generatePin_end
    simp only [UserSecurity.serve]
    generalize s.generatePin d m n secret = p at hend ⊢
    cases hend with
    | refused _ => exact h
    | issued _ hn hsecret _ _ _ _ =>
      have hother : n ≠ node := by
        rintro rfl
        simp [Call.spares, Call.reissues, hn, hsecret] at hr
      obtain ⟨st, hst, hhash, hsalt⟩ := h
      exact ⟨st, by simp [hother, hst], hhash, hsalt⟩
  | verifyPin n pin =>
    have hend : PinEnd d s m n pin _ := verifyPin_end
    simp only [UserSecurity.serve]
    generalize s.verifyPin d m n pin = p at hend ⊢
    cases hend with
    | closed _ _ => exact h
    | @empty st hst _ _ => exact h.setState hst (counted_keeps st).1 (counted_keeps st).2
    | @failed st hst _ _ _ => exact h.setState hst (counted_keeps st).1 (counted_keeps st).2
    | passed hst _ _ _ => exact h.setState hst rfl rfl
  | registerMemorableWord n word salt =>
    simp only [UserSecurity.serve]
    rw [UserSecurity.Issued, registerMemorableWord_states]
    exact h
  | verifyConfirmation n pin word =>
    have hend : ConfirmationEnd d s m n pin word _ := verifyConfirmation_end
    simp only [UserSecurity.serve]
    generalize s.verifyConfirmation d m n pin word = p at hend ⊢
    cases hend with
    | closed _ _ => exact h
    | @pinFailed st _ hst => exact h.setState hst (counted_keeps st).1 (counted_keeps st).2
    | @wordFailed st _ hst => exact h.setState hst (counted_keeps st).1 (counted_keeps st).2
    | passed hst _ _ _ _ _ => exact h.setState hst rfl rfl
  | scrubAll => cases hr

theorem serve_registered (h : s.Registered node commitment salt) (hr : r.call.spares node = true) :
    (s.serve d r).Registered node commitment salt := by
  obtain ⟨hne, cs, hcs, hcommitment, hsalt⟩ := h
  obtain ⟨call, m⟩ := r
  cases call with
  | generatePin n secret =>
    have hend : IssueEnd d s m n secret _ := generatePin_end
    simp only [UserSecurity.serve]
    generalize s.generatePin d m n secret = p at hend ⊢
    cases hend with
    | refused _ => exact ⟨hne, cs, hcs, hcommitment, hsalt⟩
    | issued _ hn hsecret _ _ _ _ =>
      have hother : n ≠ node := by
        rintro rfl
        simp [Call.spares, Call.reissues, hn, hsecret] at hr
      exact ⟨hne, cs, by simp [hother, hcs], hcommitment, hsalt⟩
  | verifyPin n pin =>
    have hend : PinEnd d s m n pin _ := verifyPin_end
    simp only [UserSecurity.serve]
    generalize s.verifyPin d m n pin = p at hend ⊢
    cases hend <;> exact ⟨hne, cs, hcs, hcommitment, hsalt⟩
  | registerMemorableWord n word salt =>
    have hend : WordEnd d s m n word salt _ := registerMemorableWord_end
    simp only [UserSecurity.serve]
    generalize s.registerMemorableWord d m n word salt = p at hend ⊢
    cases hend with
    | refused _ _ => exact ⟨hne, cs, hcs, hcommitment, hsalt⟩
    | registered hcs' hempty =>
      have hother : n ≠ node := by
        rintro rfl
        obtain rfl := Option.some.inj (hcs.symm.trans hcs')
        exact hne (hcommitment.symm.trans hempty)
      exact ⟨hne, cs, by simp [hother, hcs], hcommitment, hsalt⟩
    | differs _ _ _ _ _ => exact ⟨hne, cs, hcs, hcommitment, hsalt⟩
  | verifyConfirmation n pin word =>
    have hend : ConfirmationEnd d s m n pin word _ := verifyConfirmation_end
    simp only [UserSecurity.serve]
    generalize s.verifyConfirmation d m n pin word = p at hend ⊢
    cases hend <;> exact ⟨hne, cs, hcs, hcommitment, hsalt⟩
  | scrubAll => cases hr

theorem issued_run {tr : List (UserSecurity × Request)} (h : Run (Serves d) s tr u)
    (htr : ∀ e ∈ tr, e.2.call.spares node = true) (hs : s.Issued node pinHash salt) :
    u.Issued node pinHash salt := by
  have hstep (s : UserSecurity) (r : Request) (t : UserSecurity) (hs : s.Issued node pinHash salt)
      (hr : r.call.spares node = true) (ht : Serves d s r t) : t.Issued node pinHash salt := by
    rw [ht]
    exact serve_issued hs hr
  exact (h.guarded hstep hs htr).2

theorem registered_run {tr : List (UserSecurity × Request)} (h : Run (Serves d) s tr u)
    (htr : ∀ e ∈ tr, e.2.call.spares node = true) (hs : s.Registered node commitment salt) :
    u.Registered node commitment salt := by
  have hstep (s : UserSecurity) (r : Request) (t : UserSecurity)
      (hs : s.Registered node commitment salt) (hr : r.call.spares node = true)
      (ht : Serves d s r t) : t.Registered node commitment salt := by
    rw [ht]
    exact serve_registered hs hr
  exact (h.guarded hstep hs htr).2

theorem generatePin_issued (hm : m.Available)
    (h : s.generatePin d m node secret = (s₁, some pin)) :
    s₁.Issued node (d.sha256 (pin ++ d.sha256 (node ++ secret))) (d.sha256 (node ++ secret)) := by
  unfold UserSecurity.generatePin at h
  split at h
  · cases h
  · simp only [Prod.mk.injEq, Option.some.injEq] at h
    obtain ⟨rfl, rfl⟩ := h
    have hsalt : d.askSha256 (m.up 4) (node ++ secret) = d.sha256 (node ++ secret) := if_pos (hm 4)
    refine ⟨_, get_insert _ _ _ _ |>.trans (if_pos rfl), ?_, hsalt⟩
    dsimp only
    rw [hsalt]
    exact if_pos (hm 5)

theorem deriveCommitment_available {up up' : Bool} (h : up = true) (h' : up' = true) :
    MemorableWord.deriveCommitment d up up' word salt =
      MemorableWord.deriveCommitment d true true word salt := by
  rw [h, h']

theorem registerMemorableWord_registered (hd : ∀ key message, d.hmacSha256 key message ≠ [])
    (hm : m.Available) (h : s.registerMemorableWord d m node word salt = (s₁, .ok)) :
    s₁.Registered node (MemorableWord.deriveCommitment d true true word salt) salt := by
  have hend : WordEnd d s m node word salt _ := registerMemorableWord_end
  rw [h] at hend
  generalize hp : (s₁, Answer.ok) = p at hend
  cases hend with
  | refused hne _ => exact absurd (Prod.ext_iff.mp hp).2.symm hne
  | registered hcs _ =>
    obtain rfl := (Prod.ext_iff.mp hp).1
    refine ⟨hd _ _, _, (setConfirmationSet_confirmationSets node).trans (if_pos rfl), ?_, rfl⟩
    exact deriveCommitment_available (hm 0) (hm 1)
  | differs _ _ _ _ _ => cases (Prod.ext_iff.mp hp).2

theorem verifyConfirmation_ok_of_issued (hm : m.Available) {saltPin saltWord : ByteString}
    (hpin : u.Issued node (d.sha256 (pin ++ saltPin)) saltPin)
    (hword : u.Registered node commitment saltWord) (hb : u.isBurned node = false) :
    (u.verifyConfirmation d m node pin word).2.text = [] ↔
      MemorableWord.deriveCommitment d true true word
        (if saltWord.isEmpty then saltPin else saltWord) = commitment := by
  obtain ⟨st, hst, hhash, rfl⟩ := hpin
  obtain ⟨hne, cs, hcs, rfl, rfl⟩ := hword
  have hl : isLocked st = false := by simpa [UserSecurity.isBurned, hst] using hb
  have hpinOk : d.askSha256 (m.up 0) (pin ++ st.salt) = st.pinHash := by
    rw [hhash]
    exact if_pos (hm 0)
  have hderive : MemorableWord.deriveCommitment d (m.up 1) (m.up 2) word (saltOf st cs) = _ :=
    deriveCommitment_available (hm 1) (hm 2)
  rw [verifyConfirmation_ok_iff]
  constructor
  · rintro ⟨st', cs', hst', -, hcs', -, -, hok⟩
    obtain rfl := Option.some.inj (hst.symm.trans hst')
    obtain rfl := Option.some.inj (hcs.symm.trans hcs')
    exact hderive.symm.trans hok
  · intro hok
    exact ⟨st, cs, hst, hl, hcs, hne, hpinOk, hderive.trans hok⟩

/-- The first word that is registered for a node can be confirmed, with the node's PIN and while the
node is not burned, exactly when it has a salt of its own, or the salt of the PIN makes no
difference to its commitment. -/
theorem word_usable_iff (hd : ∀ key message, d.hmacSha256 key message ≠ [])
    {tr tr' : List (UserSecurity × Request)} (hm : m.Available) (hm' : m'.Available)
    (hm'' : m''.Available) (hissue : s.generatePin d m node secret = (s₁, some pin))
    (hrun : Run (Serves d) s₁ tr s₂) (htr : ∀ e ∈ tr, e.2.call.spares node = true)
    (hregister : s₂.registerMemorableWord d m' node word salt = (s₃, .ok))
    (hrun' : Run (Serves d) s₃ tr' u) (htr' : ∀ e ∈ tr', e.2.call.spares node = true)
    (hb : u.isBurned node = false) :
    (u.verifyConfirmation d m'' node pin word).2.text = [] ↔
      salt ≠ [] ∨ MemorableWord.deriveCommitment d true true word (d.sha256 (node ++ secret)) =
        MemorableWord.deriveCommitment d true true word [] := by
  have hissued := issued_run hrun htr (generatePin_issued hm hissue)
  have hissued' : s₃.Issued node (d.sha256 (pin ++ d.sha256 (node ++ secret)))
      (d.sha256 (node ++ secret)) := by
    have hstates : s₃.states = s₂.states := by
      rw [← registerMemorableWord_states (s := s₂), hregister]
    rwa [UserSecurity.Issued, hstates]
  have hregistered := registered_run hrun' htr' (registerMemorableWord_registered hd hm' hregister)
  rw [verifyConfirmation_ok_of_issued hm'' (issued_run hrun' htr' hissued') hregistered hb]
  cases salt with
  | nil => simp
  | cons b salt => simp

theorem word_usable_iff_salted : ∃ u,
    (enrolled.verifyPin sampleBridge {} sampleNode (lit "1")).1 = u ∧
      (u.verifyConfirmation sampleBridge {} sampleNode samplePin (lit "tangerine")).2.text = [] := by
  have hup : Moment.Available {} := fun _ ↦ rfl
  have hissue : UserSecurity.generatePin sampleBridge {} {} sampleNode sampleSecret =
      ((UserSecurity.generatePin sampleBridge {} {} sampleNode sampleSecret).1, some samplePin) := rfl
  have hregister : (UserSecurity.generatePin sampleBridge {} {} sampleNode
      sampleSecret).1.registerMemorableWord sampleBridge {} sampleNode (lit "tangerine")
        (lit "salt") = (enrolled, .ok) := rfl
  have hrun : Run (Serves sampleBridge) enrolled _ _ :=
    .cons (a := ⟨.verifyPin sampleNode (lit "1"), {}⟩) rfl (.nil _)
  refine ⟨_, rfl, (word_usable_iff (fun _ _ ↦ by simp [sampleBridge]) hup hup hup hissue (.nil _)
    (by simp) hregister hrun ?_ ?_).mpr (.inl (by decide))⟩
  · simp [Call.spares, Call.reissues]
  · decide

/-- A word without a salt is registered, and refused with the right PIN. -/
theorem unsalted_word_refused : ∃ s₁ s₂ pin,
    UserSecurity.generatePin sampleBridge {} {} sampleNode sampleSecret = (s₁, some pin) ∧
      s₁.registerMemorableWord sampleBridge {} sampleNode (lit "tangerine") [] = (s₂, .ok) ∧
      s₂.isBurned sampleNode = false ∧
      (s₂.verifyConfirmation sampleBridge {} sampleNode pin (lit "tangerine")).2 =
        .wordRefused 1 :=
  ⟨_, _, _, rfl, rfl, by decide, by decide⟩

end Cerberus.Rbpc
