import Cerberus.Foundation.Trace
import Cerberus.Rbpc.Effects

namespace Cerberus.Rbpc

open Foundation Foundation.Bytes Foundation.Trace Foundation.FiniteMap MaintenanceDb Security

variable {d : CryptoBridge} {s s' u : UserSecurity} {m : Moment} {r : Request}
  {node pin word secret : ByteString}

def UserSecurity.verifies (d : CryptoBridge) (s : UserSecurity) (node : ByteString) (r : Request) :
    Prop :=
  match r.call with
  | .verifyPin n pin => n = node ∧ (s.verifyPin d r.moment n pin).2.text = []
  | .verifyConfirmation n pin word =>
    n = node ∧ (s.verifyConfirmation d r.moment n pin word).2.text = []
  | _ => False

def Call.reissues (node : ByteString) : Call → Bool
  | .generatePin n secret => n == node && !n.isEmpty && !secret.isEmpty
  | _ => false

theorem verifyPin_burned (h : s.isBurned node = true) :
    s.verifyPin d m node pin = (s, .pinDisabled) := by
  obtain ⟨st, hst, hl⟩ := (Option.any_eq_true _ _).mp h
  simp [UserSecurity.verifyPin, hst, hl]

theorem verifyConfirmation_burned (h : s.isBurned node = true) :
    s.verifyConfirmation d m node pin word = (s, .confirmationDisabled) := by
  obtain ⟨st, hst, hl⟩ := (Option.any_eq_true _ _).mp h
  simp [UserSecurity.verifyConfirmation, hst, hl]

theorem burned_not_verifies (h : s.isBurned node = true) : ¬ s.verifies d node r := by
  obtain ⟨call, m⟩ := r
  cases call with
  | verifyPin n pin =>
    rintro ⟨rfl, hok⟩
    rw [verifyPin_burned h, Answer.text_eq_nil] at hok
    cases hok
  | verifyConfirmation n pin word =>
    rintro ⟨rfl, hok⟩
    rw [verifyConfirmation_burned h, Answer.text_eq_nil] at hok
    cases hok
  | generatePin n secret => exact id
  | registerMemorableWord n word salt => exact id
  | scrubAll => exact id

theorem generatePin_not_burned (hn : node ≠ []) (hs : secret ≠ []) :
    (s.generatePin d m node secret).1.isBurned node = false := by
  have hend : IssueEnd d s m node secret _ := generatePin_end
  generalize s.generatePin d m node secret = p at hend ⊢
  cases hend with
  | refused hempty => exact absurd hempty (by simp [hn, hs])
  | issued pin _ _ _ _ hl => simp [UserSecurity.isBurned, hl]

theorem serve_burned (h : s.isBurned node = true) (hr : r.call.reissues node = false)
    (hscrub : r.call ≠ .scrubAll) : (s.serve d r).isBurned node = true := by
  cases hn : r.call.nodeId with
  | none =>
    obtain ⟨call, m⟩ := r
    cases call with
    | scrubAll => exact absurd rfl hscrub
    | _ => cases hn
  | some n =>
    by_cases hne : n = node
    · subst hne
      obtain ⟨call, m⟩ := r
      cases call with
      | generatePin n' secret =>
        obtain rfl : n' = n := Option.some.inj hn
        have hempty : n' = [] ∨ secret = [] := by
          simpa [Call.reissues, or_iff_not_imp_left] using hr
        simpa [UserSecurity.serve, UserSecurity.generatePin, hempty] using h
      | verifyPin n' pin =>
        obtain rfl : n' = n := Option.some.inj hn
        simpa [UserSecurity.serve, verifyPin_burned h] using h
      | registerMemorableWord n' word salt =>
        simpa [UserSecurity.serve, UserSecurity.isBurned, registerMemorableWord_states] using h
      | verifyConfirmation n' pin word =>
        obtain rfl : n' = n := Option.some.inj hn
        simpa [UserSecurity.serve, verifyConfirmation_burned h] using h
      | scrubAll => cases hn
    · rw [UserSecurity.isBurned, (serve_other hn hne).1]
      exact h

theorem serve_not_burned (hr : r.call.reissues node = true) : (s.serve d r).isBurned node = false := by
  obtain ⟨call, m⟩ := r
  cases call with
  | generatePin n secret =>
    obtain ⟨⟨rfl, hn⟩, hs⟩ : (n = node ∧ n ≠ []) ∧ secret ≠ [] := by
      simpa [Call.reissues] using hr
    exact generatePin_not_burned hn hs
  | _ => cases hr

/-- From any state in which a node is burned, it stays burned and nothing is verified for it,
whatever is called except `scrub_all`, exactly when no new PIN is issued to it. -/
theorem burn_permanent_iff {tr : List (UserSecurity × Request)} (hrun : Run (Serves d) s tr u)
    (hb : s.isBurned node = true) (hscrub : ∀ e ∈ tr, e.2.call ≠ .scrubAll) :
    (Throughout (fun t ↦ t.isBurned node = true) tr u ∧ ∀ e ∈ tr, ¬ e.1.verifies d node e.2) ↔
      ∀ e ∈ tr, e.2.call.reissues node = false := by
  have hkeep (t : UserSecurity) (r : Request) (t' : UserSecurity) (_ : True)
      (h : t.isBurned node = true) (hok : r.call.reissues node = false ∧ r.call ≠ .scrubAll)
      (ht : Serves d t r t') : t'.isBurned node = true := by
    rw [ht]
    exact serve_burned h hok.1 hok.2
  have hbreak (t : UserSecurity) (r : Request) (t' : UserSecurity) (_ : True)
      (_ : t.isBurned node = true) (hno : ¬ (r.call.reissues node = false ∧ r.call ≠ .scrubAll))
      (ht : Serves d t r t') : ¬ t'.isBurned node = true := by
    rw [ht]
    cases hr : r.call.reissues node with
    | true => simp [serve_not_burned hr]
    | false =>
      have hs : r.call = .scrubAll := not_not.mp (fun hs ↦ hno ⟨hr, hs⟩)
      simp [UserSecurity.serve, hs, UserSecurity.scrubAll, UserSecurity.isBurned]
  have hiff := hrun.throughout_iff (fun _ _ _ _ _ ↦ trivial) hkeep hbreak trivial hb
  constructor
  · rintro ⟨hall, -⟩ e he
    exact (hiff.mp hall e he).1
  · intro hok
    have hall := hiff.mpr (fun e he ↦ ⟨hok e he, hscrub e he⟩)
    exact ⟨hall, fun e he ↦ burned_not_verifies (hall.1 e he)⟩

def sampleBridge : CryptoBridge where
  sha256 data := 1 :: data
  hmacSha256 key _ := 2 :: key

def sampleNode : ByteString := lit "node-42"

def sampleSecret : ByteString := lit "master"

def burnt : UserSecurity :=
  [⟨.generatePin sampleNode sampleSecret, {}⟩, ⟨.verifyPin sampleNode (lit "1"), {}⟩,
    ⟨.verifyPin sampleNode (lit "2"), {}⟩, ⟨.verifyPin sampleNode (lit "3"), {}⟩].foldl
    (fun s r ↦ s.serve sampleBridge r) {}

theorem burnt_isBurned : burnt.isBurned sampleNode = true := by decide

theorem burn_permanent_iff_refused : ∃ tr u, Run (Serves sampleBridge) burnt tr u ∧
    tr.length = 2 ∧ Throughout (fun t ↦ t.isBurned sampleNode = true) tr u := by
  have hrun : Run (Serves sampleBridge) burnt _ _ :=
    .cons (a := ⟨.verifyPin sampleNode (lit "123456"), {}⟩) rfl
      (.cons (a := ⟨.generatePin sampleNode [], {}⟩) rfl (.nil _))
  refine ⟨_, _, hrun, rfl, ((burn_permanent_iff hrun burnt_isBurned ?_).mpr ?_).1⟩
  · simp
  · simp [Call.reissues]

/-- Issuing a PIN again brings a burned node back. -/
theorem burned_node_reissued : ∃ (tr : List (UserSecurity × Request)) (u : UserSecurity)
    (pin : ByteString), Run (Serves sampleBridge) {} tr burnt ∧ burnt.isBurned sampleNode = true ∧
      Run (Serves sampleBridge) burnt [(burnt, ⟨.generatePin sampleNode sampleSecret, {}⟩)] u ∧
      u.isBurned sampleNode = false ∧
      u.verifies sampleBridge sampleNode ⟨.verifyPin sampleNode pin, {}⟩ := by
  have hrun : Run (Serves sampleBridge) {} _ burnt :=
    .cons (a := ⟨.generatePin sampleNode sampleSecret, {}⟩) rfl
      (.cons (a := ⟨.verifyPin sampleNode (lit "1"), {}⟩) rfl
        (.cons (a := ⟨.verifyPin sampleNode (lit "2"), {}⟩) rfl
          (.cons (a := ⟨.verifyPin sampleNode (lit "3"), {}⟩) rfl (.nil _))))
  refine ⟨_, _, PINGenerator.generate sampleBridge {} (sampleSecret ++ sampleNode), hrun,
    burnt_isBurned, .cons rfl (.nil _), ?_, rfl, ?_⟩
  · exact generatePin_not_burned (by decide) (by decide)
  · decide

end Cerberus.Rbpc
