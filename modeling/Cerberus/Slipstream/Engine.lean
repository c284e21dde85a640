import Cerberus.Slipstream.Depot

namespace Cerberus.Slipstream

open Foundation.Bytes Foundation.Fifo Foundation.Trace

abbrev CommandHandler := SlipstreamMessage → SlipstreamDepot → SlipstreamDepot

/-- Where a worker stands in its loop: between two commands, with a command that it has taken, or in
the handler with the lock of the handlers. -/
inductive WorkerPc
  | idle
  | taken (cmd : SlipstreamMessage)
  | handling (cmd : SlipstreamMessage)
  deriving DecidableEq

structure CerberusSlipstreamEngine where
  ingress : SlipstreamDepot := {}
  egress : SlipstreamDepot := {}
  workers : Nat → WorkerPc := fun _ ↦ .idle
  handlers : SlipstreamMessageType → Option CommandHandler := fun _ ↦ none

def response (cmd : SlipstreamMessage) (nowUs : Int) : SlipstreamMessage :=
  .create .cmdResponse cmd.payload cmd.header.sequenceNumber nowUs

namespace CerberusSlipstreamEngine

/-- The handler of the workers, under the lock. The result of the deposit is not looked at. -/
def handle (e : CerberusSlipstreamEngine) (cmd : SlipstreamMessage) (nowUs : Int) :
    SlipstreamDepot :=
  match e.handlers cmd.getType with
  | some handler => handler cmd e.egress
  | none => (e.egress.deposit (response cmd nowUs)).2

end CerberusSlipstreamEngine

/-- The steps of an engine with so many workers. Its users do not take commands from the one depot,
and do not put messages into the other. -/
inductive EngineAction
  | useIngress (call : DepotCall)
  | useEgress (call : DepotCall)
  | take (worker : Nat)
  | lock (worker : Nat)
  | answer (worker : Nat) (nowUs : Int)

inductive EngineStep (workerCount : Nat) :
    CerberusSlipstreamEngine → EngineAction → CerberusSlipstreamEngine → Prop
  | useIngress {e : CerberusSlipstreamEngine} {c : DepotCall} :
      c ≠ .collect → c ≠ .tryCollect →
      EngineStep workerCount e (.useIngress c) { e with ingress := c.perform e.ingress }
  | useEgress {e : CerberusSlipstreamEngine} {c : DepotCall} : c.deposits = [] →
      EngineStep workerCount e (.useEgress c) { e with egress := c.perform e.egress }
  | take {e : CerberusSlipstreamEngine} {i : Nat} : i < workerCount → e.workers i = .idle →
      EngineStep workerCount e (.take i)
        { e with
          ingress := e.ingress.collect.2
          workers := Function.update e.workers i
            (e.ingress.collect.1.elim .idle WorkerPc.taken) }
  | lock {e : CerberusSlipstreamEngine} {i : Nat} {cmd : SlipstreamMessage} :
      i < workerCount → e.workers i = .taken cmd → (∀ j cmd', e.workers j ≠ .handling cmd') →
      EngineStep workerCount e (.lock i)
        { e with workers := Function.update e.workers i (.handling cmd) }
  | answer {e : CerberusSlipstreamEngine} {i : Nat} {cmd : SlipstreamMessage} {nowUs : Int} :
      i < workerCount → e.workers i = .handling cmd →
      EngineStep workerCount e (.answer i nowUs)
        { e with
          egress := e.handle cmd nowUs
          workers := Function.update e.workers i .idle }

abbrev EngineRun := List (CerberusSlipstreamEngine × EngineAction)

def EngineAction.takes (e : CerberusSlipstreamEngine) : EngineAction → List SlipstreamMessage
  | .take _ => e.ingress.collect.1.toList
  | _ => []

def EngineAction.responds (e : CerberusSlipstreamEngine) : EngineAction → List SlipstreamMessage
  | .answer i nowUs =>
    match e.workers i with
    | .handling cmd => if (e.handlers cmd.getType).isNone then [response cmd nowUs] else []
    | _ => []
  | _ => []

def CerberusSlipstreamEngine.HasRoom (e : CerberusSlipstreamEngine) : Prop :=
  e.egress.queue.length < e.egress.capacity

instance (e : CerberusSlipstreamEngine) : Decidable e.HasRoom := Nat.decLt _ _

namespace EngineRun

variable (tr : EngineRun)

def taken : List SlipstreamMessage := tr.flatMap (fun x ↦ x.2.takes x.1)

def entered : List SlipstreamMessage :=
  tr.flatMap (fun x ↦ (x.2.responds x.1).filter (fun m ↦ (x.1.egress.deposit m).1))

def lost : List SlipstreamMessage :=
  tr.flatMap (fun x ↦ (x.2.responds x.1).filter (fun m ↦ !(x.1.egress.deposit m).1))

end EngineRun

def tag (m : SlipstreamMessage) : UInt32 × ByteString := (m.header.sequenceNumber, m.payload)

/-- The responses that have entered are those to the commands that were taken. -/
def Answered (tr : EngineRun) : Prop :=
  (tr.entered.map tag).Perm (tr.taken.map tag) ∧ ∀ m ∈ tr.entered, m.getType = .cmdResponse

def WorkerPc.held : WorkerPc → Multiset (UInt32 × ByteString)
  | .idle => 0
  | .taken cmd | .handling cmd => {tag cmd}

def held (workerCount : Nat) (e : CerberusSlipstreamEngine) : Multiset (UInt32 × ByteString) :=
  ∑ i ∈ Finset.range workerCount, (e.workers i).held

section

variable {n i : Nat} {e e' : CerberusSlipstreamEngine} {a : EngineAction} {tr : EngineRun}

theorem sum_held_update (w : Nat → WorkerPc) (hi : i < n) (pc : WorkerPc) :
    ∑ j ∈ Finset.range n, (Function.update w i pc j).held + (w i).held =
      ∑ j ∈ Finset.range n, (w j).held + pc.held := by
  have hmem : i ∈ Finset.range n := Finset.mem_range.mpr hi
  have hother : ∑ j ∈ (Finset.range n).erase i, (Function.update w i pc j).held =
      ∑ j ∈ (Finset.range n).erase i, (w j).held :=
    Finset.sum_congr rfl (fun j hj ↦ by rw [Function.update_of_ne (Finset.ne_of_mem_erase hj)])
  rw [← Finset.add_sum_erase _ _ hmem, ← Finset.add_sum_erase _ _ hmem, hother,
    Function.update_self]
  exact add_right_comm _ _ _ |>.trans (by rw [add_comm pc.held, add_right_comm])

@[simp] theorem tag_response (cmd : SlipstreamMessage) (nowUs : Int) :
    tag (response cmd nowUs) = tag cmd := rfl

theorem EngineStep.handlers_eq (h : EngineStep n e a e') : e'.handlers = e.handlers := by
  cases h <;> rfl

theorem EngineStep.moves (hnone : e.handlers = fun _ ↦ none) (h : EngineStep n e a e') :
    held n e + ((a.takes e).map tag : Multiset _) =
      ((a.responds e).map tag : Multiset _) + held n e' := by
  cases h with
  | useIngress _ _ => simp [EngineAction.takes, EngineAction.responds, held]
  | useEgress _ => simp [EngineAction.takes, EngineAction.responds, held]
  | @take i hi hidle =>
    have hsum := sum_held_update e.workers hi (e.ingress.collect.1.elim .idle WorkerPc.taken)
    rw [hidle] at hsum
    cases hcmd : e.ingress.collect.1 with
    | none =>
      simp_all [EngineAction.takes, EngineAction.responds, held, WorkerPc.held]
    | some cmd =>
      simp_all [EngineAction.takes, EngineAction.responds, held, WorkerPc.held]
  | @lock i cmd hi htaken _ =>
    have hsum := sum_held_update e.workers hi (.handling cmd)
    simp_all [EngineAction.takes, EngineAction.responds, held, WorkerPc.held]
  | @answer i cmd nowUs hi hhandling =>
    have hsum := sum_held_update e.workers hi .idle
    simp_all [EngineAction.takes, EngineAction.responds, held, WorkerPc.held, add_comm]

theorem coe_filter_add (l : List SlipstreamMessage) (p : SlipstreamMessage → Bool) :
    (((l.filter p).map tag : List _) : Multiset (UInt32 × ByteString)) +
      (((l.filter (fun m ↦ !p m)).map tag : List _) : Multiset _) = (l.map tag : Multiset _) := by
  rw [Multiset.coe_add, Multiset.coe_eq_coe, ← List.map_append]
  exact (List.filter_append_perm p l).map tag

theorem run_moves (h : Run (EngineStep n) e tr e') (hnone : e.handlers = fun _ ↦ none) :
    held n e + (tr.taken.map tag : Multiset _) =
      (tr.entered.map tag : Multiset _) + (tr.lost.map tag : Multiset _) + held n e' := by
  induction h with
  | nil e => simp [EngineRun.taken, EngineRun.entered, EngineRun.lost]
  | @cons e e₁ e' a tr hstep hrun ih =>
    have hmoves := hstep.moves hnone
    have hrest := ih (hstep.handlers_eq.trans hnone)
    have hsplit := coe_filter_add (a.responds e) (fun m ↦ (e.egress.deposit m).1)
    simp only [EngineRun.taken, EngineRun.entered, EngineRun.lost, List.flatMap_cons,
      List.map_append, ← Multiset.coe_add] at hrest ⊢
    rw [← add_assoc, hmoves, ← hsplit, add_assoc, hrest]
    abel

theorem held_eq_zero (h : ∀ i < n, e.workers i = .idle) : held n e = 0 := by
  refine Finset.sum_eq_zero (fun i hi ↦ ?_)
  rw [h i (Finset.mem_range.mp hi), WorkerPc.held]

/-- Responses are lost exactly where a worker answers into a full depot. -/
theorem run_lost_iff (h : Run (EngineStep n) e tr e') (hnone : e.handlers = fun _ ↦ none) :
    tr.lost = [] ↔ ∀ x ∈ tr, ∀ i nowUs, x.2 = .answer i nowUs → x.1.HasRoom := by
  induction h with
  | nil e => simp [EngineRun.lost]
  | @cons e e₁ e' a tr hstep hrun ih =>
    have hfirst : (a.responds e).filter (fun m ↦ !(e.egress.deposit m).1) = [] ↔
        ∀ i nowUs, a = .answer i nowUs → e.HasRoom := by
      cases hstep with
      | useIngress _ _ => simp [EngineAction.responds]
      | useEgress _ => simp [EngineAction.responds]
      | take _ _ => simp [EngineAction.responds]
      | lock _ _ _ => simp [EngineAction.responds]
      | answer hi hhandling =>
        by_cases hfull : e.egress.capacity ≤ e.egress.queue.length
        · simp [EngineAction.responds, hhandling, hnone, SlipstreamDepot.deposit,
            CerberusSlipstreamEngine.HasRoom, hfull]
        · simp [EngineAction.responds, hhandling, hnone, SlipstreamDepot.deposit,
            CerberusSlipstreamEngine.HasRoom, hfull, Nat.not_le.mp hfull]
    rw [EngineRun.lost, List.flatMap_cons, List.append_eq_nil_iff, List.forall_mem_cons]
    exact and_congr hfirst (ih (hstep.handlers_eq.trans hnone))

theorem mem_entered {m : SlipstreamMessage} (h : m ∈ tr.entered) : m.getType = .cmdResponse := by
  obtain ⟨x, -, hx⟩ := List.mem_flatMap.mp h
  have hm := List.mem_of_mem_filter hx
  unfold EngineAction.responds at hm
  split at hm
  · split at hm
    · split at hm
      · rw [List.mem_singleton.mp hm]
        rfl
      · simp at hm
    · simp at hm
  · simp at hm

/-- With no handlers, and no worker in the middle of a command, every command that was taken has its
response in the depot exactly where each worker found room there. -/
theorem engine_answers_iff (h : Run (EngineStep n) e tr e') (hnone : e.handlers = fun _ ↦ none)
    (hstart : ∀ i < n, e.workers i = .idle) (hidle : ∀ i < n, e'.workers i = .idle) :
    Answered tr ↔ ∀ x ∈ tr, ∀ i nowUs, x.2 = .answer i nowUs → x.1.HasRoom := by
  have hmoves := run_moves h hnone
  rw [held_eq_zero hstart, held_eq_zero hidle, zero_add, add_zero] at hmoves
  rw [← run_lost_iff h hnone, Answered]
  constructor
  · rintro ⟨hperm, -⟩
    have hcard := congrArg Multiset.card hmoves
    have hlen := hperm.length_eq
    simp only [Multiset.card_add, Multiset.coe_card, List.length_map] at hcard hlen
    exact List.eq_nil_of_length_eq_zero (by omega)
  · intro hlost
    refine ⟨?_, fun m ↦ mem_entered⟩
    rw [← Multiset.coe_eq_coe, hmoves, hlost, List.map_nil, Multiset.coe_nil, add_zero]

end

def waiting (responses : Nat) (cmd : SlipstreamMessage) : CerberusSlipstreamEngine where
  ingress := { queue := [cmd] }
  egress := { queue := List.replicate responses (response cmd 0) }

def waitingWith (responses : Nat) (cmd : SlipstreamMessage) (pc : WorkerPc) :
    CerberusSlipstreamEngine :=
  { waiting responses cmd with
    ingress := (waiting responses cmd).ingress.collect.2
    workers := Function.update (fun _ ↦ .idle) 0 pc }

def oneCommand (responses : Nat) (cmd : SlipstreamMessage) : EngineRun :=
  [(waiting responses cmd, .take 0), (waitingWith responses cmd (.taken cmd), .lock 0),
    (waitingWith responses cmd (.handling cmd), .answer 0 0)]

theorem run_oneCommand (responses : Nat) (cmd : SlipstreamMessage) :
    Run (EngineStep 1) (waiting responses cmd) (oneCommand responses cmd)
      { waitingWith responses cmd .idle with
        egress := (waitingWith responses cmd (.handling cmd)).handle cmd 0 } := by
  have hfree (j : Nat) (cmd' : SlipstreamMessage) :
      (waitingWith responses cmd (.taken cmd)).workers j ≠ .handling cmd' := by
    by_cases hj : j = 0
    · simp [waitingWith, hj]
    · simp [waitingWith, hj]
  have htake : EngineStep 1 (waiting responses cmd) (.take 0)
      (waitingWith responses cmd (.taken cmd)) := .take (by decide) rfl
  have hlock : EngineStep 1 (waitingWith responses cmd (.taken cmd)) (.lock 0)
      (waitingWith responses cmd (.handling cmd)) := by
    have h := EngineStep.lock (show 0 < 1 by decide)
      (show (waitingWith responses cmd (.taken cmd)).workers 0 = .taken cmd by rfl) hfree
    simpa [waitingWith] using h
  have hanswer : EngineStep 1 _ (.answer 0 0) _ := EngineStep.answer (show 0 < 1 by decide)
    (show (waitingWith responses cmd (.handling cmd)).workers 0 = .handling cmd by rfl)
  refine .cons htake (.cons hlock (.cons ?_ (.nil _)))
  simpa [waitingWith] using hanswer

theorem taken_oneCommand (responses : Nat) (cmd : SlipstreamMessage) :
    (oneCommand responses cmd).taken = [cmd] := by
  simp [oneCommand, EngineRun.taken, EngineAction.takes, waiting, SlipstreamDepot.collect]

theorem entered_oneCommand {responses : Nat} (h : 10000 ≤ responses) (cmd : SlipstreamMessage) :
    (oneCommand responses cmd).entered = [] := by
  simp [oneCommand, EngineRun.entered, EngineAction.responds, waiting, waitingWith,
    SlipstreamDepot.deposit, h]

def ping : SlipstreamMessage := .create .cmdExecute [1, 2, 3] 7 0

theorem engine_answers_iff_ping : Answered (oneCommand 0 ping) := by
  refine (engine_answers_iff (run_oneCommand 0 ping) rfl (fun i _ ↦ rfl) ?_).mpr ?_
  · intro i hi
    rw [Nat.lt_one_iff.mp hi]
    rfl
  · intro x hx i nowUs heq
    simp only [oneCommand, List.mem_cons, List.not_mem_nil, or_false] at hx
    rcases hx with rfl | rfl | rfl
    · cases heq
    · cases heq
    · decide

/-- With the depot full of responses, the worker takes the command and its response is dropped. -/
theorem response_lost :
    Run (EngineStep 1) (waiting 10000 ping) (oneCommand 10000 ping)
      { waitingWith 10000 ping .idle with
        egress := (waitingWith 10000 ping (.handling ping)).handle ping 0 } ∧
    (oneCommand 10000 ping).taken = [ping] ∧ ¬ Answered (oneCommand 10000 ping) := by
  refine ⟨run_oneCommand 10000 ping, taken_oneCommand 10000 ping, ?_⟩
  rintro ⟨hperm, -⟩
  rw [entered_oneCommand le_rfl, taken_oneCommand] at hperm
  exact absurd hperm.length_eq (by decide)

end Cerberus.Slipstream
