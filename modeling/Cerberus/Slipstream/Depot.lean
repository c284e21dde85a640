import Cerberus.Foundation.Fifo
import Cerberus.Foundation.Trace
import Cerberus.Slipstream.Message

namespace Cerberus.Slipstream

open Foundation.Bytes Foundation.Fifo Foundation.Trace

structure Stats where
  deposited : UInt64 := 0
  collected : UInt64 := 0
  dropped : UInt64 := 0
  timeouts : UInt64 := 0
  peeked : UInt64 := 0
  deriving DecidableEq

structure SlipstreamDepot where
  capacity : Nat := 10000
  queue : List SlipstreamMessage := []
  stats : Stats := {}
  deriving DecidableEq

namespace SlipstreamDepot

variable (d : SlipstreamDepot)

def deposit (message : SlipstreamMessage) : Bool × SlipstreamDepot :=
  if d.capacity ≤ d.queue.length then
    (false, { d with stats := { d.stats with dropped := d.stats.dropped + 1 } })
  else
    (true, { d with
      queue := d.queue ++ [message]
      stats := { d.stats with deposited := d.stats.deposited + 1 } })

/-- The end of the wait, under the lock: the queue is empty only if the time has run out. -/
def collect : Option SlipstreamMessage × SlipstreamDepot :=
  match d.queue with
  | [] => (none, { d with stats := { d.stats with timeouts := d.stats.timeouts + 1 } })
  | msg :: queue =>
    (some msg, { d with queue, stats := { d.stats with collected := d.stats.collected + 1 } })

def tryCollect : Option SlipstreamMessage × SlipstreamDepot :=
  match d.queue with
  | [] => (none, d)
  | msg :: queue =>
    (some msg, { d with queue, stats := { d.stats with collected := d.stats.collected + 1 } })

def peek : Option SlipstreamMessage × SlipstreamDepot :=
  match d.queue with
  | [] => (none, d)
  | msg :: _ => (some msg, { d with stats := { d.stats with peeked := d.stats.peeked + 1 } })

def clear : SlipstreamDepot := { d with queue := [] }

end SlipstreamDepot

inductive DepotCall
  | deposit (message : SlipstreamMessage)
  | collect
  | tryCollect
  | peek
  | clear
  deriving DecidableEq

def DepotCall.perform (d : SlipstreamDepot) : DepotCall → SlipstreamDepot
  | .deposit message => (d.deposit message).2
  | .collect => d.collect.2
  | .tryCollect => d.tryCollect.2
  | .peek => d.peek.2
  | .clear => d.clear

def DepotCall.accepts (d : SlipstreamDepot) : DepotCall → List SlipstreamMessage
  | .deposit message => if (d.deposit message).1 then [message] else []
  | _ => []

def DepotCall.drops (d : SlipstreamDepot) : DepotCall → List SlipstreamMessage
  | .deposit message => if (d.deposit message).1 then [] else [message]
  | _ => []

def DepotCall.collects (d : SlipstreamDepot) : DepotCall → List SlipstreamMessage
  | .collect => d.collect.1.toList
  | .tryCollect => d.tryCollect.1.toList
  | _ => []

def DepotCall.clears (d : SlipstreamDepot) : DepotCall → List SlipstreamMessage
  | .clear => d.queue
  | _ => []

def DepotCall.deposits : DepotCall → List SlipstreamMessage
  | .deposit message => [message]
  | _ => []

def DepotStep (d : SlipstreamDepot) (c : DepotCall) (d' : SlipstreamDepot) : Prop :=
  d' = c.perform d

abbrev DepotRun := List (SlipstreamDepot × DepotCall)

namespace DepotRun

variable (tr : DepotRun)

def accepted : List SlipstreamMessage := tr.flatMap (fun e ↦ e.2.accepts e.1)

def dropped : List SlipstreamMessage := tr.flatMap (fun e ↦ e.2.drops e.1)

def collected : List SlipstreamMessage := tr.flatMap (fun e ↦ e.2.collects e.1)

def cleared : List SlipstreamMessage := tr.flatMap (fun e ↦ e.2.clears e.1)

def deposits : List SlipstreamMessage := tr.flatMap (fun e ↦ e.2.deposits)

end DepotRun

/-- The books of a depot after a run. A message is accepted if there is room for it. Of the accepted
messages, in their order, the first ones have been collected or cleared, each once, and the others
are in the queue. -/
structure Conserved (capacity : Nat) (tr : DepotRun) (d : SlipstreamDepot) : Prop where
  admitted : ∀ e ∈ tr, ∀ message, e.2 = .deposit message →
    ((e.1.deposit message).1 = true ↔ e.1.queue.length < capacity)
  bounded : d.queue.length ≤ capacity
  fates : Flow [] tr.accepted tr.collected tr.cleared d.queue
  total : tr.accepted.length = tr.collected.length + d.queue.length + tr.cleared.length
  calls : tr.deposits.length = tr.accepted.length + tr.dropped.length
  counted : d.stats.deposited = .ofNat tr.accepted.length ∧
    d.stats.dropped = .ofNat tr.dropped.length

section

variable {d d' : SlipstreamDepot} {c : DepotCall} {tr : DepotRun}

@[simp] theorem DepotCall.capacity_perform (d : SlipstreamDepot) (c : DepotCall) :
    (c.perform d).capacity = d.capacity := by
  cases c with
  | deposit message => simp only [perform, SlipstreamDepot.deposit]; split <;> rfl
  | collect => simp only [perform, SlipstreamDepot.collect]; split <;> rfl
  | tryCollect => simp only [perform, SlipstreamDepot.tryCollect]; split <;> rfl
  | peek => simp only [perform, SlipstreamDepot.peek]; split <;> rfl
  | clear => rfl

theorem DepotCall.flow (d : SlipstreamDepot) (c : DepotCall) :
    Flow d.queue (c.accepts d) (c.collects d) (c.clears d) (c.perform d).queue := by
  cases c with
  | deposit message =>
    by_cases hfull : d.capacity ≤ d.queue.length
    · simpa [accepts, collects, clears, perform, SlipstreamDepot.deposit, hfull] using Flow.stay _
    · simpa [accepts, collects, clears, perform, SlipstreamDepot.deposit, hfull] using
        Flow.enter _ message
  | collect =>
    cases hqueue : d.queue with
    | nil =>
      simpa [accepts, collects, clears, perform, SlipstreamDepot.collect, hqueue] using
        Flow.stay []
    | cons msg queue =>
      simpa [accepts, collects, clears, perform, SlipstreamDepot.collect, hqueue] using
        Flow.take msg queue
  | tryCollect =>
    cases hqueue : d.queue with
    | nil =>
      simpa [accepts, collects, clears, perform, SlipstreamDepot.tryCollect, hqueue] using
        Flow.stay []
    | cons msg queue =>
      simpa [accepts, collects, clears, perform, SlipstreamDepot.tryCollect, hqueue] using
        Flow.take msg queue
  | peek =>
    cases hqueue : d.queue with
    | nil =>
      simpa [accepts, collects, clears, perform, SlipstreamDepot.peek, hqueue] using Flow.stay []
    | cons msg queue =>
      simpa [accepts, collects, clears, perform, SlipstreamDepot.peek, hqueue] using
        Flow.stay (msg :: queue)
  | clear => exact Flow.discard d.queue

theorem DepotCall.bounded (h : d.queue.length ≤ d.capacity) (c : DepotCall) :
    (c.perform d).queue.length ≤ d.capacity := by
  have hflow := (c.flow d).length
  have haccepts : (c.accepts d).length ≤ d.capacity - d.queue.length := by
    cases c with
    | deposit message =>
      by_cases hfull : d.capacity ≤ d.queue.length
      · simp [accepts, SlipstreamDepot.deposit, hfull]
      · simp [accepts, SlipstreamDepot.deposit, hfull]
        omega
    | collect => simp [accepts]
    | tryCollect => simp [accepts]
    | peek => simp [accepts]
    | clear => simp [accepts]
  omega

/-- A call of `deposit` is counted in one of the two counters, and no other call is. -/
theorem DepotCall.counted (d : SlipstreamDepot) (c : DepotCall) :
    c.deposits.length = (c.accepts d).length + (c.drops d).length ∧
      (c.perform d).stats.deposited = d.stats.deposited + .ofNat (c.accepts d).length ∧
      (c.perform d).stats.dropped = d.stats.dropped + .ofNat (c.drops d).length := by
  cases c with
  | deposit message =>
    by_cases hfull : d.capacity ≤ d.queue.length
    · simp [deposits, accepts, drops, perform, SlipstreamDepot.deposit, hfull]
    · simp [deposits, accepts, drops, perform, SlipstreamDepot.deposit, hfull]
  | collect =>
    cases hqueue : d.queue with
    | nil => simp [deposits, accepts, drops, perform, SlipstreamDepot.collect, hqueue]
    | cons msg queue => simp [deposits, accepts, drops, perform, SlipstreamDepot.collect, hqueue]
  | tryCollect =>
    cases hqueue : d.queue with
    | nil => simp [deposits, accepts, drops, perform, SlipstreamDepot.tryCollect, hqueue]
    | cons msg queue =>
      simp [deposits, accepts, drops, perform, SlipstreamDepot.tryCollect, hqueue]
  | peek =>
    cases hqueue : d.queue with
    | nil => simp [deposits, accepts, drops, perform, SlipstreamDepot.peek, hqueue]
    | cons msg queue => simp [deposits, accepts, drops, perform, SlipstreamDepot.peek, hqueue]
  | clear => simp [deposits, accepts, drops, perform, SlipstreamDepot.clear]

theorem run_flow (h : Run DepotStep d tr d') :
    Flow d.queue tr.accepted tr.collected tr.cleared d'.queue := by
  induction h with
  | nil d => exact Flow.stay d.queue
  | @cons d d₁ d' c tr hstep hrun ih =>
    rw [hstep] at ih
    exact (c.flow d).trans ih

theorem run_admitted (h : Run DepotStep d tr d') : ∀ e ∈ tr, ∀ message, e.2 = .deposit message →
    ((e.1.deposit message).1 = true ↔ e.1.queue.length < d.capacity) := by
  have hcapacity (e : SlipstreamDepot × DepotCall) (he : e ∈ tr) : e.1.capacity = d.capacity :=
    (h.invariant (I := fun s ↦ s.capacity = d.capacity)
      (fun s c _ hs hstep ↦ by rw [hstep, c.capacity_perform, hs]) rfl).1 e he
  intro e he message _
  rw [← hcapacity e he, SlipstreamDepot.deposit]
  split <;> simp <;> omega

theorem run_bounded (h : Run DepotStep d tr d') (hd : d.queue.length ≤ d.capacity) :
    d'.queue.length ≤ d.capacity := by
  induction h with
  | nil d => exact hd
  | @cons d d₁ d' c tr hstep hrun ih =>
    rw [hstep, c.capacity_perform] at ih
    exact ih (c.bounded hd)

theorem run_counted (h : Run DepotStep d tr d') :
    tr.deposits.length = tr.accepted.length + tr.dropped.length ∧
      d'.stats.deposited = d.stats.deposited + .ofNat tr.accepted.length ∧
      d'.stats.dropped = d.stats.dropped + .ofNat tr.dropped.length := by
  induction h with
  | nil d => simp [DepotRun.deposits, DepotRun.accepted, DepotRun.dropped]
  | @cons d d₁ d' c tr hstep hrun ih =>
    obtain ⟨hcalls, hdeposited, hdropped⟩ := ih
    obtain ⟨hcall, hdeposit, hdrop⟩ := c.counted d
    have hlen (g : SlipstreamDepot × DepotCall → List SlipstreamMessage) :
        (((d, c) :: tr).flatMap g).length = (g (d, c)).length + (tr.flatMap g).length := by
      rw [List.flatMap_cons, List.length_append]
    refine ⟨?_, ?_, ?_⟩
    · rw [DepotRun.deposits, DepotRun.accepted, DepotRun.dropped, hlen, hlen, hlen, hcall]
      simp only [DepotRun.deposits, DepotRun.accepted, DepotRun.dropped] at hcalls ⊢
      omega
    · rw [hdeposited, hstep, hdeposit, DepotRun.accepted, DepotRun.accepted, hlen,
        UInt64.ofNat_add, add_assoc]
    · rw [hdropped, hstep, hdrop, DepotRun.dropped, DepotRun.dropped, hlen, UInt64.ofNat_add,
        add_assoc]

/-- Whatever the threads do, and in whatever order, the books of a new depot balance. -/
theorem depot_conserves (capacity : Nat) (h : Run DepotStep { capacity } tr d) :
    Conserved capacity tr d := by
  have hflow := run_flow h
  obtain ⟨hcalls, hdeposited, hdropped⟩ := run_counted h
  refine ⟨run_admitted h, run_bounded h (Nat.zero_le _), hflow, ?_, hcalls, ?_, ?_⟩
  · have hlen := hflow.length
    rwa [List.length_nil, Nat.zero_add] at hlen
  · rw [hdeposited]
    exact zero_add _
  · rw [hdropped]
    exact zero_add _

end

def depotRun (d : SlipstreamDepot) (calls : List DepotCall) : DepotRun × SlipstreamDepot :=
  follow (fun d c ↦ some (c.perform d)) d calls

theorem run_depotRun (d : SlipstreamDepot) (calls : List DepotCall) :
    Run DepotStep d (depotRun d calls).1 (depotRun d calls).2 := by
  have hstep : (fun d (c : DepotCall) d' ↦ some (c.perform d) = some d') = DepotStep := by
    funext d c d'
    simp [DepotStep, eq_comm]
  rw [← hstep]
  exact run_follow _ d calls

/-- Room for one message: the second deposit is dropped, the third one is cleared. -/
theorem depot_conserves_small :
    Conserved 1
      (depotRun { capacity := 1 } [.deposit {}, .deposit {}, .collect, .deposit {}, .clear]).1
      (depotRun { capacity := 1 } [.deposit {}, .deposit {}, .collect, .deposit {}, .clear]).2 :=
  depot_conserves 1 (run_depotRun _ _)

end Cerberus.Slipstream
