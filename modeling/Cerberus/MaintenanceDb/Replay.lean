import Cerberus.MaintenanceDb.SyncQueue

namespace Cerberus.MaintenanceDb

open Std Foundation Foundation.Bytes

/-- The loop of `replay_sync_queue` with the calls of the callback written down: the record that
was passed and how the call ended. -/
def replayLogged (callback : Nat → SyncRecord → Reply) (limit : Nat) :
    Nat → Nat → List SyncRecord → List (SyncRecord × Reply) × List SyncRecord × Nat
  | _, replayed, [] => ([], [], replayed)
  | offered, replayed, r :: rs =>
    if replayed < limit then
      match callback offered r with
      | .accepted =>
        let (log, out) := replayLogged callback limit (offered + 1) (replayed + 1) rs
        ((r, .accepted) :: log, out)
      | reply =>
        let (log, remaining, n) := replayLogged callback limit (offered + 1) replayed rs
        ((r, reply) :: log, r :: remaining, n)
    else
      let (log, remaining, n) := replayLogged callback limit offered replayed rs
      (log, r :: remaining, n)

def answers (callback : Nat → SyncRecord → Reply) (offered : Nat) (q : List SyncRecord) :
    List (SyncRecord × Reply) :=
  (q.zipIdx offered).map (fun e ↦ (e.1, callback e.2 e.1))

def successes (log : List (SyncRecord × Reply)) : Nat := log.countP (fun e ↦ e.2 = .accepted)

def unaccepted (log : List (SyncRecord × Reply)) : List SyncRecord :=
  (log.filter (fun e ↦ e.2 ≠ .accepted)).map (fun e ↦ e.1)

section logged

variable {callback : Nat → SyncRecord → Reply} {limit : Nat} {r : SyncRecord} {reply : Reply}
  {log : List (SyncRecord × Reply)}

@[simp] theorem answers_cons (offered : Nat) (r : SyncRecord) (q : List SyncRecord) :
    answers callback offered (r :: q) = (r, callback offered r) :: answers callback (offered + 1) q :=
  rfl

@[simp] theorem answers_length (offered : Nat) (q : List SyncRecord) :
    (answers callback offered q).length = q.length := by
  rw [answers, List.length_map, List.length_zipIdx]

@[simp] theorem successes_nil : successes [] = 0 := rfl

@[simp] theorem unaccepted_nil : unaccepted [] = [] := rfl

@[simp] theorem successes_accepted : successes ((r, .accepted) :: log) = successes log + 1 := by
  simp [successes]

theorem successes_failed (h : reply ≠ .accepted) :
    successes ((r, reply) :: log) = successes log := by
  simp [successes, h]

@[simp] theorem unaccepted_accepted : unaccepted ((r, .accepted) :: log) = unaccepted log := by
  simp [unaccepted]

theorem unaccepted_failed (h : reply ≠ .accepted) :
    unaccepted ((r, reply) :: log) = r :: unaccepted log := by
  simp [unaccepted, h]

theorem replayLogged_accepted {offered replayed : Nat} {q : List SyncRecord}
    (hlt : replayed < limit) (h : callback offered r = .accepted) :
    replayLogged callback limit offered replayed (r :: q) =
      ((r, .accepted) :: (replayLogged callback limit (offered + 1) (replayed + 1) q).1,
        (replayLogged callback limit (offered + 1) (replayed + 1) q).2) := by
  rw [replayLogged, if_pos hlt, h]

theorem replayLogged_failed {offered replayed : Nat} {q : List SyncRecord}
    (hlt : replayed < limit) (h : callback offered r ≠ .accepted) :
    replayLogged callback limit offered replayed (r :: q) =
      ((r, callback offered r) :: (replayLogged callback limit (offered + 1) replayed q).1,
        r :: (replayLogged callback limit (offered + 1) replayed q).2.1,
        (replayLogged callback limit (offered + 1) replayed q).2.2) := by
  rw [replayLogged, if_pos hlt]
  cases hc : callback offered r with
  | accepted => exact absurd hc h
  | refused => rfl
  | threw => rfl

theorem replayLogged_spent (offered replayed : Nat) (q : List SyncRecord) (h : limit ≤ replayed) :
    replayLogged callback limit offered replayed q = ([], q, replayed) := by
  induction q with
  | nil => rfl
  | cons r q ih => rw [replayLogged, if_neg (Nat.not_lt.mpr h), ih]

/-- Without its log, this is the loop of the source. -/
theorem replayLogged_loop (offered replayed : Nat) (q : List SyncRecord) :
    (replayLogged callback limit offered replayed q).2 =
      replayLoop callback limit offered replayed q := by
  induction q generalizing offered replayed with
  | nil => rfl
  | cons r q ih =>
    by_cases hlt : replayed < limit
    · by_cases hc : callback offered r = .accepted
      · rw [replayLogged_accepted hlt hc, replayLoop, if_pos hlt, hc]
        exact ih _ _
      · rw [replayLogged_failed hlt hc, replayLoop, if_pos hlt, ih]
        cases hcall : callback offered r with
        | accepted => exact absurd hcall hc
        | refused => rfl
        | threw => rfl
    · rw [replayLogged, replayLoop, if_neg hlt, if_neg hlt, ← ih]

structure Attempted (callback : Nat → SyncRecord → Reply) (limit offered replayed : Nat)
    (q : List SyncRecord) (n : Nat) : Prop where
  le : n ≤ q.length
  log : (replayLogged callback limit offered replayed q).1 = (answers callback offered q).take n
  below : ∀ i < n, replayed + successes ((answers callback offered q).take i) < limit
  full : n < q.length → limit ≤ replayed + successes ((answers callback offered q).take n)
  remaining : (replayLogged callback limit offered replayed q).2.1 =
    unaccepted ((answers callback offered q).take n) ++ q.drop n
  count : (replayLogged callback limit offered replayed q).2.2 =
    replayed + successes ((answers callback offered q).take n)

theorem exists_attempted (offered replayed : Nat) (q : List SyncRecord) :
    ∃ n, Attempted callback limit offered replayed q n := by
  induction q generalizing offered replayed with
  | nil => exact ⟨0, le_rfl, rfl, fun i hi ↦ by omega, fun h ↦ by simp at h, rfl, rfl⟩
  | cons r q ih =>
    by_cases hlt : replayed < limit
    · by_cases hc : callback offered r = .accepted
      · obtain ⟨n, h⟩ := ih (offered + 1) (replayed + 1)
        refine ⟨n + 1, Nat.succ_le_succ h.le, ?_, ?_, ?_, ?_, ?_⟩
        · rw [replayLogged_accepted hlt hc, answers_cons, hc, List.take_succ_cons, h.log]
        · rintro (_ | i) hi
          · exact hlt
          · have hbelow := h.below i (by omega)
            rw [answers_cons, hc, List.take_succ_cons, successes_accepted]
            omega
        · intro hn
          have hfull := h.full (Nat.lt_of_succ_lt_succ hn)
          rw [answers_cons, hc, List.take_succ_cons, successes_accepted]
          omega
        · rw [replayLogged_accepted hlt hc, answers_cons, hc, List.take_succ_cons,
            unaccepted_accepted, List.drop_succ_cons]
          exact h.remaining
        · rw [replayLogged_accepted hlt hc, answers_cons, hc, List.take_succ_cons,
            successes_accepted]
          exact h.count.trans (by omega)
      · obtain ⟨n, h⟩ := ih (offered + 1) replayed
        refine ⟨n + 1, Nat.succ_le_succ h.le, ?_, ?_, ?_, ?_, ?_⟩
        · rw [replayLogged_failed hlt hc, answers_cons, List.take_succ_cons, h.log]
        · rintro (_ | i) hi
          · exact hlt
          · rw [answers_cons, List.take_succ_cons, successes_failed hc]
            exact h.below i (by omega)
        · intro hn
          rw [answers_cons, List.take_succ_cons, successes_failed hc]
          exact h.full (Nat.lt_of_succ_lt_succ hn)
        · rw [replayLogged_failed hlt hc, answers_cons, List.take_succ_cons,
            unaccepted_failed hc, List.drop_succ_cons, List.cons_append, h.remaining]
        · rw [replayLogged_failed hlt hc, answers_cons, List.take_succ_cons, successes_failed hc]
          exact h.count
    · have hspent := Nat.not_lt.mp hlt
      exact ⟨0, Nat.zero_le _, by simp [replayLogged_spent _ _ _ hspent], fun i hi ↦ by omega,
        fun _ ↦ hspent, by simp [replayLogged_spent _ _ _ hspent],
        by simp [replayLogged_spent _ _ _ hspent]⟩

end logged

theorem LocalMaintenanceDB.replaySyncQueue_eq (d : LocalMaintenanceDB)
    (callback : Nat → SyncRecord → Reply) (maxRecords : Nat) :
    d.replaySyncQueue callback maxRecords =
      let out := (replayLogged callback (replayLimit maxRecords d.syncQueue) 0 0 d.syncQueue).2
      ({ d with syncQueue := out.1 }, out.2) := by
  rw [replayLogged_loop, replaySyncQueue]
  split
  · next h =>
    cases d
    obtain rfl := List.isEmpty_iff.mp h
    rfl
  · rfl

/-- One call attempts a prefix of the queue, record by record: all of it, or as much as it takes
to reach the bound. It returns how many were accepted, and keeps the others in their order. -/
theorem LocalMaintenanceDB.replaySyncQueue_partitions (d : LocalMaintenanceDB)
    (callback : Nat → SyncRecord → Reply) (maxRecords : Nat) :
    let limit := replayLimit maxRecords d.syncQueue
    let log := (replayLogged callback limit 0 0 d.syncQueue).1
    let n := log.length
    n ≤ d.syncQueue.length ∧
      log = (answers callback 0 d.syncQueue).take n ∧
      (∀ i < n, successes (log.take i) < limit) ∧
      (n < d.syncQueue.length → limit ≤ successes log) ∧
      d.replaySyncQueue callback maxRecords =
        ({ d with syncQueue := unaccepted log ++ d.syncQueue.drop n }, successes log) := by
  have hattempted : ∃ n, Attempted callback (replayLimit maxRecords d.syncQueue) 0 0 d.syncQueue n :=
    exists_attempted 0 0 d.syncQueue
  obtain ⟨n, h⟩ := hattempted
  have hlen : ((answers callback 0 d.syncQueue).take n).length = n := by
    simpa using h.le
  dsimp only
  rw [replaySyncQueue_eq, h.log, hlen]
  refine ⟨h.le, rfl, fun i hi ↦ ?_, fun hn ↦ ?_, ?_⟩
  · have hbelow := h.below i hi
    rwa [List.take_take, min_eq_left hi.le, ← Nat.zero_add (successes _)]
  · have hfull := h.full hn
    rwa [Nat.zero_add] at hfull
  · dsimp only
    rw [h.remaining, h.count, Nat.zero_add]

end Cerberus.MaintenanceDb
