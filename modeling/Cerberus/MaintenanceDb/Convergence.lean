import Cerberus.MaintenanceDb.SyncQueue

namespace Cerberus.MaintenanceDb

open Std Foundation Foundation.Bytes Foundation.Trace Foundation.Wire

def SyncRecord.row (r : SyncRecord) : ByteString × ByteString := (r.table, r.key)

def lastFor (k : ByteString × ByteString) (l : List SyncRecord) : Option SyncRecord :=
  (l.filter (fun r ↦ r.row = k)).getLast?

section last

variable {k : ByteString × ByteString} {l m : List SyncRecord}

theorem lastFor_append : lastFor k (l ++ m) = (lastFor k m).or (lastFor k l) := by
  simp only [lastFor, List.filter_append, List.getLast?_append]

theorem lastFor_eq_none : lastFor k l = none ↔ ∀ r ∈ l, r.row ≠ k := by
  simp [lastFor]

theorem lastFor_cons {r : SyncRecord} :
    lastFor k (r :: l) = (lastFor k l).or (if r.row = k then some r else none) := by
  rw [← List.singleton_append, lastFor_append]
  split <;> simp [lastFor, *]

theorem mem_of_lastFor {r : SyncRecord} (h : lastFor k l = some r) : r ∈ l ∧ r.row = k := by
  simpa using List.mem_of_getLast? h

theorem exists_of_lastFor {s : SyncRecord} (h : lastFor k l = some s) :
    ∃ pre post, l = pre ++ s :: post ∧ s.row = k ∧ ∀ r ∈ post, r.row ≠ k := by
  induction l with
  | nil => simp [lastFor] at h
  | cons r l ih =>
    rw [lastFor_cons] at h
    cases hl : lastFor k l with
    | some s' =>
      obtain ⟨pre, post, rfl, hs⟩ := ih (by simpa [hl] using h)
      exact ⟨r :: pre, post, rfl, hs⟩
    | none =>
      simp only [hl, Option.none_or] at h
      split at h
      · next hrow =>
        obtain rfl := Option.some.inj h
        exact ⟨[], l, rfl, hrow, lastFor_eq_none.mp hl⟩
      · cases h

end last

def accepting (callback : Nat → SyncRecord → Reply) (q : List SyncRecord) : Nat :=
  q.zipIdx.countP (fun e ↦ callback e.2 e.1 = .accepted)

/-- When the last record for a row is accepted before the bound is reached, so is every other
one for that row that the callback was offered before it. -/
def InOrder (callback : Nat → SyncRecord → Reply) (limit : Nat) (q : List SyncRecord) : Prop :=
  ∀ pre s post, q = pre ++ s :: post → (∀ r ∈ post, r.row ≠ s.row) →
    callback pre.length s = .accepted → accepting callback pre < limit →
    ∀ r i, (r, i) ∈ pre.zipIdx → r.row = s.row → r ≠ s → callback i r = .accepted

section replay

variable {callback : Nat → SyncRecord → Reply} {limit : Nat}

theorem replayAccepted_spent {offered replayed : Nat} (q : List SyncRecord)
    (h : limit ≤ replayed) : replayAccepted callback limit offered replayed q = [] := by
  cases q with
  | nil => rfl
  | cons r rs => simp [replayAccepted, Nat.not_lt.mpr h]

theorem replay_append (offered replayed : Nat) (l m : List SyncRecord) :
    let n := replayed + (replayAccepted callback limit offered replayed l).length
    replayAccepted callback limit offered replayed (l ++ m) =
        replayAccepted callback limit offered replayed l ++
          replayAccepted callback limit (offered + l.length) n m ∧
      (replayLoop callback limit offered replayed (l ++ m)).1 =
        (replayLoop callback limit offered replayed l).1 ++
          (replayLoop callback limit (offered + l.length) n m).1 := by
  induction l generalizing offered replayed with
  | nil => simp [replayAccepted, replayLoop]
  | cons r l ih =>
    by_cases hn : replayed < limit
    · cases hc : callback offered r with
      | accepted =>
        obtain ⟨ha, hr⟩ := ih (offered + 1) (replayed + 1)
        simp only [List.cons_append, replayAccepted, replayLoop, hn, if_true, hc, ha, hr,
          List.length_cons]
        grind
      | refused =>
        obtain ⟨ha, hr⟩ := ih (offered + 1) replayed
        simp only [List.cons_append, replayAccepted, replayLoop, hn, if_true, hc, ha, hr,
          List.length_cons]
        grind
      | threw =>
        obtain ⟨ha, hr⟩ := ih (offered + 1) replayed
        simp only [List.cons_append, replayAccepted, replayLoop, hn, if_true, hc, ha, hr,
          List.length_cons]
        grind
    · have hspent := Nat.not_lt.mp hn
      simp [replayAccepted_spent _ hspent, replayLoop_spent _ _ _ hspent]

theorem replay_below (offered replayed : Nat) (l : List SyncRecord)
    (h : replayed + (replayAccepted callback limit offered replayed l).length < limit) :
    (replayAccepted callback limit offered replayed l).length =
        (l.zipIdx offered).countP (fun e ↦ callback e.2 e.1 = .accepted) ∧
      ∀ r ∈ (replayLoop callback limit offered replayed l).1,
        ∃ i, (r, i) ∈ l.zipIdx offered ∧ callback i r ≠ .accepted := by
  induction l generalizing offered replayed with
  | nil => simp [replayAccepted, replayLoop]
  | cons r l ih =>
    have hn : replayed < limit := by omega
    have hkept (hc : callback offered r ≠ .accepted)
        (h' : replayed + (replayAccepted callback limit (offered + 1) replayed l).length < limit) :
        ∀ s ∈ r :: (replayLoop callback limit (offered + 1) replayed l).1,
          ∃ i, (s, i) ∈ (r :: l).zipIdx offered ∧ callback i s ≠ .accepted := by
      intro s hs
      rcases List.mem_cons.mp hs with rfl | hs
      · exact ⟨offered, by simp, hc⟩
      · obtain ⟨i, hi, hci⟩ := (ih (offered + 1) replayed h').2 s hs
        exact ⟨i, by simp [hi], hci⟩
    simp only [replayAccepted, replayLoop, hn, if_true] at h ⊢
    cases hc : callback offered r with
    | accepted =>
      simp only [hc, List.length_cons] at h ⊢
      obtain ⟨hlen, hrest⟩ := ih (offered + 1) (replayed + 1) (by omega)
      refine ⟨by simp [hlen, hc], fun s hs ↦ ?_⟩
      obtain ⟨i, hi, hci⟩ := hrest s hs
      exact ⟨i, by simp [hi], hci⟩
    | refused =>
      simp only [hc] at h ⊢
      exact ⟨by simp [(ih _ _ h).1, hc], hkept (by simp [hc]) h⟩
    | threw =>
      simp only [hc] at h ⊢
      exact ⟨by simp [(ih _ _ h).1, hc], hkept (by simp [hc]) h⟩

theorem replay_last {q : List SyncRecord} (h : InOrder callback limit q)
    (k : ByteString × ByteString) :
    lastFor k (replayAccepted callback limit 0 0 q ++ (replayLoop callback limit 0 0 q).1) =
      lastFor k q := by
  cases hq : lastFor k q with
  | none =>
    rw [lastFor_eq_none] at hq ⊢
    exact fun r hr ↦ hq r ((replayLoop_perm 0 0 q).mem_iff.mp hr)
  | some s =>
    obtain ⟨pre, post, rfl, rfl, hpost⟩ := exists_of_lastFor hq
    obtain ⟨haccepted, hremain⟩ := @replay_append callback limit 0 0 pre (s :: post)
    have hnone (offered replayed : Nat) :
        lastFor s.row (replayLoop callback limit offered replayed post).1 = none :=
      lastFor_eq_none.mpr (fun r hr ↦ hpost r ((replayLoop_sublist _ _ post).subset hr))
    rw [haccepted, hremain]
    generalize hn : 0 + (replayAccepted callback limit 0 0 pre).length = n
    by_cases htaken : n < limit ∧ callback pre.length s = .accepted
    · -- what stays of the records before it is equal to it
      have hstay : ∀ r, lastFor s.row (replayLoop callback limit 0 0 pre).1 = some r → r = s := by
        intro r hr
        obtain ⟨hmem, hrow⟩ := mem_of_lastFor hr
        obtain ⟨hcount, hrefused⟩ := @replay_below callback limit 0 0 pre (by omega)
        obtain ⟨i, hi, hci⟩ := hrefused r hmem
        by_contra hne
        have hbelow : accepting callback pre < limit := by
          rw [accepting, ← hcount]
          omega
        exact hci (h pre s post rfl hpost htaken.2 hbelow r i hi hrow hne)
      simp only [replayAccepted, replayLoop, Nat.zero_add, htaken.1, htaken.2, if_true,
        lastFor_append, lastFor_cons, hnone, Option.none_or]
      cases hpre : lastFor s.row (replayLoop callback limit 0 0 pre).1 with
      | some r => simp [hstay r hpre]
      | none =>
        have hafter : lastFor s.row (replayAccepted callback limit (pre.length + 1) (n + 1) post) =
            none := lastFor_eq_none.mpr (fun r hr ↦ hpost r
          ((replayLoop_perm _ _ post).mem_iff.mp (List.mem_append_left _ hr)))
        simp [hafter]
    · have hkept : ∃ offered, (replayLoop callback limit (0 + pre.length) n (s :: post)).1 =
          s :: (replayLoop callback limit offered n post).1 := by
        rw [replayLoop, Nat.zero_add]
        split
        · next hlt =>
          cases hc : callback pre.length s with
          | accepted => exact absurd ⟨hlt, hc⟩ htaken
          | refused => exact ⟨_, rfl⟩
          | threw => exact ⟨_, rfl⟩
        · exact ⟨_, rfl⟩
      obtain ⟨offered, hkept⟩ := hkept
      rw [hkept]
      simp [lastFor_append, lastFor_cons, hnone]

end replay

/-- No replay of the run takes the last record for a row before an earlier one, and nothing is
dropped by `shutdown`. -/
def Call.ordered (w : World) : Call → Prop
  | .replaySyncQueue callback maxRecords =>
    InOrder callback (replayLimit maxRecords w.db.syncQueue) w.db.syncQueue
  | call => call.drained w

/-- Once nothing is queued, the last record accepted for each row is the last one queued. -/
def Converged (b : Book) : Prop :=
  b.world.db.syncQueue = [] → ∀ k, lastFor k b.accepted = lastFor k b.queued

theorem Call.ordered.drained {w : World} {call : Call} (h : call.ordered w) : call.drained w := by
  cases call with
  | replaySyncQueue callback maxRecords => trivial
  | _ => exact h

theorem booked_last {L : Lfssl} {b b' : Book} {e : Moment × Call}
    (h : ∀ k, lastFor k (b.accepted ++ b.world.db.syncQueue) = lastFor k b.queued)
    (he : e.2.ordered b.world) (hs : Booked L b e b') (k : ByteString × ByteString) :
    lastFor k (b'.accepted ++ b'.world.db.syncQueue) = lastFor k b'.queued := by
  obtain ⟨mo, call⟩ := e
  subst hs
  rcases serve_syncQueue L mo he.drained with ⟨hq, ha⟩ | ⟨callback, maxRecords, rfl, hq⟩
  · simp only [hq, ha, List.append_nil, ← List.append_assoc]
    rw [lastFor_append, h, ← lastFor_append]
  · simp only [hq, Call.accepts, Call.queues, List.append_nil, List.append_assoc]
    rw [lastFor_append, replay_last he, ← lastFor_append, h]

/-- Whatever is in the queue at the start, in every run of public calls whose replays keep
the records for each row in order, the records accepted end in the last one queued for each
row as soon as the queue has drained. -/
theorem replay_converges {L : Lfssl} {w : World} {tr : List (Book × Moment × Call)} {b : Book}
    (hr : Run (Booked L) { world := w, queued := w.db.syncQueue } tr b)
    (hok : ∀ e ∈ tr, e.2.2.ordered e.1.world) : Throughout Converged tr b := by
  have hlast : Throughout (fun b ↦ ∀ k, lastFor k (b.accepted ++ b.world.db.syncQueue) =
      lastFor k b.queued) tr b :=
    hr.guarded (fun _ _ _ h he hs ↦ booked_last h he hs) (fun _ ↦ rfl) hok
  have hconverged {b : Book} (h : ∀ k, lastFor k (b.accepted ++ b.world.db.syncQueue) =
      lastFor k b.queued) : Converged b := by
    intro hempty k
    rw [← h k, hempty, List.append_nil]
  exact ⟨fun e he ↦ hconverged (hlast.1 e he), hconverged hlast.2⟩

def twoForOneRow : List SyncRecord := [
  ⟨lit "reviews", lit "r", (∅ : Fields).insert (lit "rating") (lit "1"), 0⟩,
  ⟨lit "reviews", lit "r", (∅ : Fields).insert (lit "rating") (lit "5"), 1⟩]

theorem replay_converges_one_by_one :
    ∃ tr b, Run (Booked noLfssl)
        { world := { db := { syncQueue := twoForOneRow } }, queued := twoForOneRow } tr b ∧
      b.world.db.syncQueue = [] ∧ Throughout Converged tr b := by
  have hr : Run (Booked noLfssl)
      { world := { db := { syncQueue := twoForOneRow } }, queued := twoForOneRow } _ _ :=
    .cons (a := (quietMoment, .replaySyncQueue (fun i _ ↦ if i = 0 then .accepted else .threw) 1)) rfl
      (.cons (a := (quietMoment, .replaySyncQueue (fun _ _ ↦ .accepted) 0)) rfl (.nil _))
  refine ⟨_, _, hr, by decide, replay_converges hr ?_⟩
  simp only [List.mem_cons, List.not_mem_nil, or_false, forall_eq_or_imp, forall_eq]
  constructor
  · -- only the first record of the pass is accepted
    intro pre s post _ _ hs _ r i hr
    cases pre with
    | nil => cases hr
    | cons => simp at hs
  · exact fun _ _ _ _ _ _ _ _ _ _ _ _ ↦ rfl

/-- The first record is refused and handed over after the second: the older value stays. -/
theorem older_record_wins :
    ∃ tr b, Run (Booked noLfssl)
        { world := { db := { syncQueue := twoForOneRow } }, queued := twoForOneRow } tr b ∧
      tr.map (fun e ↦ e.2) = [
        (quietMoment, .replaySyncQueue (fun i _ ↦ if i = 0 then .refused else .accepted) 0),
        (quietMoment, .replaySyncQueue (fun _ _ ↦ .accepted) 0)] ∧
      b.world.db.syncQueue = [] ∧ ¬ Converged b := by
  have hr : Run (Booked noLfssl)
      { world := { db := { syncQueue := twoForOneRow } }, queued := twoForOneRow } _ _ :=
    .cons (a := (quietMoment, .replaySyncQueue
        (fun i _ ↦ if i = 0 then .refused else .accepted) 0)) rfl
      (.cons (a := (quietMoment, .replaySyncQueue (fun _ _ ↦ .accepted) 0)) rfl (.nil _))
  refine ⟨_, _, hr, rfl, by decide, fun h ↦ ?_⟩
  have hlast := h (by decide) (lit "reviews", lit "r")
  revert hlast
  decide

end Cerberus.MaintenanceDb
