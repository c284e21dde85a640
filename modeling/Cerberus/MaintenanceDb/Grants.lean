import Cerberus.MaintenanceDb.Durability

namespace Cerberus.MaintenanceDb

open Std Foundation Foundation.Bytes Foundation.Trace

def Call.grants (w : World) (mo : Moment) : Call → Option ByteString
  | .mutate (.storeOnboardingGrant g) =>
    if (w.db.storeOnboardingGrant mo.now g).2 then
      some (w.db.keyFor .onboardingGrants "grant_id" "grant_" g)
    else none
  | _ => none

/-- The grant for which `consume_onboarding_grant` returns true. -/
def Call.consumes (w : World) (mo : Moment) : Call → Option ByteString
  | .mutate (.consumeOnboardingGrant id consumedBy reason) =>
    if (w.db.consumeOnboardingGrant mo.now id consumedBy reason).2 then some id else none
  | _ => none

/-- A world, and how often each grant was consumed since it was stored last. -/
structure Ledger where
  world : World
  uses : ByteString → Nat := fun _ ↦ 0

def Call.recount (w : World) (mo : Moment) (call : Call) (uses : ByteString → Nat)
    (id : ByteString) : Nat :=
  if call.grants w mo = some id then 0
  else if call.consumes w mo = some id then uses id + 1
  else uses id

def Counted (L : Lfssl) (b : Ledger) (e : Moment × Call) (b' : Ledger) : Prop :=
  b' = { world := b.world.serve L e.1 e.2, uses := e.2.recount b.world e.1 b.uses }

def Consumed (grant : Fields) : Prop := grant.holds "consumed" (lit "true") = true

structure SingleUse (b : Ledger) : Prop where
  once : ∀ id, b.uses id ≤ 1
  marked : ∀ id grant, b.world.db.tables.onboardingGrants[id]? = some grant → b.uses id ≠ 0 →
    Consumed grant

/-- A grant is not consumed again when it says that it was, and a file that is read has no grant
that was consumed without saying so. -/
def Call.unspent (L : Lfssl) (b : Ledger) (mo : Moment) : Call → Prop
  | .mutate (.consumeOnboardingGrant id _ _) =>
    b.world.db.initialized = true → id ≠ [] →
      ∀ grant, b.world.db.tables.onboardingGrants[id]? = some grant → b.uses id ≠ 0 →
        ¬ Consumed grant
  | .initializeDb dbPath dbKey =>
    b.world.db.initialized = false → dbKey.length = 32 → b.world.disk.exists dbPath = true →
      ∀ t, loadFromDisk L mo { b.world.db with dbPath, dbKey } b.world.disk = some t →
        ∀ id grant, t.onboardingGrants[id]? = some grant → b.uses id ≠ 0 → Consumed grant
  | _ => True

section steps

variable {L : Lfssl} {b : Ledger} {mo : Moment}

theorem SingleUse.frame (h : SingleUse b) {w : World}
    (hw : w.db.tables.onboardingGrants = b.world.db.tables.onboardingGrants) :
    SingleUse { world := w, uses := b.uses } :=
  ⟨h.once, fun id grant hg ↦ h.marked id grant (hw ▸ hg)⟩

theorem SingleUse.stored (h : SingleUse b) {w : World} {key : ByteString} {record : Fields}
    (hw : w.db.tables.onboardingGrants = b.world.db.tables.onboardingGrants.insert key record) :
    SingleUse { world := w, uses := fun id ↦ if key = id then 0 else b.uses id } := by
  refine ⟨fun id ↦ ?_, fun id grant hgrant huses ↦ ?_⟩
  · dsimp only
    split
    · omega
    · exact h.once id
  · dsimp only at hgrant huses
    by_cases he : key = id
    · rw [if_pos he] at huses
      exact absurd rfl huses
    · rw [if_neg he] at huses
      rw [hw, FiniteMap.get_insert, if_neg he] at hgrant
      exact h.marked id grant hgrant huses

theorem SingleUse.consumed_iff (h : SingleUse b) {w : World} {key : ByteString} {record : Fields}
    (hw : w.db.tables.onboardingGrants = b.world.db.tables.onboardingGrants.insert key record)
    (hrecord : Consumed record) :
    SingleUse { world := w, uses := fun id ↦ if key = id then b.uses id + 1 else b.uses id } ↔
      b.uses key = 0 := by
  constructor
  · intro hs
    have honce := hs.once key
    dsimp only at honce
    rw [if_pos rfl] at honce
    omega
  · intro hfirst
    refine ⟨fun id ↦ ?_, fun id grant hgrant huses ↦ ?_⟩
    · dsimp only
      split
      · next he =>
        subst he
        omega
      · exact h.once id
    · dsimp only at hgrant huses
      rw [hw, FiniteMap.get_insert] at hgrant
      by_cases he : key = id
      · rw [if_pos he] at hgrant
        exact Option.some.inj hgrant ▸ hrecord
      · rw [if_neg he] at hgrant huses
        exact h.marked id grant hgrant huses

theorem initializeDb_singleUse (h : SingleUse b) {dbPath dbKey : ByteString} :
    SingleUse { world := (b.world.initializeDb L mo dbPath dbKey).1, uses := b.uses } ↔
      (Call.initializeDb dbPath dbKey).unspent L b mo := by
  rw [Call.unspent, ← World.initializeDb_tables_iff h.marked]
  exact ⟨SingleUse.marked, fun hmarked ↦ ⟨h.once, hmarked⟩⟩

theorem storeOnboardingGrant_singleUse (h : SingleUse b) {b' : Ledger} {g : Fields}
    (hs : Counted L b (mo, .mutate (.storeOnboardingGrant g)) b') : SingleUse b' := by
  subst hs
  by_cases hg : (!b.world.db.initialized || g.isEmpty) = true
  · have hrefused : b.world.db.storeOnboardingGrant mo.now g = (b.world.db, false) := if_pos hg
    have huses : (Call.mutate (.storeOnboardingGrant g)).recount b.world mo b.uses = b.uses := by
      funext id
      simp [Call.recount, Call.grants, Call.consumes, hrefused]
    rw [huses]
    refine h.frame ?_
    simp only [World.serve, LocalMaintenanceDB.mutate, hrefused]
  · obtain ⟨record, hstored⟩ : ∃ record, b.world.db.storeOnboardingGrant mo.now g =
        b.world.db.store mo.now .onboardingGrants
          (b.world.db.keyFor .onboardingGrants "grant_id" "grant_" g) record := ⟨_, if_neg hg⟩
    have huses : (Call.mutate (.storeOnboardingGrant g)).recount b.world mo b.uses = fun id ↦
        if b.world.db.keyFor .onboardingGrants "grant_id" "grant_" g = id then 0
        else b.uses id := by
      funext id
      simp [Call.recount, Call.grants, Call.consumes, hstored, LocalMaintenanceDB.store]
    have hworld : (b.world.serve L mo (.mutate (.storeOnboardingGrant
        g))).db.tables.onboardingGrants = b.world.db.tables.onboardingGrants.insert
          (b.world.db.keyFor .onboardingGrants "grant_id" "grant_" g) record := by
      simp only [World.serve, LocalMaintenanceDB.mutate, hstored]
      exact b.world.db.store_get mo.now .onboardingGrants _ record
    rw [huses]
    exact h.stored hworld

theorem consumed_assign (grant : Fields) (now : Int) (consumedBy reason : ByteString) :
    Consumed (assign grant (LocalMaintenanceDB.consumption now consumedBy reason)) := by
  have hfield : (assign grant (LocalMaintenanceDB.consumption now consumedBy reason))[
      lit "consumed"]? = some (lit "true") :=
    get_assign (by simp [LocalMaintenanceDB.consumption])
      (by simp [LocalMaintenanceDB.consumption])
  simp [Consumed, Fields.holds, hfield]

theorem consumeOnboardingGrant_singleUse (h : SingleUse b) {b' : Ledger}
    {id consumedBy reason : ByteString}
    (hs : Counted L b (mo, .mutate (.consumeOnboardingGrant id consumedBy reason)) b') :
    SingleUse b' ↔ (Call.mutate (.consumeOnboardingGrant id consumedBy reason)).unspent L b mo := by
  subst hs
  have hrefused (hr : b.world.db.consumeOnboardingGrant mo.now id consumedBy reason =
      (b.world.db, false)) : SingleUse {
        world := b.world.serve L mo (.mutate (.consumeOnboardingGrant id consumedBy reason))
        uses := (Call.mutate (.consumeOnboardingGrant id consumedBy reason)).recount
          b.world mo b.uses } := by
    have huses : (Call.mutate (.consumeOnboardingGrant id consumedBy reason)).recount
        b.world mo b.uses = b.uses := by
      funext j
      simp [Call.recount, Call.grants, Call.consumes, hr]
    rw [huses]
    refine h.frame ?_
    simp only [World.serve, LocalMaintenanceDB.mutate, hr]
  simp only [Call.unspent]
  by_cases hg : (!b.world.db.initialized || id.isEmpty) = true
  · refine iff_of_true (hrefused (if_pos hg)) (fun hi hid ↦ ?_)
    simp [hi, hid] at hg
  · have hopen : b.world.db.initialized = true ∧ id ≠ [] := by simpa using hg
    cases hgrant : b.world.db.tables.onboardingGrants[id]? with
    | none =>
      refine iff_of_true (hrefused ?_) (fun _ _ grant hnone ↦ by simp at hnone)
      rw [LocalMaintenanceDB.consumeOnboardingGrant, if_neg hg, hgrant]
    | some grant =>
      have hconsumed : b.world.db.consumeOnboardingGrant mo.now id consumedBy reason =
          (b.world.db.upsert .onboardingGrants id
            (assign grant (LocalMaintenanceDB.consumption mo.now consumedBy reason)), true) := by
        rw [LocalMaintenanceDB.consumeOnboardingGrant, if_neg hg, hgrant]
      have huses : (Call.mutate (.consumeOnboardingGrant id consumedBy reason)).recount
          b.world mo b.uses = fun j ↦ if id = j then b.uses j + 1 else b.uses j := by
        funext j
        simp [Call.recount, Call.grants, Call.consumes, hconsumed]
      have hworld : (b.world.serve L mo (.mutate (.consumeOnboardingGrant id consumedBy
          reason))).db.tables.onboardingGrants = b.world.db.tables.onboardingGrants.insert id
            (assign grant (LocalMaintenanceDB.consumption mo.now consumedBy reason)) := by
        simp only [World.serve, LocalMaintenanceDB.mutate, hconsumed]
        rfl
      rw [huses, h.consumed_iff hworld (consumed_assign ..)]
      constructor
      · intro hfirst _ _ _ _ huse
        exact absurd hfirst huse
      · intro hok
        by_contra huse
        exact hok hopen.1 hopen.2 grant rfl huse (h.marked id grant hgrant huse)

theorem counted_singleUse (h : SingleUse b) {b' : Ledger} {e : Moment × Call}
    (hs : Counted L b e b') : SingleUse b' ↔ e.2.unspent L b e.1 := by
  obtain ⟨mo, call⟩ := e
  cases call with
  | initializeDb dbPath dbKey =>
    subst hs
    exact initializeDb_singleUse h
  | shutdown =>
    subst hs
    refine iff_of_true (h.frame ?_) trivial
    rw [World.serve, (b.world.shutdown_db L mo).2, World.residue]
    split <;> rfl
  | mutate u =>
    cases u with
    | storeOnboardingGrant g => exact iff_of_true (storeOnboardingGrant_singleUse h hs) trivial
    | consumeOnboardingGrant id c r => exact consumeOnboardingGrant_singleUse h hs
    | _ =>
      subst hs
      refine iff_of_true (h.frame ?_) trivial
      exact LocalMaintenanceDB.mutate_frame (n := .onboardingGrants) mo.now b.world.db
        (by simp [Mutation.target])
  | query q =>
    subst hs
    exact iff_of_true (h.frame rfl) trivial
  | setOfflineMode offline =>
    subst hs
    exact iff_of_true (h.frame rfl) trivial
  | queueForSync table key record =>
    subst hs
    exact iff_of_true (h.frame rfl) trivial
  | replaySyncQueue callback maxRecords =>
    subst hs
    refine iff_of_true (h.frame ?_) trivial
    simp only [World.serve, LocalMaintenanceDB.replaySyncQueue]
    split <;> rfl

/-- Grants are used once, and say so, in every state exactly when no call consumes one that says it
was, or brings back one that does not. -/
theorem singleUse_iff {disk : Disk} {tr : List (Ledger × Moment × Call)}
    (hr : Run (Counted L) { world := { disk } } tr b) :
    Throughout SingleUse tr b ↔ ∀ e ∈ tr, e.2.2.unspent L e.1 e.2.1 := by
  refine hr.step_iff (fun _ _ _ h hs ↦ counted_singleUse h hs) ?_
  exact ⟨fun _ ↦ Nat.zero_le 1, fun _ _ _ huses ↦ absurd rfl huses⟩

/-- Then `consume_onboarding_grant` returns true at most once for a grant between two calls that
store it, whatever is called in between, restarts too. -/
theorem consumed_at_most_once {disk : Disk} {tr : List (Ledger × Moment × Call)}
    (hr : Run (Counted L) { world := { disk } } tr b)
    (hok : ∀ e ∈ tr, e.2.2.unspent L e.1 e.2.1) :
    Throughout (fun b ↦ ∀ id, b.uses id ≤ 1) tr b := by
  obtain ⟨hmid, hend⟩ := (singleUse_iff hr).mpr hok
  exact ⟨fun e he ↦ (hmid e he).once, hend.once⟩

end steps

def sampleGrant : Fields := assign ∅ [("grant_id", lit "g"), ("user_id", lit "u")]

theorem consumed_at_most_once_each :
    ∃ tr b, Run (Counted noLfssl) { world := { disk := ∅ } } tr b ∧ b.uses (lit "g") = 1 ∧
      Throughout (fun b ↦ ∀ id, b.uses id ≤ 1) tr b := by
  have hr : Run (Counted noLfssl) { world := { disk := ∅ } } _ _ :=
    .cons (a := (quietMoment, .initializeDb (lit "db") (List.replicate 32 7))) rfl
      (.cons (a := (quietMoment, .mutate (.storeOnboardingGrant sampleGrant))) rfl
        (.cons (a := (quietMoment, .mutate (.consumeOnboardingGrant (lit "g") [] []))) rfl
          (.cons (a := (quietMoment, .mutate (.storeOnboardingGrant sampleGrant))) rfl
            (.cons (a := (quietMoment, .mutate (.consumeOnboardingGrant (lit "g") [] []))) rfl
              (.nil _)))))
  refine ⟨_, _, hr, by decide, consumed_at_most_once hr ?_⟩
  simp only [List.forall_mem_cons, Call.unspent]
  refine ⟨fun _ _ hfile ↦ absurd hfile (by decide), trivial, fun _ _ _ _ huse ↦ ?_, trivial,
    fun _ _ _ _ huse ↦ ?_, by simp⟩ <;> exact absurd huse (by decide)

/-- A grant is consumed twice: the call never asks whether it was. -/
theorem grant_consumed_twice :
    ∃ tr b, Run (Counted noLfssl) { world := { disk := ∅ } } tr b ∧
      tr.map (fun e ↦ e.2) = [
        (quietMoment, .initializeDb (lit "db") (List.replicate 32 7)),
        (quietMoment, .mutate (.storeOnboardingGrant sampleGrant)),
        (quietMoment, .mutate (.consumeOnboardingGrant (lit "g") [] [])),
        (quietMoment, .mutate (.consumeOnboardingGrant (lit "g") [] []))] ∧
      ¬ Throughout (fun b ↦ ∀ id, b.uses id ≤ 1) tr b := by
  have hr : Run (Counted noLfssl) { world := { disk := ∅ } } _ _ :=
    .cons (a := (quietMoment, .initializeDb (lit "db") (List.replicate 32 7))) rfl
      (.cons (a := (quietMoment, .mutate (.storeOnboardingGrant sampleGrant))) rfl
        (.cons (a := (quietMoment, .mutate (.consumeOnboardingGrant (lit "g") [] []))) rfl
          (.cons (a := (quietMoment, .mutate (.consumeOnboardingGrant (lit "g") [] []))) rfl
            (.nil _))))
  refine ⟨_, _, hr, rfl, fun h ↦ ?_⟩
  have huses := h.2 (lit "g")
  revert huses
  decide

/-- A grant that was stored in an earlier session is consumed in two more: the call does not mark
the database dirty, and the file still has the grant as it was. -/
theorem consumption_forgotten :
    ∃ tr b, Run (Counted tagLfssl) { world := { disk := ∅ } } tr b ∧
      tr.map (fun e ↦ e.2) = [
        (workingMoment, .initializeDb (lit "db") (List.replicate 32 7)),
        (workingMoment, .mutate (.storeOnboardingGrant sampleGrant)),
        (workingMoment, .shutdown),
        (workingMoment, .initializeDb (lit "db") (List.replicate 32 7)),
        (workingMoment, .mutate (.consumeOnboardingGrant (lit "g") [] [])),
        (workingMoment, .shutdown),
        (workingMoment, .initializeDb (lit "db") (List.replicate 32 7))] ∧
      b.uses (lit "g") = 1 ∧
      (b.world.db.tables.loadOnboardingGrant (lit "g")).holds "consumed" (lit "false") := by
  have hr : Run (Counted tagLfssl) { world := { disk := ∅ } } _ _ :=
    .cons (a := (workingMoment, .initializeDb (lit "db") (List.replicate 32 7))) rfl
      (.cons (a := (workingMoment, .mutate (.storeOnboardingGrant sampleGrant))) rfl
        (.cons (a := (workingMoment, .shutdown)) rfl
          (.cons (a := (workingMoment, .initializeDb (lit "db") (List.replicate 32 7))) rfl
            (.cons (a := (workingMoment, .mutate (.consumeOnboardingGrant (lit "g") [] []))) rfl
              (.cons (a := (workingMoment, .shutdown)) rfl
                (.cons (a := (workingMoment, .initializeDb (lit "db") (List.replicate 32 7))) rfl
                  (.nil _)))))))
  exact ⟨_, _, hr, rfl, by decide +kernel, by decide +kernel⟩

end Cerberus.MaintenanceDb
