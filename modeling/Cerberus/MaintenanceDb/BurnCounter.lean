import Cerberus.MaintenanceDb.Replica

namespace Cerberus.MaintenanceDb

open Std Foundation Foundation.Bytes Foundation.Wire LocalMaintenanceDB

inductive RbpcCall
  | incrementRbpcFailedAttempts (nodeId : ByteString)
  | setRbpcBurned (nodeId : ByteString)
  deriving DecidableEq

namespace RbpcCall

def nodeId : RbpcCall → ByteString
  | incrementRbpcFailedAttempts nodeId => nodeId
  | setRbpcBurned nodeId => nodeId

def serve (d : LocalMaintenanceDB) : RbpcCall → LocalMaintenanceDB
  | incrementRbpcFailedAttempts nodeId => (d.incrementRbpcFailedAttempts nodeId).1
  | setRbpcBurned nodeId => (d.setRbpcBurned nodeId).1

def serveAll (d : LocalMaintenanceDB) (calls : List RbpcCall) : LocalMaintenanceDB :=
  calls.foldl serve d

def rewrite (rec_ : Fields) : RbpcCall → Fields
  | incrementRbpcFailedAttempts nodeId =>
    if rec_.isEmpty then
      assign rec_ [
        ("node_id", nodeId),
        ("failed_attempts", lit "1"),
        ("burned", lit "false"),
        ("plaintext_storage", lit "forbidden"),
        ("record_class", lit "rbpc_state")]
    else failAgain rec_
  | setRbpcBurned nodeId =>
    assign (if rec_.isEmpty then assign rec_ [("node_id", nodeId), ("failed_attempts", lit "3")]
      else rec_) burn

end RbpcCall

structure FailureCount where
  attempts : Nat
  burned : Bool

/-- One call on the counter; a node that is burned without a failure counts as failed three times. -/
def FailureCount.after : Option FailureCount → RbpcCall → FailureCount
  | none, .incrementRbpcFailedAttempts _ => ⟨1, false⟩
  | none, .setRbpcBurned _ => ⟨3, true⟩
  | some c, .incrementRbpcFailedAttempts _ => ⟨c.attempts + 1, c.burned || 3 ≤ c.attempts + 1⟩
  | some c, .setRbpcBurned _ => ⟨c.attempts, true⟩

/-- The counter of a node after some calls; those for other nodes do not count. -/
def FailureCount.of (node : ByteString) (calls : List RbpcCall) : Option FailureCount :=
  (calls.filter (fun call ↦ call.nodeId = node)).foldl (fun c call ↦ some (after c call)) none

/-- The shape of a record that the calls keep. The text counts in 32 bits; there is no threshold in
it, or an empty one. -/
structure Represents (rec_ : Fields) (c : FailureCount) : Prop where
  attempts : rec_.text "failed_attempts" = signedDecimal ((c.attempts : Int).bmod (2 ^ 32))
  burned : rec_.text "burned" = if c.burned then lit "true" else lit "false"
  threshold : rec_.text "burn_threshold" = []
  bounded : c.burned = false → c.attempts < 3

variable {d : LocalMaintenanceDB} {rec_ : Fields} {c : FailureCount} {node : ByteString}

theorem text_assign {l : List (String × ByteString)} {name : String} {v : ByteString}
    (hl : (l.map Prod.fst).Nodup) (h : (name, v) ∈ l) : (assign rec_ l).text name = v := by
  rw [Fields.text, get_assign hl h]
  rfl

theorem text_assign_other {l : List (String × ByteString)} {name : String}
    (h : name ∉ l.map Prod.fst) : (assign rec_ l).text name = rec_.text name := by
  rw [Fields.text, get_assign_other h]
  rfl

theorem text_assignIfAbsent_nil (field name : String) :
    (assignIfAbsent rec_ field []).text name = rec_.text name := by
  rw [Fields.text, Fields.text, assignIfAbsent, ExtTreeMap.getElem?_insertIfNew]
  split
  · next h =>
    obtain ⟨he, habsent⟩ := h
    rw [Std.compare_eq_iff_eq] at he
    rw [← he, ExtTreeMap.getElem?_eq_none habsent]
    rfl
  · rfl

theorem signedDecimal_ne_nil (n : Int) : signedDecimal n ≠ [] := by
  cases n with
  | ofNat n => exact digits_ne_nil 10 n
  | negSucc n =>
    have hl : signedDecimal (.negSucc n) = 45 :: decimal (n + 1) := rfl
    rw [hl]
    exact List.cons_ne_nil _ _

theorem fits_bmod (n : Int) : fits 32 (n.bmod (2 ^ 32)) = true := by
  have hlow : -2 ^ 31 ≤ n.bmod (2 ^ 32) := Int.le_bmod (by norm_num)
  have hhigh : n.bmod (2 ^ 32) < 2 ^ 31 := Int.bmod_lt (by norm_num)
  exact Bool.and_eq_true_iff.mpr ⟨decide_eq_true hlow, decide_eq_true hhigh⟩

theorem Represents.stoi_attempts (h : Represents rec_ c) :
    (stoi (rec_.text "failed_attempts")).getD 0 = (c.attempts : Int).bmod (2 ^ 32) := by
  rw [h.attempts, stoi_signedDecimal (fits_bmod _), Option.getD_some]

theorem Represents.not_isEmpty (h : Represents rec_ c) : rec_.isEmpty = false := by
  by_contra he
  have hempty : rec_ = ∅ := by simpa using he
  have htext := h.attempts
  rw [hempty, Fields.text, ExtTreeMap.getElem?_empty] at htext
  exact signedDecimal_ne_nil _ htext.symm

theorem represents_first :
    Represents ((RbpcCall.incrementRbpcFailedAttempts node).rewrite ∅) ⟨1, false⟩ := by
  have hrec : (RbpcCall.incrementRbpcFailedAttempts node).rewrite ∅ = assign ∅ [
      ("node_id", node),
      ("failed_attempts", lit "1"),
      ("burned", lit "false"),
      ("plaintext_storage", lit "forbidden"),
      ("record_class", lit "rbpc_state")] := by
    simp [RbpcCall.rewrite]
  rw [hrec]
  refine ⟨?_, ?_, ?_, fun _ ↦ by decide⟩
  · rw [text_assign (v := lit "1") (by simp) (by simp)]
    decide
  · exact text_assign (by simp) (by simp)
  · rw [text_assign_other (by simp), Fields.text, ExtTreeMap.getElem?_empty]
    rfl

/-- The counter wraps in the text only when the node is burned already. -/
theorem Represents.failAgain (h : Represents rec_ c) :
    Represents (failAgain rec_) ⟨c.attempts + 1, c.burned || 3 ≤ c.attempts + 1⟩ := by
  have hattempts := h.stoi_attempts
  have hnext : ((c.attempts : Int).bmod (2 ^ 32) + 1).bmod (2 ^ 32) =
      ((c.attempts + 1 : Nat) : Int).bmod (2 ^ 32) := by
    rw [Int.bmod_add_bmod]
    rfl
  have htexts (name : String) (hname : name ≠ "failed_attempts") : (assignIfAbsent (assign rec_
      [("failed_attempts", signedDecimal (((c.attempts + 1 : Nat) : Int).bmod (2 ^ 32)))])
        "burn_threshold" []).text name = rec_.text name := by
    rw [text_assignIfAbsent_nil, text_assign_other (by simpa using hname)]
  have hcount : (assignIfAbsent (assign rec_
      [("failed_attempts", signedDecimal (((c.attempts + 1 : Nat) : Int).bmod (2 ^ 32)))])
        "burn_threshold" []).text "failed_attempts" =
          signedDecimal (((c.attempts + 1 : Nat) : Int).bmod (2 ^ 32)) := by
    rw [text_assignIfAbsent_nil]
    exact text_assign (by simp) (by simp)
  have hthreshold : stoi [] = none := by decide
  simp only [LocalMaintenanceDB.failAgain, hattempts, hnext, htexts "burn_threshold" (by decide),
    h.threshold, hthreshold, Option.getD_none]
  split
  · next hburn =>
    have hburned : c.burned = true ∨ 3 ≤ c.attempts + 1 := by
      by_contra hno
      obtain ⟨hno, hlt⟩ := not_or.mp hno
      have hsmall : ((c.attempts + 1 : Nat) : Int).bmod (2 ^ 32) = (c.attempts + 1 : Nat) :=
        Int.bmod_eq_of_le (by omega) (by omega)
      omega
    have htrue : (c.burned || decide (3 ≤ c.attempts + 1)) = true := by simpa using hburned
    rw [htrue]
    refine ⟨?_, ?_, ?_, fun hno ↦ by cases hno⟩
    · rw [text_assign_other (by simp), hcount]
    · exact text_assign (by simp) (by simp)
    · rw [text_assign_other (by simp), htexts _ (by decide), h.threshold]
  · next hburn =>
    refine ⟨hcount, ?_, ?_, ?_⟩
    · rw [htexts _ (by decide), h.burned]
      by_cases hb : c.burned = true
      · simp [hb]
      · have hlt := h.bounded (by simpa using hb)
        have hsmall : ((c.attempts + 1 : Nat) : Int).bmod (2 ^ 32) = (c.attempts + 1 : Nat) :=
          Int.bmod_eq_of_le (by omega) (by omega)
        have hle : ¬ 3 ≤ c.attempts + 1 := by omega
        simp [hb, hle]
    · rw [htexts _ (by decide), h.threshold]
    · intro hno
      simp only [Bool.or_eq_false_iff, decide_eq_false_iff_not] at hno
      exact Nat.lt_of_not_le hno.2

theorem Represents.after (call : RbpcCall) (h : Represents rec_ c) :
    Represents (call.rewrite rec_) (.after (some c) call) := by
  cases call with
  | incrementRbpcFailedAttempts n =>
    have hrec : (RbpcCall.incrementRbpcFailedAttempts n).rewrite rec_ =
        LocalMaintenanceDB.failAgain rec_ := by
      rw [RbpcCall.rewrite, h.not_isEmpty]
      rfl
    rw [hrec]
    exact h.failAgain
  | setRbpcBurned n =>
    have hrec : (RbpcCall.setRbpcBurned n).rewrite rec_ = assign rec_ burn := by
      rw [RbpcCall.rewrite, h.not_isEmpty]
      rfl
    rw [hrec]
    refine ⟨?_, ?_, ?_, fun hno ↦ by cases hno⟩
    · rw [text_assign_other (by simp [burn]), h.attempts]
      rfl
    · exact text_assign (v := lit "true") (by simp [burn]) (by simp [burn])
    · rw [text_assign_other (by simp [burn]), h.threshold]

theorem represents_burned : Represents ((RbpcCall.setRbpcBurned node).rewrite ∅) ⟨3, true⟩ := by
  have hrec : (RbpcCall.setRbpcBurned node).rewrite ∅ =
      assign (assign ∅ [("node_id", node), ("failed_attempts", lit "3")]) burn := by
    simp [RbpcCall.rewrite]
  rw [hrec]
  refine ⟨?_, ?_, ?_, fun hno ↦ by cases hno⟩
  · rw [text_assign_other (by simp [burn]), text_assign (v := lit "3") (by simp) (by simp)]
    decide
  · exact text_assign (by simp [burn]) (by simp [burn])
  · rw [text_assign_other (by simp [burn]), text_assign_other (by simp), Fields.text,
      ExtTreeMap.getElem?_empty]
    rfl

theorem represents_after {r : Option Fields} {c : Option FailureCount}
    (h : Option.Rel Represents r c) (call : RbpcCall) :
    Represents (call.rewrite (r.getD ∅)) (.after c call) := by
  cases h with
  | some h => exact h.after call
  | none =>
    cases call with
    | incrementRbpcFailedAttempts n => exact represents_first
    | setRbpcBurned n => exact represents_burned

theorem serve_get (d : LocalMaintenanceDB) (call : RbpcCall) (node : ByteString) :
    (call.serve d).tables.rbpcStateRecords[node]? =
      if call.nodeId = node then some (call.rewrite (d.tables.rbpcStateRecords[node]?.getD ∅))
      else d.tables.rbpcStateRecords[node]? := by
  cases call with
  | incrementRbpcFailedAttempts n =>
    refine (FiniteMap.get_insert d.tables.rbpcStateRecords n node _).trans ?_
    by_cases he : n = node
    · rw [he]
      rfl
    · rw [if_neg he, RbpcCall.nodeId, if_neg he]
  | setRbpcBurned n =>
    refine (FiniteMap.get_insert d.tables.rbpcStateRecords n node _).trans ?_
    by_cases he : n = node
    · rw [he]
      rfl
    · rw [if_neg he, RbpcCall.nodeId, if_neg he]

theorem of_append (node : ByteString) (calls : List RbpcCall) (call : RbpcCall) :
    FailureCount.of node (calls ++ [call]) =
      if call.nodeId = node then some (.after (FailureCount.of node calls) call)
      else FailureCount.of node calls := by
  rw [FailureCount.of, List.filter_append, List.foldl_append, ← FailureCount.of]
  by_cases h : call.nodeId = node
  · rw [List.filter_cons_of_pos (by simpa using h), if_pos h]
    rfl
  · rw [List.filter_cons_of_neg (by simpa using h), if_neg h]
    rfl

theorem serveAll_tracks (hd : d.tables.rbpcStateRecords = ∅) (calls : List RbpcCall)
    (node : ByteString) :
    Option.Rel Represents (RbpcCall.serveAll d calls).tables.rbpcStateRecords[node]?
      (FailureCount.of node calls) := by
  induction calls using List.reverseRecOn with
  | nil =>
    rw [RbpcCall.serveAll, List.foldl_nil, hd, ExtTreeMap.getElem?_empty]
    exact .none
  | append_singleton calls call ih =>
    rw [RbpcCall.serveAll, List.foldl_append, List.foldl_cons, List.foldl_nil, serve_get, of_append]
    split
    · exact .some (represents_after ih call)
    · exact ih

theorem serveAll_filter (d : LocalMaintenanceDB) (calls : List RbpcCall)
    (node : ByteString) :
    (RbpcCall.serveAll d calls).tables.rbpcStateRecords[node]? =
      (RbpcCall.serveAll d
        (calls.filter (fun call ↦ call.nodeId = node))).tables.rbpcStateRecords[node]? := by
  induction calls using List.reverseRecOn with
  | nil => rfl
  | append_singleton calls call ih =>
    rw [RbpcCall.serveAll, List.foldl_append, List.foldl_cons, List.foldl_nil, serve_get,
      List.filter_append]
    by_cases h : call.nodeId = node
    · rw [if_pos h, List.filter_cons_of_pos (by simpa using h), List.filter_nil,
        RbpcCall.serveAll, List.foldl_append, List.foldl_cons, List.foldl_nil, serve_get, if_pos h]
      rw [RbpcCall.serveAll, RbpcCall.serveAll] at ih
      rw [ih]
    · rw [if_neg h, List.filter_cons_of_neg (by simpa using h), List.filter_nil, List.append_nil]
      exact ih

theorem of_isSome (node : ByteString) (calls : List RbpcCall) :
    (FailureCount.of node calls).isSome = true ↔ ∃ call ∈ calls, call.nodeId = node := by
  induction calls using List.reverseRecOn with
  | nil => simp [FailureCount.of]
  | append_singleton calls call ih =>
    rw [of_append]
    by_cases h : call.nodeId = node
    · simp [h]
    · simp [h, ih]

theorem of_burned (node : ByteString) (calls : List RbpcCall) :
    ((FailureCount.of node calls).any (·.burned) = true ↔ .setRbpcBurned node ∈ calls ∨
      3 ≤ calls.count (.incrementRbpcFailedAttempts node)) ∧
    (.setRbpcBurned node ∉ calls → (FailureCount.of node calls).elim 0 (·.attempts) =
      calls.count (.incrementRbpcFailedAttempts node)) := by
  induction calls using List.reverseRecOn with
  | nil => simp [FailureCount.of]
  | append_singleton calls call ih =>
    obtain ⟨hburned, hattempts⟩ := ih
    rw [of_append, List.count_append]
    by_cases h : call.nodeId = node
    · rw [if_pos h]
      cases call with
      | setRbpcBurned n =>
        obtain rfl : n = node := h
        cases FailureCount.of n calls <;> simp [FailureCount.after]
      | incrementRbpcFailedAttempts n =>
        obtain rfl : n = node := h
        generalize FailureCount.of n calls = c at hburned hattempts ⊢
        have hcount : [RbpcCall.incrementRbpcFailedAttempts n].count
            (.incrementRbpcFailedAttempts n) = 1 := List.count_singleton_self
        rw [hcount]
        by_cases hmem : RbpcCall.setRbpcBurned n ∈ calls
        · cases c <;> simp_all [FailureCount.after]
        · have hc := hattempts hmem
          cases c <;> simp_all [FailureCount.after] <;> omega
    · have hother : calls.count (.incrementRbpcFailedAttempts node) +
          [call].count (.incrementRbpcFailedAttempts node) =
            calls.count (.incrementRbpcFailedAttempts node) := by
        rw [List.count_eq_zero_of_not_mem (l := [call]), Nat.add_zero]
        intro hm
        obtain rfl := List.mem_singleton.mp hm
        exact h rfl
      have hmem : RbpcCall.setRbpcBurned node ∈ calls ++ [call] ↔
          RbpcCall.setRbpcBurned node ∈ calls := by
        refine List.mem_append.trans (or_iff_left ?_)
        intro hm
        obtain rfl := List.mem_singleton.mp hm
        exact h rfl
      rw [if_neg h, hother, hmem]
      exact ⟨hburned, hattempts⟩

theorem loadRbpcState_burned {t : Tables} {c : Option FailureCount}
    (h : Option.Rel Represents t.rbpcStateRecords[node]? c) :
    (t.loadRbpcState node).any (·.burned) = c.any (·.burned) := by
  rw [Tables.loadRbpcState]
  generalize t.rbpcStateRecords[node]? = r at h
  cases h with
  | none => rfl
  | @some rec_ c h =>
    have hwords : lit "false" ≠ lit "true" := by decide
    cases hb : c.burned with
    | true => simp [h.burned, hb]
    | false => simp [h.burned, hb, hwords]

theorem isSome_eq {r : Option Fields} {c : Option FailureCount} (h : Option.Rel Represents r c) :
    r.isSome = c.isSome := by
  cases h with
  | none => rfl
  | some _ => rfl

/-- From an empty table on, a node has a state once a call named it, it is burned once it was burned
by a call or failed three times, and the calls for other nodes are not seen. -/
theorem burn_counter_spec (hd : d.tables.rbpcStateRecords = ∅) (calls : List RbpcCall)
    (node : ByteString) :
    (((RbpcCall.serveAll d calls).tables.loadRbpcState node).isSome = true ↔
      ∃ call ∈ calls, call.nodeId = node) ∧
    (((RbpcCall.serveAll d calls).tables.loadRbpcState node).any (·.burned) = true ↔
      .setRbpcBurned node ∈ calls ∨ 3 ≤ calls.count (.incrementRbpcFailedAttempts node)) ∧
    (RbpcCall.serveAll d calls).tables.loadRbpcState node = (RbpcCall.serveAll d
      (calls.filter (fun call ↦ call.nodeId = node))).tables.loadRbpcState node := by
  have htracks := serveAll_tracks hd calls node
  refine ⟨?_, ?_, ?_⟩
  · rw [← of_isSome, Tables.loadRbpcState, Option.isSome_map, isSome_eq htracks]
  · rw [← (of_burned node calls).1, loadRbpcState_burned htracks]
  · rw [Tables.loadRbpcState, Tables.loadRbpcState, serveAll_filter]

theorem burn_counter_spec_third :
    ((RbpcCall.serveAll {} (List.replicate 3
      (.incrementRbpcFailedAttempts (lit "node")))).tables.loadRbpcState (lit "node")).any
        (·.burned) = true :=
  (burn_counter_spec rfl _ _).2.1.mpr (.inr (by decide))

end Cerberus.MaintenanceDb
