import Cerberus.Inference.Server

namespace Cerberus.Inference

open Std Foundation Foundation.Bytes Foundation.Trace Foundation.Wire Http MaintenanceDb

namespace InferenceServer

variable {F : Type} (host : Host F) (s : InferenceServer) (m : Moment F)

/-- The event is a request on the given route that is granted, and there is a database. -/
def CarriesOut (r : Route) : Event F → Prop
  | .connection m data => ∃ req, received data = some req ∧ route req = r ∧
      s.lcmd.isSome = true ∧ s.Granted host m req.body
  | _ => False

def Holds (key : ByteString) : Prop :=
  ∃ w, s.lcmd = some w ∧ key ∈ w.db.tables.inferenceRecords

/-- The call on the `UserSecurity` that an event makes. -/
def asks : Event F → Option Rbpc.Request
  | .connection m data => do
    let req ← received data
    if gated req && s.lcmd.isSome && s.userSecurity.isSome then s.question m req.body else none
  | .security r => if s.userSecurity.isSome then some r else none
  | _ => none

end InferenceServer

/-- The call of another part of the program leaves the stored inference records where they are. -/
def Event.Spares {F : Type} : Event F → Prop
  | .database _ (.initializeDb ..) => False
  | .database _ .shutdown => False
  | .database _ (.mutate .clearInferenceRecords) => False
  | _ => True

def Event.opens {F : Type} : Event F → Bool
  | .connection m _ => m.opens
  | _ => false

variable {F : Type} {host : Host F} {s s' u : InferenceServer} {m : Moment F}
  {e : Event F} {tr : List (InferenceServer × Event F)} {body data key : ByteString}
  {req : HttpRequest} {r : Route}

/-- The calls that a run makes on the `UserSecurity`, with the states they are made in. -/
def questions (tr : List (InferenceServer × Event F)) : List (Rbpc.UserSecurity × Rbpc.Request) :=
  tr.filterMap (fun e ↦ (e.1.asks e.2).map (Prod.mk (e.1.userSecurity.getD {})))

theorem asks_isSome (h : (s.asks e).isSome = true) : s.userSecurity.isSome = true := by
  cases e with
  | connection m data =>
    cases hreq : InferenceServer.received data with
    | none => simp [InferenceServer.asks, hreq] at h
    | some req =>
      by_contra hno
      simp [InferenceServer.asks, hreq, hno] at h
  | security r =>
    by_contra hno
    simp [InferenceServer.asks, hno] at h
  | database mo c => cases h
  | setModelDir dir listing => cases h

theorem questions_verify (hv : ∀ e ∈ tr, ∀ r, e.2 = .security r → r.call.verifies = true) :
    ∀ q ∈ questions tr, q.2.call.verifies = true := by
  intro q hq
  obtain ⟨⟨t, e⟩, he, hask⟩ := List.mem_filterMap.mp hq
  obtain ⟨r, hr, rfl⟩ := Option.map_eq_some_iff.mp hask
  cases e with
  | connection m data =>
    simp only [InferenceServer.asks, Option.bind_eq_bind, Option.bind_eq_some_iff] at hr
    obtain ⟨req, -, hr⟩ := hr
    split at hr
    · obtain ⟨c, -, rfl⟩ := Option.map_eq_some_iff.mp hr
      rfl
    · cases hr
  | security r' =>
    simp only [InferenceServer.asks] at hr
    split at hr
    · obtain rfl := Option.some.inj hr
      exact hv _ he _ rfl
    · cases hr
  | database mo c => cases hr
  | setModelDir dir listing => cases hr

theorem burned_not_granted {us : Rbpc.UserSecurity} (hus : s.userSecurity = some us)
    (hb : us.isBurned s.rbpcNodeId = true) : ¬s.Granted host m body := by
  intro hg
  obtain ⟨pin, word, -, hok⟩ := hg us hus
  rw [Rbpc.verifyConfirmation_burned hb] at hok
  cases hok

section refusals

theorem saysBurned_eq_false {result : ByteString} (hb : 98 ∉ result) (hL : 76 ∉ result) :
    saysBurned result = false := by
  have hburned : ¬lit "burned" <:+: result := by
    intro h
    have hmem : (98 : UInt8) ∈ lit "burned" := by decide
    exact hb (h.subset hmem)
  have hlocked : ¬lit "LOCKED" <:+: result := by
    intro h
    have hmem : (76 : UInt8) ∈ lit "LOCKED" := by decide
    exact hL (h.subset hmem)
  simp [saysBurned, mentions, hburned, hlocked]

theorem saysBurned_attempts {before after : String} (n : Int)
    (h : ∀ b ∈ lit before ++ lit after, b ≠ 98 ∧ b ≠ 76) :
    saysBurned (lit before ++ signedDecimal n ++ lit after) = false := by
  have hall : ∀ b ∈ lit before ++ signedDecimal n ++ lit after, b ≠ 98 ∧ b ≠ 76 := by
    rw [List.forall_mem_append] at h
    refine List.forall_mem_append.mpr ⟨List.forall_mem_append.mpr ⟨h.1, fun b hb ↦ ?_⟩, h.2⟩
    have hnumeric := (Json.numeral_signedDecimal n).numeric b hb
    constructor
    · rintro rfl
      exact absurd hnumeric (by decide)
    · rintro rfl
      exact absurd hnumeric (by decide)
  exact saysBurned_eq_false (fun hb ↦ (hall _ hb).1 rfl) (fun hL ↦ (hall _ hL).2 rfl)

variable {d : Security.CryptoBridge} {us : Rbpc.UserSecurity} {mo : Rbpc.Moment}
  {node pin word : ByteString}

theorem isLocked_counted {st : RBPCState} (hl : Rbpc.isLocked st = false) :
    Rbpc.isLocked (Rbpc.counted st) = decide (3 ≤ st.failedAttempts + 1) := by
  simp only [Rbpc.isLocked, Bool.or_eq_false_iff] at hl
  unfold Rbpc.counted
  split
  · next h => simp [Rbpc.isLocked, h]
  · next h => simp [Rbpc.isLocked, Rbpc.isActive, hl.1, h, Int.not_le.mp h]

theorem fail_tells {st : RBPCState} {burnt : Rbpc.Answer} {failed : Int → Rbpc.Answer}
    (hl : Rbpc.isLocked st = false) (hburnt : saysBurned burnt.text = true)
    (hfailed : ∀ n, saysBurned (failed n).text = false) :
    saysBurned (us.fail node st burnt failed).2.text =
      (us.fail node st burnt failed).1.isBurned node := by
  simp only [Rbpc.UserSecurity.fail, Rbpc.UserSecurity.isBurned, Rbpc.setState_states, if_pos,
    Option.any_some, isLocked_counted hl]
  split
  · next h => simp [hburnt, h]
  · next h => simp [hfailed, h]

/-- The text of a refusal says that the node is burned just if it is afterwards. -/
theorem refusal_tells (hne : (us.verifyConfirmation d mo node pin word).2 ≠ .ok) :
    saysBurned (us.verifyConfirmation d mo node pin word).2.text =
      (us.verifyConfirmation d mo node pin word).1.isBurned node := by
  unfold Rbpc.UserSecurity.verifyConfirmation at hne ⊢
  have hpin (n : Int) : saysBurned (Rbpc.Answer.pinRefused n).text = false :=
    saysBurned_attempts n (by decide +kernel)
  have hword (n : Int) : saysBurned (Rbpc.Answer.wordRefused n).text = false :=
    saysBurned_attempts n (by decide +kernel)
  have hdisabled : saysBurned Rbpc.Answer.confirmationDisabled.text = true := by decide +kernel
  have hunregistered : saysBurned Rbpc.Answer.wordNotRegistered.text = false := by decide +kernel
  have hpinLocked : saysBurned Rbpc.Answer.pinLocked.text = true := by decide +kernel
  have hwordLocked : saysBurned Rbpc.Answer.wordLocked.text = true := by decide +kernel
  cases hst : us.states[node]? with
  | none =>
    have hno : us.isBurned node = false := by simp [Rbpc.UserSecurity.isBurned, hst]
    dsimp only
    rw [hno]
    decide +kernel
  | some st =>
    have hburned : us.isBurned node = Rbpc.isLocked st := by
      simp [Rbpc.UserSecurity.isBurned, hst]
    simp only [hst] at hne ⊢
    cases hl : Rbpc.isLocked st with
    | true =>
      rw [if_pos rfl, hburned, hl, hdisabled]
    | false =>
      rw [hl] at hburned
      simp only [hl, Bool.false_eq_true, if_false] at hne ⊢
      cases hcs : us.confirmationSets[node]? with
      | none =>
        dsimp only
        rw [hburned]
        decide +kernel
      | some cs =>
        simp only [hcs] at hne ⊢
        split
        · rw [hburned, hunregistered]
        · split
          · exact fail_tells hl hpinLocked hpin
          · split
            · exact fail_tells hl hwordLocked hword
            · simp_all

def InferenceServer.isBurned (s : InferenceServer) : Bool :=
  s.userSecurity.any (·.isBurned s.rbpcNodeId)

theorem rbpcFailed_suffix_iff (result : ByteString) :
    lit ",\"burned\":true\x7d" <:+ (rbpcFailed result).body ↔ saysBurned result = true := by
  have hparts : lit ",\"burned\":true\x7d" = lit ",\"burned\":true" ++ lit "\x7d" := by
    decide +kernel
  cases h : saysBurned result with
  | true =>
    have hbody : (rbpcFailed result).body = (lit "\x7b\"error\":\"rbpc_failed\",\"detail\":\"" ++
        result ++ lit "\"") ++ (lit ",\"burned\":true" ++ lit "\x7d") := by
      simp only [rbpcFailed, respond, h, if_pos, List.append_assoc]
    rw [hbody, hparts]
    exact iff_of_true (List.suffix_append _ _) rfl
  | false =>
    refine iff_of_false (fun hsuffix ↦ ?_) (by simp)
    have hbody : (rbpcFailed result).body =
        (lit "\x7b\"error\":\"rbpc_failed\",\"detail\":\"" ++ result) ++ lit "\"\x7d" := by
      simp only [rbpcFailed, respond, h, Bool.false_eq_true, if_false, List.append_nil]
      rw [List.append_assoc]
      rfl
    rw [hbody] at hsuffix
    have hshort : lit "\"\x7d" <:+ lit ",\"burned\":true\x7d" :=
      List.suffix_of_suffix_length_le (List.suffix_append _ _) hsuffix (by decide +kernel)
    exact absurd hshort (by decide +kernel)

end refusals

variable [One F] [LT F] [DecidableLT F]

theorem serve_database_holds {mo : MaintenanceDb.Moment} {c : MaintenanceDb.Call}
    (h : s.Holds key) (hc : (Event.database (F := F) mo c).Spares) :
    (s.serve host (.database mo c)).Holds key := by
  obtain ⟨w, hw, hkey⟩ := h
  refine ⟨w.serve host.lfssl mo c, ?_, ?_⟩
  · rw [InferenceServer.serve, hw]
    rfl
  · cases c with
    | initializeDb p k => exact hc.elim
    | shutdown => exact hc.elim
    | mutate u =>
      by_cases hu : u.target = some .inferenceRecords
      · cases u with
        | clearInferenceRecords => exact hc.elim
        | storeInferenceRecord r =>
          unfold World.serve LocalMaintenanceDB.mutate LocalMaintenanceDB.storeInferenceRecord
          dsimp only
          split
          · exact hkey
          · have hget :=
              LocalMaintenanceDB.store_get mo.now w.db .inferenceRecords r.inferenceId r.toMap
            simp only [Tables.get] at hget
            rw [hget, ExtTreeMap.mem_insert]
            exact .inr hkey
        | _ => cases hu
      · have hframe := LocalMaintenanceDB.mutate_frame mo.now w.db hu
        simp only [Tables.get] at hframe
        rw [World.serve, hframe]
        exact hkey
    | replaySyncQueue callback n =>
      unfold World.serve LocalMaintenanceDB.replaySyncQueue
      dsimp only
      split <;> exact hkey
    | _ => exact hkey

theorem cleared_not_holds {w : World}
    (h : s.lcmd = some { w with db := w.db.clearInferenceRecords.1 }) : ¬s.Holds key := by
  rintro ⟨w', hw', hkey⟩
  obtain rfl := Option.some.inj (h.symm.trans hw')
  simp [LocalMaintenanceDB.clearInferenceRecords, LocalMaintenanceDB.markDirty] at hkey

theorem serve_holds_iff (h : s.Holds key) (he : e.Spares) :
    (s.serve host e).Holds key ↔ ¬s.CarriesOut host .inferenceClear e := by
  cases e with
  | connection m data =>
    rcases accept_end host s m data with
      ⟨st, hst, hnone⟩ | ⟨req, answer, hreq, hend⟩
    · rw [InferenceServer.serve, hst]
      exact iff_of_true h (by simp [InferenceServer.CarriesOut, hnone])
    · have hcarries : s.CarriesOut host .inferenceClear (.connection m data) ↔
          route req = .inferenceClear ∧ s.lcmd.isSome = true ∧ s.Granted host m req.body := by
        simp [InferenceServer.CarriesOut, hreq]
      rw [hcarries, InferenceServer.serve]
      generalize (s.accept host m data).1 = t at hend ⊢
      cases hend with
      | plain st _ hplain hne =>
        refine iff_of_true h ?_
        rintro ⟨hr, hsome, -⟩
        rcases hplain with hgated | hnone
        · simp [gated, hr] at hgated
        · simp [hnone] at hsome
      | refused st _ hgated hw hno => exact iff_of_true h (fun hc ↦ hno.not_granted hc.2.2)
      | cleared st _ hr hw hg hne =>
        exact iff_of_false (cleared_not_holds rfl) (not_not.mpr ⟨hr, by simp [hw], hg⟩)
      | exported st _ file hr hw hg ho hne =>
        refine iff_of_true h (fun hc ↦ ?_)
        rw [hr] at hc
        cases hc.1
      | unopened st _ hr hw hg ho hne =>
        refine iff_of_true h (fun hc ↦ ?_)
        rw [hr] at hc
        cases hc.1
  | security r => exact iff_of_true h (fun hc ↦ hc)
  | database mo c => exact iff_of_true (serve_database_holds h he) (fun hc ↦ hc)
  | setModelDir dir listing => exact iff_of_true h (fun hc ↦ hc)

theorem serve_written_iff : (s.serve host e).written = s.written ↔
    ¬(s.CarriesOut host .inferenceExport e ∧ e.opens = true) := by
  cases e with
  | connection m data =>
    rcases accept_end host s m data with
      ⟨st, hst, hnone⟩ | ⟨req, answer, hreq, hend⟩
    · rw [InferenceServer.serve, hst]
      exact iff_of_true rfl (by simp [InferenceServer.CarriesOut, hnone])
    · have hcarries : s.CarriesOut host .inferenceExport (.connection m data) ↔
          route req = .inferenceExport ∧ s.lcmd.isSome = true ∧ s.Granted host m req.body := by
        simp [InferenceServer.CarriesOut, hreq]
      rw [hcarries, InferenceServer.serve, Event.opens]
      generalize (s.accept host m data).1 = t at hend ⊢
      cases hend with
      | plain st _ hplain hne =>
        refine iff_of_true rfl ?_
        rintro ⟨⟨hr, hsome, -⟩, -⟩
        rcases hplain with hgated | hnone
        · simp [gated, hr] at hgated
        · simp [hnone] at hsome
      | refused st _ hgated hw hno => exact iff_of_true rfl (fun hc ↦ hno.not_granted hc.1.2.2)
      | cleared st _ hr hw hg hne =>
        refine iff_of_true rfl (fun hc ↦ ?_)
        rw [hr] at hc
        cases hc.1.1
      | exported st _ file hr hw hg ho hne =>
        exact iff_of_false (by simp) (not_not.mpr ⟨⟨hr, by simp [hw], hg⟩, ho⟩)
      | unopened st _ hr hw hg ho hne =>
        refine iff_of_true rfl (fun hc ↦ ?_)
        rw [ho] at hc
        cases hc.2
  | security r => exact iff_of_true rfl (fun hc ↦ hc.1)
  | database mo c => exact iff_of_true rfl (fun hc ↦ hc.1)
  | setModelDir dir listing => exact iff_of_true rfl (fun hc ↦ hc.1)

/-- Whatever clients send and whatever the other parts of the program do that leave the records
alone: a stored inference record is lost just by a request to clear them whose PIN and word the
`UserSecurity` confirms, if there is one, and a file appears just by such a request to export. -/
theorem destroyed_iff_granted (h : Run (Serves host) s tr u) (hs : s.Holds key)
    (hspares : ∀ e ∈ tr, e.2.Spares) :
    (Throughout (·.Holds key) tr u ↔ ∀ e ∈ tr, ¬e.1.CarriesOut host .inferenceClear e.2) ∧
    (Throughout (·.written = s.written) tr u ↔
      ∀ e ∈ tr, ¬(e.1.CarriesOut host .inferenceExport e.2 ∧ e.2.opens = true)) := by
  have hrecord (t : InferenceServer) (e : Event F) (t' : InferenceServer) (ht : t.Holds key)
      (hstep : e.Spares ∧ Serves host t e t') :
      t'.Holds key ↔ ¬t.CarriesOut host .inferenceClear e := by
    rw [hstep.2]
    exact serve_holds_iff ht hstep.1
  have hfile (t : InferenceServer) (e : Event F) (t' : InferenceServer)
      (ht : t.written = s.written) (hstep : Serves host t e t') :
      t'.written = s.written ↔ ¬(t.CarriesOut host .inferenceExport e ∧ e.opens = true) := by
    rw [hstep, ← ht]
    exact serve_written_iff
  have hsparing : Run (fun t e t' ↦ e.Spares ∧ Serves host t e t') s tr u := h.restrict hspares
  exact ⟨hsparing.step_iff hrecord hs, h.step_iff hfile rfl⟩

def sampleServer : InferenceServer where
  lcmd := some { db := { initialized := true
                         tables := { inferenceRecords := (∅ : Table).insert (lit "1") ∅ } } }
  userSecurity := some Rbpc.enrolled
  rbpcNodeId := Rbpc.sampleNode

def sampleHost : Host ℚ where
  bridge := Rbpc.sampleBridge
  tempDirectory := lit "/tmp"
  totalMs := fun _ ↦ lit "0"
  averageMs := fun _ _ ↦ lit "0"
  lfssl := ⟨fun _ _ _ ↦ none, fun _ _ _ ↦ none⟩
  strtof := fun _ ↦ 1
  tenth := 1 / 10
  two := 2

def sampleMoment : Moment ℚ where
  generate := fun _ ↦ .ok (lit "12")

def clearing (word : String) : RequestText where
  method := lit "POST"
  path := lit "/v1/inference/clear"
  version := lit "HTTP/1.1"
  lines := [lit "Content-Length: 35"]
  body := lit "\x7b\"pin\":\"" ++ Rbpc.samplePin ++ lit "\",\"word\":\"" ++ lit word ++ lit "\"\x7d"

theorem clearing_wellFormed : (clearing "tangerine").WellFormed where
  method := by decide
  path := by decide
  requestLine := by decide
  lines := by decide
  plain := by
    rw [RequestText.headers, addHeaders_get]
    decide
  length := by
    rw [RequestText.headers, addHeaders_get]
    decide
  no_length := by
    rw [RequestText.headers, addHeaders_get]
    decide
  short := by decide

/-- The record is cleared with the right PIN and word. -/
theorem destroyed_iff_granted_clearing :
    ∃ u, Run (Serves sampleHost) sampleServer
      [(sampleServer, .connection sampleMoment (clearing "tangerine").render)] u ∧
      sampleServer.Holds (lit "1") ∧ ¬u.Holds (lit "1") ∧ u.written = [] := by
  have hrun : Run (Serves sampleHost) sampleServer
      [(sampleServer, .connection sampleMoment (clearing "tangerine").render)] _ :=
    .cons rfl (.nil _)
  have hholds : sampleServer.Holds (lit "1") := by
    refine ⟨_, rfl, ?_⟩
    exact ExtTreeMap.mem_insert_self
  have hiff := destroyed_iff_granted hrun hholds (by simp [Event.Spares])
  have hcarried : sampleServer.CarriesOut sampleHost .inferenceClear
      (.connection sampleMoment (clearing "tangerine").render) := by
    refine ⟨_, (SimpleHttpParser.feed_render clearing_wellFormed).answer, by decide, rfl, ?_⟩
    intro us hus
    obtain rfl := Option.some.inj hus
    exact ⟨Rbpc.samplePin, lit "tangerine", by decide, by decide⟩
  have hgone := mt hiff.1.mp (fun hnone ↦ hnone _ (List.mem_singleton_self _) hcarried)
  have hkept := hiff.2.mpr (by
    intro e he hexport
    obtain rfl := List.mem_singleton.mp he
    obtain ⟨⟨req, hreq, hroute, -⟩, -⟩ := hexport
    obtain rfl := Option.some.inj
      ((SimpleHttpParser.feed_render clearing_wellFormed).answer.symm.trans hreq)
    exact absurd hroute (by decide))
  refine ⟨_, hrun, hholds, fun hend ↦ hgone ⟨?_, hend⟩, hkept.2⟩
  intro e he
  obtain rfl := List.mem_singleton.mp he
  exact hholds

theorem serve_userSecurity : (s.serve host e).userSecurity =
    s.userSecurity.map (fun us ↦ (s.asks e).elim us (us.serve host.bridge)) := by
  have hsame : s.userSecurity.map (fun us ↦ us) = s.userSecurity := Option.map_id'
  cases e with
  | connection m data =>
    rcases accept_end host s m data with
      ⟨st, hst, hnone⟩ | ⟨req, answer, hreq, hend⟩
    · rw [InferenceServer.serve, hst]
      simp [InferenceServer.asks, hnone]
    · have hasked (hg : gated req = true) (w : World) (hw : s.lcmd = some w) :
          (s.asked host m req.body).userSecurity = s.userSecurity.map (fun us ↦
            (s.asks (.connection m data)).elim us (us.serve host.bridge)) := by
        cases hus : s.userSecurity with
        | none => simp [InferenceServer.asked, hus]
        | some us => simp [InferenceServer.asked, InferenceServer.asks, hreq, hg, hw, hus]
      rw [InferenceServer.serve]
      generalize (s.accept host m data).1 = t at hend ⊢
      cases hend with
      | plain st _ hplain hne =>
        have hnone : s.asks (.connection m data) = none := by
          rcases hplain with hg | hw
          · simp [InferenceServer.asks, hreq, hg]
          · simp [InferenceServer.asks, hreq, hw]
        rw [hnone]
        exact hsame.symm
      | refused st _ hg hw hno => exact hasked hg _ hw
      | cleared st _ hr hw hg hne => exact hasked (by simp [gated, hr]) _ hw
      | exported st _ file hr hw hg ho hne => exact hasked (by simp [gated, hr]) _ hw
      | unopened st _ hr hw hg ho hne => exact hasked (by simp [gated, hr]) _ hw
  | security r =>
    cases hus : s.userSecurity with
    | none => simp [InferenceServer.serve, hus]
    | some us => simp [InferenceServer.serve, InferenceServer.asks, hus]
  | database mo c => exact hsame.symm
  | setModelDir dir listing => exact hsame.symm

theorem serve_rbpcNodeId : (s.serve host e).rbpcNodeId = s.rbpcNodeId := by
  cases e with
  | connection m data =>
    rcases accept_end host s m data with
      ⟨st, hst, -⟩ | ⟨req, answer, -, hend⟩
    · rw [InferenceServer.serve, hst]
    · rw [InferenceServer.serve]
      generalize (s.accept host m data).1 = t at hend ⊢
      cases hend <;> rfl
  | _ => rfl

/-- To the `UserSecurity` a run of the server is a run of its own. -/
theorem security_run (h : Run (Serves host) s tr u) : Run (Rbpc.Serves host.bridge)
    (s.userSecurity.getD {}) (questions tr) (u.userSecurity.getD {}) := by
  refine h.project (fun s ↦ s.userSecurity.getD {}) InferenceServer.asks ?_ ?_
  · rintro s e t r rfl hasks
    have hsome := asks_isSome (s := s) (e := e) (by simp [hasks])
    obtain ⟨us, hus⟩ := Option.isSome_iff_exists.mp hsome
    rw [serve_userSecurity, hasks, hus]
    rfl
  · rintro s e t rfl hasks
    rw [serve_userSecurity, hasks]
    simp

theorem run_same (h : Run (Serves host) s tr u) :
    u.rbpcNodeId = s.rbpcNodeId ∧ u.userSecurity.isSome = s.userSecurity.isSome := by
  refine (h.invariant (I := fun t ↦ t.rbpcNodeId = s.rbpcNodeId ∧
    t.userSecurity.isSome = s.userSecurity.isSome) ?_ ⟨rfl, rfl⟩).2
  rintro t e t' ⟨hnode, hsome⟩ rfl
  refine ⟨serve_rbpcNodeId.trans hnode, ?_⟩
  rw [serve_userSecurity, Option.isSome_map, hsome]

theorem burned_dispatch {us : Rbpc.UserSecurity} (hus : s.userSecurity = some us)
    (hb : us.isBurned s.rbpcNodeId = true) (hg : gated req = true) (hw : s.lcmd.isSome = true)
    (hc : (credentials req.body).isSome = true) :
    (s.dispatch host m req).2 = rbpcFailed Rbpc.Answer.confirmationDisabled.text := by
  have hno : ¬s.Granted host m req.body := burned_not_granted hus hb
  have hend := dispatch_end host s m req
  generalize s.dispatch host m req = p at hend ⊢
  cases hend with
  | plain st a hplain hne =>
    rcases hplain with hgated | hnone
    · rw [hg] at hgated
      cases hgated
    · rw [hnone] at hw
      cases hw
  | refused st a hgated hdb hrefuses =>
    obtain ⟨us', hus', ⟨hnone, -⟩ | ⟨pin, word, hcred, hne, rfl⟩⟩ := hrefuses
    · rw [hnone] at hc
      cases hc
    · obtain rfl := Option.some.inj (hus.symm.trans hus')
      rw [Rbpc.verifyConfirmation_burned hb]
  | cleared st a hr hdb hgranted hne => exact absurd hgranted hno
  | exported st a file hr hdb hgranted ho hne => exact absurd hgranted hno
  | unopened st a hr hdb hgranted ho hne => exact absurd hgranted hno

/-- Whatever is verified at the server and elsewhere, in whatever order: the node is burned just
if three counted failures came without a success between them; from then on nothing is cleared or
exported, and who tries with a PIN and a word is told so. -/
theorem lockout_iff_three_failures (h : Run (Serves host) s tr u) {us : Rbpc.UserSecurity} {k : Nat}
    (hus : s.userSecurity = some us) (hk : us.Standing s.rbpcNodeId k)
    (hv : ∀ e ∈ tr, ∀ r, e.2 = .security r → r.call.verifies = true) :
    ∃ us', u.userSecurity = some us' ∧
      (us'.isBurned u.rbpcNodeId = true ↔ Rbpc.threeFailures <:+: List.replicate k .failed ++
        Rbpc.verdicts host.bridge s.rbpcNodeId (questions tr)) ∧
      (us'.isBurned u.rbpcNodeId = true →
        (∀ r e, ¬u.CarriesOut host r e) ∧
        ∀ m req, gated req = true → u.lcmd.isSome = true → (credentials req.body).isSome = true →
          (u.dispatch host m req).2 = rbpcFailed Rbpc.Answer.confirmationDisabled.text) := by
  obtain ⟨hnode, hsome⟩ := run_same h
  obtain ⟨us', hus'⟩ := Option.isSome_iff_exists.mp (by rw [hsome, hus]; rfl)
  have hrun := security_run h
  rw [hus, hus'] at hrun
  obtain ⟨k', hk', hiff, -⟩ := Rbpc.standing_run hrun (questions_verify hv) hk
  refine ⟨us', hus', ?_, fun hb ↦ ⟨fun r e hcarry ↦ ?_, fun m req hg hw hc ↦ ?_⟩⟩
  · rw [hnode, ← hiff]
    exact hk'.burned_iff
  · cases e with
    | connection m data =>
      obtain ⟨req, -, -, -, hgranted⟩ := hcarry
      exact burned_not_granted hus' hb hgranted
    | _ => exact hcarry
  · exact burned_dispatch hus' hb hg hw hc

/-- Three wrong PINs are tried elsewhere, with connections in between that bring nothing. -/
theorem lockout_iff_three_failures_elsewhere : ∃ tr u us,
    Run (Serves sampleHost) sampleServer tr u ∧ tr.length = 4 ∧ u.userSecurity = some us ∧
      us.isBurned u.rbpcNodeId = true := by
  have hwrong : Rbpc.Call.verifies (.verifyPin Rbpc.sampleNode (lit "1")) = true := rfl
  have hrun : Run (Serves sampleHost) sampleServer _ _ :=
    .cons (a := .security ⟨.verifyPin Rbpc.sampleNode (lit "1"), {}⟩) rfl
      (.cons (a := .security ⟨.verifyPin Rbpc.sampleNode (lit "2"), {}⟩) rfl
        (.cons (a := .setModelDir [] []) rfl
          (.cons (a := .security ⟨.verifyPin Rbpc.sampleNode (lit "3"), {}⟩) rfl (.nil _))))
  have hstanding : Rbpc.enrolled.Standing sampleServer.rbpcNodeId 0 := by
    refine ⟨by decide, fun _ ↦ rfl, fun st hst ↦ ?_⟩
    revert st
    decide
  obtain ⟨us, hus, hiff, -⟩ := lockout_iff_three_failures hrun rfl hstanding
    (by simp [Rbpc.Call.verifies])
  exact ⟨_, _, us, hrun, rfl, hus, hiff.mpr (by decide)⟩

/-- An answer with status 403 says that the node is burned just if it is from then on. -/
theorem forbidden_tells_burned (h : (s.dispatch host m req).2.statusCode = 403) :
    lit ",\"burned\":true\x7d" <:+ (s.dispatch host m req).2.body ↔
      (s.dispatch host m req).1.isBurned = true := by
  have hend := dispatch_end host s m req
  generalize s.dispatch host m req = p at h hend ⊢
  cases hend with
  | plain st a hplain hne => exact absurd h hne
  | refused st a hgated hw hrefuses =>
    obtain ⟨us, hus, ⟨-, detail, rfl⟩ | ⟨pin, word, hcred, hne, rfl⟩⟩ := hrefuses
    · exact absurd h (respond_ne (by decide) _)
    · rw [rbpcFailed_suffix_iff, refusal_tells hne]
      simp [InferenceServer.isBurned, InferenceServer.asked, InferenceServer.question, hus, hcred,
        Rbpc.UserSecurity.serve]
  | cleared st a hr hw hg hne => exact absurd h hne
  | exported st a file hr hw hg ho hne => exact absurd h hne
  | unopened st a hr hw hg ho hne => exact absurd h hne

def tried : Rbpc.UserSecurity :=
  [Rbpc.confirm "mandarine", Rbpc.confirm "nectarine"].foldl
    (fun us r ↦ us.serve Rbpc.sampleBridge r) Rbpc.enrolled

/-- The third one is answered so. -/
theorem forbidden_tells_burned_third :
    let s : InferenceServer := { sampleServer with userSecurity := some tried }
    let req : HttpRequest := { method := .post, path := lit "/v1/inference/clear"
                               body := (clearing "clementine").body }
    s.isBurned = false ∧ (s.dispatch sampleHost sampleMoment req).2.statusCode = 403 ∧
      lit ",\"burned\":true\x7d" <:+ (s.dispatch sampleHost sampleMoment req).2.body := by
  intro s req
  have hstatus : (s.dispatch sampleHost sampleMoment req).2.statusCode = 403 := by decide
  exact ⟨by decide, hstatus, (forbidden_tells_burned hstatus).mpr (by decide)⟩

end Cerberus.Inference
