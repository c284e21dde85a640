import Cerberus.Foundation.LittleEndian

namespace Cerberus.Metro

open Foundation.Bytes Foundation.LittleEndian

structure MetroTrace where
  traceId : UInt64
  origin : ByteString
  destination : ByteString
  hopCount : UInt8 := 0
  persistent : Bool := true
  waypoints : List ByteString := []

structure MetroSession where
  sessionId : UInt64
  clientIdentity : ByteString
  authenticated : Bool := false
  permissionsMask : UInt32 := 0

structure MetroConfig where
  stationId : ByteString := lit "cerberus_gate_01"
  requireEncryption : Bool := false
  requireAuthentication : Bool := true

/-- The sessions are in the order in which the hash table lists them. -/
structure MetroStation where
  config : MetroConfig := {}
  sessions : List (UInt64 × MetroSession) := []
  nextSessionId : UInt64 := 1
  activeTraces : List MetroTrace := []
  packetsIn : UInt64 := 0
  packetsOut : UInt64 := 0
  bytesIn : UInt64 := 0
  bytesOut : UInt64 := 0

inductive Fault
  | reads
  | writes
  deriving DecidableEq

namespace MetroStation

def setSession (sessions : List (UInt64 × MetroSession)) (id : UInt64) (session : MetroSession) :
    List (UInt64 × MetroSession) :=
  if sessions.any (fun e ↦ e.1 = id) then
    sessions.map (fun e ↦ if e.1 = id then (id, session) else e)
  else sessions ++ [(id, session)]

def session (s : MetroStation) (id : UInt64) : Option MetroSession :=
  (s.sessions.find? (fun e ↦ e.1 = id)).map Prod.snd

def createSession (s : MetroStation) (clientIdentity : ByteString) : UInt64 × MetroStation :=
  match s.sessions.find? (fun e ↦ e.2.clientIdentity = clientIdentity) with
  | some e => (e.1, s)
  | none =>
    let id := s.nextSessionId
    let session : MetroSession := { sessionId := id, clientIdentity }
    (id, { s with sessions := setSession s.sessions id session, nextSessionId := id + 1 })

def authenticateSession (s : MetroStation) (id : UInt64) (permissionsMask : UInt32) :
    Bool × MetroStation :=
  match s.session id with
  | none => (false, s)
  | some session =>
    let session := { session with authenticated := true, permissionsMask }
    (true, { s with sessions := setSession s.sessions id session })

/-- The length is a number of 32 bits, and so is the sum that is compared with the size. -/
def plaintext (config : MetroConfig) (request : ByteString) : Except Fault ByteString :=
  if config.requireEncryption then
    if 4 < request.length then
      let len := (readAt 0 4 request).toUInt32
      if 0 < len ∧ (len + 4).toNat ≤ request.length then
        if 4 + len.toNat ≤ request.length then .ok ((request.drop 4).take len.toNat)
        else .error .reads
      else .ok request
    else .ok request
  else .ok request

/-- The buffer of the response is as long as the sum in 32 bits says. -/
def encrypted (config : MetroConfig) (plain : ByteString) : Except Fault ByteString :=
  if config.requireEncryption then
    let len := plain.length.toUInt32
    if (4 + len).toNat < 4 + len.toNat then .error .writes
    else .ok (littleEndian 4 len.toNat ++ plain.take len.toNat)
  else .ok plain

def traceOf (s : MetroStation) (id now : UInt64) : MetroTrace :=
  let origin := s.config.stationId ++ lit "/session_" ++ decimal id.toNat
  { traceId := now, origin, destination := lit "cerberus_runtime", waypoints := [origin] }

def respond (s : MetroStation) (id : UInt64) (text : ByteString) (now : UInt64) :
    Except Fault ByteString × MetroStation :=
  let s := { s with activeTraces := s.activeTraces ++ [s.traceOf id now] }
  match encrypted s.config (if text.isEmpty then lit "OK" else text) with
  | .error e => (.error e, s)
  | .ok response =>
    (.ok response, { s with
      packetsIn := s.packetsIn + 1
      packetsOut := s.packetsOut + 1
      bytesOut := s.bytesOut + response.length.toUInt64 })

def processIncoming (s : MetroStation) (request clientIdentity : ByteString) (now : UInt64) :
    Except Fault ByteString × MetroStation :=
  let s := { s with bytesIn := s.bytesIn + request.length.toUInt64 }
  let (id, s) := s.createSession clientIdentity
  match plaintext s.config request with
  | .error e => (.error e, s)
  | .ok text =>
    if s.config.requireAuthentication ∧ (s.session id).all (fun session ↦ !session.authenticated)
    then (.ok (lit "AUTHENTICATION_REQUIRED"), s)
    else s.respond id text now

def Admits (s : MetroStation) (clientIdentity : ByteString) : Prop :=
  s.config.requireAuthentication = false ∨ ∃ session, session.authenticated = true ∧
    (s.createSession clientIdentity).2.session (s.createSession clientIdentity).1 = some session

end MetroStation

def frame (p : ByteString) : ByteString := littleEndian 4 p.length ++ p

namespace MetroStation

variable {s : MetroStation} {config : MetroConfig} {request clientIdentity p : ByteString}
  {now : UInt64}

theorem toNat_length (request : ByteString) (h : 4 ≤ request.length) :
    (readAt 0 4 request).toUInt32.toNat = readAt 0 4 request := by
  have hlt : readAt 0 4 request < 256 ^ 4 := readAt_lt (by omega)
  rw [Nat.toUInt32_eq, UInt32.toNat_ofNat']
  exact Nat.mod_eq_of_lt hlt

theorem plaintext_reads_iff (hconfig : config.requireEncryption = true) :
    plaintext config request = .error .reads ↔
      4 < request.length ∧ 2 ^ 32 - 4 ≤ readAt 0 4 request ∧
        request.length < readAt 0 4 request + 4 := by
  rw [plaintext, if_pos hconfig]
  by_cases hlen : 4 < request.length
  · have hlt : readAt 0 4 request < 256 ^ 4 := readAt_lt (by omega)
    have hword := toNat_length request hlen.le
    have hpos : 0 < (readAt 0 4 request).toUInt32 ↔ 0 < readAt 0 4 request := by
      rw [UInt32.lt_iff_toNat_lt, hword]
      rfl
    have hsum : ((readAt 0 4 request).toUInt32 + 4).toNat = (readAt 0 4 request + 4) % 2 ^ 32 := by
      rw [UInt32.toNat_add, hword]
      rfl
    rw [if_pos hlen]
    simp only [hpos, hsum, hword]
    split_ifs with hfits hinside
    · refine iff_of_false (by simp) ?_
      omega
    · refine iff_of_true rfl ⟨hlen, ?_, by omega⟩
      omega
    · refine iff_of_false (by simp) ?_
      omega
  · rw [if_neg hlen]
    exact iff_of_false (by simp) (fun h ↦ hlen h.1)

theorem length_frame : (frame p).length = 4 + p.length := by
  rw [frame, List.length_append, length_littleEndian]

theorem readAt_frame (hp : p.length < 2 ^ 32 - 4) : readAt 0 4 (frame p) = p.length :=
  readAt_here (by omega)

theorem plaintext_frame (hconfig : config.requireEncryption = true) (hne : p ≠ [])
    (hp : p.length < 2 ^ 32 - 4) : plaintext config (frame p) = .ok p := by
  have hpos := List.length_pos_iff.mpr hne
  have hword := toNat_length (frame p) (by rw [length_frame]; omega)
  rw [readAt_frame hp] at hword
  have hsum : (p.length.toUInt32 + 4).toNat = p.length + 4 := by
    rw [UInt32.toNat_add, hword]
    exact Nat.mod_eq_of_lt (by show p.length + 4 < 2 ^ 32; omega)
  have hnonzero : 0 < p.length.toUInt32 := by
    rw [UInt32.lt_iff_toNat_lt, hword]
    exact hpos
  have hrest : (frame p).drop 4 = p := by
    rw [frame]
    exact List.drop_left' length_littleEndian
  rw [plaintext, if_pos hconfig, length_frame, readAt_frame hp, if_pos (by omega)]
  simp only [hsum, hword, hrest, hnonzero, true_and]
  rw [if_pos (by omega), if_pos le_rfl, List.take_length]

theorem encrypted_frame (hconfig : config.requireEncryption = true)
    (hp : p.length < 2 ^ 32 - 4) : encrypted config p = .ok (frame p) := by
  have hword : p.length.toUInt32.toNat = p.length := by
    rw [Nat.toUInt32_eq, UInt32.toNat_ofNat']
    exact Nat.mod_eq_of_lt (by omega)
  have hsum : (4 + p.length.toUInt32).toNat = 4 + p.length := by
    rw [UInt32.toNat_add, hword]
    exact Nat.mod_eq_of_lt (by show 4 + p.length < 2 ^ 32; omega)
  rw [encrypted, if_pos hconfig]
  simp only [hsum, hword]
  rw [if_neg (lt_irrefl _), List.take_length, frame]

theorem createSession_config : (s.createSession clientIdentity).2.config = s.config := by
  rw [createSession]
  split
  · rfl
  · rfl

theorem createSession_bytesIn (s : MetroStation) (clientIdentity : ByteString) (n : UInt64) :
    ({ s with bytesIn := n }.createSession clientIdentity).1 =
        (s.createSession clientIdentity).1 ∧
      ({ s with bytesIn := n }.createSession clientIdentity).2.sessions =
        (s.createSession clientIdentity).2.sessions := by
  rw [createSession, createSession]
  dsimp only
  split
  · exact ⟨rfl, rfl⟩
  · exact ⟨rfl, rfl⟩

theorem respond_fst (id : UInt64) (text : ByteString) :
    (s.respond id text now).1 = encrypted s.config (if text.isEmpty then lit "OK" else text) := by
  rw [respond]
  dsimp only
  cases encrypted s.config (if text.isEmpty then lit "OK" else text) with
  | error e => rfl
  | ok response => rfl

theorem encrypted_ne_reads : encrypted config p ≠ .error .reads := by
  rw [encrypted]
  dsimp only
  split_ifs
  · simp
  · simp
  · simp

theorem processIncoming_reads_iff :
    (s.processIncoming request clientIdentity now).1 = .error .reads ↔
      plaintext s.config request = .error .reads := by
  rw [processIncoming]
  dsimp only
  rw [createSession_config]
  cases hplain : plaintext s.config request with
  | error e => simp
  | ok text =>
    refine iff_of_false ?_ (by simp)
    dsimp only
    split_ifs
    · simp
    · rw [respond_fst]
      exact encrypted_ne_reads

theorem processIncoming_frame (hconfig : s.config.requireEncryption = true) (hne : p ≠ [])
    (hp : p.length < 2 ^ 32 - 4) (hin : s.Admits clientIdentity) :
    (s.processIncoming (frame p) clientIdentity now).1 = .ok (frame p) := by
  rw [processIncoming]
  dsimp only
  rw [createSession_config]
  dsimp only
  rw [plaintext_frame hconfig hne hp]
  dsimp only
  rw [if_neg, respond_fst, createSession_config]
  · have hsome : p.isEmpty = false := by simpa using hne
    rw [hsome]
    exact encrypted_frame hconfig hp
  · rintro ⟨hrequired, hrefused⟩
    rcases hin with hfree | ⟨session, hauth, hsession⟩
    · rw [hfree] at hrequired
      cases hrequired
    · obtain ⟨hid, hsessions⟩ := createSession_bytesIn s clientIdentity
        (s.bytesIn + (frame p).length.toUInt64)
      rw [MetroStation.session, hid, hsessions] at hrefused
      rw [MetroStation.session] at hsession
      rw [hsession] at hrefused
      simp [hauth] at hrefused

section Sessions

variable {l : List (UInt64 × MetroSession)} {id : UInt64} {sess : MetroSession}
  {e : UInt64 × MetroSession} {f : MetroSession → Bool}

theorem keys_setSession (hn : (l.map Prod.fst).Nodup) :
    ((setSession l id sess).map Prod.fst).Nodup := by
  rw [setSession]
  split_ifs with hany
  · have hkeys : (l.map (fun e ↦ if e.1 = id then (id, sess) else e)).map Prod.fst =
        l.map Prod.fst := by
      rw [List.map_map]
      refine List.map_congr_left (fun e _ ↦ ?_)
      by_cases he : e.1 = id
      · simp [he]
      · simp [he]
    rw [hkeys]
    exact hn
  · rw [List.map_append, List.map_singleton, List.nodup_append_comm]
    refine List.nodup_cons.mpr ⟨?_, hn⟩
    intro hmem
    obtain ⟨e, he, hid⟩ := List.mem_map.mp hmem
    exact hany (List.any_eq_true.mpr ⟨e, he, by simpa using hid⟩)

theorem find_setSession_new (hnone : l.find? (fun e ↦ f e.2) = none) (hf : f sess = true) :
    (setSession l id sess).find? (fun e ↦ f e.2) = some (id, sess) := by
  rw [setSession]
  split_ifs with hany
  · induction l with
    | nil => cases hany
    | cons a l ih =>
      rw [List.find?_cons] at hnone
      cases ha : f a.2 with
      | true => simp [ha] at hnone
      | false =>
        rw [ha] at hnone
        rw [List.map_cons, List.find?_cons]
        by_cases hid : a.1 = id
        · simp [hid, hf]
        · have hany' : l.any (fun e ↦ e.1 = id) = true := by simpa [hid] using hany
          simpa [hid, ha] using ih hnone hany'
  · rw [List.find?_append, hnone]
    simp [hf]

theorem find_setSession_same (hn : (l.map Prod.fst).Nodup)
    (he : l.find? (fun e ↦ f e.2) = some e) (hf : f sess = true) :
    (setSession l e.1 sess).find? (fun e ↦ f e.2) = some (e.1, sess) := by
  have hany : l.any (fun a ↦ a.1 = e.1) = true :=
    List.any_eq_true.mpr ⟨e, List.mem_of_find?_eq_some he, by simp⟩
  rw [setSession, if_pos hany]
  clear hany
  induction l with
  | nil => cases he
  | cons a l ih =>
    rw [List.map_cons, List.nodup_cons] at hn
    rw [List.find?_cons] at he
    rw [List.map_cons, List.find?_cons]
    cases ha : f a.2 with
    | true =>
      rw [ha] at he
      cases he
      simp [hf]
    | false =>
      rw [ha] at he
      have hne : a.1 ≠ e.1 := fun hae ↦
        hn.1 (List.mem_map.mpr ⟨e, List.mem_of_find?_eq_some he, hae.symm⟩)
      simpa [hne, ha] using ih hn.2 he

theorem find_key (hn : (l.map Prod.fst).Nodup) (he : e ∈ l) :
    l.find? (fun a ↦ a.1 = e.1) = some e := by
  induction l with
  | nil => cases he
  | cons a l ih =>
    rw [List.map_cons, List.nodup_cons] at hn
    rcases List.mem_cons.mp he with rfl | he
    · simp
    · have hne : a.1 ≠ e.1 := fun hae ↦ hn.1 (List.mem_map.mpr ⟨e, he, hae.symm⟩)
      simpa [hne] using ih hn.2 he

end Sessions

theorem createSession_find (clientIdentity : ByteString) (hn : (s.sessions.map Prod.fst).Nodup) :
    ((s.createSession clientIdentity).2.sessions.map Prod.fst).Nodup ∧
      ∃ sess, (s.createSession clientIdentity).2.sessions.find?
          (fun e ↦ e.2.clientIdentity = clientIdentity) =
        some ((s.createSession clientIdentity).1, sess) := by
  rw [createSession]
  split
  · rename_i e he
    exact ⟨hn, e.2, he⟩
  · rename_i hnone
    exact ⟨keys_setSession hn, _, find_setSession_new
      (f := fun e ↦ e.clientIdentity = clientIdentity) hnone (decide_eq_true rfl)⟩

theorem admits_authenticate (hn : (s.sessions.map Prod.fst).Nodup) (mask : UInt32) :
    ((s.createSession clientIdentity).2.authenticateSession
      (s.createSession clientIdentity).1 mask).2.Admits clientIdentity := by
  obtain ⟨hn', sess, hfind⟩ := createSession_find clientIdentity hn
  generalize (s.createSession clientIdentity).1 = id at hfind ⊢
  generalize (s.createSession clientIdentity).2 = s' at hn' hfind ⊢
  have hkey := find_key hn' (List.mem_of_find?_eq_some hfind)
  have hidentity : sess.clientIdentity = clientIdentity := by
    simpa using List.find?_some hfind
  have hsession : s'.session id = some sess := by rw [session, hkey]; rfl
  set sess' : MetroSession := { sess with authenticated := true, permissionsMask := mask }
  have hnew : (setSession s'.sessions id sess').find?
      (fun e ↦ e.2.clientIdentity = clientIdentity) = some (id, sess') :=
    find_setSession_same (f := fun e ↦ e.clientIdentity = clientIdentity) hn' hfind
      (decide_eq_true hidentity)
  have hkey' := find_key (keys_setSession hn') (List.mem_of_find?_eq_some hnew)
  rw [authenticateSession, hsession]
  refine .inr ⟨sess', rfl, ?_⟩
  rw [createSession]
  dsimp only
  rw [hnew]
  dsimp only
  rw [session, hkey']
  rfl

/-- A call stays inside of the request and returns what it was sent, unless the length is so large
that its sum with four begins again at zero and the request is shorter than it says. -/
theorem processIncoming_iff (s : MetroStation) (hconfig : s.config.requireEncryption = true)
    (request clientIdentity : ByteString) (now : UInt64) :
    ((s.processIncoming request clientIdentity now).1 ≠ .error .reads ∧
      ∀ p, request = frame p → p ≠ [] → p.length < 2 ^ 32 - 4 → s.Admits clientIdentity →
        (s.processIncoming request clientIdentity now).1 = .ok (frame p)) ↔
      ¬ (4 < request.length ∧ 2 ^ 32 - 4 ≤ readAt 0 4 request ∧
        request.length < readAt 0 4 request + 4) := by
  rw [← plaintext_reads_iff hconfig, ← @processIncoming_reads_iff s request clientIdentity now]
  refine and_iff_left ?_
  rintro p rfl hne hp hin
  exact processIncoming_frame hconfig hne hp hin

def openStation : MetroStation :=
  { config := { requireEncryption := true, requireAuthentication := false } }

theorem processIncoming_iff_ok :
    ((openStation.processIncoming (frame (lit "ok")) [] 0).1 ≠ .error .reads ∧
      ∀ p, frame (lit "ok") = frame p → p ≠ [] → p.length < 2 ^ 32 - 4 → openStation.Admits [] →
        (openStation.processIncoming (frame (lit "ok")) [] 0).1 = .ok (frame p)) ↔
      ¬ (4 < (frame (lit "ok")).length ∧ 2 ^ 32 - 4 ≤ readAt 0 4 (frame (lit "ok")) ∧
        (frame (lit "ok")).length < readAt 0 4 (frame (lit "ok")) + 4) :=
  processIncoming_iff openStation rfl (frame (lit "ok")) [] 0

/-- Four bytes that say 2³² - 4, and one more. -/
theorem wrapping_length_reads_on : ¬ ∀ s : MetroStation, s.config.requireEncryption = true →
    ∀ (request clientIdentity : ByteString) (now : UInt64),
      (s.processIncoming request clientIdentity now).1 ≠ .error .reads := by
  intro h
  exact h openStation rfl [252, 255, 255, 255, 0] [] 0 rfl

end MetroStation

end Cerberus.Metro
