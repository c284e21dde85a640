import Cerberus.MaintenanceDb.Records
import Cerberus.Security.CryptoBridge

namespace Cerberus.Rbpc

open Std Foundation Foundation.Bytes Foundation.Wire MaintenanceDb Security

/-- What a call meets: which of its requests to the crypto library are answered, and the
readings of the clock, each in the order of the source. -/
structure Moment where
  up : Nat → Bool := fun _ ↦ true
  now : Nat → Int := fun _ ↦ 0

variable (d : CryptoBridge)

def blake3LikeFallback (up up' : Bool) (data : ByteString) : ByteString :=
  d.askSha256 up' (d.askSha256 up data ++ lit "blake3_fallback_lamia_carbon_copy")

/-- Six digits; where the hash is too short, the digits are their own positions. -/
def PINGenerator.generate (m : Moment) (masterHash : ByteString) : ByteString :=
  if masterHash.isEmpty then lit "000000"
  else
    let hash := blake3LikeFallback d (m.up 0) (m.up 1) masterHash
    let hash2 := blake3LikeFallback d (m.up 2) (m.up 3) hash
    let pin := ((hash ++ hash2).take 6).map (fun b ↦ 48 + b % 10)
    pin ++ ((List.range 6).drop pin.length).map (fun i ↦ 48 + i.toUInt8)

/-- What the calls answer. The source returns the text, which is empty on success. -/
inductive Answer
  | ok
  | wordTooShort
  | wordTooLong
  | wordWithoutLetter
  | wordWithControlCharacter
  | wordWithStructuralCharacter
  | nodeNotFound
  | reauthOk
  | alreadyRegistered
  | nodeNotRegistered
  | pinDisabled
  | emptyPinBurned
  | emptyPin (attempts : Int)
  | pinBurned
  | pinFailed (attempts : Int)
  | nodeNotProvisioned
  | confirmationDisabled
  | confirmationSetNotFound
  | wordNotRegistered
  | pinLocked
  | pinRefused (attempts : Int)
  | wordLocked
  | wordRefused (attempts : Int)
  deriving DecidableEq

def Answer.text : Answer → ByteString
  | .ok => []
  | .wordTooShort => lit "Memorable word too short (min 8 chars)"
  | .wordTooLong => lit "Memorable word too long (max 40 chars)"
  | .wordWithoutLetter => lit "Memorable word must contain at least one letter"
  | .wordWithControlCharacter => lit "Memorable word contains forbidden control characters"
  | .wordWithStructuralCharacter =>
    lit "Memorable word contains forbidden structural characters (InjectionProof BFD)"
  | .nodeNotFound => lit "Node not found — generate PIN first"
  | .reauthOk => lit "ALREADY_REGISTERED_REAUTH_OK"
  | .alreadyRegistered => lit "Word registration failed — already has a commitment. " ++
      lit "Re-authenticate with existing word first."
  | .nodeNotRegistered => lit "Node not registered — RBPC confirmation set missing"
  | .pinDisabled =>
    lit "PIN entry permanently disabled — node is burned after 3 failed attempts"
  | .emptyPinBurned => lit "Empty PIN attempt — node permanently burned (3/3)"
  | .emptyPin n => lit "Empty PIN attempt — failure " ++ signedDecimal n ++ lit "/3"
  | .pinBurned => lit "PIN verification failed — node permanently burned after 3 attempts"
  | .pinFailed n => lit "PIN verification failed — attempt " ++ signedDecimal n ++
      lit "/3 — node will burn on 3rd failure"
  | .nodeNotProvisioned => lit "Node not registered — SMDU provision must occur first"
  | .confirmationDisabled =>
    lit "Node is burned — both PIN and Word confirmation permanently disabled"
  | .confirmationSetNotFound => lit "Confirmation set not found — corrupted RBPC state"
  | .wordNotRegistered =>
    lit "Memorable word not registered — set memorable word before confirmation"
  | .pinLocked =>
    lit "PIN confirmation failed — SYSTEM LOCKED. Node burned. Contact administrator."
  | .pinRefused n => lit "PIN confirmation failed — attempt " ++ signedDecimal n ++
      lit "/3. Burn on 3rd failure."
  | .wordLocked =>
    lit "Word confirmation failed — SYSTEM LOCKED. Node burned. Contact administrator."
  | .wordRefused n => lit "Word confirmation failed — attempt " ++ signedDecimal n ++
      lit "/3. Burn on 3rd failure."

theorem Answer.text_eq_nil {a : Answer} : a.text = [] ↔ a = .ok := by
  have hlit {s : String} (hs : s ≠ "") : lit s ≠ [] := fun h ↦ hs (lit_injective h)
  cases a with
  | ok => simp [Answer.text]
  | _ => simp [Answer.text, hlit]

def isAlpha (b : UInt8) : Bool := (65 ≤ b && b ≤ 90) || (97 ≤ b && b ≤ 122)

/-- The characters that `validate` forbids. A `char` is signed on the targets of the build,
so the bytes from 128 on are below the blank. -/
def isForbidden (b : UInt8) : Bool := b == 0 || b == 10 || b == 13 || b == 61 || b < 32 || 128 ≤ b

def MemorableWord.validate (word : ByteString) : Answer :=
  if word.length < 8 then .wordTooShort
  else if 40 < word.length then .wordTooLong
  else if !word.any isAlpha then .wordWithoutLetter
  else if word.any isForbidden then .wordWithControlCharacter
  else .ok

def isStructural (b : UInt8) : Bool := b == 34 || b == 92 || b == 123 || b == 125

def commitmentLabel : ByteString := lit "cerberus_rbpc_word_commitment_lamia_carbon"

def MemorableWord.deriveCommitment (up up' : Bool) (word salt : ByteString) : ByteString :=
  d.askHmacSha256 up' (d.askSha256 up (word ++ salt)) commitmentLabel

structure RBPCConfirmationSet where
  nodeId : ByteString := []
  pinCommitmentHash : ByteString := []
  wordCommitmentHash : ByteString := []
  wordSalt : ByteString := []
  hardwareAnchorHash : ByteString := []
  createdAt : Int := 0
  deriving DecidableEq

def isActive (st : RBPCState) : Bool := !st.burned && st.failedAttempts < 3

def isLocked (st : RBPCState) : Bool := st.burned || !isActive st

structure UserSecurity where
  states : Dict RBPCState := ∅
  confirmationSets : Dict RBPCConfirmationSet := ∅

def UserSecurity.generatePin (s : UserSecurity) (m : Moment) (nodeId masterSecret : ByteString) :
    UserSecurity × Option ByteString :=
  if nodeId.isEmpty || masterSecret.isEmpty then (s, none)
  else
    let pin := PINGenerator.generate d m (masterSecret ++ nodeId)
    let salt := d.askSha256 (m.up 4) (nodeId ++ masterSecret)
    let commitment := d.askSha256 (m.up 5) (pin ++ salt)
    let cs : RBPCConfirmationSet :=
      { nodeId := nodeId, pinCommitmentHash := commitment, createdAt := m.now 0 }
    let state : RBPCState :=
      { nodeId := nodeId, pinHash := commitment, salt := salt, createdAt := m.now 1 }
    ({ states := s.states.insert nodeId state,
       confirmationSets := s.confirmationSets.insert nodeId cs }, some pin)

/-- One more failed attempt; the third burns the node. -/
def counted (st : RBPCState) : RBPCState :=
  if 3 ≤ st.failedAttempts + 1 then
    { st with failedAttempts := st.failedAttempts + 1, burned := true }
  else { st with failedAttempts := st.failedAttempts + 1 }

def authenticated (st : RBPCState) (now : Int) : RBPCState :=
  { st with failedAttempts := 0, lastAuthTimestamp := now }

def UserSecurity.setState (s : UserSecurity) (nodeId : ByteString) (st : RBPCState) :
    UserSecurity :=
  { s with states := s.states.insert nodeId st }

def UserSecurity.setConfirmationSet (s : UserSecurity) (nodeId : ByteString)
    (cs : RBPCConfirmationSet) : UserSecurity :=
  { s with confirmationSets := s.confirmationSets.insert nodeId cs }

/-- The end of every failed verification: the attempt is counted, and the answer says whether
it burned the node or how many attempts there were. -/
def UserSecurity.fail (s : UserSecurity) (nodeId : ByteString) (st : RBPCState) (burnt : Answer)
    (failed : Int → Answer) : UserSecurity × Answer :=
  (s.setState nodeId (counted st),
    if 3 ≤ st.failedAttempts + 1 then burnt else failed (st.failedAttempts + 1))

def UserSecurity.verifyPin (s : UserSecurity) (m : Moment) (nodeId pinAttempt : ByteString) :
    UserSecurity × Answer :=
  match s.states[nodeId]? with
  | none => (s, .nodeNotRegistered)
  | some st =>
    if isLocked st then (s, .pinDisabled)
    else if pinAttempt.isEmpty then s.fail nodeId st .emptyPinBurned .emptyPin
    else if d.askSha256 (m.up 0) (pinAttempt ++ st.salt) = st.pinHash then
      (s.setState nodeId (authenticated st (m.now 0)), .ok)
    else s.fail nodeId st .pinBurned .pinFailed

def registered (cs : RBPCConfirmationSet) (commitment salt : ByteString) : RBPCConfirmationSet :=
  { cs with wordCommitmentHash := commitment, hardwareAnchorHash := salt, wordSalt := salt }

def UserSecurity.registerMemorableWord (s : UserSecurity) (m : Moment)
    (nodeId word salt : ByteString) : UserSecurity × Answer :=
  if MemorableWord.validate word ≠ .ok then (s, MemorableWord.validate word)
  else if word.any isStructural then (s, .wordWithStructuralCharacter)
  else
    match s.confirmationSets[nodeId]? with
    | none => (s, .nodeNotFound)
    | some cs =>
      let commitment := MemorableWord.deriveCommitment d (m.up 0) (m.up 1) word salt
      if cs.wordCommitmentHash.isEmpty then
        (s.setConfirmationSet nodeId (registered cs commitment salt), .ok)
      else if commitment = cs.wordCommitmentHash then (s, .reauthOk)
      else (s, .alreadyRegistered)

/-- The salt with which a word is compared: that of the PIN where the word has none. -/
def saltOf (st : RBPCState) (cs : RBPCConfirmationSet) : ByteString :=
  if cs.wordSalt.isEmpty then st.salt else cs.wordSalt

def UserSecurity.verifyConfirmation (s : UserSecurity) (m : Moment)
    (nodeId pinAttempt wordAttempt : ByteString) : UserSecurity × Answer :=
  match s.states[nodeId]? with
  | none => (s, .nodeNotProvisioned)
  | some st =>
    if isLocked st then (s, .confirmationDisabled)
    else
      match s.confirmationSets[nodeId]? with
      | none => (s, .confirmationSetNotFound)
      | some cs =>
        if cs.wordCommitmentHash.isEmpty then (s, .wordNotRegistered)
        else if d.askSha256 (m.up 0) (pinAttempt ++ st.salt) ≠ st.pinHash then
          s.fail nodeId st .pinLocked .pinRefused
        else if MemorableWord.deriveCommitment d (m.up 1) (m.up 2) wordAttempt (saltOf st cs) ≠
            cs.wordCommitmentHash then
          s.fail nodeId st .wordLocked .wordRefused
        else (s.setState nodeId (authenticated st (m.now 0)), .ok)

def UserSecurity.isBurned (s : UserSecurity) (nodeId : ByteString) : Bool :=
  (s.states[nodeId]?).any isLocked

def UserSecurity.scrubAll (_ : UserSecurity) : UserSecurity := {}

inductive Call
  | generatePin (nodeId masterSecret : ByteString)
  | verifyPin (nodeId pinAttempt : ByteString)
  | registerMemorableWord (nodeId word salt : ByteString)
  | verifyConfirmation (nodeId pinAttempt wordAttempt : ByteString)
  | scrubAll

/-- The node a call is about; `scrub_all` is about all of them. -/
def Call.nodeId : Call → Option ByteString
  | .generatePin nodeId _ => some nodeId
  | .verifyPin nodeId _ => some nodeId
  | .registerMemorableWord nodeId _ _ => some nodeId
  | .verifyConfirmation nodeId _ _ => some nodeId
  | .scrubAll => none

/-- A call at its moment. The mutex makes the calls of several threads such a sequence. -/
structure Request where
  call : Call
  moment : Moment := {}

def UserSecurity.serve (s : UserSecurity) (r : Request) : UserSecurity :=
  match r.call with
  | .generatePin nodeId masterSecret => (s.generatePin d r.moment nodeId masterSecret).1
  | .verifyPin nodeId pinAttempt => (s.verifyPin d r.moment nodeId pinAttempt).1
  | .registerMemorableWord nodeId word salt =>
    (s.registerMemorableWord d r.moment nodeId word salt).1
  | .verifyConfirmation nodeId pinAttempt wordAttempt =>
    (s.verifyConfirmation d r.moment nodeId pinAttempt wordAttempt).1
  | .scrubAll => s.scrubAll

def Serves (s : UserSecurity) (r : Request) (s' : UserSecurity) : Prop := s' = s.serve d r

end Cerberus.Rbpc
