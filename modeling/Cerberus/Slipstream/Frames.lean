import Cerberus.Gateway.Protocol
import Cerberus.Slipstream.Message

namespace Cerberus.Slipstream

open Foundation.Bytes Foundation.LittleEndian Gateway SlipstreamMessage

variable {data payload : ByteString} {h : ANBPHeader}

def plainHeader (opcode : CerberusOpcode) (token : UInt16) (seq : UInt32) (payload : ByteString)
    (nowUs : UInt64) : ANBPHeader where
  opcode := opcode
  payloadLength := .ofNat payload.length
  sequenceId := seq
  sessionToken := token
  timestampUs := nowUs

theorem buildMessage_plain (opcode : CerberusOpcode) (token : UInt16) (seq : UInt32)
    (key : Option SharedSecret) (nowUs : UInt64) (hlen : payload.length ≤ maxPayloadSize) :
    buildMessage opcode token seq payload false key nowUs =
      serializeHeader (plainHeader opcode token seq payload nowUs) ++ payload := by
  unfold buildMessage
  rw [if_neg (by simpa using hlen)]
  cases key with
  | none => rfl
  | some key => rfl

theorem deserializeHeader_buildMessage (opcode : CerberusOpcode) (token : UInt16) (seq : UInt32)
    (key : Option SharedSecret) (nowUs : UInt64) (hlen : payload.length ≤ maxPayloadSize) :
    deserializeHeader (buildMessage opcode token seq payload false key nowUs) =
      some (plainHeader opcode token seq payload nowUs) := by
  rw [buildMessage_plain opcode token seq key nowUs hlen]
  refine deserializeHeader_serializeHeader rfl rfl (UInt32.toNat_ofNat_of_lt ?_) hlen
  exact hlen.trans_lt (by decide)

theorem le_length_of_deserializeHeader (hd : deserializeHeader data = some h) :
    Gateway.headerSize + h.payloadLength.toNat ≤ data.length := by
  unfold deserializeHeader at hd
  split at hd
  case isTrue => contradiction
  case isFalse hlong =>
    dsimp only at hd
    split at hd
    case isFalse => contradiction
    case isTrue hvalid =>
      rw [← Option.some_inj.mp hd]
      simp only [Bool.and_eq_true, decide_eq_true_eq] at hvalid
      exact hvalid.2.2

/-- Both formats are read back as they were written, whatever follows; what is accepted is long
enough, and begins with what it is read as. -/
theorem frames_round_trip :
    (∀ type data seq nowUs t, data.length < 2 ^ 32 →
      deserialize ((create type data seq nowUs).serialize ++ t) =
        some (create type data seq nowUs) ∧
      (create type data seq nowUs).header.type = type.value ∧
      (create type data seq nowUs).header.payloadLength.toNat = data.length ∧
      (create type data seq nowUs).header.sequenceNumber = seq ∧
      (create type data seq nowUs).payload = data) ∧
    (∀ data m, deserialize data = some m → m.serialize <+: data) ∧
    (∀ opcode token seq payload key nowUs, payload.length ≤ maxPayloadSize →
      deserializeHeader (buildMessage opcode token seq payload false key nowUs) =
        some (plainHeader opcode token seq payload nowUs) ∧
      (buildMessage opcode token seq payload false key nowUs).drop 28 = payload) ∧
    (∀ data h, deserializeHeader data = some h → 28 + h.payloadLength.toNat ≤ data.length) := by
  refine ⟨fun type data seq nowUs t hlen ↦ ?_, fun data m ↦ serialize_isPrefix,
    fun opcode token seq payload key nowUs hlen ↦ ⟨?_, ?_⟩,
    fun data h ↦ le_length_of_deserializeHeader⟩
  · have hw : (create type data seq nowUs).WellFormed := create_wellFormed hlen
    exact ⟨hw.deserialize_serialize t, rfl, hw.length, rfl, rfl⟩
  · exact deserializeHeader_buildMessage opcode token seq key nowUs hlen
  · rw [buildMessage_plain opcode token seq key nowUs hlen]
    exact List.drop_left' length_serializeHeader

theorem frames_round_trip_command :
    deserialize ((create .cmdExecute [1, 2, 3] 7 0).serialize ++ [9]) =
      some (create .cmdExecute [1, 2, 3] 7 0) ∧
    (create .cmdExecute [1, 2, 3] 7 0).serialize <+:
      (create .cmdExecute [1, 2, 3] 7 0).serialize ++ [9] ∧
    deserializeHeader (buildMessage .getStatus 5 6 [8] false none 0) =
      some (plainHeader .getStatus 5 6 [8] 0) ∧
    (buildMessage .getStatus 5 6 [8] false none 0).drop 28 = [8] ∧
    28 + (plainHeader .getStatus 5 6 [8] 0).payloadLength.toNat ≤
      (buildMessage .getStatus 5 6 [8] false none 0).length := by
  obtain ⟨hcreate, hbegins, hbuild, hlong⟩ := frames_round_trip
  have hcommand := (hcreate .cmdExecute [1, 2, 3] 7 0 [9] (by decide)).1
  have hstatus := hbuild .getStatus 5 6 [8] none 0 (by decide)
  exact ⟨hcommand, hbegins _ _ hcommand, hstatus.1, hstatus.2, hlong _ _ hstatus.1⟩

end Cerberus.Slipstream
