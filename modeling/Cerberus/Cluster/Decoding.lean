import Cerberus.Cluster.Dispatch

namespace Cerberus.Cluster

open Foundation.Bytes Foundation.LittleEndian

/-- The payload gets past the checks, whose product and sum are those of 64 bits. -/
def Passes (rp : ByteString) : Prop :=
  kHdrSz ≤ rp.length ∧ readAt 12 8 rp = readAt 0 4 rp * readAt 4 4 rp * 4 % 2 ^ 64 ∧
    (kHdrSz + readAt 12 8 rp) % 2 ^ 64 ≤ rp.length

instance (rp : ByteString) : Decidable (Passes rp) := by
  unfold Passes
  infer_instance

def requestedBytes (rp : ByteString) : Option Nat :=
  if Passes rp then some (readAt 12 8 rp) else none

/-- The number of bytes that are copied out of the payload, from the end of the header on. The
vector has to be there. -/
def copiedBytes (rp : ByteString) : Option Nat := (requestedBytes rp).filter (· < 2 ^ 63)

/-- The call ends with an error or with an image that has the bytes after the header as its
pixels, all `4 * width * height` of them. -/
structure DecodesSafely (node : UInt32) (rp : ByteString) : Prop where
  answer : unpackMessage ⟨node, .generateResult, rp⟩ = .unknown ∨
    ∃ img, unpackMessage ⟨node, .generateResult, rp⟩ = .image img ∧
      img.width = readAt 0 4 rp ∧ img.height = readAt 4 4 rp ∧
      img.pixels = (rp.drop kHdrSz).take (4 * img.width * img.height) ∧
      img.pixels.length = 4 * img.width * img.height
  copy : ∀ n ∈ copiedBytes rp, kHdrSz + n ≤ rp.length
  buffer : ∀ n ∈ requestedBytes rp, n ≤ rp.length

variable {rp : ByteString} {node : UInt32} {n : Nat}

theorem unpackImage_eq (rp : ByteString) : unpackImage rp =
    if Passes rp then
      if 2 ^ 63 ≤ readAt 12 8 rp then .lengthError
      else .image
        { pixels := (rp.drop kHdrSz).take (readAt 12 8 rp)
          width := readAt 0 4 rp
          height := readAt 4 4 rp
          generationTimeMs := readAt 8 4 rp }
    else .unknown := by
  unfold unpackImage
  by_cases hlen : rp.length < kHdrSz
  · rw [if_pos hlen, if_neg (fun h ↦ absurd h.1 (by omega))]
  · rw [if_neg hlen]
    dsimp only
    by_cases hbad : readAt 12 8 rp ≠ readAt 0 4 rp * readAt 4 4 rp * 4 % 2 ^ 64 ∨
        rp.length < (kHdrSz + readAt 12 8 rp) % 2 ^ 64
    · rw [if_pos hbad, if_neg ?_]
      rintro ⟨-, hcount, hsum⟩
      rcases hbad with hne | hlt
      · exact hne hcount
      · omega
    · push Not at hbad
      have hp : Passes rp := ⟨by omega, hbad⟩
      rw [if_neg (by push Not; exact hbad), if_pos hp]

theorem unpackMessage_result (node : UInt32) (rp : ByteString) :
    unpackMessage ⟨node, .generateResult, rp⟩ = unpackImage rp := if_neg (by simp)

theorem requestedBytes_eq (h : n ∈ requestedBytes rp) : Passes rp ∧ n = readAt 12 8 rp := by
  unfold requestedBytes at h
  split at h
  · next hp => exact ⟨hp, (Option.some.inj h).symm⟩
  · cases h

theorem copiedBytes_le (h : n ∈ copiedBytes rp) : kHdrSz + n ≤ rp.length := by
  obtain ⟨hreq, hlt⟩ := Option.mem_filter_iff.mp h
  obtain ⟨⟨-, -, hsum⟩, rfl⟩ := requestedBytes_eq hreq
  have hlt' : readAt 12 8 rp < 2 ^ 63 := by simpa using hlt
  have hhdr : kHdrSz = 20 := rfl
  rwa [Nat.mod_eq_of_lt (by omega)] at hsum

/-- A result is decoded as it should be exactly when the checks refuse it or the product of its
dimensions is one that a vector can have. -/
theorem decodesSafely_iff (node : UInt32) (rp : ByteString) : DecodesSafely node rp ↔
    ¬ (Passes rp ∧ 2 ^ 63 ≤ 4 * readAt 0 4 rp * readAt 4 4 rp) := by
  have hhdr : kHdrSz = 20 := rfl
  have hcomm : readAt 0 4 rp * readAt 4 4 rp * 4 = 4 * readAt 0 4 rp * readAt 4 4 rp := by ring
  constructor
  · rintro ⟨hanswer, -, -⟩ ⟨hp, hlarge⟩
    rw [unpackMessage_result, unpackImage_eq, if_pos hp] at hanswer
    rcases hanswer with hunknown | ⟨img, himage, -, -, hpixels, hlength⟩
    · split at hunknown <;> cases hunknown
    · split at himage
      · cases himage
      · next hcount =>
        -- the vector is shorter than 2^63, and the image larger
        cases himage
        dsimp only at hlength
        have := List.length_take_le (readAt 12 8 rp) (rp.drop kHdrSz)
        omega
  · intro hfit
    by_cases hp : Passes rp
    · have hsmall : 4 * readAt 0 4 rp * readAt 4 4 rp < 2 ^ 63 := by
        by_contra hge
        exact hfit ⟨hp, by omega⟩
      have hcount : readAt 12 8 rp = 4 * readAt 0 4 rp * readAt 4 4 rp := by
        rw [hp.2.1, hcomm, Nat.mod_eq_of_lt (by omega)]
      have hsum : kHdrSz + readAt 12 8 rp ≤ rp.length := by
        have := hp.2.2
        rwa [Nat.mod_eq_of_lt (by omega)] at this
      have himage : unpackMessage ⟨node, .generateResult, rp⟩ = .image
          { pixels := (rp.drop kHdrSz).take (readAt 12 8 rp)
            width := readAt 0 4 rp
            height := readAt 4 4 rp
            generationTimeMs := readAt 8 4 rp } := by
        rw [unpackMessage_result, unpackImage_eq, if_pos hp, if_neg (by omega)]
      refine ⟨.inr ⟨_, himage, rfl, rfl, ?_, ?_⟩, fun n hn ↦ copiedBytes_le hn, ?_⟩
      · rw [hcount]
      · simp only [List.length_take, List.length_drop]
        omega
      · intro n hn
        rw [(requestedBytes_eq hn).2]
        omega
    · refine ⟨.inl ?_, fun n hn ↦ copiedBytes_le hn, fun n hn ↦ absurd (requestedBytes_eq hn).1 hp⟩
      rw [unpackMessage_result, unpackImage_eq, if_neg hp]

def hugeImage : ByteString :=
  [0, 0, 0, 128, 0, 0, 0, 128, 0, 0, 0, 0, 0, 0, 0, 0, 0, 0, 0, 0]

theorem unpack_hugeImage : unpackMessage ⟨1, .generateResult, hugeImage⟩ = .image
    { pixels := [], width := 2 ^ 31, height := 2 ^ 31, generationTimeMs := 0 } := by decide

theorem hugeImage_returned : ¬ ∀ node rp, DecodesSafely node rp := by
  intro hall
  rcases (hall 1 hugeImage).answer with hunknown | ⟨img, himage, -, -, -, hlength⟩
  · rw [unpack_hugeImage] at hunknown
    cases hunknown
  · rw [unpack_hugeImage] at himage
    cases himage
    cases hlength

end Cerberus.Cluster
