import RustRcp.CrcDistance
import RustRcp.Iseled
/-!
# The CRC of an ISELED frame

The 8-bit CRC over a frame's own octets (`crc8_autosar` and `iseled_frame_crc8` of
`src/iseled.rs`, built with a feature of their own), and what it tells apart (`iseled_crc_guards`).
-/
open Crc Polynomial

namespace RustRcp

/-- `POLY` of `crc8_autosar`. -/
def CRC8_AUTOSAR_POLY : UInt8 := 0x2F
def CRC8_AUTOSAR_INIT_XOROUT : UInt8 := 0xFF

/-- One turn of the inner loop. -/
def crc8_shift (crc : UInt8) : UInt8 :=
  if crc &&& 0x80 ≠ 0 then (crc <<< 1) ^^^ CRC8_AUTOSAR_POLY else crc <<< 1

/-- One turn of the outer loop. -/
def crc8_byte (crc byte : UInt8) : UInt8 := crc8_shift^[8] (crc ^^^ byte)

def crc8_autosar (data : List UInt8) : UInt8 :=
  data.foldl crc8_byte CRC8_AUTOSAR_INIT_XOROUT ^^^ CRC8_AUTOSAR_INIT_XOROUT

structure IseledFrameCrc where
  crc : UInt8
  deriving DecidableEq, Repr

def iseled_frame_crc8 (frame : IseledFrame) : IseledFrameCrc := ⟨crc8_autosar frame.encode⟩

/-! ## The register -/

theorem crc8_shift_toBitVec (crc : UInt8) :
    (crc8_shift crc).toBitVec = shiftOut CRC8_AUTOSAR_POLY.toBitVec crc.toBitVec := by
  revert crc
  exact Bytes.forall_byte (by decide +kernel)

theorem crc8_byte_toBitVec (crc byte : UInt8) :
    (crc8_byte crc byte).toBitVec = absorb CRC8_AUTOSAR_POLY.toBitVec crc.toBitVec byte.toBitVec := by
  have hshift := (Function.Semiconj.iterate_right crc8_shift_toBitVec 8).eq (crc ^^^ byte)
  rw [crc8_byte, hshift, UInt8.toBitVec_xor, absorb, Nat.sub_self, BitVec.shiftLeft_zero, BitVec.setWidth_eq]

theorem crc8_loop_toBitVec (data : List UInt8) (crc : UInt8) : (data.foldl crc8_byte crc).toBitVec =
    (data.map UInt8.toBitVec).foldl (absorb CRC8_AUTOSAR_POLY.toBitVec) crc.toBitVec := by
  rw [List.foldl_map]
  exact (List.foldl_hom UInt8.toBitVec fun crc byte => (crc8_byte_toBitVec crc byte).symm).symm

/-! ## The divisor's roots -/

/-- The factor of `CRC8_AUTOSAR_POLY` of degree 7. -/
def CRC8_AUTOSAR_FACTOR : BitVec 7 := 0x65

theorem crc8_factor_computed :
    power CRC8_AUTOSAR_FACTOR 7 127 = 1#7 ∧
    evaluate CRC8_AUTOSAR_FACTOR 1 0x5C#7 (power CRC8_AUTOSAR_FACTOR 1 1 ^^^ 1#7) = 1#7 ∧
    evaluate CRC8_AUTOSAR_FACTOR 1 CRC8_AUTOSAR_POLY.toBitVec 1#7 = (shiftOut CRC8_AUTOSAR_FACTOR)^[1 * 8] 1#7 ∧
    evaluate 1#1 1 CRC8_AUTOSAR_POLY.toBitVec 1#1 = (shiftOut 1#1)^[1 * 8] 1#1 := by
  decide +kernel

theorem crc8_detects : Detects CRC8_AUTOSAR_POLY.toBitVec 127 3 := by
  obtain ⟨hpower, hinverse, hdivisor, hone⟩ := crc8_factor_computed
  obtain ⟨α, hα⟩ := exists_root CRC8_AUTOSAR_FACTOR (by decide)
  have hcycle : α ^ 127 = 1 := by
    rw [← value_power hα (by decide) (show 127 < 2 ^ 7 by decide), hpower, value_one (by decide)]
  have hne : α ≠ 1 := by
    have hpow := power_ne_one hα (by decide) (show 1 < 2 ^ 1 by decide) _ hinverse
    rwa [pow_one] at hpow
  have hprime : Fact (Nat.Prime 127) := ⟨by norm_num⟩
  have hroot := root_of_evaluate hα (by decide) hdivisor
  rw [pow_one] at hroot
  rw [← orderOf_eq_prime hcycle hne]
  exact detects_three (root_one hone) hroot

/-! ## Frames -/

/-- The words of a frame, as the register takes them in. -/
def IseledFrame.words (frame : IseledFrame) : List (BitVec 8) := frame.encode.map UInt8.toBitVec

theorem IseledFrame.words_inj {frame frame' : IseledFrame} (h : frame.words = frame'.words) : frame = frame' := by
  have hoctets : frame.encode = frame'.encode := List.map_injective_iff.2 (fun _ _ => UInt8.toBitVec_inj.1) h
  obtain ⟨chain_address, command, data⟩ := frame
  obtain ⟨rfl, hrest⟩ := List.cons.inj hoctets
  obtain ⟨rfl, rfl⟩ := List.cons.inj hrest
  rfl

theorem IseledFrame.length_words (frame : IseledFrame) : frame.words.length = frame.data.length + 2 := by
  simp [words, encode]

/-- The CRCs of two frames differ as their registers do. -/
theorem iseled_frame_crc8_xor (frame frame' : IseledFrame) :
    ((iseled_frame_crc8 frame).crc ^^^ (iseled_frame_crc8 frame').crc).toBitVec =
      frame.words.foldl (absorb CRC8_AUTOSAR_POLY.toBitVec) CRC8_AUTOSAR_INIT_XOROUT.toBitVec ^^^
        frame'.words.foldl (absorb CRC8_AUTOSAR_POLY.toBitVec) CRC8_AUTOSAR_INIT_XOROUT.toBitVec := by
  rw [IseledFrame.words, IseledFrame.words, ← crc8_loop_toBitVec, ← crc8_loop_toBitVec]
  simp only [iseled_frame_crc8, crc8_autosar, UInt8.toBitVec_xor]
  exact xor_xor_same _ _ _

/-- The CRC tells a frame of up to twelve data octets from every other of its length that is at most three
bits away, those of the CRC included, and a frame of any length from every other that differs within eight bits. -/
theorem iseled_crc_guards (sent received : IseledFrame) (hlen : received.data.length = sent.data.length) :
    (sent.data.length ≤ 12 → flipped_bits sent.encode received.encode +
        weight ((iseled_frame_crc8 sent).crc ^^^ (iseled_frame_crc8 received).crc).toBitVec ≤ 3 → received = sent) ∧
      ∀ start, (∀ i, i < start ∨ start + 8 ≤ i → messageBit sent.words i = messageBit received.words i) →
        iseled_frame_crc8 received = iseled_frame_crc8 sent → received = sent := by
  have hwords : sent.words.length = received.words.length := by
    rw [IseledFrame.length_words, IseledFrame.length_words, hlen]
  constructor
  · intro hshort hfew
    rw [iseled_frame_crc8_xor] at hfew
    exact (IseledFrame.words_inj (eq_of_few crc8_detects (by decide) hwords
      (by rw [IseledFrame.length_words]; omega) _ hfew)).symm
  · intro start hburst hcrc
    by_contra hne
    have hxor := iseled_frame_crc8_xor sent received
    rw [hcrc, UInt8.xor_self] at hxor
    have hconst : CRC8_AUTOSAR_POLY.toBitVec.getLsbD 0 = true := by decide
    have hsame := BitVec.xor_eq_zero_iff.1 hxor.symm
    exact foldl_absorb_ne hconst (by decide) hwords (fun h => hne (IseledFrame.words_inj h).symm) hburst _ hsame

/-- A frame of one data octet, and a bit of it changed. -/
theorem iseled_crc_guards_bit :
    iseled_frame_crc8 { chain_address := 1, command := 2, data := [7] } ≠
      iseled_frame_crc8 { chain_address := 1, command := 2, data := [3] } := by
  intro hcrc
  have hguards := iseled_crc_guards { chain_address := 1, command := 2, data := [3] }
    { chain_address := 1, command := 2, data := [7] } rfl
  refine absurd (hguards.1 (by decide) ?_) (by decide)
  rw [hcrc, UInt8.xor_self]
  decide +kernel

end RustRcp
