import RustRcp.E2e
import RustRcp.Lib.Crc
/-!
# The CRC against its definition

The reference the crate's tests cross-check `crc32_tc18` with (`crc32_tc18_reference`,
test module of `src/e2e.rs`), and the division both carry out.
-/
open Crc Polynomial

namespace RustRcp

/-! ## The reference -/

/-- `u8::reverse_bits`. -/
def reverse_bits_u8 (byte : UInt8) : UInt8 := ⟨byte.toBitVec.reverse⟩

/-- `u32::reverse_bits`. -/
def reverse_bits (crc : UInt32) : UInt32 := ⟨crc.toBitVec.reverse⟩

/-- The polynomial the other way round, `POLY` of the test. -/
def CRC32_TC18_POLY : UInt32 := 0xF4ACFB13

/-- One turn of the reference's inner loop. -/
def crc_reference_shift (crc : UInt32) : UInt32 :=
  if crc &&& 0x80000000 ≠ 0 then (crc <<< 1) ^^^ CRC32_TC18_POLY else crc <<< 1

/-- One turn of its outer loop. -/
def crc_reference_byte (crc : UInt32) (byte : UInt8) : UInt32 :=
  crc_reference_shift^[8] (crc ^^^ ((reverse_bits_u8 byte).toUInt32 <<< 24))

def crc32_tc18_reference (data : List UInt8) : UInt32 :=
  reverse_bits (data.foldl crc_reference_byte CRC32_TC18_INIT_XOROUT) ^^^ CRC32_TC18_INIT_XOROUT

/-! ## Registers -/

theorem reverse_poly : CRC32_TC18_POLY.toBitVec.reverse = CRC32_TC18_POLY_REFLECTED.toBitVec := by decide +kernel

theorem reverse_init : CRC32_TC18_INIT_XOROUT.toBitVec.reverse = CRC32_TC18_INIT_XOROUT.toBitVec := by decide +kernel

/-- A mask of one bit asks for that bit. -/
theorem and_ne_zero (crc : UInt32) (i : Nat) (hi : i < 32) (mask : UInt32)
    (hmask : mask.toBitVec = BitVec.twoPow 32 i) : crc &&& mask ≠ 0 ↔ crc.toBitVec.getLsbD i = true := by
  rw [ne_eq, ← UInt32.toBitVec_inj, UInt32.toBitVec_and, hmask, BitVec.and_twoPow]
  by_cases hbit : crc.toBitVec.getLsbD i = true
  · have hset : BitVec.twoPow 32 i ≠ 0 := fun h => by
      have := congrArg (BitVec.getLsbD · i) h
      simp [hi] at this
    simpa [hbit] using hset
  · simp [hbit]

theorem crc_shift_toBitVec (crc : UInt32) :
    (crc_shift crc).toBitVec = shiftOutLow CRC32_TC18_POLY_REFLECTED.toBitVec crc.toBitVec := by
  unfold crc_shift shiftOutLow
  simp only [and_ne_zero crc 0 (by decide) 1 rfl]
  split <;> rfl

theorem crc_reference_shift_toBitVec (crc : UInt32) :
    (crc_reference_shift crc).toBitVec = shiftOut CRC32_TC18_POLY.toBitVec crc.toBitVec := by
  unfold crc_reference_shift shiftOut
  simp only [and_ne_zero crc 31 (by decide) 0x80000000 rfl, BitVec.msb_eq_getLsbD_last]
  split <;> rfl

theorem crc_byte_toBitVec (crc : UInt32) (byte : UInt8) :
    (crc_byte crc byte).toBitVec = absorbLow CRC32_TC18_POLY_REFLECTED.toBitVec crc.toBitVec byte.toBitVec :=
  (Function.Semiconj.iterate_right crc_shift_toBitVec 8).eq (crc ^^^ byte.toUInt32)

theorem crc_reference_byte_toBitVec (crc : UInt32) (byte : UInt8) : (crc_reference_byte crc byte).toBitVec =
    absorb CRC32_TC18_POLY.toBitVec crc.toBitVec byte.toBitVec.reverse :=
  (Function.Semiconj.iterate_right crc_reference_shift_toBitVec 8).eq
    (crc ^^^ ((reverse_bits_u8 byte).toUInt32 <<< 24))

/-! ## Agreement -/

/-- The loop of the implementation, over the whole input. -/
theorem crc_loop_toBitVec (data : List UInt8) (crc : UInt32) : (data.foldl crc_byte crc).toBitVec =
    (data.map UInt8.toBitVec).foldl (absorbLow CRC32_TC18_POLY_REFLECTED.toBitVec) crc.toBitVec := by
  rw [List.foldl_map]
  exact (List.foldl_hom UInt32.toBitVec fun crc byte => (crc_byte_toBitVec crc byte).symm).symm

/-- The loop of the reference takes the octets in mirrored. -/
theorem crc_reference_loop_toBitVec (data : List UInt8) (crc : UInt32) :
    (data.foldl crc_reference_byte crc).toBitVec =
      ((data.map UInt8.toBitVec).map BitVec.reverse).foldl (absorb CRC32_TC18_POLY.toBitVec) crc.toBitVec := by
  rw [List.map_map, List.foldl_map]
  exact (List.foldl_hom UInt32.toBitVec fun crc byte => (crc_reference_byte_toBitVec crc byte).symm).symm

/-- One loop's register is the other's, mirrored. -/
theorem reverse_bits_loop (data : List UInt8) :
    reverse_bits (data.foldl crc_reference_byte CRC32_TC18_INIT_XOROUT) =
      data.foldl crc_byte CRC32_TC18_INIT_XOROUT := by
  apply UInt32.toBitVec_inj.1
  have hmirror := reverse_foldl_absorb (k := 8) CRC32_TC18_POLY.toBitVec (by decide) (data.map UInt8.toBitVec)
    CRC32_TC18_INIT_XOROUT.toBitVec
  rw [← crc_reference_loop_toBitVec, reverse_poly, reverse_init, ← crc_loop_toBitVec] at hmirror
  exact hmirror

/-- The bits of the input as coefficients: the octets in order, each from its lowest bit. -/
noncomputable def reflected_input (data : List UInt8) : (ZMod 2)[X] :=
  message ((data.map UInt8.toBitVec).map BitVec.reverse)

/-- The remainder the definition takes, before the output is reflected and inverted. -/
noncomputable def crc_remainder (data : List UInt8) : (ZMod 2)[X] :=
  (X ^ 32 * reflected_input data + X ^ (8 * data.length) * toPoly CRC32_TC18_INIT_XOROUT.toBitVec) %ₘ
    generator CRC32_TC18_POLY.toBitVec

theorem crc_reference_remainder (data : List UInt8) :
    toPoly (data.foldl crc_reference_byte CRC32_TC18_INIT_XOROUT).toBitVec = crc_remainder data := by
  rw [crc_reference_loop_toBitVec, toPoly_foldl_absorb _ _ (by decide), List.length_map, List.length_map]
  rfl

/-- The implementation computes what the reference computes, and both the remainder of the division by the
polynomial `0xF4ACFB13`, reflected and inverted. -/
theorem crc32_tc18_eq_definition (data : List UInt8) :
    crc32_tc18 data = crc32_tc18_reference data ∧
      toPoly (reverse_bits (crc32_tc18 data ^^^ CRC32_TC18_INIT_XOROUT)).toBitVec = crc_remainder data := by
  have hagree : crc32_tc18 data = crc32_tc18_reference data := by
    rw [crc32_tc18, crc32_tc18_reference, reverse_bits_loop]
  refine ⟨hagree, ?_⟩
  rw [hagree, crc32_tc18_reference, UInt32.xor_assoc, UInt32.xor_self, UInt32.xor_zero, ← crc_reference_remainder]
  congr 1
  exact BitVec.reverse_reverse_eq

end RustRcp
