import RustRcp.CrcBurst
import RustRcp.Lib.Distance
/-!
# How many flipped bits the CRC detects

Wherever they are in a coverage of at most 4091 octets or in the CRC beside it: five
(`crc_distance`). The divisor has the roots that `detects_five` asks for, at a root of its
factor of degree 15, whose powers come round after 32767.
-/
open Crc Polynomial

namespace RustRcp

/-! ## The divisor's roots -/

section Roots

/-- A factor of `CRC32_TC18_POLY` of degree 15. -/
def CRC32_TC18_FACTOR : BitVec 15 := 0x485F

/-- The divisor leaves nothing at the factor's root, at its fifth power and at one; the root's powers come round
after 32767 of them, and after no part of that. -/
theorem factor_computed :
    (power CRC32_TC18_FACTOR 15 32767 = 1#15 ∧
      evaluate CRC32_TC18_FACTOR 1 0x3C1B#15 (power CRC32_TC18_FACTOR 13 4681 ^^^ 1#15) = 1#15 ∧
      evaluate CRC32_TC18_FACTOR 1 0x7D23#15 (power CRC32_TC18_FACTOR 11 1057 ^^^ 1#15) = 1#15 ∧
      evaluate CRC32_TC18_FACTOR 1 0x28D3#15 (power CRC32_TC18_FACTOR 8 217 ^^^ 1#15) = 1#15) ∧
    evaluate CRC32_TC18_FACTOR 1 CRC32_TC18_POLY.toBitVec 1#15 = (shiftOut CRC32_TC18_FACTOR)^[1 * 32] 1#15 ∧
    evaluate CRC32_TC18_FACTOR 5 CRC32_TC18_POLY.toBitVec 1#15 = (shiftOut CRC32_TC18_FACTOR)^[5 * 32] 1#15 ∧
    evaluate 1#1 1 CRC32_TC18_POLY.toBitVec 1#1 = (shiftOut 1#1)^[1 * 32] 1#1 := by
  decide +kernel

variable {K : Type*} [Field K] [Algebra (ZMod 2) K] {α : K}

theorem pow_factor (hα : aeval α (generator CRC32_TC18_FACTOR) = 0) : α ^ 32767 = 1 := by
  obtain ⟨⟨hpower, -⟩, -⟩ := factor_computed
  rw [← value_power hα (by decide) (show 32767 < 2 ^ 15 by decide), hpower, value_one (by decide)]

/-- The powers of the root run through everything but zero in its field. -/
theorem orderOf_factor [CharP K 2] (hα : aeval α (generator CRC32_TC18_FACTOR) = 0) : orderOf α = 32767 := by
  refine orderOf_eq_of_pow_and_pow_div_prime (by decide) (pow_factor hα) fun p hp hdvd => ?_
  have hcases : p = 7 ∨ p = 31 ∨ p = 151 := by
    rw [show 32767 = 7 * 31 * 151 from rfl, hp.dvd_mul, hp.dvd_mul, Nat.prime_dvd_prime_iff_eq hp (by norm_num),
      Nat.prime_dvd_prime_iff_eq hp (by norm_num), Nat.prime_dvd_prime_iff_eq hp (by norm_num)] at hdvd
    tauto
  obtain ⟨⟨-, h4681, h1057, h217⟩, -⟩ := factor_computed
  rcases hcases with rfl | rfl | rfl
  · exact power_ne_one hα (by decide) (show 4681 < 2 ^ 13 by decide) _ h4681
  · exact power_ne_one hα (by decide) (show 1057 < 2 ^ 11 by decide) _ h1057
  · exact power_ne_one hα (by decide) (show 217 < 2 ^ 8 by decide) _ h217

theorem crc32_detects : Detects CRC32_TC18_POLY.toBitVec 32767 5 := by
  obtain ⟨-, hdivisor, hfifth, hone⟩ := factor_computed
  obtain ⟨α, hα⟩ := exists_root CRC32_TC18_FACTOR (by decide)
  have hfix : α ^ 2 ^ 15 = α := by
    show α ^ (32767 + 1) = α
    rw [pow_succ, pow_factor hα, one_mul]
  have hroot := root_of_evaluate hα (by decide) hdivisor
  rw [pow_one] at hroot
  rw [← orderOf_factor hα]
  exact detects_five (by decide) hfix (root_one hone) hroot (root_of_evaluate hα (by decide) hfifth)

end Roots

/-! ## Flipped bits -/

/-- In how many bits two byte strings of one length differ. -/
def flipped_bits (sent received : List UInt8) : Nat :=
  differing (sent.map UInt8.toBitVec) (received.map UInt8.toBitVec)

theorem flipped_cons (octet octet' : UInt8) (sent received : List UInt8) :
    flipped_bits (octet :: sent) (octet' :: received) =
      weight (octet.toBitVec ^^^ octet'.toBitVec) + flipped_bits sent received := by
  simp [flipped_bits, differing]

theorem flipped_append {sent received : List UInt8} (hlen : sent.length = received.length)
    (sent' received' : List UInt8) : flipped_bits (sent ++ sent') (received ++ received') =
      flipped_bits sent received + flipped_bits sent' received' := by
  rw [flipped_bits, List.map_append, List.map_append, differing_append (by simpa using hlen)]
  rfl

theorem differing_reflected_le (sent received : List UInt8) :
    differing (reflected_words sent) (reflected_words received) ≤ flipped_bits sent received := by
  induction sent generalizing received with
  | nil => simp [reflected_words, differing]
  | cons octet sent ih =>
    cases received with
    | nil => simp [reflected_words, differing]
    | cons octet' received =>
      have hhead : weight (octet.toBitVec.reverse ^^^ octet'.toBitVec.reverse) ≤
          weight (octet.toBitVec ^^^ octet'.toBitVec) := by
        rw [← reverse_xor]
        exact weight_reverse_le _
      rw [flipped_cons]
      exact Nat.add_le_add hhead (ih received)

/-- Six bits tell a coverage and its CRC from every other. -/
theorem crc_distance {sent received : List UInt8} (hlen : sent.length = received.length) (hfits : sent.length ≤ 4091)
    (hfew : flipped_bits sent received + weight (crc32_tc18 sent ^^^ crc32_tc18 received).toBitVec ≤ 5) :
    sent = received := by
  have hwords : (reflected_words sent).length = sent.length := by simp [reflected_words]
  refine reflected_words_inj (eq_of_few crc32_detects (by decide) (by simpa [reflected_words] using hlen)
    (by rw [hwords]; omega) CRC32_TC18_INIT_XOROUT.toBitVec
    ((Nat.add_le_add (differing_reflected_le sent received) ?_).trans hfew))
  -- the CRCs are the registers, reversed
  have hcrc (data : List UInt8) : (crc32_tc18 data ^^^ CRC32_TC18_INIT_XOROUT).toBitVec =
      ((reflected_words data).foldl (absorb CRC32_TC18_POLY.toBitVec) CRC32_TC18_INIT_XOROUT.toBitVec).reverse := by
    rw [crc32_tc18, UInt32.xor_assoc, UInt32.xor_self, UInt32.xor_zero, ← reverse_bits_loop, reflected_words,
      ← crc_reference_loop_toBitVec]
    rfl
  let r := (reflected_words sent).foldl (absorb CRC32_TC18_POLY.toBitVec) CRC32_TC18_INIT_XOROUT.toBitVec
  let r' := (reflected_words received).foldl (absorb CRC32_TC18_POLY.toBitVec) CRC32_TC18_INIT_XOROUT.toBitVec
  have hxor : (r ^^^ r').reverse = (crc32_tc18 sent ^^^ crc32_tc18 received).toBitVec := by
    rw [reverse_xor, ← hcrc, ← hcrc, UInt32.toBitVec_xor, UInt32.toBitVec_xor, xor_xor_same, ← UInt32.toBitVec_xor]
  have hback := weight_reverse_le (r ^^^ r').reverse
  rwa [BitVec.reverse_reverse_eq, hxor] at hback

end RustRcp
