import RustRcp.CrcReference
/-!
# Errors the CRC detects

Two byte strings of one length whose differing bits lie within 32 bits of each other, in
the order in which the bits are sent, never have one CRC (`bursts_detected`).
-/
open Crc

namespace RustRcp

/-- The bits of a byte string as they are sent: the octets in order, each from its lowest bit. -/
def transmitted_bit (data : List UInt8) (n : Nat) : Bool := (data.getD (n / 8) 0).toBitVec.getLsbD (n % 8)

/-- What is received has the length of what is sent, differs from it, and differs only within 32 bits. -/
structure Burst (sent received : List UInt8) : Prop where
  length : received.length = sent.length
  differ : received ≠ sent
  window : ∃ start, ∀ n, n < start ∨ start + 32 ≤ n → transmitted_bit received n = transmitted_bit sent n

/-- A changed octet is a burst, and so is a changed bit. -/
theorem burst_of_octet {data : List UInt8} {pos : Nat} (hpos : pos < data.length) {byte : UInt8}
    (hbyte : byte ≠ data[pos]) : Burst data (data.set pos byte) where
  length := List.length_set ..
  differ heq := by
    have hsame := List.getElem_of_eq heq.symm hpos
    rw [List.getElem_set_self] at hsame
    exact hbyte hsame.symm
  window := by
    refine ⟨8 * pos, fun n hn => ?_⟩
    have hplace : pos ≠ n / 8 := by omega
    rw [transmitted_bit, transmitted_bit, List.getD_eq_getElem?_getD, List.getD_eq_getElem?_getD,
      List.getElem?_set_ne hplace]

/-- The words the register of the definition divides. -/
def reflected_words (data : List UInt8) : List (BitVec 8) := (data.map UInt8.toBitVec).map BitVec.reverse

theorem reflected_words_inj {data data' : List UInt8} (h : reflected_words data = reflected_words data') :
    data = data' := by
  refine List.map_injective_iff.2 (fun _ _ => UInt8.toBitVec_inj.1) (List.map_injective_iff.2 (fun x y hxy => ?_) h)
  rw [← BitVec.reverse_reverse_eq (x := x), ← BitVec.reverse_reverse_eq (x := y), hxy]

theorem reflected_words_concat (data : List UInt8) (byte : UInt8) :
    reflected_words (data ++ [byte]) = reflected_words data ++ [byte.toBitVec.reverse] := by
  simp [reflected_words]

theorem transmitted_bit_last (data : List UInt8) (byte : UInt8) {j : Nat} (hj : j < 8) :
    transmitted_bit (data ++ [byte]) (8 * data.length + j) = byte.toBitVec.getLsbD j := by
  rw [transmitted_bit, Nat.mul_add_div (by decide), Nat.div_eq_of_lt hj, Nat.add_zero, Nat.mul_add_mod,
    Nat.mod_eq_of_lt hj, List.getD_append_right _ _ _ _ le_rfl, Nat.sub_self, List.getD_cons_zero]

theorem transmitted_bit_earlier (data : List UInt8) (byte : UInt8) {n : Nat} (hn : n < 8 * data.length) :
    transmitted_bit (data ++ [byte]) n = transmitted_bit data n := by
  rw [transmitted_bit, List.getD_append _ _ _ _ (Nat.div_lt_of_lt_mul hn)]
  rfl

/-- The last bit sent is the lowest coefficient. -/
theorem messageBit_reflected {data : List UInt8} {i : Nat} (hi : i < 8 * data.length) :
    messageBit (reflected_words data) i = transmitted_bit data (8 * data.length - 1 - i) := by
  induction data using List.reverseRecOn generalizing i with
  | nil => exact absurd hi (Nat.not_lt_zero i)
  | append_singleton data byte ih =>
    rw [List.length_append, List.length_singleton] at hi ⊢
    rw [reflected_words_concat, messageBit_concat]
    split_ifs with hlast
    · have hplace : 8 * (data.length + 1) - 1 - i = 8 * data.length + (7 - i) := by omega
      rw [hplace, transmitted_bit_last data byte (by omega), BitVec.getLsbD_reverse, BitVec.getMsbD_eq_getLsbD]
      simp [hlast]
    · have hplace : 8 * (data.length + 1) - 1 - i = 8 * data.length - 1 - (i - 8) := by omega
      rw [hplace, transmitted_bit_earlier data byte (by omega), ih (by omega)]

/-- Beyond the message its polynomial has no terms. -/
theorem messageBit_beyond {data : List UInt8} {i : Nat} (hi : 8 * data.length ≤ i) :
    messageBit (reflected_words data) i = false := by
  have hplace : (reflected_words data).reverse.length ≤ i / 8 := by
    rw [List.length_reverse, reflected_words, List.length_map, List.length_map]
    omega
  rw [messageBit, List.getD_eq_default _ _ hplace]
  exact BitVec.getLsbD_zero

/-- What is left of a burst in the coefficients. -/
theorem Burst.coefficients {sent received : List UInt8} (h : Burst sent received) :
    ∃ start, ∀ i, i < start ∨ start + 32 ≤ i →
      messageBit (reflected_words received) i = messageBit (reflected_words sent) i := by
  obtain ⟨start, hwindow⟩ := h.window
  -- the window is the same one, counted from the other end
  refine ⟨8 * sent.length - 32 - start, fun i hi => ?_⟩
  by_cases hin : i < 8 * sent.length
  · rw [messageBit_reflected hin, messageBit_reflected (h.length.symm ▸ hin), h.length]
    exact hwindow _ (by omega)
  · rw [messageBit_beyond (Nat.le_of_not_lt hin), messageBit_beyond (by rw [h.length]; omega)]

theorem crc_reference_loop_ne {sent received : List UInt8} (h : Burst sent received) :
    received.foldl crc_reference_byte CRC32_TC18_INIT_XOROUT ≠
      sent.foldl crc_reference_byte CRC32_TC18_INIT_XOROUT := by
  obtain ⟨start, hwindow⟩ := h.coefficients
  have hconst : CRC32_TC18_POLY.toBitVec.getLsbD 0 = true := by decide
  have hlen : (reflected_words received).length = (reflected_words sent).length := by
    simp [reflected_words, h.length]
  intro hsame
  refine foldl_absorb_ne hconst (by decide) hlen (fun hwords => h.differ (reflected_words_inj hwords)) hwindow
    CRC32_TC18_INIT_XOROUT.toBitVec ?_
  rw [reflected_words, reflected_words, ← crc_reference_loop_toBitVec, ← crc_reference_loop_toBitVec, hsame]

/-- A burst of at most 32 bits changes the CRC, so the check refuses what it makes of any coverage buffer. -/
theorem bursts_detected {sent received : List UInt8} (h : Burst sent received) :
    crc32_tc18 received ≠ crc32_tc18 sent ∧ ∀ rx_enforce_e2e,
      check_rx_enforce_e2e received (crc32_tc18 sent) rx_enforce_e2e =
        .error (.CrcError, e2e_failure_scope rx_enforce_e2e) := by
  have hne : crc32_tc18 received ≠ crc32_tc18 sent := by
    intro hsame
    rw [crc32_tc18, crc32_tc18, UInt32.xor_left_inj, ← reverse_bits_loop, ← reverse_bits_loop] at hsame
    refine crc_reference_loop_ne h (UInt32.toBitVec_inj.1 ?_)
    have hbits := congrArg (fun crc : UInt32 => crc.toBitVec.reverse) hsame
    simpa [reverse_bits] using hbits
  exact ⟨hne, fun rx_enforce_e2e => if_neg hne⟩

/-- Three octets, and a bit of the second one changed. -/
theorem bursts_detected_bit :
    check_rx_enforce_e2e [0, 4, 0] (crc32_tc18 [0, 0, 0]) true = .error (.CrcError, .LatchStream) :=
  (bursts_detected (@burst_of_octet [0, 0, 0] 1 (by decide) 4 (by decide))).2 true

end RustRcp
