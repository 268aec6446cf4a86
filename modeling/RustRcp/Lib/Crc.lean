import Mathlib
/-!
# Cyclic redundancy checks

A shift register of any width in both orientations, the polynomial over the field of
two elements that a register stands for, and what feeding words to a register does to
that polynomial: the remainder of a division (`toPoly_foldl_absorb`). A burst of errors
no longer than the register is never lost in it (`foldl_absorb_ne`).
-/
open Polynomial

namespace Crc

variable {w k : Nat}

/-! ## Two orientations -/

/-- A bit shifted out at the top. -/
def shiftOut (poly crc : BitVec w) : BitVec w := if crc.msb then (crc <<< 1) ^^^ poly else crc <<< 1

/-- A bit shifted out at the bottom. -/
def shiftOutLow (poly crc : BitVec w) : BitVec w := if crc.getLsbD 0 then (crc >>> 1) ^^^ poly else crc >>> 1

/-- A word taken in at the top of the register. -/
def absorb (poly crc : BitVec w) (v : BitVec k) : BitVec w :=
  (shiftOut poly)^[k] (crc ^^^ (v.setWidth w <<< (w - k)))

/-- A word taken in at the bottom. -/
def absorbLow (poly crc : BitVec w) (v : BitVec k) : BitVec w := (shiftOutLow poly)^[k] (crc ^^^ v.setWidth w)

theorem reverse_xor (x y : BitVec w) : (x ^^^ y).reverse = x.reverse ^^^ y.reverse := by
  apply BitVec.eq_of_getLsbD_eq
  intro i hi
  simp [BitVec.getLsbD_reverse]

theorem reverse_shiftLeft (x : BitVec w) (n : Nat) : (x <<< n).reverse = x.reverse >>> n := by
  apply BitVec.eq_of_getLsbD_eq
  intro i hi
  simp [BitVec.getLsbD_reverse, Nat.add_comm]

/-- Left-aligned in one orientation is right-aligned in the other. -/
theorem reverse_align (v : BitVec k) (h : k ≤ w) :
    (v.reverse.setWidth w <<< (w - k)).reverse = v.setWidth w := by
  apply BitVec.eq_of_getLsbD_eq
  intro i hi
  rw [BitVec.getLsbD_reverse, BitVec.getMsbD_eq_getLsbD, BitVec.getLsbD_shiftLeft, BitVec.getLsbD_setWidth,
    BitVec.getLsbD_reverse, BitVec.getLsbD_setWidth, BitVec.getMsbD_eq_getLsbD]
  by_cases hk : i < k
  · have hge : ¬ w - 1 - i < w - k := by omega
    have hlt : w - 1 - i - (w - k) < k := by omega
    have hsub : k - 1 - (w - 1 - i - (w - k)) = i := by omega
    simp [hi, hge, hlt, hsub, show w - 1 - i < w by omega, show w - 1 - i - (w - k) < w by omega]
  · have hlow : w - 1 - i < w - k := by omega
    simp [hlow, BitVec.getLsbD_of_ge v i (by omega)]

theorem reverse_shiftOut (poly crc : BitVec w) :
    (shiftOut poly crc).reverse = shiftOutLow poly.reverse crc.reverse := by
  unfold shiftOut shiftOutLow
  rw [BitVec.getLsbD_reverse, ← BitVec.msb]
  split
  · rw [reverse_xor, reverse_shiftLeft]
  · rw [reverse_shiftLeft]

theorem reverse_iterate (poly crc : BitVec w) (n : Nat) :
    ((shiftOut poly)^[n] crc).reverse = (shiftOutLow poly.reverse)^[n] crc.reverse :=
  (Function.Semiconj.iterate_right (reverse_shiftOut poly) n).eq crc

theorem reverse_absorb (poly crc : BitVec w) (v : BitVec k) (h : k ≤ w) :
    (absorb poly crc v.reverse).reverse = absorbLow poly.reverse crc.reverse v := by
  unfold absorb absorbLow
  rw [reverse_iterate, reverse_xor, reverse_align v h]

/-- The two registers mirror each other over a whole message whose words are mirrored. -/
theorem reverse_foldl_absorb (poly : BitVec w) (h : k ≤ w) (vs : List (BitVec k)) (crc : BitVec w) :
    ((vs.map BitVec.reverse).foldl (absorb poly) crc).reverse = vs.foldl (absorbLow poly.reverse) crc.reverse := by
  induction vs generalizing crc with
  | nil => rfl
  | cons v vs ih => rw [List.map_cons, List.foldl_cons, List.foldl_cons, ih, reverse_absorb poly crc v h]

/-! ## Polynomials -/

/-- The polynomial whose coefficients are the bits. -/
noncomputable def toPoly (x : BitVec w) : (ZMod 2)[X] :=
  ∑ i ∈ Finset.range w, if x.getLsbD i then X ^ i else 0

theorem coeff_toPoly (x : BitVec w) (i : Nat) : (toPoly x).coeff i = if x.getLsbD i then 1 else 0 := by
  have hcoeff (j : Nat) : (if x.getLsbD j then (X : (ZMod 2)[X]) ^ j else 0).coeff i =
      if j = i then if x.getLsbD i then 1 else 0 else 0 := by
    by_cases hj : j = i
    · subst hj
      cases x.getLsbD j <;> simp
    · cases x.getLsbD j <;> simp [coeff_X_pow, hj, Ne.symm hj]
  simp only [toPoly, finsetSum_coeff, hcoeff, Finset.sum_ite_eq', Finset.mem_range]
  by_cases hi : i < w
  · rw [if_pos hi]
  · rw [if_neg hi, BitVec.getLsbD_of_ge x i (by omega)]
    rfl

theorem degree_toPoly_lt (x : BitVec w) : (toPoly x).degree < w := by
  rw [degree_lt_iff_coeff_zero]
  intro i hi
  rw [coeff_toPoly, BitVec.getLsbD_of_ge x i (by exact_mod_cast hi)]
  rfl

theorem toPoly_xor (x y : BitVec w) : toPoly (x ^^^ y) = toPoly x + toPoly y := by
  ext i
  rw [coeff_add, coeff_toPoly, coeff_toPoly, coeff_toPoly, BitVec.getLsbD_xor]
  cases x.getLsbD i <;> cases y.getLsbD i <;> decide

/-- Multiplying by `X` moves the bits up, and the top one out of the register. -/
theorem X_mul_toPoly (x : BitVec w) : X * toPoly x = toPoly (x <<< 1) + if x.msb then X ^ w else 0 := by
  ext i
  rw [coeff_add, coeff_toPoly, BitVec.getLsbD_shiftLeft]
  have hmsb : (if x.msb then (X : (ZMod 2)[X]) ^ w else 0).coeff i =
      if i = w then if x.msb then 1 else 0 else 0 := by
    by_cases hi : i = w
    · subst hi
      cases x.msb <;> simp
    · cases x.msb <;> simp [coeff_X_pow, hi]
  rw [hmsb]
  cases i with
  | zero =>
    rw [coeff_X_mul_zero]
    by_cases hw : 0 = w
    · subst hw
      simp [BitVec.msb, BitVec.getMsbD_of_ge]
    · simp [hw]
  | succ i =>
    rw [coeff_X_mul, coeff_toPoly]
    rcases Nat.lt_trichotomy (i + 1) w with hi | hi | hi
    · simp [hi, hi.ne]
    · subst hi
      simp [BitVec.msb_eq_getLsbD_last]
    · rw [BitVec.getLsbD_of_ge x i (by omega)]
      simp [hi.ne', Nat.not_lt.2 hi.le]

theorem toPoly_align (v : BitVec k) (h : k ≤ w) :
    toPoly (v.setWidth w <<< (w - k)) = X ^ (w - k) * toPoly v := by
  ext i
  rw [coeff_X_pow_mul', coeff_toPoly, coeff_toPoly, BitVec.getLsbD_shiftLeft, BitVec.getLsbD_setWidth]
  by_cases hi : w - k ≤ i
  · by_cases hw : i < w
    · simp [hi, hw, Nat.not_lt.2 hi, show i - (w - k) < w by omega]
    · rw [BitVec.getLsbD_of_ge v (i - (w - k)) (by omega)]
      simp
  · simp [hi, Nat.lt_of_not_le hi]

/-- The divisor a register of width `w` divides by. -/
noncomputable def generator (poly : BitVec w) : (ZMod 2)[X] := X ^ w + toPoly poly

theorem generator_monic (poly : BitVec w) : (generator poly).Monic := monic_X_pow_add (degree_toPoly_lt poly)

theorem degree_generator (poly : BitVec w) : (generator poly).degree = w := by
  unfold generator
  rw [degree_add_eq_left_of_degree_lt] <;> rw [degree_X_pow]
  exact degree_toPoly_lt poly

/-! ## Division -/

/-- One bit: multiply by `X`, and take the divisor away where the top bit leaves. -/
theorem toPoly_shiftOut (poly crc : BitVec w) :
    X * toPoly crc = toPoly (shiftOut poly crc) + if crc.msb then generator poly else 0 := by
  rw [X_mul_toPoly, shiftOut, generator]
  cases crc.msb
  · simp
  · simp only [if_true, toPoly_xor]
    rw [add_assoc, add_left_comm (toPoly poly), CharTwo.add_self_eq_zero, add_zero]

theorem dvd_shiftOut (poly crc : BitVec w) : generator poly ∣ X * toPoly crc - toPoly (shiftOut poly crc) := by
  rw [toPoly_shiftOut poly crc, add_sub_cancel_left]
  split
  · exact dvd_rfl
  · exact dvd_zero _

theorem dvd_iterate (poly crc : BitVec w) (n : Nat) :
    generator poly ∣ X ^ n * toPoly crc - toPoly ((shiftOut poly)^[n] crc) := by
  induction n with
  | zero => simp
  | succ n ih =>
    rw [Function.iterate_succ_apply']
    have hstep := dvd_shiftOut poly ((shiftOut poly)^[n] crc)
    convert dvd_add (Dvd.dvd.mul_left ih X) hstep using 1
    ring

theorem dvd_absorb (poly crc : BitVec w) (v : BitVec k) (h : k ≤ w) :
    generator poly ∣ X ^ k * toPoly crc + X ^ w * toPoly v - toPoly (absorb poly crc v) := by
  have hpow : (X : (ZMod 2)[X]) ^ w = X ^ k * X ^ (w - k) := by rw [← pow_add, Nat.add_sub_cancel' h]
  have hdvd := dvd_iterate poly (crc ^^^ (v.setWidth w <<< (w - k))) k
  rwa [toPoly_xor, toPoly_align v h, mul_add, ← mul_assoc, ← hpow] at hdvd

/-- The polynomial a message spells, its first word highest. -/
noncomputable def message (vs : List (BitVec k)) : (ZMod 2)[X] := vs.foldl (fun p v => X ^ k * p + toPoly v) 0

theorem message_concat (vs : List (BitVec k)) (v : BitVec k) :
    message (vs ++ [v]) = X ^ k * message vs + toPoly v := List.foldl_concat ..

theorem dvd_foldl_absorb (poly crc : BitVec w) (h : k ≤ w) (vs : List (BitVec k)) :
    generator poly ∣ X ^ w * message vs + X ^ (k * vs.length) * toPoly crc -
      toPoly (vs.foldl (absorb poly) crc) := by
  induction vs using List.reverseRecOn with
  | nil => simp [message]
  | append_singleton vs v ih =>
    rw [List.foldl_concat, message_concat, List.length_append, List.length_singleton]
    have hword := dvd_absorb poly (vs.foldl (absorb poly) crc) v h
    convert dvd_add (Dvd.dvd.mul_left ih (X ^ k)) hword using 1
    ring

/-- A register ends as the remainder of the message, shifted up by its width, after what it began with. -/
theorem toPoly_foldl_absorb (poly crc : BitVec w) (h : k ≤ w) (vs : List (BitVec k)) :
    toPoly (vs.foldl (absorb poly) crc) =
      (X ^ w * message vs + X ^ (k * vs.length) * toPoly crc) %ₘ generator poly := by
  have hsmall : toPoly (vs.foldl (absorb poly) crc) %ₘ generator poly = toPoly (vs.foldl (absorb poly) crc) := by
    rw [modByMonic_eq_self_iff (generator_monic poly), degree_generator]
    exact degree_toPoly_lt _
  rw [← hsmall]
  exact (modByMonic_eq_of_dvd_sub (generator_monic poly) (dvd_foldl_absorb poly crc h vs)).symm

/-! ## Errors -/

/-- The bit of a message that is the coefficient of `X ^ i`: counted from the last word's lowest bit. -/
def messageBit (vs : List (BitVec k)) (i : Nat) : Bool := (vs.reverse.getD (i / k) 0).getLsbD (i % k)

theorem messageBit_concat (vs : List (BitVec k)) (v : BitVec k) (i : Nat) :
    messageBit (vs ++ [v]) i = if i < k then v.getLsbD i else messageBit vs (i - k) := by
  unfold messageBit
  rw [List.reverse_append, List.reverse_singleton, List.singleton_append]
  split_ifs with hi
  · rw [Nat.div_eq_of_lt hi, Nat.mod_eq_of_lt hi, List.getD_cons_zero]
  · rcases Nat.eq_zero_or_pos k with rfl | hk
    · rw [BitVec.getLsbD_of_ge _ _ (Nat.zero_le _), BitVec.getLsbD_of_ge _ _ (Nat.zero_le _)]
    · obtain ⟨j, rfl⟩ := Nat.exists_eq_add_of_le (Nat.le_of_not_lt hi)
      rw [Nat.add_div_left j hk, Nat.add_mod_left, Nat.add_sub_cancel_left, List.getD_cons_succ]

theorem coeff_message (vs : List (BitVec k)) (i : Nat) :
    (message vs).coeff i = if messageBit vs i then 1 else 0 := by
  induction vs using List.reverseRecOn generalizing i with
  | nil => simp [message, messageBit]
  | append_singleton vs v ih =>
    rw [message_concat, messageBit_concat, coeff_add, coeff_X_pow_mul', coeff_toPoly]
    by_cases hi : i < k
    · rw [if_neg (Nat.not_le.2 hi), if_pos hi, zero_add]
    · rw [if_pos (Nat.le_of_not_lt hi), if_neg hi, BitVec.getLsbD_of_ge v i (Nat.le_of_not_lt hi), ih]
      simp

/-- The bits tell messages of one length apart. -/
theorem eq_of_messageBit {vs vs' : List (BitVec k)} (hlen : vs.length = vs'.length)
    (h : ∀ i, messageBit vs i = messageBit vs' i) : vs = vs' := by
  induction vs using List.reverseRecOn generalizing vs' with
  | nil => exact (List.length_eq_zero_iff.1 hlen.symm).symm
  | append_singleton vs v ih =>
    rcases List.eq_nil_or_concat vs' with rfl | ⟨vs', v', rfl⟩
    · simp at hlen
    · rw [List.concat_eq_append] at hlen h ⊢
      have hlast : v = v' := by
        apply BitVec.eq_of_getLsbD_eq
        intro i hi
        simpa [messageBit_concat, hi] using h i
      have hrest : vs = vs' := by
        refine ih (by simpa using hlen) fun i => ?_
        simpa [messageBit_concat] using h (k + i)
      rw [hlast, hrest]

theorem message_inj {vs vs' : List (BitVec k)} (hlen : vs.length = vs'.length) (h : message vs = message vs') :
    vs = vs' := by
  refine eq_of_messageBit hlen fun i => ?_
  have hcoeff := congrArg (coeff · i) h
  simp only [coeff_message] at hcoeff
  cases hi : messageBit vs i <;> cases hi' : messageBit vs' i <;> simp [hi, hi'] at hcoeff ⊢

/-- A divisor with a constant term has no factor `X`. -/
theorem generator_coprime {poly : BitVec w} (h : poly.getLsbD 0 = true) (n : Nat) :
    IsCoprime (generator poly) (X ^ n) := by
  have hw : 0 < w := BitVec.lt_of_getLsbD h
  have hconst : (generator poly).coeff 0 = 1 := by
    rw [generator, coeff_add, coeff_X_pow, if_neg hw.ne, coeff_toPoly, h, if_pos rfl, zero_add]
  have hndvd : ¬ (X : (ZMod 2)[X]) ∣ generator poly := by
    rw [X_dvd_iff, hconst]
    exact one_ne_zero
  exact ((irreducible_X.coprime_iff_not_dvd).2 hndvd).symm.pow_right

/-- Registers that end alike have divided messages of one length with one remainder. -/
theorem dvd_message_sub {poly crc : BitVec w} (h : k ≤ w) {vs vs' : List (BitVec k)} (hlen : vs.length = vs'.length)
    (hsame : vs.foldl (absorb poly) crc = vs'.foldl (absorb poly) crc) :
    generator poly ∣ X ^ w * (message vs - message vs') := by
  have hdvd := dvd_sub (dvd_foldl_absorb poly crc h vs) (dvd_foldl_absorb poly crc h vs')
  rw [hsame, hlen] at hdvd
  convert hdvd using 1
  ring

/-- A burst no longer than the register changes what it ends as. -/
theorem foldl_absorb_ne {poly : BitVec w} (hconst : poly.getLsbD 0 = true) (h : k ≤ w) {vs vs' : List (BitVec k)}
    (hlen : vs.length = vs'.length) (hne : vs ≠ vs') {start : Nat}
    (hburst : ∀ i, i < start ∨ start + w ≤ i → messageBit vs i = messageBit vs' i) (crc : BitVec w) :
    vs.foldl (absorb poly) crc ≠ vs'.foldl (absorb poly) crc := by
  intro hsame
  have houtside : ∀ i, i < start ∨ start + w ≤ i → (message vs - message vs').coeff i = 0 := by
    intro i hi
    rw [coeff_sub, coeff_message, coeff_message, hburst i hi, sub_self]
  obtain ⟨burst, heq⟩ : X ^ start ∣ message vs - message vs' :=
    X_pow_dvd_iff.2 fun i hi => houtside i (.inl hi)
  have hsmall : burst.degree < (generator poly).degree := by
    rw [degree_generator, degree_lt_iff_coeff_zero]
    intro i hi
    have hi' : w ≤ i := by exact_mod_cast hi
    have := houtside (i + start) (.inr (by omega))
    rwa [heq, coeff_X_pow_mul] at this
  -- the divisor has no factor in common with the shifts, so it would divide the burst itself
  have hdvd : generator poly ∣ burst := by
    have hshifted := dvd_message_sub h hlen hsame
    rw [heq] at hshifted
    have hunshifted := (generator_coprime hconst w).dvd_of_dvd_mul_left hshifted
    exact (generator_coprime hconst start).dvd_of_dvd_mul_left hunshifted
  have hzero : message vs - message vs' = 0 := by rw [heq, eq_zero_of_dvd_of_degree_lt hdvd hsmall, mul_zero]
  exact hne (message_inj hlen (sub_eq_zero.1 hzero))

end Crc
