import RustRcp.Lib.Crc
/-!
# The distance of a cyclic code

A register computes in the field that a root of its divisor lies in (`value_evaluate`), so
powers and orders there are checked by running registers. Multiples of a divisor with the
roots `1` and `α`, shorter than the order of `α`, have at least four terms, and with the root
`α ^ 5` six (`detects_three`, `detects_five`): what that says of messages is `eq_of_few`.
-/
open Polynomial

namespace Crc

variable {K : Type*} [Field K]

/-! ## Registers as elements of a field -/

section Register

variable [Algebra (ZMod 2) K] {w k : Nat} {poly : BitVec w} {α : K}

/-- What a register stands for at `α`. -/
noncomputable def value (α : K) (x : BitVec w) : K := aeval α (toPoly x)

theorem value_xor (x y : BitVec w) : value α (x ^^^ y) = value α x + value α y := by
  rw [value, toPoly_xor, map_add]
  rfl

theorem value_zero : value α 0#w = 0 := by simp [value, toPoly]

theorem value_one (hw : 0 < w) : value α 1#w = 1 := by
  have hpoly : toPoly 1#w = 1 := by
    ext i
    rw [coeff_toPoly, coeff_one, BitVec.getLsbD_one]
    simp [hw]
  rw [value, hpoly, map_one]

/-- Shifting is multiplying by a root of the divisor. -/
theorem value_iterate (hα : aeval α (generator poly) = 0) (n : Nat) (x : BitVec w) :
    value α ((shiftOut poly)^[n] x) = α ^ n * value α x := by
  obtain ⟨q, hq⟩ := dvd_iterate poly x n
  have hvalue := congrArg (aeval α) hq
  rw [map_sub, map_mul, map_mul, map_pow, aeval_X, hα, zero_mul, sub_eq_zero] at hvalue
  exact hvalue.symm

/-- The bits of `x`, each at a power of the root that counts in `step`s, times `v`. -/
def evaluate (poly : BitVec w) (step : Nat) (x : BitVec k) (v : BitVec w) : BitVec w :=
  (List.range k).foldl (fun sum i => if x.getLsbD i then sum ^^^ (shiftOut poly)^[step * i] v else sum) 0#w

theorem value_evaluate (hα : aeval α (generator poly) = 0) (step : Nat) (x : BitVec k) (v : BitVec w) :
    value α (evaluate poly step x v) = aeval (α ^ step) (toPoly x) * value α v := by
  have hsum (n : Nat) : value α ((List.range n).foldl (fun sum i =>
      if x.getLsbD i then sum ^^^ (shiftOut poly)^[step * i] v else sum) 0#w) =
      aeval (α ^ step) (∑ i ∈ Finset.range n, if x.getLsbD i then (X : (ZMod 2)[X]) ^ i else 0) * value α v := by
    induction n with
    | zero => simp [value_zero]
    | succ n ih =>
      rw [List.range_succ, List.foldl_concat, Finset.sum_range_succ, map_add, add_mul, ← ih]
      split
      · rw [value_xor, value_iterate hα, map_pow, aeval_X, pow_mul]
      · rw [map_zero, zero_mul, add_zero]
  exact hsum k

/-- A divisor that leaves no remainder has the root, or its power. -/
theorem root_of_evaluate [CharP K 2] (hα : aeval α (generator poly) = 0) (hw : 0 < w) {step : Nat} {g : BitVec k}
    (h : evaluate poly step g 1#w = (shiftOut poly)^[step * k] 1#w) : aeval (α ^ step) (generator g) = 0 := by
  have hvalue := congrArg (value α) h
  rw [value_evaluate hα, value_iterate hα, value_one hw, mul_one, mul_one, pow_mul] at hvalue
  rw [generator, map_add, map_pow, aeval_X, hvalue, CharTwo.add_self_eq_zero]

/-- A divisor has the root `1` where its bits, at a register of one bit, leave nothing. -/
theorem root_one [CharP K 2] {g : BitVec k} (h : evaluate 1#1 1 g 1#1 = (shiftOut 1#1)^[1 * k] 1#1) :
    aeval (1 : K) (generator g) = 0 := by
  have hone : aeval (1 : K) (generator 1#1) = 0 := by
    have hvalue : value (1 : K) 1#1 = 1 := value_one (by decide)
    rw [generator, map_add, map_pow, aeval_X, one_pow, ← value, hvalue, CharTwo.add_self_eq_zero]
  simpa using root_of_evaluate hone (by decide) h

/-- Squaring spreads the bits. -/
def square (poly x : BitVec w) : BitVec w := evaluate poly 2 x 1#w

theorem value_square (hα : aeval α (generator poly) = 0) (hw : 0 < w) (x : BitVec w) :
    value α (square poly x) = value α x ^ 2 := by
  rw [square, value_evaluate hα, value_one hw, mul_one, ← expand_aeval, ZMod.expand_card, map_pow]
  rfl

/-- The `n`th power of the root, for exponents of so many binary digits. -/
def power (poly : BitVec w) : (digits n : Nat) → BitVec w
  | 0, _ => 1#w
  | digits + 1, n =>
    let half := square poly (power poly digits (n / 2))
    if n % 2 = 1 then shiftOut poly half else half

theorem value_power (hα : aeval α (generator poly) = 0) (hw : 0 < w) {digits n : Nat} (h : n < 2 ^ digits) :
    value α (power poly digits n) = α ^ n := by
  induction digits generalizing n with
  | zero => rw [Nat.lt_one_iff.1 h, power, value_one hw, pow_zero]
  | succ digits ih =>
    have hhalf := ih (n := n / 2) (by rw [pow_succ] at h; omega)
    have hn := Nat.div_add_mod n 2
    rw [power]
    split_ifs with hodd
    · have hshift := value_iterate hα 1 (square poly (power poly digits (n / 2)))
      rw [Function.iterate_one, pow_one, value_square hα hw, hhalf, ← pow_mul, mul_comm _ 2, ← pow_succ'] at hshift
      rw [hshift, ← hodd, hn]
    · rw [value_square hα hw, hhalf, ← pow_mul, mul_comm]
      congr 1
      omega

/-- What has an inverse is not nothing. -/
theorem power_ne_one [CharP K 2] (hα : aeval α (generator poly) = 0) (hw : 0 < w) {digits n : Nat}
    (hn : n < 2 ^ digits) (inverse : BitVec w)
    (h : evaluate poly 1 inverse (power poly digits n ^^^ 1#w) = 1#w) : α ^ n ≠ 1 := by
  intro hone
  have hvalue := congrArg (value α) h
  rw [value_evaluate hα, value_xor, value_power hα hw hn, hone, value_one hw, CharTwo.add_self_eq_zero,
    mul_zero] at hvalue
  exact zero_ne_one hvalue

theorem exists_root (poly : BitVec w) (hw : 0 < w) : ∃ α : AlgebraicClosure (ZMod 2), aeval α (generator poly) = 0 :=
  IsAlgClosed.exists_aeval_eq_zero _ _ (by rw [degree_generator]; exact_mod_cast hw.ne')

end Register

/-! ## Roots of a short polynomial -/

section Roots

variable [CharP K 2]

/-- Four different elements whose sum and sum of fifth powers vanish have differences related by a cube root of one. -/
theorem four_fifths {a b c d : K} (hab : a ≠ b) (hbc : b ≠ c) (hca : c ≠ a) (hsum : a + b + c + d = 0)
    (hfifth : a ^ 5 + b ^ 5 + c ^ 5 + d ^ 5 = 0) : (a + b) ^ 2 + (a + b) * (a + c) + (a + c) ^ 2 = 0 := by
  have htwo : (2 : K) = 0 := CharTwo.two_eq_zero
  have hd : d = a + b + c := by linear_combination hsum - (a + b + c) * htwo
  have hproduct : (a + b) * (b + c) * (c + a) * ((a + b) ^ 2 + (a + b) * (a + c) + (a + c) ^ 2) = 0 := by
    subst hd
    linear_combination hfifth + ((a + b) * (b + c) * (c + a) * (a ^ 2 + a * b + a * c) -
      2 * ((a + b) * (b + c) * (c + a)) * (a ^ 2 + b ^ 2 + c ^ 2 + a * b + b * c + c * a) -
      (a ^ 5 + b ^ 5 + c ^ 5)) * htwo
  have hdiff {x y : K} (h : x ≠ y) : x + y ≠ 0 := fun hzero => h (CharTwo.add_eq_zero.1 hzero)
  simpa [hdiff hab, hdiff hbc, hdiff hca] using hproduct

/-- An element that an odd number of squarings leads back to itself is no cube root of one, but one. -/
theorem no_cube_root {s t : K} {n : Nat} (hodd : Odd n) (hs : s ^ 2 ^ n = s) (ht : t ^ 2 ^ n = t)
    (hs0 : s ≠ 0) : s ^ 2 + s * t + t ^ 2 ≠ 0 := by
  intro hzero
  obtain ⟨m, hm⟩ : ∃ m, 2 ^ n = 3 * m + 2 := by
    obtain ⟨j, rfl⟩ := hodd
    refine ⟨2 ^ (2 * j + 1) / 3, ?_⟩
    have hmod : 2 ^ (2 * j + 1) % 3 = 2 := by
      rw [pow_succ, pow_mul, Nat.mul_mod, Nat.pow_mod]
      simp
    exact (Nat.div_add_mod _ 3).symm.trans (by rw [hmod])
  have hcube : t ^ 3 = s ^ 3 := by linear_combination (t - s) * hzero
  have ht0 : t ≠ 0 := by
    rintro rfl
    exact hs0 (by simpa using hzero)
  rw [hm, pow_add, pow_mul] at hs ht
  rw [hcube] at ht
  -- both are the same power of the common cube times their own square
  have heq : s * t * (t - s) = 0 := by linear_combination s ^ 2 * ht - t ^ 2 * hs
  have hst : t = s := by simpa [hs0, ht0, sub_eq_zero] using heq
  subst hst
  refine hs0 (pow_eq_zero_iff (two_ne_zero) |>.1 ?_)
  linear_combination hzero - t ^ 2 * (CharTwo.two_eq_zero : (2 : K) = 0)

variable [Algebra (ZMod 2) K] {α : K} {f : (ZMod 2)[X]}

omit [CharP K 2] in
/-- A polynomial over the field of two elements is the sum of the powers it has. -/
theorem aeval_eq_sum_support (β : K) : aeval β f = ∑ i ∈ f.support, β ^ i := by
  rw [aeval_def, eval₂_eq_sum, sum_def]
  refine Finset.sum_congr rfl fun i hi => ?_
  have hone : ∀ bit : ZMod 2, bit ≠ 0 → bit = 1 := by decide
  rw [hone _ (mem_support_iff.1 hi), map_one, one_mul]

/-- A root at `1` makes the number of terms even. -/
theorem even_card_support (hone : aeval (1 : K) f = 0) : Even f.support.card := by
  rw [aeval_eq_sum_support] at hone
  simp only [one_pow, Finset.sum_const, nsmul_one] at hone
  exact even_iff_two_dvd.2 ((CharP.cast_eq_zero_iff K 2 _).1 hone)

section Spread

variable (hexponents : ∀ i ∈ f.support, i < orderOf α)
include hexponents

omit [CharP K 2] [Algebra (ZMod 2) K] in
/-- The powers of `α` tell the exponents of a short polynomial apart. -/
theorem pow_ne_pow {i j : Nat} (hi : i ∈ f.support) (hj : j ∈ f.support) (hij : i ≠ j) : α ^ i ≠ α ^ j := fun h =>
  hij (pow_injOn_Iio_orderOf (hexponents i hi) (hexponents j hj) h)

theorem card_support_ne_two (hroot : aeval α f = 0) : f.support.card ≠ 2 := by
  intro h2
  obtain ⟨i, j, hij, hsupport⟩ := Finset.card_eq_two.1 h2
  have hi : i ∈ f.support := by simp [hsupport]
  have hj : j ∈ f.support := by simp [hsupport]
  rw [aeval_eq_sum_support, hsupport, Finset.sum_pair hij] at hroot
  exact pow_ne_pow hexponents hi hj hij (CharTwo.add_eq_zero.1 hroot)

theorem card_support_ne_four {n : Nat} (hodd : Odd n) (hfix : α ^ 2 ^ n = α) (hroot : aeval α f = 0)
    (hfifth : aeval (α ^ 5) f = 0) : f.support.card ≠ 4 := by
  intro h4
  rw [aeval_eq_sum_support] at hroot hfifth
  obtain ⟨l, rest, hl, hinsert, hrest⟩ := Finset.card_eq_succ.1 h4
  obtain ⟨i, j, k, hij, hik, hjk, rfl⟩ := Finset.card_eq_three.1 hrest
  have hi : i ∈ f.support := by simp [← hinsert]
  have hj : j ∈ f.support := by simp [← hinsert]
  have hk : k ∈ f.support := by simp [← hinsert]
  have hfixed (i : Nat) : (α ^ i) ^ 2 ^ n = α ^ i := by rw [pow_right_comm, hfix]
  have hfixed_add (i j : Nat) : (α ^ i + α ^ j) ^ 2 ^ n = α ^ i + α ^ j := by
    rw [add_pow_char_pow, hfixed, hfixed]
  have hsum (step : Nat) : ∑ e ∈ f.support, (α ^ step) ^ e =
      (α ^ i) ^ step + (α ^ j) ^ step + (α ^ k) ^ step + (α ^ l) ^ step := by
    rw [← hinsert, Finset.sum_insert hl, Finset.sum_insert (by simp [hij, hik]), Finset.sum_pair hjk]
    simp only [pow_right_comm α step]
    ring
  have hne {i j : Nat} (hi : i ∈ f.support) (hj : j ∈ f.support) (hij : i ≠ j) := pow_ne_pow hexponents hi hj hij
  have hcube := four_fifths (hne hi hj hij) (hne hj hk hjk) (hne hk hi hik.symm)
    (by simpa using (hsum 1).symm.trans (by simpa using hroot)) ((hsum 5).symm.trans hfifth)
  exact no_cube_root hodd (hfixed_add i j) (hfixed_add i k) (fun h => hne hi hj hij (CharTwo.add_eq_zero.1 h)) hcube

end Spread

end Roots

/-! ## What a divisor detects -/

section Detects

variable {w : Nat} {poly : BitVec w}

/-- No multiple of the divisor has its terms below `X ^ length` and at most `errors` of them. -/
def Detects (poly : BitVec w) (length errors : Nat) : Prop :=
  ∀ f : (ZMod 2)[X], generator poly ∣ f → (∀ i ∈ f.support, i < length) → f.support.card ≤ errors → f = 0

variable [CharP K 2] [Algebra (ZMod 2) K] {α : K}

omit [CharP K 2] in
theorem root_of_dvd {β : K} {f : (ZMod 2)[X]} (hβ : aeval β (generator poly) = 0) (h : generator poly ∣ f) :
    aeval β f = 0 := by
  obtain ⟨q, rfl⟩ := h
  rw [map_mul, hβ, zero_mul]

/-- Three errors, for the roots `1` and `α`. -/
theorem detects_three (hone : aeval (1 : K) (generator poly) = 0) (hroot : aeval α (generator poly) = 0) :
    Detects poly (orderOf α) 3 := by
  intro f hdvd hexponents hfew
  obtain ⟨half, hhalf⟩ := even_card_support (root_of_dvd hone hdvd)
  have h2 := card_support_ne_two hexponents (root_of_dvd hroot hdvd)
  exact card_support_eq_zero.1 (by omega)

/-- Five, where `α ^ 5` is a root too and the field of `α` has no cube root of one but one. -/
theorem detects_five {n : Nat} (hodd : Odd n) (hfix : α ^ 2 ^ n = α) (hone : aeval (1 : K) (generator poly) = 0)
    (hroot : aeval α (generator poly) = 0) (hfifth : aeval (α ^ 5) (generator poly) = 0) :
    Detects poly (orderOf α) 5 := by
  intro f hdvd hexponents hfew
  obtain ⟨half, hhalf⟩ := even_card_support (root_of_dvd hone hdvd)
  have h2 := card_support_ne_two hexponents (root_of_dvd hroot hdvd)
  have h4 := card_support_ne_four hexponents hodd hfix (root_of_dvd hroot hdvd) (root_of_dvd hfifth hdvd)
  exact card_support_eq_zero.1 (by omega)

end Detects

/-! ## Few errors in a message -/

section Errors

variable {w k : Nat}

/-- How many bits are set. -/
def weight (x : BitVec w) : Nat := ((Finset.range w).filter fun i => x.getLsbD i).card

theorem support_toPoly (x : BitVec w) : (toPoly x).support = (Finset.range w).filter fun i => x.getLsbD i := by
  ext i
  rw [mem_support_iff, coeff_toPoly, Finset.mem_filter, Finset.mem_range]
  refine ⟨fun h => ?_, fun h => by simp [h.2]⟩
  have hi : x.getLsbD i = true := by
    by_contra hclear
    exact h (if_neg hclear)
  exact ⟨BitVec.lt_of_getLsbD hi, hi⟩

theorem card_support_toPoly (x : BitVec w) : (toPoly x).support.card = weight x := by rw [support_toPoly, weight]

theorem card_support_shift_le (n : Nat) (p : (ZMod 2)[X]) : (X ^ n * p).support.card ≤ p.support.card := by
  have hcoeff {i : Nat} (hi : i ∈ (X ^ n * p).support) : n ≤ i ∧ i - n ∈ p.support := by
    rw [mem_support_iff, coeff_X_pow_mul'] at hi
    split_ifs at hi with hn
    · exact ⟨hn, mem_support_iff.2 hi⟩
    · exact absurd rfl hi
  refine Finset.card_le_card_of_injOn (· - n) (fun i hi => (hcoeff hi).2) fun i hi j hj hij => ?_
  have hi := (hcoeff hi).1
  have hj := (hcoeff hj).1
  have hij : i - n = j - n := hij
  omega

theorem card_support_add_le (p q : (ZMod 2)[X]) : (p + q).support.card ≤ p.support.card + q.support.card :=
  (Finset.card_le_card support_add).trans (Finset.card_union_le _ _)

theorem weight_reverse_le (x : BitVec w) : weight x.reverse ≤ weight x := by
  have hbit {i : Nat} (hi : i ∈ (Finset.range w).filter fun i => x.reverse.getLsbD i) :
      i < w ∧ x.getLsbD (w - 1 - i) = true := by
    rw [Finset.mem_filter, Finset.mem_range, BitVec.getLsbD_reverse, BitVec.getMsbD_eq_getLsbD] at hi
    exact ⟨hi.1, (Bool.and_eq_true_iff.1 hi.2).2⟩
  refine Finset.card_le_card_of_injOn (w - 1 - ·) (fun i hi => ?_) fun i hi j hj hij => ?_
  · have hset := (hbit hi).2
    exact Finset.mem_filter.2 ⟨Finset.mem_range.2 (BitVec.lt_of_getLsbD hset), hset⟩
  · have hi := (hbit hi).1
    have hj := (hbit hj).1
    have hij : w - 1 - i = w - 1 - j := hij
    omega

theorem weight_append_le {v : Nat} (x : BitVec w) (y : BitVec v) : weight (x ++ y) ≤ weight x + weight y := by
  have hpoly : toPoly (x ++ y) = X ^ v * toPoly x + toPoly y := by
    ext i
    rw [coeff_add, coeff_X_pow_mul', coeff_toPoly, coeff_toPoly, coeff_toPoly, BitVec.getLsbD_append]
    by_cases hi : i < v
    · simp [hi, Nat.not_le.2 hi]
    · rw [BitVec.getLsbD_of_ge y i (Nat.le_of_not_lt hi)]
      simp [hi, Nat.le_of_not_lt hi]
  rw [← card_support_toPoly, hpoly, ← card_support_toPoly, ← card_support_toPoly]
  exact (card_support_add_le _ _).trans (Nat.add_le_add_right (card_support_shift_le _ _) _)

/-- What is added to both sides leaves their difference. -/
theorem xor_xor_same (x y mask : BitVec w) : x ^^^ mask ^^^ (y ^^^ mask) = x ^^^ y := by
  rw [BitVec.xor_comm y, BitVec.xor_assoc, ← BitVec.xor_assoc mask, BitVec.xor_self, BitVec.zero_xor]

theorem weight_and_le (x mask : BitVec w) : weight (x &&& mask) ≤ weight x := by
  refine Finset.card_le_card fun i hi => ?_
  rw [Finset.mem_filter, BitVec.getLsbD_and] at hi
  exact Finset.mem_filter.2 ⟨hi.1, (Bool.and_eq_true_iff.1 hi.2).1⟩

/-- In how many bits two messages differ. -/
def differing (vs vs' : List (BitVec k)) : Nat := (List.zipWith (fun v v' => weight (v ^^^ v')) vs vs').sum

theorem differing_append {vs vs' us us' : List (BitVec k)} (hlen : vs.length = vs'.length) :
    differing (vs ++ us) (vs' ++ us') = differing vs vs' + differing us us' := by
  rw [differing, List.zipWith_append hlen, List.sum_append]
  rfl

theorem card_support_message_sub {vs vs' : List (BitVec k)} (hlen : vs.length = vs'.length) :
    (message vs - message vs').support.card ≤ differing vs vs' := by
  induction vs using List.reverseRecOn generalizing vs' with
  | nil =>
    rw [List.length_eq_zero_iff.1 hlen.symm, sub_self]
    exact Nat.zero_le _
  | append_singleton vs v ih =>
    rcases List.eq_nil_or_concat vs' with rfl | ⟨vs', v', rfl⟩
    · simp at hlen
    · rw [List.concat_eq_append] at hlen ⊢
      have hlen' : vs.length = vs'.length := by simpa using hlen
      have hsplit : message (vs ++ [v]) - message (vs' ++ [v']) =
          X ^ k * (message vs - message vs') + toPoly (v ^^^ v') := by
        rw [message_concat, message_concat, toPoly_xor, ← CharTwo.sub_eq_add (toPoly v)]
        ring
      rw [hsplit, differing_append hlen']
      refine (card_support_add_le _ _).trans (Nat.add_le_add ?_ ?_)
      · exact (card_support_shift_le _ _).trans (ih hlen')
      · simp [card_support_toPoly, differing]

theorem coeff_message_beyond (vs : List (BitVec k)) {i : Nat} (hi : k * vs.length ≤ i) : (message vs).coeff i = 0 := by
  rw [coeff_message, messageBit]
  rcases Nat.eq_zero_or_pos k with rfl | hk
  · rw [BitVec.getLsbD_of_ge _ _ (Nat.zero_le _)]
    rfl
  · have hplace : vs.reverse.length ≤ i / k := by rwa [List.length_reverse, Nat.le_div_iff_mul_le hk, mul_comm]
    rw [List.getD_eq_default _ _ hplace]
    simp

/-- A message and the register it leaves differ from every other message and its register in more bits than the
divisor detects. -/
theorem eq_of_few {poly : BitVec w} {length errors : Nat} (hdetects : Detects poly length errors) (h : k ≤ w)
    {vs vs' : List (BitVec k)} (hlen : vs.length = vs'.length) (hfits : w + k * vs.length ≤ length) (crc : BitVec w)
    (hfew : differing vs vs' + weight (vs.foldl (absorb poly) crc ^^^ vs'.foldl (absorb poly) crc) ≤ errors) :
    vs = vs' := by
  let r := vs.foldl (absorb poly) crc
  let r' := vs'.foldl (absorb poly) crc
  let error := X ^ w * (message vs - message vs') + toPoly (r ^^^ r')
  have hcoeff {i : Nat} (hi : w + k * vs.length ≤ i) : error.coeff i = 0 := by
    have hw : w ≤ i := by omega
    rw [coeff_add, coeff_X_pow_mul', if_pos hw, coeff_sub, coeff_message_beyond vs (by omega),
      coeff_message_beyond vs' (by rw [← hlen]; omega), coeff_toPoly, BitVec.getLsbD_of_ge _ _ hw]
    simp
  have hdvd : generator poly ∣ error := by
    have hboth := dvd_sub (dvd_foldl_absorb poly crc h vs) (dvd_foldl_absorb poly crc h vs')
    rw [hlen] at hboth
    convert hboth using 1
    simp only [error, toPoly_xor]
    linear_combination toPoly r * (CharTwo.two_eq_zero : (2 : (ZMod 2)[X]) = 0)
  have hzero : error = 0 := by
    refine hdetects error hdvd (fun i hi => ?_) ?_
    · by_contra hlong
      exact mem_support_iff.1 hi (hcoeff (hfits.trans (Nat.le_of_not_lt hlong)))
    · refine (card_support_add_le _ _).trans (le_trans (Nat.add_le_add ?_ ?_) hfew)
      · exact (card_support_shift_le _ _).trans (card_support_message_sub hlen)
      · exact (card_support_toPoly _).le
  refine message_inj hlen (sub_eq_zero.1 ?_)
  ext i
  have hi := congrArg (coeff · (i + w)) hzero
  simp only [error, coeff_add, coeff_X_pow_mul, coeff_toPoly, BitVec.getLsbD_of_ge _ _ (Nat.le_add_left w i),
    coeff_zero] at hi
  simpa using hi

end Errors

end Crc
