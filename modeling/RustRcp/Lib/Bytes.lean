import Mathlib.Data.Nat.Bitwise
import Mathlib.Tactic.Ring
import Mathlib.Tactic.Positivity
/-!
# Bytes and the words they spell

Big-endian words of any width, the two octets of a 16-bit word, and a way to
settle a fact about one octet by looking at all of its values.
-/

namespace Bytes

/-! ## Big-endian words -/

/-- The low `n` bytes of `v`, most significant first. -/
def be : Nat → Nat → List UInt8
  | 0, _ => []
  | n + 1, v => UInt8.ofNat (v / 256 ^ n) :: be n v

/-- The number big-endian bytes spell. -/
def ofBe : List UInt8 → Nat
  | [] => 0
  | b :: l => b.toNat * 256 ^ l.length + ofBe l

@[simp]
theorem be_length (n v : Nat) : (be n v).length = n := by
  induction n with
  | zero => rfl
  | succ n ih => simp [be, ih]

theorem ofBe_be (n v : Nat) : ofBe (be n v) = v % 256 ^ n := by
  induction n with
  | zero => simp [be, ofBe, Nat.mod_one]
  | succ n ih =>
    rw [Nat.mod_pow_succ, be, ofBe, be_length, ih, UInt8.toNat_ofNat', Nat.mul_comm, Nat.add_comm]

theorem ofBe_be_of_lt {n v : Nat} (h : v < 256 ^ n) : ofBe (be n v) = v := by
  rw [ofBe_be, Nat.mod_eq_of_lt h]

theorem ofBe_lt (l : List UInt8) : ofBe l < 256 ^ l.length := by
  induction l with
  | nil => simp [ofBe]
  | cons b l ih =>
    have hb : b.toNat * 256 ^ l.length ≤ 255 * 256 ^ l.length :=
      Nat.mul_le_mul_right _ (by have := b.toNat_lt; omega)
    simp only [ofBe, List.length_cons, Nat.pow_succ]
    omega

theorem ofBe_append (l m : List UInt8) : ofBe (l ++ m) = ofBe l * 256 ^ m.length + ofBe m := by
  induction l with
  | nil => simp [ofBe]
  | cons b l ih =>
    simp only [List.cons_append, ofBe, ih, List.length_append, Nat.pow_add]
    ring

/-- What lies above the low `n` bytes does not show in them. -/
theorem be_add_mul (n v k : Nat) : be n (v + k * 256 ^ n) = be n v := by
  induction n generalizing k with
  | zero => rfl
  | succ n ih =>
    have hsplit : v + k * 256 ^ (n + 1) = v + (k * 256) * 256 ^ n := by ring
    have hdiv : (v + (k * 256) * 256 ^ n) / 256 ^ n = v / 256 ^ n + k * 256 :=
      Nat.add_mul_div_right _ _ (by positivity)
    simp only [be, hsplit, hdiv, ih]
    congr 1
    apply UInt8.toNat_inj.mp
    simp

theorem be_ofBe (l : List UInt8) : be l.length (ofBe l) = l := by
  induction l with
  | nil => rfl
  | cons b l ih =>
    have hlow : (b.toNat * 256 ^ l.length + ofBe l) / 256 ^ l.length = b.toNat := by
      rw [Nat.add_comm, Nat.add_mul_div_right _ _ (by positivity), Nat.div_eq_of_lt (ofBe_lt l)]
      omega
    simp only [List.length_cons, be, ofBe, hlow, UInt8.ofNat_toNat]
    rw [Nat.add_comm, be_add_mul, ih]

/-- Octets read as a word are the octets the word is written as. -/
theorem be_ofBe_take {n : Nat} {l : List UInt8} (h : n ≤ l.length) : be n (ofBe (l.take n)) = l.take n := by
  have hlen : (l.take n).length = n := List.length_take_of_le h
  calc be n (ofBe (l.take n)) = be (l.take n).length (ofBe (l.take n)) := by rw [hlen]
    _ = l.take n := be_ofBe _

theorem ofBe_take_lt (n : Nat) (l : List UInt8) : ofBe (l.take n) < 256 ^ n :=
  Nat.lt_of_lt_of_le (ofBe_lt _) (Nat.pow_le_pow_right (by decide) (List.length_take_le n l))

/-- A field below those there are is added. -/
theorem or_eq_add {above above' low k : Nat} (h : above = above') (habove : 2 ^ k ∣ above') (hlow : low < 2 ^ k) :
    above ||| low = above' + low := by
  obtain ⟨a, rfl⟩ := habove
  rw [h, Nat.two_pow_add_eq_or_of_lt hlow a]

/-! ## The two octets of a 16-bit word -/

theorem join_toNat (hi lo : UInt8) :
    ((hi.toUInt16 <<< 8) ||| lo.toUInt16).toNat = hi.toNat * 256 + lo.toNat := by
  have hlo := lo.toNat_lt
  have hhi := hi.toNat_lt
  have hshift : (hi.toUInt16 <<< 8).toNat = 2 ^ 8 * hi.toNat := by
    simp [Nat.shiftLeft_eq]
    omega
  rw [UInt16.toNat_or, hshift, UInt8.toNat_toUInt16, ← Nat.two_pow_add_eq_or_of_lt hlo]
  omega

theorem low_toNat (x : UInt16) : (x &&& 0xFF).toUInt8.toNat = x.toNat % 256 := by
  have h : (x &&& 0xFF).toNat = x.toNat % 256 := by
    simpa using Nat.and_two_pow_sub_one_eq_mod x.toNat 8
  rw [UInt16.toNat_toUInt8, h, Nat.mod_mod]

/-- The high octet of `x`, cut to the `k` bits `mask` keeps. -/
theorem high_toNat (x mask : UInt16) (k : Nat) (hk : k ≤ 8) (hmask : mask.toNat = 2 ^ k - 1) :
    ((x >>> 8) &&& mask).toUInt8.toNat = x.toNat / 256 % 2 ^ k := by
  have hp : 2 ^ k ≤ 2 ^ 8 := Nat.pow_le_pow_right (by omega) hk
  have hlt : x.toNat / 256 % 2 ^ k < 2 ^ k := Nat.mod_lt _ (by positivity)
  have h : ((x >>> 8) &&& mask).toNat = x.toNat / 256 % 2 ^ k := by
    rw [UInt16.toNat_and, hmask, Nat.and_two_pow_sub_one_eq_mod]
    simp [Nat.shiftRight_eq_div_pow]
  rw [UInt16.toNat_toUInt8, h, Nat.mod_eq_of_lt (by omega)]

/-- A word of at most `8 + k` bits is its two octets joined. -/
theorem join_split (x mask : UInt16) (k : Nat) (hk : k ≤ 8) (hmask : mask.toNat = 2 ^ k - 1)
    (hx : x.toNat < 2 ^ k * 256) :
    ((((x >>> 8) &&& mask).toUInt8.toUInt16 <<< 8) ||| (x &&& 0xFF).toUInt8.toUInt16) = x := by
  have hdiv : x.toNat / 256 < 2 ^ k := Nat.div_lt_of_lt_mul (by omega)
  apply UInt16.toNat_inj.mp
  rw [join_toNat, high_toNat x mask k hk hmask, low_toNat, Nat.mod_eq_of_lt hdiv]
  omega

/-- The octets a joined word splits into. -/
theorem high_join (hi lo : UInt8) (mask : UInt16) (k : Nat) (hk : k ≤ 8) (hmask : mask.toNat = 2 ^ k - 1)
    (hhi : hi.toNat < 2 ^ k) :
    ((((hi.toUInt16 <<< 8) ||| lo.toUInt16) >>> 8) &&& mask).toUInt8 = hi := by
  have hlo := lo.toNat_lt
  have hdiv : (hi.toNat * 256 + lo.toNat) / 256 = hi.toNat := by omega
  apply UInt8.toNat_inj.mp
  rw [high_toNat _ mask k hk hmask, join_toNat, hdiv, Nat.mod_eq_of_lt hhi]

theorem low_join (hi lo : UInt8) : (((hi.toUInt16 <<< 8) ||| lo.toUInt16) &&& 0xFF).toUInt8 = lo := by
  have hlo := lo.toNat_lt
  apply UInt8.toNat_inj.mp
  rw [low_toNat, join_toNat]
  omega

theorem top_join (hi lo : UInt8) : (((hi.toUInt16 <<< 8) ||| lo.toUInt16) >>> 8).toUInt8 = hi := by
  have hlo := lo.toNat_lt
  have hhi := hi.toNat_lt
  apply UInt8.toNat_inj.mp
  rw [UInt16.toNat_toUInt8, UInt16.toNat_shiftRight, join_toNat, Nat.shiftRight_eq_div_pow]
  simp
  omega

/-! ## One octet at a time -/

/-- A fact about an octet below `n` holds when it holds of the first `n` values. -/
theorem forall_lt {P : UInt8 → Prop} (n : Nat) (h : ∀ i : Fin n, P (UInt8.ofNat i)) :
    ∀ b : UInt8, b.toNat < n → P b := by
  intro b hb
  simpa using h ⟨b.toNat, hb⟩

theorem forall_byte {P : UInt8 → Prop} (h : ∀ i : Fin 256, P (UInt8.ofNat i)) (b : UInt8) : P b :=
  forall_lt 256 h b b.toNat_lt

end Bytes
