import Mathlib.Order.Basic
/-!
# Counts that wrap

A count carried in a field that wraps, modulo some period. Two counts less than half a
period apart are compared by the distance between their fields (`distance_lt_iff`); comparing
the fields themselves tells the later count only within one period (`mod_lt_mod_iff`).
-/

namespace Serial

/-- Counts less than half a period apart are in one period, or in neighbouring ones. -/
theorem div_cases {half m n : Nat} (hbelow : m < n + half) (habove : n < m + half) :
    m / (2 * half) = n / (2 * half) ∨ m / (2 * half) + 1 = n / (2 * half) ∨ m / (2 * half) = n / (2 * half) + 1 := by
  have hpos : 0 < 2 * half := by omega
  have hup : n / (2 * half) ≤ m / (2 * half) + 1 := by
    rw [← Nat.add_div_right m hpos]
    exact Nat.div_le_div_right (by omega)
  have hdown : m / (2 * half) ≤ n / (2 * half) + 1 := by
    rw [← Nat.add_div_right n hpos]
    exact Nat.div_le_div_right (by omega)
  omega

/-- The field of the later count is less than half a period ahead of the other's. -/
theorem distance_lt_iff {half m n : Nat} (hbelow : m < n + half) (habove : n < m + half) :
    (n % (2 * half) + 2 * half - m % (2 * half)) % (2 * half) < half ↔ m ≤ n := by
  have hm := Nat.div_add_mod m (2 * half)
  have hn := Nat.div_add_mod n (2 * half)
  have hrm := Nat.mod_lt m (y := 2 * half) (by omega)
  have hrn := Nat.mod_lt n (y := 2 * half) (by omega)
  have hcases := div_cases hbelow habove
  generalize m / (2 * half) = qm, n / (2 * half) = qn, m % (2 * half) = rm, n % (2 * half) = rn at *
  -- a distance of a period or more counts as what it exceeds the period by
  have hover : 2 * half ≤ rn + 2 * half - rm → (rn + 2 * half - rm) % (2 * half) = rn - rm := by
    intro hle
    rw [Nat.mod_eq_sub_mod hle, Nat.mod_eq_of_lt (by omega)]
    omega
  have hunder : rn + 2 * half - rm < 2 * half → (rn + 2 * half - rm) % (2 * half) = rn + 2 * half - rm :=
    Nat.mod_eq_of_lt
  rcases hcases with hsame | hnext | hprev
  · rw [hsame] at hm
    omega
  · rw [← hnext, Nat.mul_succ] at hn
    omega
  · rw [hprev, Nat.mul_succ] at hm
    omega

/-- Of two counts less than a period apart the later one has the greater field when both are in one period. -/
theorem mod_lt_mod_iff {p m n : Nat} (hlater : m < n) (hnear : n < m + p) : m % p < n % p ↔ m / p = n / p := by
  have hp : 0 < p := by omega
  have hm := Nat.div_add_mod m p
  have hn := Nat.div_add_mod n p
  have hrm := Nat.mod_lt m hp
  have hrn := Nat.mod_lt n hp
  constructor
  · intro hlt
    rcases Nat.lt_trichotomy (m / p) (n / p) with hless | hsame | hless
    · have hstep := Nat.mul_le_mul_left p (Nat.succ_le_of_lt hless)
      rw [Nat.mul_succ] at hstep
      omega
    · exact hsame
    · have hstep := Nat.mul_le_mul_left p (Nat.succ_le_of_lt hless)
      rw [Nat.mul_succ] at hstep
      omega
  · intro hsame
    rw [hsame] at hm
    omega

end Serial
