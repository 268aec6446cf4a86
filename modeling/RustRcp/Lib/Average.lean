import Mathlib.Algebra.BigOperators.Group.List.Lemmas
import Mathlib.Algebra.Order.BigOperators.Group.List
import Mathlib.Algebra.Order.Ring.Nat
/-!
# Averages of averages

Numbers in groups of one size, each group averaged and then the averages, every division
truncating. The result lies between the numbers (`le_average`, `average_le`), at most one below
the truncated mean of them all (`average_mean`), and grows with them (`average_mono`).
-/

namespace Average

variable {α : Type*}

/-! ## Groups -/

/-- The first `c` groups of `g`. -/
def groups (g c : Nat) (xs : List α) : List (List α) := (List.range c).map fun i => (xs.drop (i * g)).take g

@[simp] theorem length_groups (g c : Nat) (xs : List α) : (groups g c xs).length = c := by simp [groups]

theorem groups_succ (g c : Nat) (xs : List α) : groups g (c + 1) xs = groups g c xs ++ [(xs.drop (c * g)).take g] := by
  rw [groups, List.range_succ, List.map_append, List.map_singleton, groups]

/-- The groups are made of the numbers they take. -/
theorem flatten_groups (g c : Nat) (xs : List α) : (groups g c xs).flatten = xs.take (c * g) := by
  induction c with
  | zero => simp [groups]
  | succ c ih => rw [groups_succ, List.flatten_append, ih, Nat.succ_mul, List.take_add, List.flatten_singleton]

theorem groups_take (g c : Nat) (xs : List α) : groups g c (xs.take (c * g)) = groups g c xs := by
  apply List.map_congr_left
  intro i hi
  have hroom : g ≤ c * g - i * g := by
    rw [← Nat.sub_mul]
    have := List.mem_range.1 hi
    exact Nat.le_mul_of_pos_left g (by omega)
  rw [List.drop_take, List.take_take, Nat.min_eq_left hroom]

theorem groups_map {β : Type*} (f : α → β) (g c : Nat) (xs : List α) :
    groups g c (xs.map f) = (groups g c xs).map (List.map f) := by
  rw [groups, groups, List.map_map]
  apply List.map_congr_left
  intro i _
  rw [Function.comp_apply, List.map_take, List.map_drop]

theorem length_of_mem_groups {g c : Nat} {xs group : List α} (hlength : c * g ≤ xs.length)
    (h : group ∈ groups g c xs) : group.length = g := by
  obtain ⟨i, hi, rfl⟩ := List.mem_map.1 h
  have hroom : i * g + g ≤ c * g := by
    rw [← Nat.succ_mul]
    exact Nat.mul_le_mul_right g (List.mem_range.1 hi)
  rw [List.length_take, List.length_drop]
  omega

theorem mem_of_mem_groups {g c : Nat} {xs group : List α} {x : α} (h : group ∈ groups g c xs) (hx : x ∈ group) :
    x ∈ xs.take (c * g) := by
  rw [← flatten_groups]
  exact List.mem_flatten.2 ⟨group, h, hx⟩

/-! ## Sums of truncated averages -/

theorem sum_le_length_mul {xs : List Nat} {hi : Nat} (h : ∀ x ∈ xs, x ≤ hi) : xs.sum ≤ xs.length * hi := by
  simpa using List.sum_le_card_nsmul xs hi h

theorem length_mul_le_sum {xs : List Nat} {lo : Nat} (h : ∀ x ∈ xs, lo ≤ x) : xs.length * lo ≤ xs.sum := by
  simpa using List.card_nsmul_le_sum xs lo h

/-- Truncation takes less than `g` from every summand. -/
theorem sum_div_bounds {g : Nat} (hg : 0 < g) (ss : List Nat) :
    g * (ss.map (· / g)).sum ≤ ss.sum ∧ ss.sum ≤ g * ((ss.map (· / g)).sum + ss.length) := by
  induction ss with
  | nil => simp
  | cons s ss ih =>
    have hlow := Nat.mul_div_le s g
    have hhigh := Nat.lt_mul_div_succ s hg
    simp only [List.map_cons, List.sum_cons, List.length_cons, Nat.mul_add, Nat.mul_one] at *
    omega

/-! ## The average -/

/-- The truncated average of each group. -/
def averages (g c : Nat) (xs : List Nat) : List Nat := (groups g c xs).map fun group => group.sum / g

def average (g c : Nat) (xs : List Nat) : Nat := (averages g c xs).sum / c

@[simp] theorem length_averages (g c : Nat) (xs : List Nat) : (averages g c xs).length = c := by simp [averages]

theorem averages_le {g c : Nat} {xs : List Nat} {hi : Nat} (h : ∀ x ∈ xs.take (c * g), x ≤ hi) :
    ∀ a ∈ averages g c xs, a ≤ hi := by
  intro a ha
  obtain ⟨group, hmem, rfl⟩ := List.mem_map.1 ha
  have hlength : group.length ≤ g := by
    obtain ⟨i, -, rfl⟩ := List.mem_map.1 hmem
    exact List.length_take_le ..
  have hsum := sum_le_length_mul fun x hx => h x (mem_of_mem_groups hmem hx)
  exact Nat.div_le_of_le_mul (hsum.trans (Nat.mul_le_mul_right hi hlength))

theorem le_averages {g c : Nat} (hg : 0 < g) {xs : List Nat} {lo : Nat} (hlength : c * g ≤ xs.length)
    (h : ∀ x ∈ xs.take (c * g), lo ≤ x) : ∀ a ∈ averages g c xs, lo ≤ a := by
  intro a ha
  obtain ⟨group, hmem, rfl⟩ := List.mem_map.1 ha
  have hsum := length_mul_le_sum fun x hx => h x (mem_of_mem_groups hmem hx)
  rw [length_of_mem_groups hlength hmem, Nat.mul_comm] at hsum
  exact (Nat.le_div_iff_mul_le hg).2 hsum

theorem sum_averages_le {g c : Nat} {xs : List Nat} {hi : Nat} (h : ∀ x ∈ xs.take (c * g), x ≤ hi) :
    (averages g c xs).sum ≤ c * hi := by
  have hsum := sum_le_length_mul (averages_le h)
  rwa [length_averages] at hsum

theorem average_le {g c : Nat} {xs : List Nat} {hi : Nat} (h : ∀ x ∈ xs.take (c * g), x ≤ hi) : average g c xs ≤ hi :=
  Nat.div_le_of_le_mul (sum_averages_le h)

theorem le_average {g c : Nat} (hg : 0 < g) (hc : 0 < c) {xs : List Nat} {lo : Nat} (hlength : c * g ≤ xs.length)
    (h : ∀ x ∈ xs.take (c * g), lo ≤ x) : lo ≤ average g c xs := by
  have hsum := length_mul_le_sum (le_averages hg hlength h)
  rw [length_averages, Nat.mul_comm] at hsum
  exact (Nat.le_div_iff_mul_le hc).2 hsum

/-- The average of the averages and the truncated mean, one more at most. -/
theorem average_mean {g c : Nat} (hg : 0 < g) (hc : 0 < c) (xs : List Nat) :
    average g c xs ≤ (xs.take (c * g)).sum / (g * c) ∧ (xs.take (c * g)).sum / (g * c) ≤ average g c xs + 1 := by
  obtain ⟨hlow, hhigh⟩ := sum_div_bounds hg ((groups g c xs).map List.sum)
  rw [← List.sum_flatten, flatten_groups, List.map_map] at hlow hhigh
  rw [List.length_map, length_groups] at hhigh
  rw [← Nat.div_div_eq_div_mul]
  constructor
  · exact Nat.div_le_div_right ((Nat.le_div_iff_mul_le hg).2 (by rwa [Nat.mul_comm]))
  · calc (xs.take (c * g)).sum / g / c
        ≤ ((averages g c xs).sum + c) / c :=
          Nat.div_le_div_right (Nat.div_le_of_le_mul hhigh)
      _ = average g c xs + 1 := Nat.add_div_right _ hc

theorem average_take (g c : Nat) (xs : List Nat) : average g c (xs.take (c * g)) = average g c xs := by
  rw [average, averages, groups_take, average, averages]

/-- Raising numbers does not lower the average. -/
theorem average_mono (g c : Nat) {xs ys : List Nat} (h : List.Forall₂ (· ≤ ·) xs ys) :
    average g c xs ≤ average g c ys := by
  refine Nat.div_le_div_right (List.Forall₂.sum_le_sum ?_)
  rw [averages, averages, groups, groups, List.map_map, List.map_map, List.forall₂_map_left_iff,
    List.forall₂_map_right_iff]
  refine List.forall₂_same.2 fun i _ => ?_
  exact Nat.div_le_div_right (List.Forall₂.sum_le_sum (List.forall₂_take g (List.forall₂_drop (i * g) h)))

end Average
