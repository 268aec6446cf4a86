import Mathlib.Data.List.Induction
import Mathlib.Data.Nat.Digits.Lemmas
/-!
# Numerals

Numbers written in the digits of a base, most significant first. Each number is written in one
way with as few digits as it takes (`shortest`), and in one way with a given count of digits
that is large enough (`padded`). `foldlM_eq_some` is what a bounded reader of digits accepts.
-/

namespace Numeral

/-- The number these digits write. -/
def value (b : Nat) (ds : List Nat) : Nat := ds.foldl (fun v d => v * b + d) 0

theorem value_append_singleton (b : Nat) (ds : List Nat) (d : Nat) : value b (ds ++ [d]) = value b ds * b + d := by
  simp [value]

theorem value_eq_ofDigits (b : Nat) (ds : List Nat) : value b ds = Nat.ofDigits b ds.reverse := by
  induction ds using List.reverseRecOn with
  | nil => rfl
  | append_singleton ds d ih =>
    rw [value_append_singleton, ih, List.reverse_append, List.reverse_singleton, List.singleton_append,
      Nat.ofDigits_cons]
    ring

/-! ## Reading -/

theorem le_foldl {b : Nat} (hb : 0 < b) (ds : List Nat) (v : Nat) : v ≤ ds.foldl (fun v d => v * b + d) v := by
  induction ds generalizing v with
  | nil => exact Nat.le_refl v
  | cons d ds ih =>
    calc v ≤ v * b := Nat.le_mul_of_pos_right v hb
      _ ≤ v * b + d := Nat.le_add_right ..
      _ ≤ _ := ih _

/-- A reader that gives up past `max` reads the numbers up to `max`. -/
theorem foldlM_eq_some {α : Type*} {b max : Nat} (hb : 0 < b) (digit : α → Option Nat) (s : List α) {acc v : Nat}
    (hacc : acc ≤ max) :
    s.foldlM (fun value c => do
      let d ← digit c
      if value * b + d ≤ max then some (value * b + d) else none) acc = some v ↔
    v ≤ max ∧ ∃ ds : List Nat, s.map digit = ds.map some ∧ ds.foldl (fun v d => v * b + d) acc = v := by
  induction s generalizing acc with
  | nil =>
    constructor
    · rintro ⟨⟩
      exact ⟨hacc, [], rfl, rfl⟩
    · rintro ⟨-, ds, hds, rfl⟩
      obtain rfl : ds = [] := by simpa using hds.symm
      rfl
  | cons c s ih =>
    rw [List.foldlM_cons, List.map_cons]
    cases hc : digit c with
    | none =>
      refine iff_of_false (by simp) ?_
      rintro ⟨-, ds, hds, -⟩
      cases ds <;> simp at hds
    | some d =>
      have hhead : (∃ ds : List Nat, some d :: s.map digit = ds.map some ∧ ds.foldl (fun v d => v * b + d) acc = v) ↔
          ∃ ds : List Nat, s.map digit = ds.map some ∧ ds.foldl (fun v d => v * b + d) (acc * b + d) = v := by
        constructor
        · rintro ⟨_ | ⟨e, ds⟩, hds, hv⟩
          · cases hds
          · obtain ⟨he, htail⟩ := List.cons.inj hds
            cases he
            exact ⟨ds, htail, hv⟩
        · rintro ⟨ds, hds, hv⟩
          exact ⟨d :: ds, congrArg (some d :: ·) hds, hv⟩
      rw [hhead]
      by_cases hle : acc * b + d ≤ max
      · simpa [hle] using ih hle
      · refine iff_of_false (by simp [hle]) ?_
        rintro ⟨hv, ds, -, rfl⟩
        exact hle ((le_foldl hb ds _).trans hv)

/-! ## A given count of digits -/

/-- The last `n` digits of `v`. -/
def padded (b n v : Nat) : List Nat := (List.range n).map fun i => v / b ^ (n - 1 - i) % b

theorem padded_succ (b n v : Nat) : padded b (n + 1) v = padded b n (v / b) ++ [v % b] := by
  rw [padded, List.range_succ, List.map_append, padded]
  congr 1
  · apply List.map_congr_left
    intro i hi
    have hexp : n + 1 - 1 - i = n - 1 - i + 1 := by
      have := List.mem_range.1 hi
      omega
    rw [hexp, Nat.pow_succ', Nat.div_div_eq_div_mul]
  · simp

@[simp] theorem length_padded (b n v : Nat) : (padded b n v).length = n := by simp [padded]

theorem lt_of_mem_padded {b n v d : Nat} (hb : 0 < b) (h : d ∈ padded b n v) : d < b := by
  obtain ⟨i, -, rfl⟩ := List.mem_map.1 h
  exact Nat.mod_lt _ hb

theorem value_padded {b n v : Nat} (h : v < b ^ n) : value b (padded b n v) = v := by
  induction n generalizing v with
  | zero =>
    obtain rfl : v = 0 := by simpa using h
    rfl
  | succ n ih =>
    rw [padded_succ, value_append_singleton, ih (Nat.div_lt_of_lt_mul (by rwa [← Nat.pow_succ'])), Nat.div_add_mod']

theorem padded_value {b : Nat} {ds : List Nat} (h : ∀ d ∈ ds, d < b) : padded b ds.length (value b ds) = ds := by
  induction ds using List.reverseRecOn with
  | nil => rfl
  | append_singleton ds d ih =>
    have hd : d < b := h d (by simp)
    have hb : 0 < b := by omega
    have hlast : (value b ds * b + d) % b = d := by rw [Nat.mul_add_mod_self_right, Nat.mod_eq_of_lt hd]
    have hrest : (value b ds * b + d) / b = value b ds := by
      rw [Nat.add_comm, Nat.add_mul_div_right _ _ hb, Nat.div_eq_of_lt hd, Nat.zero_add]
    rw [List.length_append, List.length_singleton, padded_succ, value_append_singleton, hlast, hrest,
      ih fun e he => h e (List.mem_append_left _ he)]

/-! ## As few digits as it takes -/

def shortest (b v : Nat) : List Nat := if v = 0 then [0] else (Nat.digits b v).reverse

theorem lt_of_mem_shortest {b v d : Nat} (hb : 1 < b) (h : d ∈ shortest b v) : d < b := by
  rw [shortest] at h
  split_ifs at h
  · obtain rfl := List.mem_singleton.1 h
    omega
  · exact Nat.digits_lt_base hb (List.mem_reverse.1 h)

theorem shortest_ne_nil (b v : Nat) : shortest b v ≠ [] := by
  rw [shortest]
  split_ifs with hv
  · simp
  · simpa [Nat.digits_ne_nil_iff_ne_zero] using hv

/-- Only zero is written with a zero in front. -/
theorem head_shortest {b v : Nat} : shortest b v = [0] ∨ (shortest b v).head? ≠ some 0 := by
  rw [shortest]
  split_ifs with hv
  · exact .inl rfl
  · right
    rw [List.head?_reverse, List.getLast?_eq_some_getLast (Nat.digits_ne_nil_iff_ne_zero.2 hv)]
    intro h
    exact Nat.getLast_digit_ne_zero b hv (Option.some.inj h)

theorem value_shortest (b v : Nat) : value b (shortest b v) = v := by
  rw [shortest]
  split_ifs with hv
  · simp [value, hv]
  · rw [value_eq_ofDigits, List.reverse_reverse, Nat.ofDigits_digits]

theorem shortest_value {b : Nat} {ds : List Nat} (hb : 1 < b) (hne : ds ≠ []) (hlt : ∀ d ∈ ds, d < b)
    (hhead : ds = [0] ∨ ds.head? ≠ some 0) : shortest b (value b ds) = ds := by
  rcases hhead with rfl | hhead
  · simp [value, shortest]
  · have hdigits : Nat.digits b (value b ds) = ds.reverse := by
      rw [value_eq_ofDigits]
      refine Nat.digits_ofDigits b hb _ (fun d hd => hlt d (List.mem_reverse.1 hd)) fun hrev hlast => hhead ?_
      rw [List.getLast_reverse] at hlast
      rw [← hlast, List.head?_eq_some_head]
    have hv : value b ds ≠ 0 := by
      intro hzero
      rw [hzero, Nat.digits_zero] at hdigits
      exact hne (by simpa using hdigits.symm)
    rw [shortest, if_neg hv, hdigits, List.reverse_reverse]

/-- The characters of a printed number are those of its shortest digits. -/
theorem toDigits_eq {b : Nat} (hb : 1 < b) (v : Nat) : Nat.toDigits b v = (shortest b v).map Nat.digitChar := by
  induction v using Nat.strong_induction_on with
  | _ v ih =>
    rw [Nat.toDigits_eq_if hb]
    split_ifs with hlt
    · by_cases hv : v = 0
      · simp [hv, shortest]
      · rw [shortest, if_neg hv, Nat.digits_of_lt b v hv hlt]
        rfl
    · have hpos : 0 < v := by omega
      have hdiv : v / b ≠ 0 := (Nat.div_pos (by omega) (by omega)).ne'
      rw [ih _ (Nat.div_lt_self hpos hb), shortest, if_neg hdiv, shortest, if_neg hpos.ne',
        Nat.digits_def' hb hpos, List.reverse_cons, List.map_append]
      rfl

end Numeral
