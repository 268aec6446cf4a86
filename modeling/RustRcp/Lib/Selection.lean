import Mathlib.Data.List.Sort
/-!
# Taking the least first

A list from which the first element of least key is taken, over and over. What is taken
comes in the order of a stable sort by the key (`drain_takeLeast`), so what is taken of a
part of the list comes in the order it has in the whole (`filter_sorted`).
-/

namespace Selection

variable {α κ : Type} [LinearOrder κ] (key : α → κ)

/-- The first element of least key, and the others as they stand. -/
def takeLeast : List α → Option (α × List α)
  | [] => none
  | x :: xs => match takeLeast xs with
    | none => some (x, [])
    | some (least, rest) => if key x ≤ key least then some (x, xs) else some (least, x :: rest)

/-- What `next` takes in so many turns, and what it leaves. -/
def drain (next : List α → Option (α × List α)) : Nat → List α → List α × List α
  | 0, xs => ([], xs)
  | n + 1, xs => match next xs with
    | none => ([], xs)
    | some (x, rest) => let (taken, left) := drain next n rest; (x :: taken, left)

def NoLater (x y : α) : Prop := key x ≤ key y

instance : DecidableRel (NoLater key) := fun x y => inferInstanceAs (Decidable (key x ≤ key y))

instance : Std.Total (NoLater key) := ⟨fun x y => le_total (key x) (key y)⟩

instance : IsTrans α (NoLater key) := ⟨fun _ _ _ hxy hyz => le_trans hxy hyz⟩

/-- The list in the order of its keys. Those with one key stay in the order they have. -/
def sorted (xs : List α) : List α := xs.insertionSort (NoLater key)

theorem sorted_perm (xs : List α) : (sorted key xs).Perm xs := List.perm_insertionSort _ xs

theorem sorted_pairwise (xs : List α) : (sorted key xs).Pairwise (NoLater key) := List.pairwise_insertionSort _ xs

theorem sorted_cons (x : α) (xs : List α) : sorted key (x :: xs) = (sorted key xs).orderedInsert (NoLater key) x := rfl

variable {key} {xs rest : List α} {x least : α}

theorem takeLeast_eq_none : takeLeast key xs = none ↔ xs = [] := by
  cases xs with
  | nil => exact iff_of_true rfl rfl
  | cons x xs =>
    refine iff_of_false ?_ (List.cons_ne_nil x xs)
    rw [takeLeast]
    split
    · exact nofun
    · split_ifs <;> exact nofun

/-- What is taken stands first in the sorted list, before the others sorted. -/
theorem sorted_of_takeLeast (h : takeLeast key xs = some (least, rest)) : sorted key xs = least :: sorted key rest := by
  induction xs generalizing least rest with
  | nil => cases h
  | cons x xs ih =>
    rw [takeLeast] at h
    rw [sorted_cons]
    split at h
    · next hnone =>
      cases h
      rw [takeLeast_eq_none.1 hnone]
      rfl
    · next least' rest' hsome =>
      rw [ih hsome]
      split_ifs at h with hle
      · cases h
        rw [List.orderedInsert_cons_of_le (NoLater key) _ hle, ih hsome]
      · cases h
        rw [List.orderedInsert_of_not_le (NoLater key) _ hle, sorted_cons]

variable (key) in
/-- Taken so many times: as many of the sorted list, and the rest of it is left. -/
theorem drain_takeLeast (n : Nat) (xs : List α) :
    (drain (takeLeast key) n xs).1 = (sorted key xs).take n ∧
      sorted key (drain (takeLeast key) n xs).2 = (sorted key xs).drop n := by
  induction n generalizing xs with
  | zero => exact ⟨rfl, rfl⟩
  | succ n ih =>
    rw [drain]
    cases hnext : takeLeast key xs with
    | none =>
      rw [takeLeast_eq_none.1 hnext]
      exact ⟨rfl, rfl⟩
    | some next =>
      rw [sorted_of_takeLeast hnext]
      exact ⟨congrArg _ (ih next.2).1, (ih next.2).2⟩

variable (key) in
/-- As many turns as there are elements take them all. -/
theorem drain_length (xs : List α) : drain (takeLeast key) xs.length xs = (sorted key xs, []) := by
  obtain ⟨htaken, hleft⟩ := drain_takeLeast key xs.length xs
  have hlen : (sorted key xs).length ≤ xs.length := (sorted_perm key xs).length_eq.le
  rw [List.take_of_length_le hlen] at htaken
  rw [List.drop_of_length_le hlen] at hleft
  exact Prod.ext htaken (List.perm_nil.1 (hleft ▸ (sorted_perm key _).symm))

/-- An element in front of which only greater keys stand, and behind which no lesser ones. -/
theorem takeLeast_append {before after : List α} (hbefore : ∀ y ∈ before, key x < key y)
    (hafter : ∀ y ∈ after, key x ≤ key y) : takeLeast key (before ++ x :: after) = some (x, before ++ after) := by
  induction before with
  | nil =>
    rw [List.nil_append, takeLeast]
    cases hnext : takeLeast key after with
    | none => rw [takeLeast_eq_none.1 hnext, List.append_nil]
    | some next =>
      have hmem : next.1 ∈ after := by
        have hperm := sorted_perm key after
        rw [sorted_of_takeLeast hnext] at hperm
        exact hperm.subset List.mem_cons_self
      exact if_pos (hafter _ hmem)
  | cons y before ih =>
    rw [List.cons_append, takeLeast, ih fun z hz => hbefore z (List.mem_cons_of_mem _ hz)]
    exact if_neg (not_le.2 (hbefore y List.mem_cons_self))

theorem filter_orderedInsert (p : α → Bool) (x : α) {xs : List α} (h : xs.Pairwise (NoLater key)) :
    (xs.orderedInsert (NoLater key) x).filter p =
      if p x then (xs.filter p).orderedInsert (NoLater key) x else xs.filter p := by
  induction xs with
  | nil => cases hx : p x <;> simp [hx]
  | cons y xs ih =>
    rw [List.pairwise_cons] at h
    by_cases hle : NoLater key x y
    · rw [List.orderedInsert_cons_of_le _ _ hle, List.filter_cons]
      split_ifs with hx
      · -- nothing that is left stands before the place of `x`
        have hall : ∀ z ∈ (y :: xs).filter p, NoLater key x z := by
          intro z hz
          rcases List.mem_cons.1 (List.mem_filter.1 hz).1 with rfl | hmem
          · exact hle
          · exact le_trans hle (h.1 z hmem)
        cases hfilter : (y :: xs).filter p with
        | nil => rfl
        | cons z zs =>
          rw [hfilter] at hall
          rw [List.orderedInsert_cons_of_le _ _ (hall z List.mem_cons_self)]
      · rfl
    · rw [List.orderedInsert_of_not_le _ _ hle, List.filter_cons, List.filter_cons, ih h.2]
      cases hx : p x <;> cases hy : p y <;> simp [hle]

variable (key) in
/-- Sorting a part of a list gives that part of the sorted list. -/
theorem filter_sorted (p : α → Bool) (xs : List α) : (sorted key xs).filter p = sorted key (xs.filter p) := by
  induction xs with
  | nil => rfl
  | cons x xs ih =>
    rw [sorted_cons, filter_orderedInsert p x (sorted_pairwise key xs), List.filter_cons, ih]
    split_ifs <;> rfl

variable (key) in
/-- The elements of one key stand in the sorted list as they stood before. -/
theorem sorted_stable (k : κ) (xs : List α) :
    ((sorted key xs).filter fun x => key x = k) = xs.filter fun x => key x = k := by
  rw [filter_sorted, sorted, List.Pairwise.insertionSort_eq]
  refine List.pairwise_of_forall_mem_list fun x hx y hy => ?_
  rw [List.mem_filter, decide_eq_true_eq] at hx hy
  exact (hx.2.trans hy.2.symm).le

end Selection
