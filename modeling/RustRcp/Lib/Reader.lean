import Mathlib.Data.List.Forall2
/-!
# Items that say where they end

A `Reader` decodes one item at the front of its input and says how many elements
the item took. `loop` reads items until the input is used up, and `all` is what
the loop computes. A `Local` reader never looks past the item it reads: then a
list of items splits wherever an item ends (`all_append`), the encodings of items
put together read back as the items (`all_encodings`), and an input that reads is
cut into the items' own pieces (`all_pieces`).
-/

/-- A decoder of one item; an item takes at least one element. -/
structure Reader (β ε α : Type) where
  read : List β → Except ε (α × Nat)
  pos : ∀ {b a k}, read b = .ok (a, k) → 0 < k

namespace Reader

variable {β ε α : Type} (R : Reader β ε α)

/-- Read items from `offset` on, adding them to `items`. -/
def loop (b : List β) (offset : Nat) (items : List α) : Except ε (List α) :=
  if offset < b.length then
    match _h : R.read (b.drop offset) with
    | .error e => .error e
    | .ok (a, k) => loop b (offset + k) (items ++ [a])
  else .ok items
termination_by b.length - offset
decreasing_by have := R.pos _h; omega

/-- The items `b` consists of. -/
def all (b : List β) : Except ε (List α) := R.loop b 0 []

/-- Only what is left to read matters, and what was read before stays in front. -/
theorem loop_shift {b c : List β} {i j : Nat} (h : c.drop j = b.drop i) (read items : List α) :
    R.loop b i (read ++ items) = (read ++ ·) <$> R.loop c j items := by
  induction hn : b.length - i using Nat.strongRecOn generalizing i j items with
  | ind n ih =>
    have hlen := congrArg List.length h
    simp only [List.length_drop] at hlen
    by_cases hi : i < b.length
    · -- both read the same elements, so both stop or both go on by the same step
      rw [loop, loop, if_pos hi, if_pos (by omega)]
      split <;> rename_i hb <;> split <;> rename_i hc <;> rw [h, hb] at hc <;> cases hc
      · rfl
      · have hpos := R.pos hb
        rw [List.append_assoc]
        exact ih _ (by omega) (by rw [← List.drop_drop, ← List.drop_drop, h]) _ rfl
    · rw [loop, loop, if_neg hi, if_neg (by omega)]
      rfl

theorem loop_drop (b : List β) (offset : Nat) (items : List α) :
    R.loop b offset items = (items ++ ·) <$> R.all (b.drop offset) := by
  have h : (b.drop offset).drop 0 = b.drop offset := List.drop_zero
  have hloop := R.loop_shift h items []
  rwa [List.append_nil] at hloop

@[simp] theorem all_nil : R.all [] = .ok [] := by
  rw [all, loop, if_neg (by simp)]

theorem all_ok {b : List β} {a : α} {k : Nat} (hb : b ≠ []) (h : R.read b = .ok (a, k)) :
    R.all b = (a :: ·) <$> R.all (b.drop k) := by
  rw [all, loop, if_pos (List.length_pos_iff.2 hb)]
  split <;> rename_i hr <;> simp only [List.drop_zero, h] at hr <;> cases hr
  rw [loop_drop, Nat.zero_add]
  rfl

theorem all_error {b : List β} {e : ε} (hb : b ≠ []) (h : R.read b = .error e) : R.all b = .error e := by
  rw [all, loop, if_pos (List.length_pos_iff.2 hb)]
  split <;> rename_i hr <;> simp only [List.drop_zero, h] at hr <;> cases hr
  rfl

/-- An item lies within the input, and only its own elements decide what it is. -/
structure Local : Prop where
  le : ∀ {b a k}, R.read b = .ok (a, k) → k ≤ b.length
  own : ∀ {b a k}, R.read b = .ok (a, k) → ∀ t, R.read (b.take k ++ t) = .ok (a, k)

variable {R}

theorem Local.append (hR : R.Local) {b : List β} {a : α} {k : Nat} (h : R.read b = .ok (a, k)) (t : List β) :
    R.read (b ++ t) = .ok (a, k) := by
  rw [← List.take_append_drop k b, List.append_assoc]
  exact hR.own h _

theorem Local.ne_nil (hR : R.Local) {b : List β} {a : α} {k : Nat} (h : R.read b = .ok (a, k)) : b ≠ [] := by
  rintro rfl
  have hle := hR.le h
  have hpos := R.pos h
  simp at hle
  omega

theorem Local.all_cons (hR : R.Local) {b : List β} {a : α} {k : Nat} (h : R.read b = .ok (a, k)) :
    R.all b = (a :: ·) <$> R.all (b.drop k) :=
  R.all_ok (hR.ne_nil h) h

/-- One item with nothing after it. -/
theorem Local.all_single (hR : R.Local) {b : List β} {a : α} (h : R.read b = .ok (a, b.length)) :
    R.all b = .ok [a] := by
  rw [hR.all_cons h, List.drop_length, all_nil]
  rfl

/-- Induction along the items of an input that reads. -/
theorem Local.all_induction (hR : R.Local) {P : List β → List α → Prop} (nil : P [] [])
    (cons : ∀ b a k ys, R.read b = .ok (a, k) → R.all (b.drop k) = .ok ys → P (b.drop k) ys → P b (a :: ys))
    {b : List β} {xs : List α} (h : R.all b = .ok xs) : P b xs := by
  induction hn : b.length using Nat.strongRecOn generalizing b xs with
  | ind n ih =>
    by_cases hb : b = []
    · subst hb
      simp only [all_nil, Except.ok.injEq] at h
      exact h ▸ nil
    · cases hr : R.read b with
      | error e => simp [R.all_error hb hr] at h
      | ok r =>
        obtain ⟨a, k⟩ := r
        have hle := hR.le hr
        have hpos := R.pos hr
        rw [hR.all_cons hr] at h
        cases htail : R.all (b.drop k) with
        | error e => rw [htail] at h; cases h
        | ok ys =>
          rw [htail] at h
          cases h
          exact cons b a k ys hr htail (ih _ (by simp; omega) htail rfl)

/-- What follows a list of items is read as further items. -/
theorem Local.all_append (hR : R.Local) {b : List β} {xs : List α} (h : R.all b = .ok xs) (t : List β) :
    R.all (b ++ t) = (xs ++ ·) <$> R.all t := by
  refine hR.all_induction (P := fun b xs => R.all (b ++ t) = (xs ++ ·) <$> R.all t) ?_ ?_ h
  · rw [List.nil_append]
    rcases R.all t <;> rfl
  · intro b a k ys hr _ ih
    -- the first item ends before `t` begins
    have hdrop : (b ++ t).drop k = b.drop k ++ t := List.drop_append_of_le_length (hR.le hr)
    rw [hR.all_cons (hR.append hr t), hdrop, ih]
    rcases R.all t <;> rfl

/-- The encodings of items, put together, read back as the items. -/
theorem Local.all_encodings (hR : R.Local) {xs : List α} {bs : List (List β)}
    (h : List.Forall₂ (fun b x => R.read b = .ok (x, b.length)) bs xs) : R.all bs.flatten = .ok xs := by
  induction h with
  | nil => exact R.all_nil
  | cons hx _ ih =>
    rw [List.flatten_cons, hR.all_append (hR.all_single hx), ih]
    rfl

/-- An input that reads is the items' own pieces, one after another. -/
theorem Local.all_pieces (hR : R.Local) {b : List β} {xs : List α} (h : R.all b = .ok xs) :
    ∃ bs, b = bs.flatten ∧ List.Forall₂ (fun b x => R.read b = .ok (x, b.length)) bs xs := by
  refine hR.all_induction (P := fun b xs => ∃ bs, b = bs.flatten ∧
    List.Forall₂ (fun b x => R.read b = .ok (x, b.length)) bs xs) ?_ ?_ h
  · exact ⟨[], rfl, .nil⟩
  · rintro b a k ys hr - ⟨bs, hbs, hread⟩
    refine ⟨b.take k :: bs, ?_, .cons ?_ hread⟩
    · rw [List.flatten_cons, ← hbs, List.take_append_drop]
    · have hown := hR.own hr []
      rw [List.append_nil] at hown
      rw [hown, List.length_take_of_le (hR.le hr)]

/-! ## Pieces of one length -/

variable {n : Nat} {P : List β → α → Prop} {bs cs : List (List β)} {xs : List α}

theorem length_pieces (h : List.Forall₂ (fun p x => p.length = n ∧ P p x) bs xs) :
    bs.flatten.length = xs.length * n := by
  induction h with
  | nil => simp
  | cons hx _ ih => rw [List.flatten_cons, List.length_append, hx.1, ih, List.length_cons, Nat.succ_mul, Nat.add_comm]

/-- The piece at a place is what is cut out there. -/
theorem piece_at (h : List.Forall₂ (fun p x => p.length = n ∧ P p x) bs xs) (i : Nat) (hi : i < xs.length) :
    P ((bs.flatten.drop (i * n)).take n) xs[i] := by
  induction h generalizing i with
  | nil => simp at hi
  | cons hx _ ih =>
    obtain ⟨hlen, hP⟩ := hx
    cases i with
    | zero => rwa [Nat.zero_mul, List.drop_zero, List.flatten_cons, List.take_left' hlen]
    | succ i =>
      rw [Nat.succ_mul, Nat.add_comm, ← List.drop_drop, List.flatten_cons, List.drop_left' hlen]
      exact ih i (by simpa using hi)

/-- What two pieces have in common at an offset, two runs of pieces have at its repetitions. -/
theorem pieces_agree {kept : Nat → Prop} (h : List.Forall₂ (fun p q : List β =>
    p.length = n ∧ q.length = n ∧ ∀ i, kept i → q[i]? = p[i]?) bs cs) (i : Nat) (hi : kept (i % n)) :
    cs.flatten[i]? = bs.flatten[i]? := by
  induction h generalizing i with
  | nil => rfl
  | @cons p q _ _ hx _ ih =>
    obtain ⟨hp, hq, hagree⟩ := hx
    rw [List.flatten_cons, List.flatten_cons]
    by_cases hin : i < n
    · rw [Nat.mod_eq_of_lt hin] at hi
      rw [List.getElem?_append_left (hq ▸ hin), List.getElem?_append_left (hp ▸ hin), hagree i hi]
    · rw [List.getElem?_append_right (by omega), List.getElem?_append_right (by omega), hp, hq]
      refine ih (i - n) ?_
      rwa [← Nat.mod_eq_sub_mod (by omega)]

end Reader
