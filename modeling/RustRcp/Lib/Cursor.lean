import RustRcp.Lib.Bytes
/-!
# Reading fields one after another

A `Cursor` reads from the front of the bytes that are left. `Takes p n`: with `n`
bytes to read, `p` succeeds and leaves what follows them. `Reads p bytes a`: given
`bytes`, `p` gives `a`. `Yields p P`: whatever `p` gives satisfies `P`. All go
through a `do` block one step at a time.
-/
open Bytes

/-- A fallible read that leaves the bytes it did not use. -/
abbrev Cursor (ε α : Type) := StateT (List UInt8) (Except ε) α

namespace Cursor

variable {ε α β : Type}

/-- The big-endian number in the next `n` bytes. -/
def word (n : Nat) : Cursor ε Nat := fun b => .ok (ofBe (b.take n), b.drop n)

/-! ## Success -/

/-- With `n` bytes left, `p` succeeds and uses them. -/
def Takes (p : Cursor ε α) (n : Nat) : Prop := ∀ b, n ≤ b.length → ∃ a, p b = .ok (a, b.drop n)

theorem takes_pure (a : α) : Takes (pure a : Cursor ε α) 0 := fun b _ => ⟨a, by rw [List.drop_zero]; rfl⟩

theorem takes_word (n : Nat) : Takes (word n : Cursor ε Nat) n := fun _ _ => ⟨_, rfl⟩

theorem Takes.bind {p : Cursor ε α} {f : α → Cursor ε β} {n m : Nat} (hp : Takes p n) (hf : ∀ a, Takes (f a) m) :
    Takes (p >>= f) (n + m) := by
  intro b hb
  obtain ⟨a, ha⟩ := hp b (by omega)
  obtain ⟨c, hc⟩ := hf a (b.drop n) (by rw [List.length_drop]; omega)
  refine ⟨c, ?_⟩
  simp only [Bind.bind, StateT.bind, ha, Except.bind, hc, List.drop_drop]

theorem Takes.map {p : Cursor ε α} {n : Nat} (hp : Takes p n) (g : α → β) : Takes (g <$> p) n := by
  intro b hb
  obtain ⟨a, ha⟩ := hp b hb
  refine ⟨g a, ?_⟩
  simp only [Functor.map, StateT.map, ha, Bind.bind, Except.bind, pure, Except.pure]

/-! ## Reading back -/

/-- Given `bytes`, `p` gives `a`, whatever follows. -/
def Reads (p : Cursor ε α) (bytes : List UInt8) (a : α) : Prop := ∀ t, p (bytes ++ t) = .ok (a, t)

theorem reads_pure (a : α) : Reads (pure a : Cursor ε α) [] a := fun _ => rfl

theorem reads_word {n v : Nat} (h : v < 256 ^ n) : Reads (word n : Cursor ε Nat) (be n v) v := by
  intro t
  simp only [word, List.take_left' (be_length n v), List.drop_left' (be_length n v), ofBe_be_of_lt h]

theorem Reads.bind {p : Cursor ε α} {f : α → Cursor ε β} {x y : List UInt8} {a : α} {c : β} (hp : Reads p x a)
    (hf : Reads (f a) y c) : Reads (p >>= f) (x ++ y) c := by
  intro t
  simp only [Bind.bind, StateT.bind, List.append_assoc, hp (y ++ t), Except.bind, hf t]

theorem Reads.map {p : Cursor ε α} {x : List UInt8} {a : α} (hp : Reads p x a) (g : α → β) :
    Reads (g <$> p) x (g a) := by
  intro t
  simp only [Functor.map, StateT.map, hp t, Bind.bind, Except.bind, pure, Except.pure]

/-! ## Results -/

/-- Whatever `p` gives satisfies `P`. -/
def Yields (p : Cursor ε α) (P : α → Prop) : Prop := ∀ b a t, p b = .ok (a, t) → P a

theorem yields_pure {P : α → Prop} {a : α} (h : P a) : Yields (pure a : Cursor ε α) P := by
  rintro b c t hc
  cases hc
  exact h

theorem yields_bind {p : Cursor ε α} {f : α → Cursor ε β} {P : β → Prop} (h : ∀ a, Yields (f a) P) :
    Yields (p >>= f) P := by
  intro b c t hc
  simp only [Bind.bind, StateT.bind, Except.bind] at hc
  split at hc
  · cases hc
  · exact h _ _ _ _ hc

/-- What is read first and what a whole block gives. -/
theorem yields_first {p : Cursor ε α} {f : α → Cursor ε β} {R : α → β → Prop} (h : ∀ a, Yields (f a) (R a))
    {b t u : List UInt8} {a : α} {c : β} (hp : p b = .ok (a, t)) (hc : (p >>= f) b = .ok (c, u)) : R a c := by
  simp only [Bind.bind, StateT.bind, hp, Except.bind] at hc
  exact h a t c u hc

/-! ## Writing back -/

/-- What `p` gives and the `n` bytes it reads are related by `P`; it leaves what follows them. -/
def Relates (p : Cursor ε α) (n : Nat) (P : α → List UInt8 → Prop) : Prop :=
  ∀ b a t, n ≤ b.length → p b = .ok (a, t) → t = b.drop n ∧ P a (b.take n)

theorem relates_pure {P : α → List UInt8 → Prop} {a : α} (h : P a []) : Relates (pure a : Cursor ε α) 0 P := by
  rintro b c t - hc
  cases hc
  exact ⟨List.drop_zero.symm, by rwa [List.take_zero]⟩

/-- A word, read and wrapped, is the bytes it is written as. -/
theorem relates_word {n : Nat} {g : Nat → α} {enc : α → Nat} (h : ∀ v < 256 ^ n, enc (g v) = v) :
    Relates (g <$> word n : Cursor ε α) n fun a x => be n (enc a) = x := by
  rintro b a t hb hc
  cases hc
  refine ⟨rfl, ?_⟩
  show be n (enc (g (ofBe (b.take n)))) = b.take n
  rw [h _ (ofBe_take_lt n b), be_ofBe_take hb]

/-- The bytes of a block are those of its first step and those of the rest. -/
theorem Relates.bind {p : Cursor ε α} {f : α → Cursor ε β} {n m : Nat} {enc : α → List UInt8}
    {P : β → List UInt8 → Prop} (hp : Relates p n fun a x => enc a = x)
    (hf : ∀ a, Relates (f a) m fun c y => P c (enc a ++ y)) : Relates (p >>= f) (n + m) P := by
  rintro b c t hb hc
  simp only [Bind.bind, StateT.bind, Except.bind] at hc
  split at hc
  · cases hc
  · rename_i r hr
    obtain ⟨hdrop, henc⟩ := hp b r.1 r.2 (by omega) hr
    obtain ⟨ht, hP⟩ := hf r.1 r.2 c t (by rw [hdrop, List.length_drop]; omega) hc
    rw [henc, hdrop, ← List.take_add] at hP
    exact ⟨by rw [ht, hdrop, List.drop_drop], hP⟩

end Cursor
