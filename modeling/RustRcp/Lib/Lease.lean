import Mathlib.Data.Option.Basic
import Mathlib.Data.List.Basic
/-!
# Leases

A resource that belongs to whoever was granted it last, for as long as less than a
timeout has passed since. An attempt is granted when nobody holds the lease, when it
comes from the holder, who thereby renews it, or when the lease has run out.
`held_by_last` says who holds it after any run of attempts, and `only_holder` that
nobody else can have it before it runs out.
-/

namespace Lease

/-- Someone at an instant: who asks for the lease and when, or who was granted it and when. -/
structure Grant (H : Type) where
  holder : H
  since : Nat
  deriving DecidableEq

variable {H : Type} (eligible : H → Prop) (timeout : Nat)

/-- Whether `who` can have the lease at `now`. -/
def Open (current : Option (Grant H)) (who : H) (now : Nat) : Prop :=
  ∀ g ∈ current, g.holder = who ∨ timeout ≤ now - g.since

/-- Whether an attempt is granted: some may never have the lease. -/
def Granted (current : Option (Grant H)) (a : Grant H) : Prop :=
  eligible a.holder ∧ Open timeout current a.holder a.since

theorem open_unheld (who : H) (now : Nat) : Open timeout none who now := nofun

variable {timeout}

/-- While the lease has not run out only its holder can have it. -/
theorem only_holder {g : Grant H} {now : Nat} (h : now - g.since < timeout) (who : H) :
    Open timeout (some g) who now ↔ who = g.holder := by
  constructor
  · intro hopen
    rcases hopen g rfl with hholder | hout
    · exact hholder.symm
    · omega
  · rintro rfl g' hg'
    cases hg'
    exact .inl rfl

/-- Once it has run out anybody can. -/
theorem open_lapsed {g : Grant H} {now : Nat} (h : g.since + timeout ≤ now) (who : H) :
    Open timeout (some g) who now := by
  rintro g' hg'
  cases hg'
  exact .inr (by omega)

/-- Someone else is granted the lease only after it has run out. -/
theorem lapsed_of_granted {g a : Grant H} (h : Granted eligible timeout (some g) a) (hne : a.holder ≠ g.holder)
    (hle : g.since ≤ a.since) : g.since + timeout ≤ a.since := by
  rcases h.2 g rfl with hholder | hout
  · exact absurd hholder.symm hne
  · omega

/-! ## Runs -/

variable (timeout) [∀ current a, Decidable (Granted (H := H) eligible timeout current a)]

/-- The holder after an attempt. -/
def attempt (current : Option (Grant H)) (a : Grant H) : Option (Grant H) :=
  if Granted eligible timeout current a then some a else current

/-- The attempts of a run that are granted. -/
def grants : Option (Grant H) → List (Grant H) → List (Grant H)
  | _, [] => []
  | current, a :: rest =>
    if Granted eligible timeout current a then a :: grants (some a) rest else grants current rest

/-- The lease belongs to whoever was granted it last. -/
theorem held_by_last (current : Option (Grant H)) (as : List (Grant H)) :
    as.foldl (attempt eligible timeout) current = (grants eligible timeout current as).getLast?.or current := by
  induction as generalizing current with
  | nil => rfl
  | cons a rest ih =>
    rw [List.foldl_cons, ih]
    by_cases h : Granted eligible timeout current a
    · rw [attempt, grants, if_pos h, if_pos h]
      cases grants eligible timeout (some a) rest with
      | nil => rfl
      | cons b bs => rw [List.getLast?_cons_cons, List.getLast?_eq_getLast_of_ne_nil (List.cons_ne_nil b bs)]; rfl
    · rw [attempt, grants, if_neg h, if_neg h]

/-- What is granted is one of the attempts, and its holder one of those who may have the lease. -/
theorem mem_grants {current : Option (Grant H)} {as : List (Grant H)} {g : Grant H}
    (h : g ∈ grants eligible timeout current as) : g ∈ as ∧ eligible g.holder := by
  induction as generalizing current with
  | nil => cases h
  | cons a rest ih =>
    rw [grants] at h
    split_ifs at h with ha
    · rcases List.mem_cons.1 h with rfl | h
      · exact ⟨List.mem_cons_self, ha.1⟩
      · exact (ih h).imp_left (List.mem_cons_of_mem a)
    · exact (ih h).imp_left (List.mem_cons_of_mem a)

end Lease
