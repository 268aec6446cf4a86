import Mathlib.Logic.Function.Basic
import Mathlib.Data.List.Induction
/-!
# Calls side by side

Any number of calls take atomic steps on a state they share; a schedule says who
moves next. `seen` is what an observer notes of a step, and `trace` the notes of a
run. What holds at the start, with nothing noted, and is kept by each turn together
with its note, holds of every run and its trace (`run_follows`).
-/

namespace Threads

variable {ι σ ρ ε : Type}

/-- The state the calls share, and how far each has come. -/
structure Race (ι σ ρ : Type) where
  shared : σ
  phase : ι → ρ

/-- Every call is in one phase. -/
def fresh (shared : σ) (phase : ρ) : Race ι σ ρ := ⟨shared, fun _ => phase⟩

/-- The next step of a call in a phase: the shared state and the phase after it. A call that waits or
has returned makes none. -/
abbrev Move (ι σ ρ : Type) := ι → σ → ρ → Option (σ × ρ)

variable [DecidableEq ι] (move : Move ι σ ρ) (seen : ι → σ → ρ → Option ε)

def turn (race : Race ι σ ρ) (i : ι) : Race ι σ ρ :=
  match move i race.shared (race.phase i) with
  | some (shared, phase) => ⟨shared, Function.update race.phase i phase⟩
  | none => race

/-- What a schedule leads to. -/
def run (race : Race ι σ ρ) (schedule : List ι) : Race ι σ ρ := schedule.foldl (turn move) race

/-- What is noted of a turn. -/
def noted (race : Race ι σ ρ) (i : ι) : List ε := (seen i race.shared (race.phase i)).toList

def trace : Race ι σ ρ → List ι → List ε
  | _, [] => []
  | race, i :: schedule => noted seen race i ++ trace (turn move race i) schedule

/-- Every call of the schedule has made all its steps. -/
def Finished (race : Race ι σ ρ) (schedule : List ι) : Prop :=
  ∀ i ∈ schedule, move i (run move race schedule).shared ((run move race schedule).phase i) = none

variable {move seen} {race : Race ι σ ρ} {i j : ι}

theorem turn_some {shared : σ} {phase : ρ} (h : move i race.shared (race.phase i) = some (shared, phase)) :
    turn move race i = ⟨shared, Function.update race.phase i phase⟩ := by
  rw [turn, h]

theorem turn_none (h : move i race.shared (race.phase i) = none) : turn move race i = race := by
  rw [turn, h]

/-- What so many turns of one call make of the shared state and of its phase. -/
def alone (move : Move ι σ ρ) (i : ι) : Nat → σ × ρ → σ × ρ
  | 0, here => here
  | n + 1, here => alone move i n ((move i here.1 here.2).getD here)

/-- Turns of one call change only its phase beside what is shared. -/
theorem run_replicate {phase : ι → ρ} (here : σ × ρ) (h : phase i = here.2) (n : Nat) :
    run move ⟨here.1, phase⟩ (List.replicate n i) =
      ⟨(alone move i n here).1, Function.update phase i (alone move i n here).2⟩ := by
  induction n generalizing here phase with
  | zero =>
    rw [alone, ← h, Function.update_eq_self]
    rfl
  | succ n ih =>
    rw [List.replicate_succ, run, List.foldl_cons, alone]
    cases hnext : move i here.1 here.2 with
    | none =>
      rw [turn_none (by rw [← hnext, ← h])]
      exact ih here h
    | some next =>
      have hturn : turn move ⟨here.1, phase⟩ i = ⟨next.1, Function.update phase i next.2⟩ :=
        turn_some (by rw [← h] at hnext; exact hnext)
      rw [hturn]
      exact (ih next (Function.update_self ..)).trans (by rw [Function.update_idem, Option.getD_some])

theorem run_concat (race : Race ι σ ρ) (schedule : List ι) (i : ι) :
    run move race (schedule ++ [i]) = turn move (run move race schedule) i := by
  rw [run, List.foldl_append]
  rfl

/-- A call that does not move stays where it is. -/
theorem phase_run_of_notMem {schedule : List ι} (h : i ∉ schedule) :
    (run move race schedule).phase i = race.phase i := by
  induction schedule using List.reverseRecOn with
  | nil => rfl
  | append_singleton schedule j ih =>
    rw [List.mem_append, List.mem_singleton, not_or] at h
    rw [run_concat, ← ih h.1]
    cases hnext : move j (run move race schedule).shared ((run move race schedule).phase j) with
    | none => rw [turn_none hnext]
    | some next =>
      rw [turn_some hnext]
      exact Function.update_of_ne h.2 ..

theorem trace_concat (race : Race ι σ ρ) (schedule : List ι) (i : ι) :
    trace move seen race (schedule ++ [i]) =
      trace move seen race schedule ++ noted seen (run move race schedule) i := by
  induction schedule generalizing race with
  | nil => simp [trace, run]
  | cons j schedule ih => rw [List.cons_append, trace, trace, ih, List.append_assoc]; rfl

/-- What each turn keeps holds of every run. -/
theorem run_keeps {I : Race ι σ ρ → Prop} (h0 : I race) (hturn : ∀ race i, I race → I (turn move race i))
    (schedule : List ι) : I (run move race schedule) := by
  induction schedule using List.reverseRecOn with
  | nil => exact h0
  | append_singleton schedule i ih =>
    rw [run_concat]
    exact hturn _ i ih

/-- What each turn keeps together with its note holds of every run. -/
theorem run_follows {R : List ε → Race ι σ ρ → Prop} (h0 : R [] race)
    (hturn : ∀ log race i, R log race → R (log ++ noted seen race i) (turn move race i)) (schedule : List ι) :
    R (trace move seen race schedule) (run move race schedule) := by
  induction schedule using List.reverseRecOn with
  | nil => exact h0
  | append_singleton schedule i ih =>
    rw [trace_concat, run_concat]
    exact hturn _ _ i ih

/-- What holds after a move holds of the mover's next phase, or held before of another call's. -/
theorem of_update {P : ι → ρ → Prop} {phase : ι → ρ} {next : ρ} (h : P j (Function.update phase i next j)) :
    j = i ∧ P i next ∨ j ≠ i ∧ P j (phase j) := by
  rcases eq_or_ne j i with rfl | hne
  · rw [Function.update_self] at h
    exact .inl ⟨rfl, h⟩
  · rw [Function.update_of_ne hne] at h
    exact .inr ⟨hne, h⟩

/-- What holds of every call's phase holds after a move if it holds of the mover's next one. -/
theorem update_all {P : ι → ρ → Prop} {phase : ι → ρ} (h : ∀ j, P j (phase j)) {next : ρ} (hnext : P i next) (j : ι) :
    P j (Function.update phase i next j) := by
  rcases eq_or_ne j i with rfl | hne
  · rwa [Function.update_self]
  · rw [Function.update_of_ne hne]
    exact h j

/-- A predicate the mover's phase keeps is kept for every call. -/
theorem phase_iff (P : ρ → Prop) {phase : ι → ρ} {next : ρ} (h : P next ↔ P (phase i)) (j : ι) :
    P (Function.update phase i next j) ↔ P (phase j) := by
  rcases eq_or_ne j i with rfl | hne
  · rw [Function.update_self, h]
  · rw [Function.update_of_ne hne]

end Threads
