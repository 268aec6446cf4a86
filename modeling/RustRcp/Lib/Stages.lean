import RustRcp.Lib.Threads
import Mathlib.Data.List.Nodup
import Mathlib.Data.List.TakeWhile
/-!
# Calls that pass stages

A log notes which call comes past which stage. `passed` lists the calls in the order in
which they come past one, and `upTo` is the log before a note. Where coming past a stage
acts on a state, `after` is what an order of calls makes of that state and `told` what a
call of the order is told where it stands; what comes later does not change it.
`stagesOf` is the way of one call. Calls side by side whose every step comes past a stage
(`Staged`) leave the shared state and themselves as the log has them (`Staged.run`).
-/

namespace Stages

variable {κ ι σ α : Type}

section Passed
variable [DecidableEq κ]

/-- The calls that have come past a stage, in that order. -/
def passed (stage : κ) (log : List (κ × ι)) : List ι :=
  log.filterMap fun note => if note.1 = stage then some note.2 else none

variable {stage stage' : κ} {log : List (κ × ι)} {i : ι}

@[simp] theorem passed_nil : passed stage ([] : List (κ × ι)) = [] := rfl

@[simp] theorem passed_concat : passed stage (log ++ [(stage', i)]) =
    if stage' = stage then passed stage log ++ [i] else passed stage log := by
  by_cases h : stage' = stage <;> simp [passed, h]

theorem mem_passed : i ∈ passed stage log ↔ (stage, i) ∈ log := by
  rw [passed, List.mem_filterMap]
  constructor
  · rintro ⟨⟨stage', j⟩, hmem, hsome⟩
    rw [Option.ite_none_right_eq_some] at hsome
    obtain ⟨rfl, hsome⟩ := hsome
    cases hsome
    exact hmem
  · intro h
    exact ⟨_, h, if_pos rfl⟩

theorem nodup_passed (h : log.Nodup) : (passed stage log).Nodup := by
  refine h.filterMap ?_
  rintro ⟨stage₁, i₁⟩ ⟨stage₂, i₂⟩ k hk hk'
  rw [Option.mem_def, Option.ite_none_right_eq_some] at hk hk'
  exact Prod.ext (hk.1.trans hk'.1.symm) ((Option.some.inj hk.2).trans (Option.some.inj hk'.2).symm)

end Passed

/-! ## The way of a call -/

section StagesOf
variable [DecidableEq ι]

/-- The stages a call has come past, in that order. -/
def stagesOf (i : ι) (log : List (κ × ι)) : List κ :=
  log.filterMap fun note => if note.2 = i then some note.1 else none

variable {stage : κ} {log : List (κ × ι)} {i j : ι}

@[simp] theorem stagesOf_nil : stagesOf i ([] : List (κ × ι)) = [] := rfl

@[simp] theorem stagesOf_concat : stagesOf i (log ++ [(stage, j)]) =
    if j = i then stagesOf i log ++ [stage] else stagesOf i log := by
  by_cases h : j = i <;> simp [stagesOf, h]

theorem mem_stagesOf : stage ∈ stagesOf i log ↔ (stage, i) ∈ log := by
  rw [stagesOf, List.mem_filterMap]
  constructor
  · rintro ⟨⟨stage', j⟩, hmem, hsome⟩
    rw [Option.ite_none_right_eq_some] at hsome
    obtain ⟨rfl, hsome⟩ := hsome
    cases hsome
    exact hmem
  · intro h
    exact ⟨_, h, if_pos rfl⟩

theorem notMem_of_stagesOf {stages : List κ} (h : stagesOf i log = stages) (hstage : stage ∉ stages) :
    (stage, i) ∉ log := fun hmem => hstage (h ▸ mem_stagesOf.2 hmem)

/-- If no call comes past a stage twice, nothing is noted twice. -/
theorem nodup_of_stagesOf (h : ∀ i, (stagesOf i log).Nodup) : log.Nodup := by
  induction log using List.reverseRecOn with
  | nil => exact .nil
  | append_singleton log note ih =>
    obtain ⟨stage, j⟩ := note
    have hj := h j
    rw [stagesOf_concat, if_pos rfl, List.nodup_append] at hj
    have hearlier : ∀ i, (stagesOf i log).Nodup := by
      intro i
      by_cases hji : j = i
      · exact hji ▸ hj.1
      · have hi := h i
        rwa [stagesOf_concat, if_neg hji] at hi
    rw [← List.concat_eq_append]
    refine (ih hearlier).concat fun hmem => ?_
    exact hj.2.2 stage (mem_stagesOf.2 hmem) stage List.mem_cons_self rfl

end StagesOf

/-! ## Before a note -/

section UpTo
variable {ν : Type} [DecidableEq ν]

/-- What a log has before a note. -/
def upTo (note : ν) (log : List ν) : List ν := log.takeWhile (· ≠ note)

variable {note : ν} {log : List ν}

theorem upTo_concat (h : note ∈ log) (later : ν) : upTo note (log ++ [later]) = upTo note log := by
  induction log with
  | nil => cases h
  | cons first log ih =>
    by_cases hfirst : first = note
    · simp [upTo, hfirst]
    · have hmem : note ∈ log := (List.mem_cons.1 h).resolve_left (Ne.symm hfirst)
      simpa [upTo, hfirst] using ih hmem

theorem upTo_last (h : note ∉ log) : upTo note (log ++ [note]) = log := by
  induction log with
  | nil => simp [upTo]
  | cons first log ih =>
    rw [List.mem_cons, not_or] at h
    simpa [upTo, Ne.symm h.1] using ih h.2

theorem length_upTo (note : ν) (log : List ν) : (upTo note log).length = log.idxOf note := by
  induction log with
  | nil => rfl
  | cons first log ih =>
    by_cases hfirst : first = note
    · simp [upTo, hfirst]
    · rw [List.idxOf_cons_ne _ hfirst, ← ih]
      simp [upTo, hfirst]

end UpTo

/-! ## Acting on a state -/

section Act
variable (op : ι → σ → α × σ) (s : σ)

/-- What the calls of an order make of a state. -/
def after (order : List ι) : σ := order.foldl (fun s i => (op i s).2) s

theorem after_concat (order : List ι) (i : ι) : after op s (order ++ [i]) = (op i (after op s order)).2 := by
  rw [after, List.foldl_append]
  rfl

variable [DecidableEq ι]

/-- What a call of an order is told where it stands. -/
def told (order : List ι) (i : ι) : α := (op i (after op s (upTo i order))).1

variable {op s} {order : List ι} {i : ι}

theorem told_concat (h : i ∈ order) (later : ι) : told op s (order ++ [later]) i = told op s order i := by
  rw [told, told, upTo_concat h]

theorem told_last (h : i ∉ order) : told op s (order ++ [i]) i = (op i (after op s order)).1 := by
  rw [told, upTo_last h]

/-! ## At a stage -/

variable [DecidableEq κ] {stage : κ} {log : List (κ × ι)}

/-- What a call has been told at a stage, no later note changes. -/
theorem told_passed_concat (h : (stage, i) ∈ log) (later : κ × ι) :
    told op s (passed stage (log ++ [later])) i = told op s (passed stage log) i := by
  obtain ⟨stage', j⟩ := later
  rw [passed_concat]
  split
  · exact told_concat (mem_passed.2 h) j
  · rfl

theorem told_passed_last (h : (stage, i) ∉ log) :
    told op s (passed stage (log ++ [(stage, i)])) i = (op i (after op s (passed stage log))).1 := by
  rw [passed_concat, if_pos rfl, told_last (mt mem_passed.1 h)]

end Act

/-! ## Steps that come past stages -/

section Run
open Threads
variable {ρ : Type} (act : κ → ι → σ → σ) (start : σ)

/-- What the notes of a log make of a state. -/
def kept (log : List (κ × ι)) : σ := log.foldl (fun s note => act note.1 note.2 s) start

theorem kept_concat (log : List (κ × ι)) (stage : κ) (i : ι) :
    kept act start (log ++ [(stage, i)]) = act stage i (kept act start log) := by
  rw [kept, List.foldl_append]
  rfl

variable (move : Move ι σ ρ) (seen : ι → σ → ρ → Option (κ × ι)) (At : List (κ × ι) → ι → ρ → Prop)

/-- A call waits, or comes past a stage: it acts as the stage has it and goes on to where the notes then have it. -/
inductive Steps (log : List (κ × ι)) (i : ι) (phase : ρ) : Prop where
  | waits (hmove : move i (kept act start log) phase = none) (hseen : seen i (kept act start log) phase = none)
  | passes (stage : κ) (next : ρ)
      (hmove : move i (kept act start log) phase = some (act stage i (kept act start log), next))
      (hseen : seen i (kept act start log) phase = some (stage, i)) (hnext : At (log ++ [(stage, i)]) i next)

/-- Calls whose steps are such, and that other calls leave where they are. -/
structure Staged (phase : ρ) : Prop where
  begins : ∀ i, At [] i phase
  stays : ∀ {log i phase}, At log i phase → ∀ (stage : κ) {k : ι}, k ≠ i → At (log ++ [(stage, k)]) i phase
  steps : ∀ {log i phase}, At log i phase → Steps act start move seen At log i phase

variable {act start move seen At} [DecidableEq ι] {phase : ρ}

/-- Every schedule leaves the state, and each call, as its notes have them. -/
theorem Staged.run (h : Staged act start move seen At phase) (schedule : List ι) :
    (run move (fresh start phase) schedule).shared =
        kept act start (trace move seen (fresh start phase) schedule) ∧
      ∀ i, At (trace move seen (fresh start phase) schedule) i ((run move (fresh start phase) schedule).phase i) := by
  refine run_follows (R := fun log race => race.shared = kept act start log ∧ ∀ i, At log i (race.phase i))
    ⟨rfl, h.begins⟩ (fun log race i hrace => ?_) schedule
  obtain ⟨shared, phases⟩ := race
  obtain ⟨rfl, hat⟩ := hrace
  cases h.steps (hat i) with
  | waits hmove hseen =>
    rw [noted, hseen, turn_none hmove, Option.toList_none, List.append_nil]
    exact ⟨rfl, hat⟩
  | passes stage next hmove hseen hnext =>
    rw [noted, hseen, turn_some hmove, Option.toList_some]
    refine ⟨(kept_concat ..).symm, fun j => ?_⟩
    rcases eq_or_ne j i with rfl | hne
    · simpa only [Function.update_self] using hnext
    · simpa only [Function.update_of_ne hne] using h.stays (hat j) stage hne.symm

end Run

end Stages
