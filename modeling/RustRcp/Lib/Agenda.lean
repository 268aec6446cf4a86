import RustRcp.Lib.Selection
import RustRcp.Lib.Since
import Mathlib.Data.List.Nodup
/-!
# An agenda kept up as it is worked off

Items come in, the one of least key is taken, and some are dropped, in any order. Every item
that has come in has been taken once, dropped once, or is still there (`conserved`). Whenever
one is taken, none that is there has a lesser key (`taken_least`), so an item that is there
waits only for those of lesser keys, and no longer than there are such (`wait_bounded`).
-/
open scoped List
open Selection

namespace Agenda

variable {α κ : Type} [LinearOrder κ] (key : α → κ)

inductive Op (α : Type) where
  | add (x : α)
  | take
  /-- Drop those for which `p` holds. -/
  | drop (p : α → Bool)

inductive Note (α : Type) where
  | added (x : α)
  | taken (x : α)
  | dropped (x : α)

/-- What is noted so far, and what is there. -/
def step (here : List (Note α) × List α) : Op α → List (Note α) × List α
  | .add x => (here.1 ++ [.added x], here.2 ++ [x])
  | .take =>
    match takeLeast key here.2 with
    | none => here
    | some (x, rest) => (here.1 ++ [.taken x], rest)
  | .drop p => (here.1 ++ (here.2.filter p).map .dropped, here.2.filter fun x => !p x)

def run (ops : List (Op α)) : List (Note α) × List α := ops.foldl (step key) ([], [])

def added (log : List (Note α)) : List α :=
  log.filterMap fun note => match note with
    | .added x => some x
    | .taken _ | .dropped _ => none

def taken (log : List (Note α)) : List α :=
  log.filterMap fun note => match note with
    | .taken x => some x
    | .added _ | .dropped _ => none

def dropped (log : List (Note α)) : List α :=
  log.filterMap fun note => match note with
    | .dropped x => some x
    | .added _ | .taken _ => none

/-- It has come in, and has been neither taken nor dropped. -/
def Waiting (log : List (Note α)) (x : α) : Prop := x ∈ added log ∧ x ∉ taken log ∧ x ∉ dropped log

section Logs
variable (log notes : List (Note α)) (xs : List α)

@[simp] theorem added_append : added (log ++ notes) = added log ++ added notes := List.filterMap_append ..
@[simp] theorem taken_append : taken (log ++ notes) = taken log ++ taken notes := List.filterMap_append ..
@[simp] theorem dropped_append : dropped (log ++ notes) = dropped log ++ dropped notes := List.filterMap_append ..
@[simp] theorem added_dropped : added (xs.map .dropped) = [] := by simp [added, List.filterMap_map]
@[simp] theorem taken_dropped : taken (xs.map .dropped) = [] := by simp [taken, List.filterMap_map]
@[simp] theorem dropped_dropped : dropped (xs.map .dropped) = xs := by
  simp only [dropped, List.filterMap_map]
  exact List.filterMap_some

end Logs

variable {key} {xs rest : List α} {x : α} {log : List (Note α)}

/-! ## One item -/

theorem takeLeast_perm (h : takeLeast key xs = some (x, rest)) : xs ~ x :: rest := by
  have hsorted := (sorted_perm key xs).symm
  rw [sorted_of_takeLeast h] at hsorted
  exact hsorted.trans ((sorted_perm key rest).cons x)

theorem takeLeast_least (h : takeLeast key xs = some (x, rest)) : ∀ y ∈ rest, key x ≤ key y := by
  have hsorted := sorted_pairwise key xs
  rw [sorted_of_takeLeast h, List.pairwise_cons] at hsorted
  exact fun y hy => hsorted.1 y ((sorted_perm key rest).mem_iff.2 hy)

/-! ## A run -/

/-- What has come in is what has been taken, what has been dropped and what is there. -/
def Conserved (here : List (Note α) × List α) : Prop := added here.1 ~ taken here.1 ++ dropped here.1 ++ here.2

theorem Conserved.step {here : List (Note α) × List α} (h : Conserved here) (op : Op α) :
    Conserved (Agenda.step key here op) := by
  obtain ⟨log, xs⟩ := here
  unfold Conserved at h ⊢
  cases op with
  | add x =>
    simp only [Agenda.step, added_append, taken_append, dropped_append]
    change _ ++ [x] ~ _ ++ [] ++ (_ ++ []) ++ _
    rw [List.append_nil, List.append_nil, ← List.append_assoc]
    exact h.append_right [x]
  | take =>
    simp only [Agenda.step]
    split
    · exact h
    · next x rest hnext =>
      simp only [added_append, taken_append, dropped_append]
      change _ ++ [] ~ _ ++ [x] ++ (_ ++ []) ++ _
      calc added log ++ []
          = added log := List.append_nil _
        _ ~ taken log ++ dropped log ++ xs := h
        _ ~ taken log ++ dropped log ++ x :: rest := (takeLeast_perm hnext).append_left _
        _ ~ x :: (taken log ++ dropped log ++ rest) := List.perm_middle
        _ = x :: (taken log ++ (dropped log ++ rest)) := by rw [List.append_assoc]
        _ ~ taken log ++ x :: (dropped log ++ rest) := List.perm_middle.symm
        _ = taken log ++ [x] ++ (dropped log ++ []) ++ rest := by simp
  | drop p =>
    simp only [Agenda.step, added_append, taken_append, dropped_append, added_dropped, taken_dropped, dropped_dropped,
      List.append_nil]
    calc added log
        ~ taken log ++ dropped log ++ xs := h
      _ ~ taken log ++ dropped log ++ (xs.filter p ++ xs.filter fun x => !p x) :=
        (List.filter_append_perm p xs).symm.append_left _
      _ = taken log ++ (dropped log ++ xs.filter p) ++ xs.filter fun x => !p x := by simp

theorem run_concat (ops : List (Op α)) (op : Op α) : run key (ops ++ [op]) = step key (run key ops) op := by
  rw [run, List.foldl_append]
  rfl

variable (key) in
theorem conserved (ops : List (Op α)) : Conserved (run key ops) := by
  induction ops using List.reverseRecOn with
  | nil => exact .nil
  | append_singleton ops op ih =>
    rw [run_concat]
    exact ih.step op

/-! ## What is there -/

section Keyed
variable (h : Conserved (log, xs)) (hnodup : (added log).Nodup)
include h hnodup

/-- What is there is what waits. -/
theorem mem_iff : x ∈ xs ↔ Waiting log x := by
  have hperm : (taken log ++ dropped log ++ xs).Nodup := h.nodup_iff.1 hnodup
  rw [List.nodup_append'] at hperm
  obtain ⟨-, -, hdisjoint⟩ := hperm
  constructor
  · intro hx
    refine ⟨h.mem_iff.2 (List.mem_append_right _ hx), fun htaken => ?_, fun hdropped => ?_⟩
    · exact hdisjoint (List.mem_append_left _ htaken) hx
    · exact hdisjoint (List.mem_append_right _ hdropped) hx
  · rintro ⟨hadded, htaken, hdropped⟩
    have hmem := h.mem_iff.1 hadded
    rw [List.mem_append, List.mem_append] at hmem
    obtain (hmem | hmem) | hmem := hmem
    · exact absurd hmem htaken
    · exact absurd hmem hdropped
    · exact hmem

end Keyed

/-- What is taken has the least key of all that wait. -/
def Least (key : α → κ) (log : List (Note α)) : Prop :=
  ∀ before x after, log = before ++ .taken x :: after → ∀ y, Waiting before y → key x ≤ key y

theorem Least.step {here : List (Note α) × List α} (h : Least key here.1) (hconserved : Conserved here)
    (hnodup : (added here.1).Nodup) (op : Op α) : Least key (Agenda.step key here op).1 := by
  obtain ⟨log, xs⟩ := here
  cases op with
  | add x =>
    intro before y after heq
    obtain ⟨rest, hlog, -⟩ | ⟨-, hnote, -⟩ := split_concat heq
    · exact h before y rest hlog
    · cases hnote
  | drop p =>
    intro before y after heq
    obtain ⟨rest, hlog, -⟩ | ⟨early, -, hnotes⟩ := split_append heq
    · exact h before y rest hlog
    · have hmem : Note.taken y ∈ (xs.filter p).map Note.dropped := by simp [hnotes]
      simp at hmem
  | take =>
    simp only [Agenda.step]
    split
    · exact h
    · next x rest hnext =>
      intro before y after heq
      obtain ⟨earlier, hlog, -⟩ | ⟨rfl, hnote, -⟩ := split_concat heq
      · exact h before y earlier hlog
      · cases hnote
        intro z hz
        have hmem := (takeLeast_perm hnext).mem_iff.1 ((mem_iff hconserved hnodup).2 hz)
        rcases List.mem_cons.1 hmem with rfl | hmem
        · exact le_rfl
        · exact takeLeast_least hnext z hmem

variable (key) in
/-- Steps only add to what has come in. -/
theorem added_step (here : List (Note α) × List α) (op : Op α) :
    added here.1 <+: added (Agenda.step key here op).1 := by
  obtain ⟨log, xs⟩ := here
  unfold Agenda.step
  cases op with
  | add x => exact ⟨[x], (added_append log [.added x]).symm⟩
  | drop p => exact ⟨[], by simp⟩
  | take =>
    dsimp only
    split
    · exact List.prefix_rfl
    · exact ⟨[], by simp [added]⟩

variable (key) in
theorem taken_least (ops : List (Op α)) (hnodup : (added (run key ops).1).Nodup) : Least key (run key ops).1 := by
  induction ops using List.reverseRecOn with
  | nil => exact fun before x after heq => absurd heq (by simp [run])
  | append_singleton ops op ih =>
    rw [run_concat] at hnodup ⊢
    have hbefore : (added (run key ops).1).Nodup := hnodup.sublist (added_step key (run key ops) op).sublist
    exact (ih hbefore).step (conserved key ops) hbefore op

/-- What waits has waited only for what has no greater key. -/
theorem taken_while_waiting {before after : List (Note α)} (h : Least key (before ++ .added x :: after))
    (hx : Waiting (before ++ .added x :: after) x) : ∀ y ∈ taken after, key y ≤ key x := by
  intro y hy
  rw [taken, List.mem_filterMap] at hy
  obtain ⟨note, hnote, hy⟩ := hy
  obtain ⟨early, late, rfl⟩ := List.append_of_mem hnote
  cases note with
  | taken z =>
    cases hy
    have hlog :
        before ++ .added x :: (early ++ .taken y :: late) = before ++ .added x :: early ++ .taken y :: late := by
      simp
    rw [hlog] at h hx
    obtain ⟨-, htaken, hdropped⟩ := hx
    refine h _ y late rfl x ⟨by simp [added], fun hmem => htaken ?_, fun hmem => hdropped ?_⟩
    · rw [taken_append]
      exact List.mem_append_left _ hmem
    · rw [dropped_append]
      exact List.mem_append_left _ hmem
  | added z => cases hy
  | dropped z => cases hy

/-- And it waits for no more than there are of lesser keys. -/
theorem wait_bounded {before after : List (Note α)} (hconserved : Conserved (before ++ .added x :: after, xs))
    (hkeys : ((added (before ++ .added x :: after)).map key).Nodup) (h : Least key (before ++ .added x :: after))
    (hx : Waiting (before ++ .added x :: after) x) :
    (∀ y ∈ taken after, key y < key x) ∧
      (taken after).length ≤ ((added (before ++ .added x :: after)).filter fun y => key y < key x).length := by
  have hsplit : taken (before ++ .added x :: after) = taken before ++ taken after :=
    taken_append before (.added x :: after)
  have hadded : ∀ y ∈ taken after, y ∈ added (before ++ .added x :: after) := by
    intro y hy
    refine hconserved.mem_iff.2 (List.mem_append_left _ (List.mem_append_left _ ?_))
    exact hsplit ▸ List.mem_append_right _ hy
  have hless : ∀ y ∈ taken after, key y < key x := by
    intro y hy
    refine lt_of_le_of_ne (taken_while_waiting h hx y hy) fun hkey => ?_
    obtain rfl := List.inj_on_of_nodup_map hkeys (hadded y hy) hx.1 hkey
    exact hx.2.1 (hsplit ▸ List.mem_append_right _ hy)
  have hnodup := hconserved.nodup_iff.1 hkeys.of_map
  rw [hsplit] at hnodup
  have htaken : (taken after).Nodup := hnodup.sublist (by simp)
  exact ⟨hless, (List.subperm_of_subset htaken fun y hy =>
    List.mem_filter.2 ⟨hadded y hy, decide_eq_true (hless y hy)⟩).length_le⟩

/-- What has been taken is in turn before what waits, and among itself. -/
def InTurn (R : α → α → Prop) (here : List (Note α) × List α) : Prop :=
  (taken here.1).Pairwise R ∧ ∀ x ∈ taken here.1, ∀ y ∈ here.2, R x y

variable (key) in
/-- If what comes in is in turn, and a lesser key is in turn before a greater one, then what is taken is in turn. -/
theorem taken_in_turn {R : α → α → Prop} (hkey : ∀ x y, key x < key y → R x y) (ops : List (Op α))
    (hkeys : ((added (run key ops).1).map key).Nodup) (hturn : (added (run key ops).1).Pairwise R) :
    InTurn R (run key ops) := by
  induction ops using List.reverseRecOn with
  | nil => exact ⟨.nil, by simp [run, taken]⟩
  | append_singleton ops op ih =>
    have hconserved : Conserved (run key ops) := conserved key ops
    rw [run_concat] at hkeys hturn ⊢
    have hsublist := (added_step key (run key ops) op).sublist
    have hih := ih (hkeys.sublist (hsublist.map key)) (hturn.sublist hsublist)
    generalize run key ops = here at hconserved hih hkeys hturn ⊢
    obtain ⟨log, xs⟩ := here
    obtain ⟨hpairwise, hwaits⟩ := hih
    cases op with
    | add x =>
      change (added (log ++ [.added x])).Pairwise R at hturn
      rw [added_append, List.pairwise_append] at hturn
      refine ⟨by simpa [Agenda.step, taken] using hpairwise, fun y hy z hz => ?_⟩
      simp only [Agenda.step, taken_append] at hy
      change y ∈ taken log ++ [] at hy
      rw [List.append_nil] at hy
      rcases List.mem_append.1 hz with hz | hz
      · exact hwaits y hy z hz
      · have hadded : y ∈ added log := hconserved.mem_iff.2 (List.mem_append_left _ (List.mem_append_left _ hy))
        exact hturn.2.2 y hadded z hz
    | take =>
      simp only [Agenda.step] at hkeys ⊢
      split at hkeys
      next hnone => exact ⟨hpairwise, hwaits⟩
      next x rest hnext =>
        have hperm : xs ~ x :: rest := takeLeast_perm hnext
        have hdistinct : ((x :: rest).map key).Nodup := by
          have hadded : ((added log).map key).Nodup := by simpa [added] using hkeys
          have hall := ((hconserved.trans (hperm.append_left _)).map key).nodup_iff.1 hadded
          exact hall.sublist ((List.sublist_append_right _ _).map key)
        rw [List.map_cons, List.nodup_cons] at hdistinct
        refine ⟨?_, fun y hy z hz => ?_⟩
        · rw [taken_append, List.pairwise_append]
          refine ⟨hpairwise, List.pairwise_singleton R x, fun y hy z hz => ?_⟩
          obtain rfl := List.mem_singleton.1 hz
          exact hwaits y hy z (hperm.mem_iff.2 List.mem_cons_self)
        · rw [taken_append, List.mem_append] at hy
          rcases hy with hy | hy
          · exact hwaits y hy z (hperm.mem_iff.2 (List.mem_cons_of_mem _ hz))
          · obtain rfl := List.mem_singleton.1 hy
            refine hkey y z (lt_of_le_of_ne (takeLeast_least hnext z hz) fun heq => hdistinct.1 ?_)
            exact heq ▸ List.mem_map_of_mem hz
    | drop p =>
      simp only [InTurn, Agenda.step, taken_append, taken_dropped, List.append_nil]
      exact ⟨hpairwise, fun y hy z hz => hwaits y hy z (List.mem_filter.1 hz).1⟩

end Agenda
