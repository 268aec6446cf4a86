import Mathlib.Data.List.Induction
/-!
# What has happened so far

`Since P Q log`: at some item of `log` there was `P`, which may look at the log before the item,
and at every item since there was `Q`. A state that is what a run's items made of it is described by
such statements: `past_run` carries one along a run, `since_concat` tells what one more item does.
-/

variable {ρ σ : Type}

def Since (P : List ρ → ρ → Prop) (Q : ρ → Prop) (log : List ρ) : Prop :=
  ∃ before item after, log = before ++ item :: after ∧ P before item ∧ ∀ later ∈ after, Q later

variable {P : List ρ → ρ → Prop} {Q : ρ → Prop} {log : List ρ} {item : ρ}

/-- An item of a log that goes on is one from before, or among those that are new. -/
theorem split_append {log notes before after : List ρ} {item : ρ} (h : log ++ notes = before ++ item :: after) :
    (∃ rest, log = before ++ item :: rest ∧ after = rest ++ notes) ∨
      ∃ early, before = log ++ early ∧ notes = early ++ item :: after := by
  rcases List.append_eq_append_iff.1 h with ⟨early, hbefore, hnotes⟩ | ⟨rest, hlog, hrest⟩
  · exact .inr ⟨early, hbefore, hnotes⟩
  · rcases List.cons_eq_append_iff.1 hrest with ⟨rfl, hnotes⟩ | ⟨rest, rfl, hafter⟩
    · exact .inr ⟨[], by simpa using hlog.symm, hnotes⟩
    · exact .inl ⟨rest, hlog, hafter⟩

/-- With one new item, that is one from before or the last. -/
theorem split_concat {log before after : List ρ} {item last : ρ} (h : log ++ [last] = before ++ item :: after) :
    (∃ rest, log = before ++ item :: rest ∧ after = rest ++ [last]) ∨ before = log ∧ item = last ∧ after = [] := by
  refine (split_append h).imp_right ?_
  rintro ⟨_ | ⟨first, early⟩, hbefore, hnotes⟩
  · obtain ⟨rfl, rfl⟩ := List.cons_eq_cons.1 hnotes
    exact ⟨by simpa using hbefore, rfl, rfl⟩
  · cases early <;> cases (List.cons_eq_cons.1 hnotes).2

@[simp] theorem not_since_nil : ¬ Since P Q [] := by
  rintro ⟨before, item, after, h, -⟩
  exact List.append_ne_nil_of_right_ne_nil before (List.cons_ne_nil item after) h.symm

@[simp] theorem since_concat : Since P Q (log ++ [item]) ↔ P log item ∨ (Q item ∧ Since P Q log) := by
  constructor
  · rintro ⟨before, found, after, heq, hfound, hsince⟩
    obtain ⟨rest, rfl, rfl⟩ | ⟨rfl, rfl, -⟩ := split_concat heq
    · simp only [List.forall_mem_append, List.forall_mem_singleton] at hsince
      exact .inr ⟨hsince.2, before, found, rest, rfl, hfound, hsince.1⟩
    · exact .inl hfound
  · rintro (hitem | ⟨hQ, before, found, after, rfl, hfound, hsince⟩)
    · exact ⟨log, item, [], rfl, hitem, nofun⟩
    · refine ⟨before, found, after ++ [item], by simp, hfound, ?_⟩
      simp only [List.forall_mem_append, List.forall_mem_singleton]
      exact ⟨hsince, hQ⟩

/-- What holds of the empty log and the start, and stays true as an item is done, holds of every run. -/
theorem past_run {next : σ → ρ → σ} {I : List ρ → σ → Prop} {s : σ} (h0 : I [] s)
    (hstep : ∀ log t item, I log t → I (log ++ [item]) (next t item)) (log : List ρ) : I log (log.foldl next s) := by
  induction log using List.reverseRecOn with
  | nil => exact h0
  | append_singleton log item ih =>
    rw [List.foldl_append, List.foldl_cons, List.foldl_nil]
    exact hstep log _ item ih
