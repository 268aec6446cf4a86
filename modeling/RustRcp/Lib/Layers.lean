import RustRcp.Lib.Stateful
import Mathlib.Data.Option.Basic
import Mathlib.Data.List.Basic
/-!
# Services one over another

A service answers requests on a state that can also be adjusted. One that is laid over another
refuses a request, or hands it on as it is and answers what it is answered (`Over`). However
many are laid over one another, they come to one over the lowest (`Over.trans`), and in every
run the lower one has a run of its own: of what is handed on, in order (`Over.run`), with the
answers that come back (`Over.answer`).
-/
open Stateful

namespace Layers

variable {ι κ ε α σ τ υ : Type}

structure Service (ι κ ε α σ : Type) where
  serve : ι → Stateful ε σ α
  adjust : κ → σ → σ

inductive Op (ι κ : Type) where
  | request (i : ι)
  | adjust (c : κ)

def requests (ops : List (Op ι κ)) : List ι :=
  ops.filterMap fun op => match op with
    | .request i => some i
    | .adjust _ => none

namespace Service
variable (service : Service ι κ ε α σ)

def step (s : σ) : Op ι κ → σ
  | .request i => (exec (service.serve i) s).2
  | .adjust c => service.adjust c s

def run (s : σ) (ops : List (Op ι κ)) : σ := ops.foldl service.step s

/-- What a request is answered after a run. -/
def answer (s : σ) (ops : List (Op ι κ)) (i : ι) : Except ε α := (exec (service.serve i) (service.run s ops)).1

/-- The requests of a run with their answers. -/
def told : σ → List (Op ι κ) → List (ι × Except ε α)
  | _, [] => []
  | s, .request i :: ops => (i, (exec (service.serve i) s).1) :: told (service.step s (.request i)) ops
  | s, .adjust c :: ops => told (service.adjust c s) ops

/-- A part of the state that a request changes by itself and its answer, and no adjustment of a run changes. -/
theorem run_told {ρ : Type} (view : σ → ρ) (note : ρ → ι × Except ε α → ρ) {Built : σ → Prop} (ops : List (Op ι κ))
    (hbuilt : ∀ s op, Built s → Built (service.step s op))
    (hrequest : ∀ s i, Built s → view (service.step s (.request i)) = note (view s) (i, (exec (service.serve i) s).1))
    (hadjust : ∀ s c, .adjust c ∈ ops → view (service.adjust c s) = view s) {s : σ} (hs : Built s) :
    view (service.run s ops) = (service.told s ops).foldl note (view s) := by
  induction ops generalizing s with
  | nil => rfl
  | cons op ops ih =>
    have hlater : ∀ s c, .adjust c ∈ ops → view (service.adjust c s) = view s :=
      fun s c hmem => hadjust s c (List.mem_cons_of_mem _ hmem)
    have hrun := ih hlater (hbuilt s op hs)
    cases op with
    | request i =>
      rw [hrequest s i hs] at hrun
      exact hrun
    | adjust c =>
      rw [step, hadjust s c List.mem_cons_self] at hrun
      exact hrun

end Service

/-- One service over another. -/
structure Over (outer : Service ι κ ε α σ) (inner : Service ι κ ε α τ) where
  below : σ → τ
  /-- The error with which a request is refused. -/
  refusal : σ → ι → Option ε
  /-- What an adjustment is to the lower service, if it concerns that. -/
  through : κ → Option κ
  /-- It is the lower service that the state hands on to. -/
  Built : σ → Prop
  built : ∀ s op, Built s → Built (outer.step s op)
  refused : ∀ s i e, Built s → refusal s i = some e →
    (exec (outer.serve i) s).1 = .error e ∧ below (outer.step s (.request i)) = below s
  handed : ∀ s i, Built s → refusal s i = none →
    (exec (outer.serve i) s).1 = (exec (inner.serve i) (below s)).1 ∧
      below (outer.step s (.request i)) = inner.step (below s) (.request i)
  adjusted : ∀ s c, Built s → below (outer.adjust c s) = (through c).elim (below s) fun c' => inner.adjust c' (below s)

namespace Over

def refl (service : Service ι κ ε α σ) : Over service service where
  below := id
  refusal _ _ := none
  through := some
  Built _ := True
  built _ _ _ := trivial
  refused _ _ _ _ h := nomatch h
  handed _ _ _ _ := ⟨rfl, rfl⟩
  adjusted _ _ _ := rfl

section Trans
variable {outer : Service ι κ ε α σ} {middle : Service ι κ ε α τ} {inner : Service ι κ ε α υ}
variable (w : Over outer middle) (v : Over middle inner)

/-- What crosses to the lower service: a request that is not refused, an adjustment that concerns it. -/
def crossing (s : σ) : Op ι κ → Option (Op ι κ)
  | .request i => (w.refusal s i).elim (some (.request i)) fun _ => none
  | .adjust c => (w.through c).map .adjust

theorem crossing_request (s : σ) (i : ι) :
    w.crossing s (.request i) = (w.refusal s i).elim (some (.request i)) fun _ => none := rfl

theorem crossing_adjust (s : σ) (c : κ) : w.crossing s (.adjust c) = (w.through c).map .adjust := rfl

def crossed : σ → List (Op ι κ) → List (Op ι κ)
  | _, [] => []
  | s, op :: ops => (w.crossing s op).toList ++ crossed (outer.step s op) ops

/-- Below, a step is what crosses, or none. -/
theorem step {s : σ} (hs : w.Built s) (op : Op ι κ) :
    w.below (outer.step s op) = (w.crossing s op).elim (w.below s) (middle.step (w.below s)) := by
  cases op with
  | request i =>
    rw [crossing_request]
    cases hrefusal : w.refusal s i with
    | none => exact (w.handed s i hs hrefusal).2
    | some e => exact (w.refused s i e hs hrefusal).2
  | adjust c =>
    have hadjusted := w.adjusted s c hs
    rw [crossing_adjust]
    cases hthrough : w.through c with
    | none =>
      rw [hthrough] at hadjusted
      exact hadjusted
    | some c' =>
      rw [hthrough] at hadjusted
      exact hadjusted

theorem built_run {s : σ} (hs : w.Built s) (ops : List (Op ι κ)) : w.Built (outer.run s ops) := by
  induction ops generalizing s with
  | nil => exact hs
  | cons op ops ih => exact ih (w.built s op hs)

/-- Below, a run is what crosses. -/
theorem run {s : σ} (hs : w.Built s) (ops : List (Op ι κ)) :
    w.below (outer.run s ops) = middle.run (w.below s) (w.crossed s ops) := by
  induction ops generalizing s with
  | nil => rfl
  | cons op ops ih =>
    have hrun : w.below (outer.run (outer.step s op) ops) = _ := ih (w.built s op hs)
    rw [w.step hs] at hrun
    unfold crossed
    cases hcrossing : w.crossing s op with
    | none =>
      rw [hcrossing] at hrun
      exact hrun
    | some op' =>
      rw [hcrossing] at hrun
      exact hrun

/-- A request is refused, or answered what it is answered below. -/
theorem answer {s : σ} (hs : w.Built s) (ops : List (Op ι κ)) (i : ι) :
    outer.answer s ops i =
      (w.refusal (outer.run s ops) i).elim (middle.answer (w.below s) (w.crossed s ops) i) .error := by
  have hbuilt := w.built_run hs ops
  unfold Service.answer
  cases hrefusal : w.refusal (outer.run s ops) i with
  | none =>
    rw [(w.handed _ i hbuilt hrefusal).1, w.run hs]
    rfl
  | some e => exact (w.refused _ i e hbuilt hrefusal).1

/-- Requests cross in their order, and none twice. -/
theorem requests_crossed (s : σ) (ops : List (Op ι κ)) : (requests (w.crossed s ops)).Sublist (requests ops) := by
  induction ops generalizing s with
  | nil => exact .slnil
  | cons op ops ih =>
    unfold crossed
    cases op with
    | request i =>
      rw [crossing_request]
      cases w.refusal s i with
      | none => exact (ih _).cons_cons i
      | some e => exact (ih _).cons i
    | adjust c =>
      rw [crossing_adjust]
      cases w.through c with
      | none => exact ih _
      | some c' => exact ih _

/-- An adjustment that crosses comes from one that concerns the lower service. -/
theorem adjust_crossed {s : σ} {ops : List (Op ι κ)} {c' : κ} (h : .adjust c' ∈ w.crossed s ops) :
    ∃ c, .adjust c ∈ ops ∧ w.through c = some c' := by
  induction ops generalizing s with
  | nil => cases h
  | cons op ops ih =>
    rcases List.mem_append.1 h with hfirst | hlater
    · rw [Option.mem_toList] at hfirst
      cases op with
      | request i =>
        rw [crossing_request] at hfirst
        cases hrefusal : w.refusal s i <;> rw [hrefusal] at hfirst <;> cases hfirst
      | adjust c =>
        rw [crossing_adjust, Option.map_eq_some_iff] at hfirst
        obtain ⟨through, hthrough, heq⟩ := hfirst
        cases heq
        exact ⟨c, List.mem_cons_self, hthrough⟩
    · obtain ⟨c, hmem, hthrough⟩ := ih hlater
      exact ⟨c, List.mem_cons_of_mem _ hmem, hthrough⟩

/-- Where none is refused, all cross. -/
theorem requests_open {s : σ} {ops : List (Op ι κ)}
    (h : ∀ earlier i later, ops = earlier ++ .request i :: later → w.refusal (outer.run s earlier) i = none) :
    requests (w.crossed s ops) = requests ops := by
  induction ops generalizing s with
  | nil => rfl
  | cons op ops ih =>
    have hlater : requests (w.crossed (outer.step s op) ops) = requests ops :=
      ih fun earlier i later heq => h (op :: earlier) i later (by rw [heq]; rfl)
    unfold crossed
    cases op with
    | request i =>
      have hnone : w.refusal s i = none := h [] i ops rfl
      rw [crossing_request, hnone]
      exact congrArg (i :: ·) hlater
    | adjust c =>
      rw [crossing_adjust]
      cases w.through c with
      | none => exact hlater
      | some c' => exact hlater

/-- The upper one is asked first. -/
def trans : Over outer inner where
  below s := v.below (w.below s)
  refusal s i := w.refusal s i <|> v.refusal (w.below s) i
  through c := (w.through c).bind v.through
  Built s := w.Built s ∧ v.Built (w.below s)
  built s op h := by
    refine ⟨w.built s op h.1, ?_⟩
    rw [w.step h.1]
    cases w.crossing s op with
    | none => exact h.2
    | some op' => exact v.built _ op' h.2
  refused s i e h hrefusal := by
    cases hupper : w.refusal s i with
    | some e' =>
      rw [hupper] at hrefusal
      cases hrefusal
      obtain ⟨hanswer, hbelow⟩ := w.refused s i e h.1 hupper
      exact ⟨hanswer, congrArg v.below hbelow⟩
    | none =>
      rw [hupper] at hrefusal
      obtain ⟨hanswer, hbelow⟩ := w.handed s i h.1 hupper
      obtain ⟨hanswer', hbelow'⟩ := v.refused (w.below s) i e h.2 hrefusal
      exact ⟨hanswer.trans hanswer', (congrArg v.below hbelow).trans hbelow'⟩
  handed s i h hrefusal := by
    cases hupper : w.refusal s i with
    | some e =>
      rw [hupper] at hrefusal
      cases hrefusal
    | none =>
      rw [hupper] at hrefusal
      obtain ⟨hanswer, hbelow⟩ := w.handed s i h.1 hupper
      obtain ⟨hanswer', hbelow'⟩ := v.handed (w.below s) i h.2 hrefusal
      exact ⟨hanswer.trans hanswer', (congrArg v.below hbelow).trans hbelow'⟩
  adjusted s c h := by
    rw [w.adjusted s c h.1]
    cases w.through c with
    | none => rfl
    | some c' => exact v.adjusted (w.below s) c' h.2

end Trans

end Over

end Layers
