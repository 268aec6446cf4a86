import RustRcp.Lib.Stages
/-!
# Objects with a lock each

Calls side by side go from object to object; at each they hold its lock for one operation,
whose answer says where they go next. A state has such objects as its parts (`part`), and
`Passing` says that every step is an operation on one of them. Then every schedule leaves
each object as the calls that came to it made it, in the order of their coming, and each
call where the answers it was given have led it (`Passing.run`), if no call can come to one
object twice.
-/
open Threads Stages

namespace Objects

variable {κ ι S ρ : Type} {σ : κ → Type} (part : ∀ k, S → σ k) (op : ∀ k, ι → σ k → ρ × σ k)
  (stage : ι → ρ → Option κ) (move : Move ι S ρ) (seen : ι → S → ρ → Option (κ × ι))

structure Passing : Prop where
  waits : ∀ i s {phase}, stage i phase = none → move i s phase = none ∧ seen i s phase = none
  passes : ∀ i s {phase k}, stage i phase = some k → ∃ t, move i s phase = some (t, (op k i (part k s)).1) ∧
    seen i s phase = some (k, i) ∧ part k t = (op k i (part k s)).2 ∧ ∀ k' ≠ k, part k' t = part k' s

/-- The ways from `start` that the objects can send a call. -/
inductive CanPass (start : ρ) (i : ι) : List κ → ρ → Prop where
  | begins : CanPass start i [] start
  | passes {way : List κ} {phase : ρ} {k : κ} (h : CanPass start i way phase) (hstage : stage i phase = some k)
      (s : σ k) : CanPass start i (way ++ [k]) (op k i s).1

/-- No call comes to one object twice. -/
def Once (start : ρ) : Prop :=
  ∀ {i way phase k}, CanPass op stage start i way phase → stage i phase = some k → k ∉ way

variable [DecidableEq κ] [DecidableEq ι] (s : S)

/-- What a log has a call be told at an object. -/
def answer (log : List (κ × ι)) (i : ι) (k : κ) : ρ := told (op k) (part k s) (passed k log) i

/-- The way from `start` that a log has a call go. -/
inductive Way (start : ρ) (log : List (κ × ι)) (i : ι) : List κ → ρ → Prop where
  | begins : Way start log i [] start
  | passes {way : List κ} {phase : ρ} {k : κ} (h : Way start log i way phase) (hstage : stage i phase = some k) :
      Way start log i (way ++ [k]) (answer part op s log i k)

variable {part op stage move seen s} {start phase : ρ} {log : List (κ × ι)} {i : ι} {way : List κ}

theorem Way.canPass (h : Way part op stage s start log i way phase) : CanPass op stage start i way phase := by
  induction h with
  | begins => exact .begins
  | passes h hstage ih => exact .passes ih hstage _

/-- What a call has been told, no later note changes. -/
theorem Way.concat (h : Way part op stage s start log i way phase) (hlog : ∀ k ∈ way, (k, i) ∈ log)
    (later : κ × ι) : Way part op stage s start (log ++ [later]) i way phase := by
  induction h with
  | begins => exact .begins
  | passes h hstage ih =>
    have hnext := Way.passes (ih fun k hk => hlog k (List.mem_append_left _ hk)) hstage
    rwa [answer, told_passed_concat (hlog _ (by simp))] at hnext

/-- Every schedule. -/
theorem Passing.run (h : Passing part op stage move seen) (honce : Once op stage start) (schedule : List ι) :
    (∀ k, part k (run move (fresh s start) schedule).shared =
        after (op k) (part k s) (passed k (trace move seen (fresh s start) schedule))) ∧
      ∀ i, Way part op stage s start (trace move seen (fresh s start) schedule) i
        (stagesOf i (trace move seen (fresh s start) schedule)) ((run move (fresh s start) schedule).phase i) := by
  refine run_follows (R := fun log race => (∀ k, part k race.shared = after (op k) (part k s) (passed k log)) ∧
    ∀ i, Way part op stage s start log i (stagesOf i log) (race.phase i)) ⟨fun _ => rfl, fun _ => .begins⟩
    (fun log race i hrace => ?_) schedule
  obtain ⟨hpart, hway⟩ := hrace
  cases hstage : stage i (race.phase i) with
  | none =>
    obtain ⟨hmove, hseen⟩ := h.waits i race.shared hstage
    rw [noted, hseen, turn_none hmove, Option.toList_none, List.append_nil]
    exact ⟨hpart, hway⟩
  | some k =>
    obtain ⟨t, hmove, hseen, hself, hothers⟩ := h.passes i race.shared hstage
    rw [noted, hseen, turn_some hmove, Option.toList_some]
    constructor
    · intro k'
      rw [passed_concat]
      split
      next heq =>
        subst heq
        rw [after_concat, ← hpart]
        exact hself
      next hne => exact (hothers k' (Ne.symm hne)).trans (hpart k')
    · intro j
      have hnotes : Way part op stage s start (log ++ [(k, i)]) j (stagesOf j log) (race.phase j) :=
        (hway j).concat (fun k' hk' => mem_stagesOf.1 hk') _
      rw [stagesOf_concat]
      rcases eq_or_ne i j with rfl | hne
      · have hfirst : (k, i) ∉ log := fun hmem => honce (hway i).canPass hstage (mem_stagesOf.2 hmem)
        have hanswer : answer part op s (log ++ [(k, i)]) i k = (op k i (part k race.shared)).1 := by
          rw [answer, told_passed_last hfirst, hpart]
        simp only [if_pos, Function.update_self, ← hanswer]
        exact hnotes.passes hstage
      · simp only [if_neg hne, Function.update_of_ne (Ne.symm hne)]
        exact hnotes

end Objects
