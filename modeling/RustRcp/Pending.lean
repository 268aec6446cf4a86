import RustRcp.Error
import RustRcp.Lib.Selection
import Mathlib.Data.Prod.Lex
import Mathlib.Data.List.Induction
/-!
# The order of execution

Request kinds, the tiers they execute in, the choice of the next pending request and the
purge on a watchdog overflow (`src/request.rs`). Choosing, executing and removing drains
any list of requests in the order `execution_order` states.
-/
open Selection

namespace RustRcp

/-! ## Kinds and tiers -/

inductive RequestKind where
  | Standard
  | Chained
  | ClearAll
  | ClearNonSafestate
  | ClearSingle
  | Timed
  | CompoundWait
  | Triggered
  | Compound
  | SafetyCompoundWait
  | SafetyTriggered
  | SafetyCompound
  deriving DecidableEq, Repr

def RequestKind.is_safety_tagged : RequestKind → Bool
  | .SafetyCompound | .SafetyCompoundWait | .SafetyTriggered => true
  | _ => false

/-- In the order of declaration, the highest priority first. -/
inductive ExecutionPriorityTier where
  | Cancellation
  | Triggered
  | Timed
  | Compound
  | CompoundWait
  | Chained
  | Standard
  deriving DecidableEq, Repr

namespace ExecutionPriorityTier

/-- The place in the declaration, which the derived order goes by. -/
def ordinal : ExecutionPriorityTier → Nat
  | .Cancellation => 0
  | .Triggered => 1
  | .Timed => 2
  | .Compound => 3
  | .CompoundWait => 4
  | .Chained => 5
  | .Standard => 6

theorem ordinal_injective : Function.Injective ordinal := by
  intro tier tier' h
  cases tier <;> cases tier' <;> first | rfl | cases h

instance : LinearOrder ExecutionPriorityTier := LinearOrder.lift' ordinal ordinal_injective

end ExecutionPriorityTier

def execution_priority_tier : RequestKind → ExecutionPriorityTier
  | .ClearAll | .ClearNonSafestate | .ClearSingle => .Cancellation
  | .Triggered | .SafetyTriggered => .Triggered
  | .Timed => .Timed
  | .Compound | .SafetyCompound => .Compound
  | .CompoundWait | .SafetyCompoundWait => .CompoundWait
  | .Chained => .Chained
  | .Standard => .Standard

structure PendingRequestKey where
  kind : RequestKind
  arrival_seq : UInt64
  deriving DecidableEq, Repr

/-! ## Selection -/

/-- `Iterator::min_by_key`: the first of the least. -/
def min_by_key {α κ : Type} [LinearOrder κ] (f : α → κ) : List α → Option α
  | [] => none
  | x :: xs => some (xs.foldl (fun least y => if f y < f least then y else least) x)

/-- The pair requests are compared by. -/
def rank (key : PendingRequestKey) : ExecutionPriorityTier ×ₗ Nat :=
  toLex (execution_priority_tier key.kind, key.arrival_seq.toNat)

def select_next_pending_request (pending : List PendingRequestKey) : Option Nat :=
  (min_by_key (fun entry => rank entry.1) pending.zipIdx).map Prod.snd

/-- The request that is executed next, and those still pending then. -/
def execute_next (pending : List PendingRequestKey) : Option (PendingRequestKey × List PendingRequestKey) := do
  let index ← select_next_pending_request pending
  let key ← pending[index]?
  return (key, pending.eraseIdx index)

/-! ## Purge -/

def check_watchdog_overflow_purge (kind : RequestKind) (watchdog_overflowed : Bool) : Except RcpError Unit :=
  if watchdog_overflowed && !kind.is_safety_tagged then .error .RequestCanceled else .ok ()

def purge_normal_priority_on_watchdog_overflow (pending : List PendingRequestKey) (watchdog_overflowed : Bool) :
    List Nat × List Nat :=
  pending.zipIdx.foldl (fun (kept, purged) (key, index) =>
    match check_watchdog_overflow_purge key.kind watchdog_overflowed with
    | .ok () => (kept ++ [index], purged)
    | .error _ => (kept, purged ++ [index])) ([], [])

/-! ## What is executed next -/

/-- What is least stands behind greater ones only, and in front of none that are less. -/
theorem min_by_key_spec {α κ : Type} [LinearOrder κ] {f : α → κ} {xs : List α} {least : α}
    (h : min_by_key f xs = some least) :
    ∃ before after, xs = before ++ least :: after ∧ (∀ y ∈ before, f least < f y) ∧ ∀ y ∈ after, f least ≤ f y := by
  cases xs with
  | nil => cases h
  | cons x xs =>
    induction xs using List.reverseRecOn generalizing least with
    | nil =>
      cases h
      exact ⟨[], [], rfl, by simp, by simp⟩
    | append_singleton xs y ih =>
      obtain ⟨before, after, heq, hbefore, hafter⟩ := ih rfl
      rw [min_by_key, List.foldl_concat, Option.some.injEq] at h
      rw [← List.cons_append, heq]
      split_ifs at h with hless
      · subst h
        refine ⟨before ++ _ :: after, [], rfl, fun z hz => ?_, by simp⟩
        rcases List.mem_append.1 hz with hz | hz
        · exact hless.trans (hbefore z hz)
        · rcases List.mem_cons.1 hz with rfl | hz
          · exact hless
          · exact hless.trans_le (hafter z hz)
      · subst h
        refine ⟨before, after ++ [y], by simp, hbefore, fun z hz => ?_⟩
        rcases List.mem_append.1 hz with hz | hz
        · exact hafter z hz
        · rw [List.mem_singleton.1 hz]
          exact not_lt.1 hless

/-- What holds of the numbered elements of a list holds of its elements. -/
theorem forall_of_zipIdx {α : Type} {p : α → Prop} {xs : List α} {k : Nat} (h : ∀ entry ∈ xs.zipIdx k, p entry.1) :
    ∀ x ∈ xs, p x := by
  intro x hx
  rw [← List.zipIdx_map_fst k xs] at hx
  obtain ⟨entry, hentry, rfl⟩ := List.mem_map.1 hx
  exact h entry hentry

/-- The index selected is that of the first request of least rank. -/
theorem execute_next_eq : execute_next = takeLeast rank := by
  funext pending
  cases hselect : min_by_key (fun entry : PendingRequestKey × Nat => rank entry.1) pending.zipIdx with
  | none =>
    cases pending with
    | nil => rfl
    | cons key pending => cases hselect
  | some entry =>
    obtain ⟨before, after, heq, hbefore, hafter⟩ := min_by_key_spec hselect
    obtain ⟨earlier, rest, rfl, rfl, hrest⟩ := List.zipIdx_eq_append_iff.1 heq
    obtain ⟨key, later, rfl, rfl, rfl⟩ := List.zipIdx_eq_cons_iff.1 hrest.symm
    rw [takeLeast_append (forall_of_zipIdx hbefore) (forall_of_zipIdx hafter), execute_next,
      select_next_pending_request, hselect]
    simp [List.eraseIdx_append_of_length_le]

/-! ## What is purged -/

/-- The request is not purged. -/
def stays (watchdog_overflowed : Bool) (key : PendingRequestKey) : Bool :=
  (check_watchdog_overflow_purge key.kind watchdog_overflowed).isOk

@[simp] theorem stays_iff (watchdog_overflowed : Bool) (key : PendingRequestKey) :
    stays watchdog_overflowed key = true ↔ watchdog_overflowed = true → key.kind.is_safety_tagged = true := by
  unfold stays check_watchdog_overflow_purge
  cases watchdog_overflowed <;> cases key.kind.is_safety_tagged <;> decide

/-- The indices at which the requests stay, or do not. -/
def indices (pending : List PendingRequestKey) (p : PendingRequestKey → Bool) : List Nat :=
  (pending.zipIdx.filter fun entry => p entry.1).map Prod.snd

/-- The requests at some indices. -/
def requests_at (pending : List PendingRequestKey) (indices : List Nat) : List PendingRequestKey :=
  indices.filterMap fun index => pending[index]?

theorem purge_spec (pending : List PendingRequestKey) (watchdog_overflowed : Bool) :
    purge_normal_priority_on_watchdog_overflow pending watchdog_overflowed =
      (indices pending (stays watchdog_overflowed), indices pending fun key => !stays watchdog_overflowed key) := by
  unfold purge_normal_priority_on_watchdog_overflow indices
  induction pending.zipIdx using List.reverseRecOn with
  | nil => rfl
  | append_singleton entries entry ih =>
    rw [List.foldl_concat, ih, List.filter_append, List.filter_append, List.map_append, List.map_append]
    cases hcheck : check_watchdog_overflow_purge entry.1.kind watchdog_overflowed <;>
      simp [stays, hcheck, Except.isOk, Except.toBool]

theorem indices_sublist (pending : List PendingRequestKey) (p : PendingRequestKey → Bool) :
    (indices pending p).Sublist (List.range pending.length) := by
  rw [← List.zipIdx_map_snd 0 pending |>.trans List.range_eq_range'.symm]
  exact List.filter_sublist.map Prod.snd

/-- Every index is on one of the two sides. -/
theorem indices_perm (pending : List PendingRequestKey) (p : PendingRequestKey → Bool) :
    (indices pending p ++ indices pending fun key => !p key).Perm (List.range pending.length) := by
  rw [← List.zipIdx_map_snd 0 pending |>.trans List.range_eq_range'.symm, indices, indices, ← List.map_append]
  exact (List.filter_append_perm (fun entry => p entry.1) pending.zipIdx).map Prod.snd

theorem mem_indices {pending : List PendingRequestKey} {p : PendingRequestKey → Bool} {index : Nat}
    (h : index < pending.length) : index ∈ indices pending p ↔ p pending[index] = true := by
  simp [indices, List.mk_mem_zipIdx_iff_getElem?, h]

theorem requests_at_indices (pending : List PendingRequestKey) (p : PendingRequestKey → Bool) :
    requests_at pending (indices pending p) = pending.filter p := by
  have hentry : ∀ entry ∈ pending.zipIdx.filter (fun entry => p entry.1),
      ((fun index => pending[index]?) ∘ Prod.snd) entry = (some ∘ Prod.fst) entry :=
    fun entry hentry => List.mem_zipIdx_iff_getElem?.1 (List.mem_filter.1 hentry).1
  rw [requests_at, indices, List.filterMap_map, List.filterMap_congr hentry, List.filterMap_eq_map]
  calc (pending.zipIdx.filter fun entry => p entry.1).map Prod.fst
      = (pending.zipIdx.map Prod.fst).filter p := List.filter_map.symm
    _ = pending.filter p := by rw [List.zipIdx_map_fst]

/-- What stays is drained in the order it has among all. -/
theorem drain_filter (pending : List PendingRequestKey) (p : PendingRequestKey → Bool) :
    (drain execute_next (pending.filter p).length (pending.filter p)).1 =
      (drain execute_next pending.length pending).1.filter p := by
  rw [execute_next_eq, drain_length, drain_length, filter_sorted]

/-! ## Drained -/

/-- Draining a list executes the requests in the order of a stable sort, each once, and leaves none. -/
structure Drained (pending : List PendingRequestKey) : Prop where
  order : (drain execute_next pending.length pending).1 = sorted rank pending
  once : (drain execute_next pending.length pending).1.Perm pending
  stable : ∀ r, ((drain execute_next pending.length pending).1.filter fun key => rank key = r) =
    pending.filter fun key => rank key = r
  empty : (drain execute_next pending.length pending).2 = []
  priority : ∀ n key rest, execute_next (drain execute_next n pending).2 = some (key, rest) → ∀ other ∈ rest,
    execution_priority_tier key.kind < execution_priority_tier other.kind ∨
      execution_priority_tier key.kind = execution_priority_tier other.kind ∧ key.arrival_seq ≤ other.arrival_seq

/-- A purge splits the list, keeps what the overflow does not purge, and keeps it in its order of execution. -/
structure Purged (pending : List PendingRequestKey) (watchdog_overflowed : Bool) (kept purged : List Nat) : Prop where
  partition : (kept ++ purged).Perm (List.range pending.length)
  in_order : kept.Pairwise (· < ·) ∧ purged.Pairwise (· < ·)
  tagged : ∀ index (h : index < pending.length),
    index ∈ kept ↔ (watchdog_overflowed = true → pending[index].kind.is_safety_tagged = true)
  order : (drain execute_next (requests_at pending kept).length (requests_at pending kept)).1 =
    (drain execute_next pending.length pending).1.filter (· ∉ requests_at pending purged)

theorem drained (pending : List PendingRequestKey) : Drained pending := by
  have hdrain : drain execute_next pending.length pending = (sorted rank pending, []) := by
    rw [execute_next_eq, drain_length]
  constructor
  · rw [hdrain]
  · rw [hdrain]
    exact sorted_perm rank pending
  · intro r
    rw [hdrain]
    convert sorted_stable rank r pending
  · rw [hdrain]
  · intro n key rest hnext other hother
    rw [execute_next_eq] at hnext
    have hsorted := sorted_pairwise rank (drain execute_next n pending).2
    rw [execute_next_eq, sorted_of_takeLeast hnext, List.pairwise_cons] at hsorted
    have hle : rank key ≤ rank other := hsorted.1 other ((sorted_perm rank rest).mem_iff.2 hother)
    rw [rank, rank, Prod.Lex.toLex_le_toLex] at hle
    exact hle.imp_right (And.imp_right UInt64.le_iff_toNat_le.2)

theorem purged (pending : List PendingRequestKey) (watchdog_overflowed : Bool) :
    Purged pending watchdog_overflowed (purge_normal_priority_on_watchdog_overflow pending watchdog_overflowed).1
      (purge_normal_priority_on_watchdog_overflow pending watchdog_overflowed).2 := by
  rw [purge_spec]
  dsimp only
  constructor
  · exact indices_perm pending _
  · exact ⟨List.pairwise_lt_range.sublist (indices_sublist pending _),
      List.pairwise_lt_range.sublist (indices_sublist pending _)⟩
  · intro index h
    rw [mem_indices h, stays_iff]
  · rw [requests_at_indices, requests_at_indices, drain_filter]
    refine List.filter_congr fun key hkey => ?_
    rw [(drained pending).once.mem_iff] at hkey
    cases hstays : stays watchdog_overflowed key <;> simp [hkey, hstays]

/-- Executing what is selected and removing it drains any list in the order of a stable sort by tier and arrival,
and a purge keeps that order of what it keeps. -/
theorem execution_order (pending : List PendingRequestKey) :
    Drained pending ∧ ∀ watchdog_overflowed,
      Purged pending watchdog_overflowed (purge_normal_priority_on_watchdog_overflow pending watchdog_overflowed).1
        (purge_normal_priority_on_watchdog_overflow pending watchdog_overflowed).2 :=
  ⟨drained pending, purged pending⟩

end RustRcp
