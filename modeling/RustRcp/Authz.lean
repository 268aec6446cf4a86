import RustRcp.Regmap
import RustRcp.Mock
import RustRcp.Lib.Guarded
import RustRcp.Lib.Threads
import Mathlib.Data.Finset.Insert
/-!
# Authorization of endpoint accesses

The policy and the endpoint wrapper that enforces it (`src/authz.rs`), and what becomes
of a policy that is replaced while accesses are under way (`policy_revocation`).
-/
open Stateful Guarded Threads

namespace RustRcp

/-! ## Policies -/

structure Policy where
  allowed : Finset (UInt8 × Bool)

def ALL_EP_TYPE_BYTES : List UInt8 := (List.range' 0x01 0x0D).map UInt8.ofNat

namespace Policy

def allow_all : Policy where
  allowed := ALL_EP_TYPE_BYTES.foldl (fun set b => insert (b, true) (insert (b, false) set)) ∅

def deny_all : Policy := { allowed := ∅ }

def is_allowed (self : Policy) (ep_type : EndpointType) (is_write : Bool) : Bool :=
  decide ((ep_type.to_u8, is_write) ∈ self.allowed)

theorem deny_all_denies (ep_type : EndpointType) (is_write : Bool) : deny_all.is_allowed ep_type is_write = false :=
  decide_eq_false (Finset.notMem_empty _)

end Policy

/-! ## The wrapper -/

/-- The wrapped endpoint comes with the type it answers for and with what it keeps. -/
structure AuthzEndpoint (M : Type) where
  inner : Endpoint M
  ep_type : EndpointType
  policy : Policy
  memory : M

namespace AuthzEndpoint
variable {M : Type}

def set_policy (self : AuthzEndpoint M) (policy : Policy) : AuthzEndpoint M := { self with policy }

/-- Run the wrapped endpoint's method on what it keeps. -/
def on_inner {α : Type} (x : Stateful RcpError M α) : Stateful RcpError (AuthzEndpoint M) α :=
  within AuthzEndpoint.memory (fun self memory => { self with memory }) x

def read (read_size : UInt16) : Stateful RcpError (AuthzEndpoint M) (List UInt8) := do
  let self ← get
  if !self.policy.is_allowed self.ep_type false then
    throw .NotFound
  on_inner (self.inner.read read_size)

def write (payload : List UInt8) : Stateful RcpError (AuthzEndpoint M) Unit := do
  let self ← get
  if !self.policy.is_allowed self.ep_type true then
    throw .NotFound
  on_inner (self.inner.write payload)

/-- Either of them. -/
def perform : Access → Stateful RcpError (AuthzEndpoint M) (List UInt8)
  | .read read_size => read read_size
  | .write payload => do
    write payload
    return []

/-- What an access answers and leaves behind. -/
theorem perform_spec (self : AuthzEndpoint M) (access : Access) :
    exec (perform access) self =
      if self.policy.is_allowed self.ep_type access.is_write then
        ((exec (self.inner.perform access) self.memory).1,
          { self with memory := (exec (self.inner.perform access) self.memory).2 })
      else (.error .NotFound, self) := by
  cases access with
  | read read_size =>
    by_cases hallowed : self.policy.is_allowed self.ep_type false = true
    · simp [perform, read, exec_bind, Access.is_write, Endpoint.perform, on_inner, hallowed]
    · simp [perform, read, exec_bind, Access.is_write, hallowed]
  | write payload =>
    by_cases hallowed : self.policy.is_allowed self.ep_type true = true
    · cases hrun : exec (self.inner.write payload) self.memory with
      | mk result memory =>
        cases result <;>
          simp [perform, write, exec_bind, Access.is_write, Endpoint.perform, on_inner, hallowed, hrun]
    · simp [perform, write, exec_bind, Access.is_write, hallowed]

/-! ## Calls side by side -/

inductive Call where
  | access (access : Access)
  | set_policy (policy : Policy)

inductive Phase where
  | idle
  | permitted
  | returned (result : Except RcpError (List UInt8))

variable {ι : Type} (calls : ι → Call)

/-- An access checks the policy under its lock and, with the lock released, calls the wrapped endpoint. -/
def move : Move ι (AuthzEndpoint M) Phase := fun i self phase =>
  match calls i, phase with
  | .access access, .idle =>
    if self.policy.is_allowed self.ep_type access.is_write then some (self, .permitted)
    else some (self, .returned (.error .NotFound))
  | .access access, .permitted =>
    let (result, memory) := exec (self.inner.perform access) self.memory
    some ({ self with memory }, .returned result)
  | .set_policy policy, .idle => some (self.set_policy policy, .returned (.ok []))
  | _, _ => none

/-- The policies set, the checks that pass and the calls of the wrapped endpoint. -/
def seen : ι → AuthzEndpoint M → Phase → Option (Event ι Policy) := fun i self phase =>
  match calls i, phase with
  | .access access, .idle =>
    if self.policy.is_allowed self.ep_type access.is_write then some (.check i) else none
  | .access _, .permitted => some (.act i)
  | .set_policy policy, .idle => some (.set policy)
  | _, _ => none

/-! ## Replaced policies -/

/-- What a policy says about a call: an access of the call's kind is on its list. -/
def Permits (ep_type : EndpointType) (policy : Policy) (i : ι) : Prop :=
  ∀ access, calls i = .access access → policy.is_allowed ep_type access.is_write = true

variable {calls} {s : AuthzEndpoint M} {i : ι} {phase : Phase}

/-- An access checks, then calls, and nothing but `set_policy` changes the policy. -/
theorem step_of_move {s' : AuthzEndpoint M} {phase' : Phase} (h : move calls i s phase = some (s', phase')) :
    s'.ep_type = s.ep_type ∧
      Step (Permits calls s.ep_type) i s.policy (phase = .permitted) (phase' = .permitted)
        (seen calls i s phase).toList s'.policy := by
  cases hcall : calls i with
  | access access =>
    cases phase with
    | idle =>
      by_cases hallowed : s.policy.is_allowed s.ep_type access.is_write = true
      · simp only [move, hcall, hallowed, if_true, Option.some.injEq, Prod.mk.injEq] at h
        obtain ⟨rfl, rfl⟩ := h
        have hseen : seen calls i s .idle = some (.check i) := by simp [seen, hcall, hallowed]
        rw [hseen]
        refine ⟨rfl, .check fun access' haccess => ?_⟩
        cases hcall.symm.trans haccess
        exact hallowed
      · simp only [move, hcall, hallowed, Bool.false_eq_true, if_false, Option.some.injEq, Prod.mk.injEq] at h
        obtain ⟨rfl, rfl⟩ := h
        have hseen : seen calls i s .idle = none := by simp [seen, hcall, hallowed]
        rw [hseen]
        exact ⟨rfl, .idle nofun⟩
    | permitted =>
      simp only [move, hcall, Option.some.injEq, Prod.mk.injEq] at h
      obtain ⟨rfl, rfl⟩ := h
      have hseen : seen calls i s .permitted = some (.act i) := by simp [seen, hcall]
      rw [hseen]
      exact ⟨rfl, .act rfl nofun⟩
    | returned result => simp [move, hcall] at h
  | set_policy policy =>
    cases phase with
    | idle =>
      simp only [move, hcall, Option.some.injEq, Prod.mk.injEq] at h
      obtain ⟨rfl, rfl⟩ := h
      have hseen : seen calls i s .idle = some (.set policy) := by simp [seen, hcall]
      rw [hseen]
      exact ⟨rfl, .set policy nofun⟩
    | permitted | returned => simp [move, hcall] at h

theorem seen_of_stop (h : move calls i s phase = none) : seen calls i s phase = none := by
  cases hcall : calls i <;> cases phase <;> simp [move, seen, hcall] at h ⊢
  split_ifs at h

variable [DecidableEq ι]

/-- An access that is left alone does what the wrapper's method does. -/
theorem turns_alone {race : Race ι (AuthzEndpoint M) Phase} {access : Access} (hcall : calls i = .access access)
    (hidle : race.phase i = .idle) :
    run (move calls) race (List.replicate 2 i) =
      ⟨(exec (perform access) race.shared).2,
        Function.update race.phase i (.returned (exec (perform access) race.shared).1)⟩ := by
  rw [run_replicate (race.shared, .idle) hidle, perform_spec]
  by_cases hallowed : race.shared.policy.is_allowed race.shared.ep_type access.is_write = true
  · simp [alone, move, hcall, hallowed]
  · simp [alone, move, hcall, hallowed]

variable (calls) in
/-- What a schedule shows. -/
def log (s : AuthzEndpoint M) (schedule : List ι) : List (Event ι Policy) :=
  trace (move calls) (seen calls) (fresh s .idle) schedule

variable (calls s) in
theorem follows_schedule (schedule : List ι) :
    let race := run (move calls) (fresh s .idle) schedule
    Follows (Permits calls s.ep_type) s.policy (log calls s schedule) race.shared.policy
      fun i => race.phase i = .permitted := by
  have htype : (fresh s .idle : Race ι (AuthzEndpoint M) Phase).shared.ep_type = s.ep_type := rfl
  have hidle : ∀ i, ¬ (fresh s .idle : Race ι (AuthzEndpoint M) Phase).phase i = .permitted := fun _ => nofun
  refine follows_run AuthzEndpoint.policy (fun _ phase => phase = .permitted) (fun t => t.ep_type = s.ep_type) ?_
    (fun i t phase => seen_of_stop) htype hidle schedule
  intro i t phase t' phase' htype hmove
  obtain ⟨htype', hstep⟩ := step_of_move hmove
  rw [htype] at htype' hstep
  exact ⟨htype', hstep⟩

/-- Every access that reaches the wrapped endpoint is allowed by the policy set last before it, and
by the policy in force. -/
structure Obeyed (calls : ι → Call) (s : AuthzEndpoint M) (log : List (Event ι Policy)) : Prop where
  revoked : Binding (Permits calls s.ep_type) log
  in_force : Enforced (Permits calls s.ep_type) s.policy log

/-- A policy is obeyed on a run exactly when no access has its policy replaced by one that disallows
it between its check and its call. -/
theorem policy_revocation (calls : ι → Call) (s : AuthzEndpoint M) (schedule : List ι) :
    Obeyed calls s (log calls s schedule) ↔ Undisturbed (Permits calls s.ep_type) (log calls s schedule) := by
  have hfollows := follows_schedule calls s schedule
  constructor
  · intro h
    exact hfollows.enforced_iff.1 h.in_force
  · intro hcalm
    exact ⟨hfollows.binding_iff.2 hcalm, hfollows.enforced_iff.2 hcalm⟩

/-- A write goes through after everything has been forbidden. -/
theorem late_revocation :
    let calls : Bool → Call := fun i => if i then .set_policy .deny_all else .access (.write [1])
    let s : AuthzEndpoint Heap := ⟨MockEndpoint 0, .Gpio, .allow_all, [[0]]⟩
    let race := run (move calls) (fresh s .idle) [false, true, false]
    race.shared.policy.allowed = ∅ ∧ race.shared.memory = [[1]] ∧
      ¬ Obeyed calls s (log calls s [false, true, false]) := by
  intro calls s race
  refine ⟨rfl, rfl, fun h => ?_⟩
  have hlog : log calls s [false, true, false] = [.check false, .set .deny_all, .act false] := rfl
  have hpermits := h.revoked [.check false] .deny_all [] false [] hlog nofun
  simpa [Policy.deny_all_denies] using hpermits (.write [1]) rfl

end AuthzEndpoint

end RustRcp
