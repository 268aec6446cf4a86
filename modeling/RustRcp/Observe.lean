import RustRcp.Loan
import RustRcp.Discovery
/-!
# Wrappers that hand every call on

The observing endpoint (`src/observe.rs`), which counts calls and runs hooks after them, the
endpoint with a deadline (`src/deadline.rs`), and the lending one (`src/loan.rs`) where a plain
read or write is concerned.
-/
open Stateful

namespace RustRcp

/-! ## Metrics -/

structure Metrics where
  total_calls : UInt64 := 0
  total_errors : UInt64 := 0
  total_latency_us : UInt64 := 0
  deriving DecidableEq, Repr

/-- An outcome that is an error. -/
def is_err {α : Type} : Except RcpError α → Bool
  | .ok _ => false
  | .error _ => true

namespace Metrics

def record (elapsed : Duration) (is_err : Bool) (self : Metrics) : Metrics where
  total_calls := self.total_calls + 1
  total_latency_us := self.total_latency_us + UInt64.ofNat (elapsed / 1000)
  total_errors := if is_err then self.total_errors + 1 else self.total_errors

end Metrics

/-! ## The observer -/

/-- Hooks act on what they keep, a world `W`. -/
abbrev ReadHookFn (W : Type) := UInt16 → Except RcpError (List UInt8) → Duration → W → W
abbrev WriteHookFn (W : Type) := List UInt8 → Except RcpError Unit → Duration → W → W

structure ObserveEndpoint (W M : Type) where
  inner : Endpoint M
  metrics : Metrics := {}
  read_hooks : List (ReadHookFn W) := []
  write_hooks : List (WriteHookFn W) := []
  /-- What the clock shows when it is read for the first time, the second time and so on. -/
  clock : Nat → Instant
  readings : Nat := 0
  world : W
  /-- What the wrapped endpoint keeps. -/
  memory : M

namespace ObserveEndpoint
variable {W M : Type}

def new (inner : Endpoint M) (clock : Nat → Instant) (world : W) (memory : M) : ObserveEndpoint W M :=
  { inner, clock, world, memory }

def add_read_hook (f : ReadHookFn W) (self : ObserveEndpoint W M) : ObserveEndpoint W M :=
  { self with read_hooks := self.read_hooks ++ [f] }

def add_write_hook (f : WriteHookFn W) (self : ObserveEndpoint W M) : ObserveEndpoint W M :=
  { self with write_hooks := self.write_hooks ++ [f] }

/-- `Instant::now`. -/
def now : Stateful RcpError (ObserveEndpoint W M) Instant := do
  let self ← get
  set { self with readings := self.readings + 1 }
  return self.clock self.readings

/-- The wrapped endpoint's result, as a value. -/
def on_inner {α : Type} (x : Endpoint M → Stateful RcpError M α) :
    Stateful RcpError (ObserveEndpoint W M) (Except RcpError α) := do
  let self ← get
  within ObserveEndpoint.memory (fun self memory => { self with memory }) (attempt (x self.inner))

def read (read_size : UInt16) : Stateful RcpError (ObserveEndpoint W M) (List UInt8) := do
  let start ← now
  let result ← on_inner fun inner => inner.read read_size
  let elapsed := (← now) - start
  modify fun self => { self with metrics := self.metrics.record elapsed (is_err result) }
  modify fun self =>
    { self with world := self.read_hooks.foldl (fun world hook => hook read_size result elapsed world) self.world }
  MonadExcept.ofExcept result

def write (payload : List UInt8) : Stateful RcpError (ObserveEndpoint W M) Unit := do
  let start ← now
  let result ← on_inner fun inner => inner.write payload
  let elapsed := (← now) - start
  modify fun self => { self with metrics := self.metrics.record elapsed (is_err result) }
  modify fun self =>
    { self with world := self.write_hooks.foldl (fun world hook => hook payload result elapsed world) self.world }
  MonadExcept.ofExcept result

def endpoint : Endpoint (ObserveEndpoint W M) := { read, write }

/-- The hooks that run after an access. -/
def hooked (self : ObserveEndpoint W M) (access : Access) (result : Except RcpError (List UInt8))
    (elapsed : Duration) : W :=
  match access with
  | .read read_size => self.read_hooks.foldl (fun world hook => hook read_size result elapsed world) self.world
  | .write payload =>
    self.write_hooks.foldl (fun world hook => hook payload ((fun _ => ()) <$> result) elapsed world) self.world

theorem perform_spec (self : ObserveEndpoint W M) (access : Access) :
    exec (endpoint.perform access) self =
      let (result, memory) := exec (self.inner.perform access) self.memory
      let elapsed := self.clock (self.readings + 1) - self.clock self.readings
      (result, { self with
        metrics := self.metrics.record elapsed (is_err result)
        readings := self.readings + 2
        world := self.hooked access result elapsed
        memory }) := by
  cases access with
  | read read_size => simp [Endpoint.perform, endpoint, read, exec_bind, now, on_inner, hooked]
  | write payload =>
    rcases hrun : exec (self.inner.write payload) self.memory with ⟨_ | _, memory⟩ <;>
      simp [Endpoint.perform, endpoint, write, exec_bind, now, on_inner, hooked, hrun, is_err]

end ObserveEndpoint

/-! ## The deadline -/

structure DeadlineEndpoint (M : Type) where
  inner : Endpoint M
  deadline : Duration
  /-- `new` panics otherwise. -/
  nonzero : deadline ≠ 0
  /-- What the wrapped endpoint keeps. -/
  memory : M

namespace DeadlineEndpoint
variable {M : Type}

def effective (self : DeadlineEndpoint M) (timeout : Option Duration) : Except RcpError Duration :=
  if timeout = some 0 then .error .Timeout
  else .ok (match timeout with
    | none => self.deadline
    | some t => min t self.deadline)

def on_inner {α : Type} (x : Endpoint M → Stateful RcpError M α) : Stateful RcpError (DeadlineEndpoint M) α := do
  let self ← get
  within DeadlineEndpoint.memory (fun self memory => { self with memory }) (x self.inner)

def read_with_deadline (read_size : UInt16) (timeout : Option Duration) :
    Stateful RcpError (DeadlineEndpoint M) (List UInt8) := do
  let self ← get
  let _effective ← MonadExcept.ofExcept (self.effective timeout)
  on_inner fun inner => inner.read read_size

def write_with_deadline (payload : List UInt8) (timeout : Option Duration) :
    Stateful RcpError (DeadlineEndpoint M) Unit := do
  let self ← get
  let _effective ← MonadExcept.ofExcept (self.effective timeout)
  on_inner fun inner => inner.write payload

def endpoint : Endpoint (DeadlineEndpoint M) where
  read read_size := on_inner fun inner => inner.read read_size
  write payload := on_inner fun inner => inner.write payload

/-- Both calls with a timeout. -/
def with_deadline (timeout : Option Duration) : Endpoint (DeadlineEndpoint M) where
  read read_size := read_with_deadline read_size timeout
  write payload := write_with_deadline payload timeout

theorem perform_spec (self : DeadlineEndpoint M) (access : Access) :
    exec (endpoint.perform access) self =
      ((exec (self.inner.perform access) self.memory).1,
        { self with memory := (exec (self.inner.perform access) self.memory).2 }) := by
  cases access with
  | read read_size => simp [Endpoint.perform, endpoint, on_inner, exec_bind]
  | write payload =>
    rcases hrun : exec (self.inner.write payload) self.memory with ⟨_ | _, memory⟩ <;>
      simp [Endpoint.perform, endpoint, on_inner, exec_bind, hrun]

/-- A call with no time left fails at once, any other is a plain one, with some time and no more than the deadline. -/
def Enforced (self : DeadlineEndpoint M) (timeout : Option Duration) (access : Access) : Prop :=
  match self.effective timeout with
  | .error e => exec ((with_deadline timeout).perform access) self = (.error e, self)
  | .ok t => (0 < t ∧ t ≤ self.deadline) ∧
    exec ((with_deadline timeout).perform access) self = exec (endpoint.perform access) self

theorem effective_ok {self : DeadlineEndpoint M} {timeout : Option Duration} {t : Duration}
    (h : self.effective timeout = .ok t) : 0 < t ∧ t ≤ self.deadline := by
  have hpos : 0 < self.deadline := Nat.pos_of_ne_zero self.nonzero
  unfold effective at h
  split at h
  · cases h
  next hleft =>
    cases timeout with
    | none =>
      cases h
      exact ⟨hpos, le_rfl⟩
    | some left =>
      cases h
      have hleft' : 0 < left := Nat.pos_of_ne_zero fun hzero => hleft (congrArg some hzero)
      exact ⟨lt_min hleft' hpos, min_le_right _ _⟩

theorem enforced (self : DeadlineEndpoint M) (timeout : Option Duration) (access : Access) :
    self.Enforced timeout access := by
  unfold Enforced
  cases heffective : self.effective timeout with
  | error e =>
    cases access <;>
      simp [Endpoint.perform, with_deadline, read_with_deadline, write_with_deadline, exec_bind, heffective]
  | ok t =>
    refine ⟨effective_ok heffective, ?_⟩
    cases access <;>
      simp [Endpoint.perform, with_deadline, endpoint, read_with_deadline, write_with_deadline, exec_bind, heffective]

end DeadlineEndpoint

/-! ## The lender -/

namespace LoanPoolEndpoint
variable {M : Type}

def on_inner {α : Type} (x : Endpoint M → Stateful RcpError M α) : Stateful RcpError (LoanPoolEndpoint M) α := do
  let self ← get
  within LoanPoolEndpoint.memory (fun self memory => { self with memory }) (x self.inner)

def endpoint : Endpoint (LoanPoolEndpoint M) where
  read read_size := on_inner fun inner => inner.read read_size
  write payload := on_inner fun inner => inner.write payload

theorem perform_spec (self : LoanPoolEndpoint M) (access : Access) :
    exec (endpoint.perform access) self =
      ((exec (self.inner.perform access) self.memory).1,
        { self with memory := (exec (self.inner.perform access) self.memory).2 }) := by
  cases access with
  | read read_size => simp [Endpoint.perform, endpoint, on_inner, exec_bind]
  | write payload =>
    rcases hrun : exec (self.inner.write payload) self.memory with ⟨_ | _, memory⟩ <;>
      simp [Endpoint.perform, endpoint, on_inner, exec_bind, hrun]

end LoanPoolEndpoint

end RustRcp
