import RustRcp.Authz
import RustRcp.Record
import RustRcp.FaultInject
import RustRcp.Proxy
import RustRcp.Observe
import RustRcp.Lib.Layers
/-!
# Wrappers on wrappers

Every wrapper is an endpoint, so it can be wrapped again. A stack of wrappers
(`src/authz.rs`, `src/faultinject.rs`, `src/record.rs`, `src/loan.rs`, `src/proxy.rs`,
`src/observe.rs`, `src/deadline.rs`) is set up from a list of them and reconfigured at any
depth while it is in use; what reaches any depth of it is said by `stack_layered`.
-/
open Stateful Layers

namespace RustRcp

/-! ## The wrappers as endpoints -/

section Endpoints
variable {ι κ M : Type} [DecidableEq κ]

def AuthzEndpoint.endpoint : Endpoint (AuthzEndpoint M) := { read, write }

def FaultInjectEndpoint.endpoint : Endpoint (FaultInjectEndpoint M) := { read, write }

def RecordEndpoint.endpoint : Endpoint (RecordEndpoint M) := { read, write }

/-- Over the endpoints behind it. -/
def ProxyEndpoint.endpoint (inners : κ → Endpoint M) : Endpoint (ProxyEndpoint ι κ M) where
  read read_size := ExceptT.mk fun self => self.access inners (.read read_size)
  write payload := do
    let _ ← (ExceptT.mk fun self => self.access inners (.write payload) :
      Stateful RcpError (ProxyEndpoint ι κ M) (List UInt8))

theorem AuthzEndpoint.endpoint_perform (access : Access) :
    (AuthzEndpoint.endpoint (M := M)).perform access = AuthzEndpoint.perform access := by cases access <;> rfl

theorem FaultInjectEndpoint.endpoint_perform (access : Access) :
    (FaultInjectEndpoint.endpoint (M := M)).perform access = FaultInjectEndpoint.perform access := by
  cases access <;> rfl

theorem RecordEndpoint.endpoint_perform (access : Access) :
    (RecordEndpoint.endpoint (M := M)).perform access = RecordEndpoint.perform access := by cases access <;> rfl

theorem ProxyEndpoint.endpoint_perform (inners : κ → Endpoint M) (access : Access) (self : ProxyEndpoint ι κ M) :
    exec ((ProxyEndpoint.endpoint inners).perform access) self = self.access inners access := by
  cases access with
  | read read_size => rfl
  | write payload =>
    have haccess : exec (ExceptT.mk fun self => self.access inners (.write payload) :
        Stateful RcpError (ProxyEndpoint ι κ M) (List UInt8)) self = self.access inners (.write payload) := rfl
    simp only [Endpoint.perform, ProxyEndpoint.endpoint, bind_assoc, exec_bind, haccess, exec_pure, pure_bind]
    unfold ProxyEndpoint.access
    cases self.inner with
    | none => rfl
    | some ep =>
      -- A write that succeeds answers nothing below, and nothing here.
      rcases hrun : exec ((inners ep).write payload) (self.memory ep) with ⟨_ | _, memory⟩ <;>
        simp [Endpoint.perform, hrun]

end Endpoints

/-! ## Layers -/

/-- What a wrapper, or its observer's hooks, can be told from outside. -/
inductive Config (W : Type) where
  | set_policy (policy : Policy)
  | inject (spec : FaultSpec)
  | clear_faults
  | clear_log
  /-- The proxy's endpoint is put in, again. -/
  | swap
  | detach
  | add_read_hook (f : ReadHookFn W)
  | add_write_hook (f : WriteHookFn W)

/-- An endpoint with its type, and how what it keeps is reconfigured at a depth. -/
structure Mounted (W M : Type) where
  endpoint : Endpoint M
  ep_type : EndpointType
  configure : Nat × Config W → M → M

def Mounted.service {W M : Type} (self : Mounted W M) : Service Access (Nat × Config W) RcpError (List UInt8) M where
  serve := self.endpoint.perform
  adjust := self.configure

inductive Layer where
  | Authz
  | FaultInject
  | Record
  | Loan
  | Proxy
  | Observe
  | Deadline
  deriving DecidableEq, Repr

namespace Layer
variable {W M : Type}

abbrev Mem (W M : Type) : Layer → Type
  | .Authz => AuthzEndpoint M
  | .FaultInject => FaultInjectEndpoint M
  | .Record => RecordEndpoint M
  | .Loan => LoanPoolEndpoint M
  | .Proxy => ProxyEndpoint Unit Unit M
  | .Observe => ObserveEndpoint W M
  | .Deadline => DeadlineEndpoint M

def endpoint (lower : Endpoint M) : (layer : Layer) → Endpoint (layer.Mem W M)
  | .Authz => AuthzEndpoint.endpoint
  | .FaultInject => FaultInjectEndpoint.endpoint
  | .Record => RecordEndpoint.endpoint
  | .Loan => LoanPoolEndpoint.endpoint
  | .Proxy => ProxyEndpoint.endpoint fun _ => lower
  | .Observe => ObserveEndpoint.endpoint
  | .Deadline => DeadlineEndpoint.endpoint

/-- What the wrapped endpoint keeps. -/
def memory : (layer : Layer) → layer.Mem W M → M
  | .Authz, self => AuthzEndpoint.memory self
  | .FaultInject, self => FaultInjectEndpoint.memory self
  | .Record, self => RecordEndpoint.memory self
  | .Loan, self => LoanPoolEndpoint.memory self
  | .Proxy, self => ProxyEndpoint.memory self ()
  | .Observe, self => ObserveEndpoint.memory self
  | .Deadline, self => DeadlineEndpoint.memory self

/-- Something done to what the wrapped endpoint keeps. -/
def on_memory (f : M → M) : (layer : Layer) → layer.Mem W M → layer.Mem W M
  | .Authz => fun (self : AuthzEndpoint M) => { self with memory := f self.memory }
  | .FaultInject => fun (self : FaultInjectEndpoint M) => { self with memory := f self.memory }
  | .Record => fun (self : RecordEndpoint M) => { self with memory := f self.memory }
  | .Loan => fun (self : LoanPoolEndpoint M) => { self with memory := f self.memory }
  | .Proxy => fun (self : ProxyEndpoint Unit Unit M) => { self with memory := fun u => f (self.memory u) }
  | .Observe => fun (self : ObserveEndpoint W M) => { self with memory := f self.memory }
  | .Deadline => fun (self : DeadlineEndpoint M) => { self with memory := f self.memory }

/-- What concerns another wrapper is ignored. -/
def set : (layer : Layer) → Config W → layer.Mem W M → layer.Mem W M
  | .Authz, .set_policy policy => fun (self : AuthzEndpoint M) => self.set_policy policy
  | .FaultInject, .inject spec => fun (self : FaultInjectEndpoint M) => self.inject spec
  | .FaultInject, .clear_faults => fun (self : FaultInjectEndpoint M) => self.clear
  | .Record, .clear_log => fun (self : RecordEndpoint M) => self.clear
  | .Proxy, .swap => fun (self : ProxyEndpoint Unit Unit M) => self.swap ()
  | .Proxy, .detach => fun (self : ProxyEndpoint Unit Unit M) => self.detach
  | .Observe, .add_read_hook f => fun (self : ObserveEndpoint W M) => self.add_read_hook f
  | .Observe, .add_write_hook f => fun (self : ObserveEndpoint W M) => self.add_write_hook f
  | _, _ => id

/-- Depth 0 is the wrapper's own. -/
def configure (lower : Nat × Config W → M → M) (layer : Layer) : Nat × Config W → layer.Mem W M → layer.Mem W M
  | (0, config) => layer.set config
  | (depth + 1, config) => layer.on_memory (lower (depth, config))

def mount (lower : Mounted W M) (layer : Layer) : Mounted W (layer.Mem W M) where
  endpoint := layer.endpoint lower.endpoint
  ep_type := lower.ep_type
  configure := layer.configure lower.configure

/-- It is the lower endpoint that is wrapped, and its type that is answered for. -/
def Wraps (lower : Mounted W M) : (layer : Layer) → layer.Mem W M → Prop
  | .Authz => fun (self : AuthzEndpoint M) => self.inner = lower.endpoint ∧ self.ep_type = lower.ep_type
  | .FaultInject => fun (self : FaultInjectEndpoint M) => self.inner = lower.endpoint
  | .Record => fun (self : RecordEndpoint M) => self.inner = lower.endpoint
  | .Loan => fun (self : LoanPoolEndpoint M) => self.inner = lower.endpoint
  | .Proxy => fun _ => True
  | .Observe => fun (self : ObserveEndpoint W M) => self.inner = lower.endpoint
  | .Deadline => fun (self : DeadlineEndpoint M) => self.inner = lower.endpoint

/-- The error with which an access is refused, without a look at the wrapped endpoint. -/
def refusal : (layer : Layer) → layer.Mem W M → Access → Option RcpError
  | .Authz => fun (self : AuthzEndpoint M) access =>
    if self.policy.is_allowed self.ep_type access.is_write then none else some .NotFound
  | .FaultInject => fun (self : FaultInjectEndpoint M) _ => triggered_error (self.call_no + 1) self.faults
  | .Proxy => fun (self : ProxyEndpoint Unit Unit M) _ => if self.inner.isSome then none else some .NotConnected
  | _ => fun _ _ => none

/-- What an access does to a wrapper and to what it wraps. -/
structure Serves (lower : Mounted W M) (layer : Layer) (here : layer.Mem W M) (access : Access)
    (outcome : Except RcpError (List UInt8) × layer.Mem W M) : Prop where
  answer : outcome.1 =
    (layer.refusal here access).elim (exec (lower.endpoint.perform access) (layer.memory here)).1 .error
  memory : layer.memory outcome.2 =
    (layer.refusal here access).elim (exec (lower.endpoint.perform access) (layer.memory here)).2
      fun _ => layer.memory here
  wraps : layer.Wraps lower outcome.2

theorem serves (lower : Mounted W M) (layer : Layer) (self : layer.Mem W M) (hwraps : layer.Wraps lower self)
    (access : Access) :
    Serves lower layer self access (exec ((layer.endpoint lower.endpoint).perform access) self) := by
  cases layer with
  | Authz =>
    obtain ⟨hinner, htype⟩ := hwraps
    rw [endpoint, AuthzEndpoint.endpoint_perform, AuthzEndpoint.perform_spec, hinner]
    by_cases hallowed : self.policy.is_allowed self.ep_type access.is_write = true
    · have hrefusal : refusal (W := W) .Authz self access = none := if_pos hallowed
      rw [if_pos hallowed]
      exact ⟨by rw [hrefusal]; rfl, by rw [hrefusal]; rfl, rfl, htype⟩
    · have hrefusal : refusal (W := W) .Authz self access = some .NotFound := if_neg hallowed
      rw [if_neg hallowed]
      exact ⟨by rw [hrefusal]; rfl, by rw [hrefusal]; rfl, hinner, htype⟩
  | FaultInject =>
    rw [endpoint, FaultInjectEndpoint.endpoint_perform, FaultInjectEndpoint.perform_spec]
    dsimp only
    cases hfault : triggered_error (self.call_no + 1) self.faults with
    | some e =>
      have hrefusal : refusal (W := W) .FaultInject self access = some e := hfault
      exact ⟨by rw [hrefusal]; rfl, by rw [hrefusal]; rfl, hwraps⟩
    | none =>
      have hrefusal : refusal (W := W) .FaultInject self access = none := hfault
      have hinner : self.inner = lower.endpoint := hwraps
      rw [hinner]
      exact ⟨by rw [hrefusal]; rfl, by rw [hrefusal]; rfl, rfl⟩
  | Record =>
    have hinner : self.inner = lower.endpoint := hwraps
    rw [endpoint, RecordEndpoint.endpoint_perform, RecordEndpoint.perform_spec, hinner]
    exact ⟨rfl, rfl, rfl⟩
  | Loan =>
    have hinner : self.inner = lower.endpoint := hwraps
    rw [endpoint, LoanPoolEndpoint.perform_spec, hinner]
    exact ⟨rfl, rfl, rfl⟩
  | Proxy =>
    rw [endpoint, ProxyEndpoint.endpoint_perform]
    unfold ProxyEndpoint.access
    cases hattached : self.inner with
    | none =>
      have hrefusal : refusal (W := W) .Proxy self access = some .NotConnected :=
        if_neg (by rw [hattached]; exact Bool.false_ne_true)
      exact ⟨by rw [hrefusal]; rfl, by rw [hrefusal]; rfl, trivial⟩
    | some ep =>
      have hrefusal : refusal (W := W) .Proxy self access = none := if_pos (by rw [hattached]; rfl)
      exact ⟨by rw [hrefusal]; rfl, by rw [hrefusal]; rfl, trivial⟩
  | Observe =>
    have hinner : self.inner = lower.endpoint := hwraps
    rw [endpoint, ObserveEndpoint.perform_spec, hinner]
    exact ⟨rfl, rfl, rfl⟩
  | Deadline =>
    have hinner : self.inner = lower.endpoint := hwraps
    rw [endpoint, DeadlineEndpoint.perform_spec, hinner]
    exact ⟨rfl, rfl, rfl⟩

/-- Settings change neither what is wrapped nor what that keeps. -/
theorem set_keeps (lower : Mounted W M) (layer : Layer) (config : Config W) (self : layer.Mem W M) :
    layer.memory (layer.set config self) = layer.memory self ∧
      (layer.Wraps lower self → layer.Wraps lower (layer.set config self)) := by
  cases layer <;> cases config <;> exact ⟨rfl, id⟩

theorem on_memory_keeps (lower : Mounted W M) (layer : Layer) (f : M → M) (self : layer.Mem W M) :
    layer.memory (layer.on_memory f self) = f (layer.memory self) ∧
      (layer.Wraps lower self → layer.Wraps lower (layer.on_memory f self)) := by
  cases layer <;> exact ⟨rfl, id⟩

/-- A wrapper lies over what it wraps. -/
def laid (lower : Mounted W M) (layer : Layer) : Over (layer.mount lower).service lower.service where
  below := layer.memory
  refusal := layer.refusal
  through
    | (0, _) => none
    | (depth + 1, config) => some (depth, config)
  Built := layer.Wraps lower
  built self op h := by
    cases op with
    | request access => exact (serves lower layer self h access).wraps
    | adjust config =>
      obtain ⟨_ | depth, config⟩ := config
      · exact (set_keeps lower layer config self).2 h
      · exact (on_memory_keeps lower layer _ self).2 h
  refused self access e h hrefusal := by
    obtain ⟨hanswer, hmemory, -⟩ := serves lower layer self h access
    rw [hrefusal] at hanswer hmemory
    exact ⟨hanswer, hmemory⟩
  handed self access h hrefusal := by
    obtain ⟨hanswer, hmemory, -⟩ := serves lower layer self h access
    rw [hrefusal] at hanswer hmemory
    exact ⟨hanswer, hmemory⟩
  adjusted self config h := by
    obtain ⟨_ | depth, config⟩ := config
    · exact (set_keeps lower layer config self).1
    · exact (on_memory_keeps lower layer _ self).1

/-! ## What a wrapper has of its own -/

/-- What a wrapper has to show for the accesses that came to it and the answers they got there. -/
def Accounts : (layer : Layer) → (before after : layer.Mem W M) →
    List (Access × Except RcpError (List UInt8)) → Prop
  | .Record => fun before after told => after.log = before.log ++ told.map fun entry => Entry.of entry.1 entry.2
  | .FaultInject => fun before after told =>
    after.call_no = before.call_no + UInt64.ofNat told.length ∧ after.total = before.total + UInt64.ofNat told.length
  | .Observe => fun before after told =>
    after.metrics.total_calls = before.metrics.total_calls + UInt64.ofNat told.length ∧
      after.metrics.total_errors =
        before.metrics.total_errors + UInt64.ofNat (told.countP fun entry => is_err entry.2)
  | .Deadline => fun before after _ =>
    after.deadline = before.deadline ∧ ∀ timeout access, DeadlineEndpoint.Enforced after timeout access
  | _ => fun _ _ _ => True

theorem foldl_log {β γ : Type} (f : β → γ) (log : List γ) (xs : List β) :
    xs.foldl (fun log x => log ++ [f x]) log = log ++ xs.map f := by
  induction xs generalizing log with
  | nil => exact (List.append_nil log).symm
  | cons x xs ih => rw [List.foldl_cons, ih, List.append_assoc, List.map_cons, List.singleton_append]

theorem foldl_count {β : Type} (p : β → Bool) (n : UInt64) (xs : List β) :
    xs.foldl (fun n x => if p x then n + 1 else n) n = n + UInt64.ofNat (xs.countP p) := by
  induction xs generalizing n with
  | nil => exact (UInt64.add_zero n).symm
  | cons x xs ih =>
    rw [List.foldl_cons, ih, List.countP_cons]
    split
    · rw [UInt64.ofNat_add, UInt64.add_assoc, UInt64.add_comm 1]
      rfl
    · rfl

theorem foldl_length {β : Type} (n : UInt64) (xs : List β) :
    xs.foldl (fun n _ => n + 1) n = n + UInt64.ofNat xs.length := by
  have hcount := foldl_count (fun _ : β => true) n xs
  rw [List.countP_true] at hcount
  exact hcount

/-- What a wrapper does with settings, its own and those of what it wraps. -/
theorem record_adjust (lower : Mounted W M) (self : RecordEndpoint M) {config : Nat × Config W}
    (h : config ≠ (0, .clear_log)) : ((Layer.Record.mount lower).configure config self).log = self.log := by
  obtain ⟨_ | depth, config⟩ := config
  · cases config with
    | clear_log => exact absurd rfl h
    | _ => rfl
  · rfl

theorem fault_adjust (lower : Mounted W M) (self : FaultInjectEndpoint M) (config : Nat × Config W) :
    ((Layer.FaultInject.mount lower).configure config self).call_no = self.call_no ∧
      ((Layer.FaultInject.mount lower).configure config self).total = self.total := by
  obtain ⟨_ | depth, config⟩ := config
  · cases config <;> exact ⟨rfl, rfl⟩
  · exact ⟨rfl, rfl⟩

theorem observe_adjust (lower : Mounted W M) (self : ObserveEndpoint W M) (config : Nat × Config W) :
    ((Layer.Observe.mount lower).configure config self).metrics = self.metrics := by
  obtain ⟨_ | depth, config⟩ := config
  · cases config <;> rfl
  · rfl

theorem deadline_adjust (lower : Mounted W M) (self : DeadlineEndpoint M) (config : Nat × Config W) :
    ((Layer.Deadline.mount lower).configure config self).deadline = self.deadline := by
  obtain ⟨_ | depth, config⟩ := config
  · cases config <;> rfl
  · rfl

/-- The log shows what came since it was cleared, the counters what has ever come. -/
theorem accounts (lower : Mounted W M) (layer : Layer) {self : layer.Mem W M} (h : layer.Wraps lower self)
    {ops : List (Op Access (Nat × Config W))} (hlog : .adjust (0, .clear_log) ∉ ops) :
    layer.Accounts self ((layer.mount lower).service.run self ops)
      ((layer.mount lower).service.told self ops) := by
  have hbuilt := (laid lower layer).built
  cases layer with
  | Record =>
    have hrun := (Layer.Record.mount lower).service.run_told RecordEndpoint.log
      (fun log told => log ++ [Entry.of told.1 told.2]) ops hbuilt ?_ ?_ h
    · rw [foldl_log] at hrun
      exact hrun
    · intro self access _
      change (exec (RecordEndpoint.endpoint.perform access) self).2.log = _ ++ [Entry.of access
        (exec (RecordEndpoint.endpoint.perform access) self).1]
      rw [RecordEndpoint.endpoint_perform, RecordEndpoint.perform_spec]
      rfl
    · exact fun self config hmem => record_adjust lower self fun heq => hlog (heq ▸ hmem)
  | FaultInject =>
    have hrequest : ∀ (self : FaultInjectEndpoint M) access,
        (exec (FaultInjectEndpoint.endpoint.perform access) self).2.call_no = self.call_no + 1 ∧
          (exec (FaultInjectEndpoint.endpoint.perform access) self).2.total = self.total + 1 := by
      intro self access
      rw [FaultInjectEndpoint.endpoint_perform, FaultInjectEndpoint.perform_spec]
      dsimp only
      cases triggered_error (self.call_no + 1) self.faults <;> exact ⟨rfl, rfl⟩
    have hcall_no := (Layer.FaultInject.mount lower).service.run_told FaultInjectEndpoint.call_no (fun n _ => n + 1) ops
      hbuilt (fun self access _ => (hrequest self access).1) (fun self config _ => (fault_adjust lower self config).1) h
    have htotal := (Layer.FaultInject.mount lower).service.run_told FaultInjectEndpoint.total (fun n _ => n + 1) ops
      hbuilt (fun self access _ => (hrequest self access).2) (fun self config _ => (fault_adjust lower self config).2) h
    rw [foldl_length] at hcall_no htotal
    exact ⟨hcall_no, htotal⟩
  | Observe =>
    have hrequest : ∀ (self : ObserveEndpoint W M) access,
        (exec (ObserveEndpoint.endpoint.perform access) self).2.metrics.total_calls = self.metrics.total_calls + 1 ∧
          (exec (ObserveEndpoint.endpoint.perform access) self).2.metrics.total_errors =
            if is_err (exec (ObserveEndpoint.endpoint.perform access) self).1 then self.metrics.total_errors + 1
            else self.metrics.total_errors := by
      intro self access
      rw [ObserveEndpoint.perform_spec]
      exact ⟨rfl, rfl⟩
    have hcalls := (Layer.Observe.mount lower).service.run_told (fun self => self.metrics.total_calls)
      (fun n _ => n + 1) ops hbuilt (fun self access _ => (hrequest self access).1)
      (fun self config _ => congrArg Metrics.total_calls (observe_adjust lower self config)) h
    have herrors := (Layer.Observe.mount lower).service.run_told (fun self => self.metrics.total_errors)
      (fun n told => if is_err told.2 then n + 1 else n)
      ops hbuilt (fun self access _ => (hrequest self access).2)
      (fun self config _ => congrArg Metrics.total_errors (observe_adjust lower self config)) h
    rw [foldl_length] at hcalls
    exact ⟨hcalls, herrors.trans (foldl_count _ _ _)⟩
  | Deadline =>
    refine ⟨?_, fun timeout access => DeadlineEndpoint.enforced _ timeout access⟩
    have hrequest : ∀ (self : DeadlineEndpoint M) access,
        (exec (DeadlineEndpoint.endpoint.perform access) self).2.deadline = self.deadline := by
      intro self access
      rw [DeadlineEndpoint.perform_spec]
    have hrun := (Layer.Deadline.mount lower).service.run_told DeadlineEndpoint.deadline
      (fun deadline _ => deadline) ops hbuilt (fun self access _ => hrequest self access)
      (fun self config _ => deadline_adjust lower self config) h
    rw [List.foldl_fixed] at hrun
    exact hrun
  | Authz => trivial
  | Loan => trivial
  | Proxy => trivial

end Layer

/-! ## Stacks -/

namespace Stack
variable {W M : Type}

/-- What a stack of wrappers keeps, the outermost first. -/
abbrev Mem (W M : Type) : List Layer → Type
  | [] => M
  | layer :: lower => layer.Mem W (Mem W M lower)

variable (base : Mounted W M)

def mount : (layers : List Layer) → Mounted W (Mem W M layers)
  | [] => base
  | layer :: lower => layer.mount (mount lower)

/-- Every wrapper wraps the one below. -/
def Built : (layers : List Layer) → Mem W M layers → Prop
  | [], _ => True
  | layer :: lower, self => layer.Wraps (mount base lower) self ∧ Built lower (layer.memory self)

/-- The upper wrappers lie over the lower ones. -/
def laid : (upper lower : List Layer) → Over (mount base (upper ++ lower)).service (mount base lower).service
  | [], _ => .refl _
  | layer :: upper, lower => (layer.laid (mount base (upper ++ lower))).trans (laid upper lower)

theorem laid_built (upper lower : List Layer) {self : Mem W M (upper ++ lower)} (h : Built base (upper ++ lower) self) :
    (laid base upper lower).Built self ∧ Built base lower ((laid base upper lower).below self) := by
  induction upper with
  | nil => exact ⟨trivial, h⟩
  | cons layer upper ih =>
    obtain ⟨hwraps, hbuilt⟩ := h
    obtain ⟨hover, hlower⟩ := ih hbuilt
    exact ⟨⟨hwraps, hover⟩, hlower⟩

/-- Settings that come through go deeper by the wrappers above. -/
theorem laid_through (upper lower : List Layer) {depth : Nat} {config : Config W} {through : Nat × Config W}
    (h : (laid base upper lower).through through = some (depth, config)) :
    through = (upper.length + depth, config) := by
  induction upper generalizing through with
  | nil =>
    cases h
    rw [List.length_nil, Nat.zero_add]
  | cons layer upper ih =>
    obtain ⟨_ | deep, config'⟩ := through
    · cases h
    · have heq : (deep, config') = (upper.length + depth, config) := ih h
      rw [Prod.mk.injEq] at heq
      rw [List.length_cons, Nat.succ_add, heq.1, heq.2]

/-- What the first of some wrappers has to show. -/
def Accounts : (layers : List Layer) → (before after : Mem W M layers) →
    List (Access × Except RcpError (List UInt8)) → Prop
  | [], _, _, _ => True
  | layer :: _, before, after, told => layer.Accounts before after told

/-- What is found where a stack is cut in two. -/
structure Layered (upper lower : List Layer) (here : Mem W M (upper ++ lower))
    (ops : List (Op Access (Nat × Config W)))
    (w : Over (mount base (upper ++ lower)).service (mount base lower).service) : Prop where
  /-- Below, a run of the stack is one of the accesses that were not refused above and the settings that go deeper. -/
  run : w.below ((mount base (upper ++ lower)).service.run here ops) =
    (mount base lower).service.run (w.below here) (w.crossed here ops)
  /-- No access comes down there twice, or out of order, or other than it was made. -/
  in_order : (requests (w.crossed here ops)).Sublist (requests ops)
  /-- What is not refused above is answered as it is below. -/
  answer : ∀ access, (mount base (upper ++ lower)).service.answer here ops access =
    (w.refusal ((mount base (upper ++ lower)).service.run here ops) access).elim
      ((mount base lower).service.answer (w.below here) (w.crossed here ops) access) .error
  /-- Where nothing is refused above, everything comes down there. -/
  unrefused : (∀ earlier access later, ops = earlier ++ .request access :: later →
      w.refusal ((mount base (upper ++ lower)).service.run here earlier) access = none) →
    requests (w.crossed here ops) = requests ops
  /-- What the first wrapper below has to show is for what comes down there. -/
  accounts : .adjust (upper.length, .clear_log) ∉ ops →
    Accounts lower (w.below here) (w.below ((mount base (upper ++ lower)).service.run here ops))
      ((mount base lower).service.told (w.below here) (w.crossed here ops))

/-- However wrappers are stacked on an endpoint, wherever the stack is cut, and however it is reconfigured between
accesses. -/
theorem stack_layered (upper lower : List Layer) {here : Mem W M (upper ++ lower)}
    (h : Built base (upper ++ lower) here) (ops : List (Op Access (Nat × Config W))) :
    Layered base upper lower here ops (laid base upper lower) := by
  obtain ⟨hover, hlower⟩ := laid_built base upper lower h
  have hrun := (laid base upper lower).run hover ops
  refine ⟨hrun, Over.requests_crossed _ here ops, Over.answer _ hover ops, Over.requests_open _, fun hlog => ?_⟩
  cases lower with
  | nil => trivial
  | cons layer lower =>
    rw [hrun]
    refine layer.accounts (mount base lower) hlower.1 fun hmem => hlog ?_
    obtain ⟨config, hmem, hthrough⟩ := Over.adjust_crossed _ hmem
    rw [← Nat.add_zero upper.length, ← laid_through base upper (layer :: lower) hthrough]
    exact hmem

/-- A recorder below a faulty wrapper below an authorizing one. -/
theorem stack_layered_three :
    let base : Mounted Unit Heap := { endpoint := MockEndpoint 0, ep_type := .Gpio, configure := fun _ => id }
    let recorder : RecordEndpoint Heap := .new (MockEndpoint 0) [[1, 2]]
    let faulty : FaultInjectEndpoint (RecordEndpoint Heap) :=
      { inner := RecordEndpoint.endpoint, faults := [⟨.OnNthCall 1, .Timeout⟩], memory := recorder }
    let here : Mem Unit Heap ([.Authz, .FaultInject] ++ [.Record]) :=
      AuthzEndpoint.mk FaultInjectEndpoint.endpoint .Gpio .allow_all faulty
    Built base ([.Authz, .FaultInject] ++ [.Record]) here ∧
      Layered base [.Authz, .FaultInject] [.Record] here
        [.request (.read 2), .adjust (1, .clear_faults), .request (.write [3]), .request (.read 2)]
        (laid base [.Authz, .FaultInject] [.Record]) := by
  intro base recorder faulty here
  have hbuilt : Built base ([.Authz, .FaultInject] ++ [.Record]) here := ⟨⟨rfl, rfl⟩, rfl, rfl, trivial⟩
  exact ⟨hbuilt, stack_layered base [.Authz, .FaultInject] [.Record] hbuilt _⟩

end Stack

end RustRcp
