import RustRcp.Mock
import RustRcp.Lib.Stages
/-!
# The simulation endpoint

The test double (`src/sim.rs`): it records its calls, answers them from two queues of
responses, and once closed refuses them. A call looks at the flag, then holds the lock of
the log and the queues, and then the buffer's lock if nothing was queued; no schedule loses
a queued response or hands it out twice (`responses_conserved`).
-/
open Stateful Threads Stages

namespace RustRcp

inductive SimCall where
  | Read (read_size : UInt16)
  | Write (payload : List UInt8)

/-- What is recorded of an access. -/
def SimCall.of : Access → SimCall
  | .read read_size => .Read read_size
  | .write payload => .Write payload

namespace SimEndpoint

/-- What one lock holds. -/
structure Inner where
  calls : List SimCall := []
  read_responses : List (Except RcpError (List UInt8)) := []
  write_responses : List (Except RcpError Unit) := []

end SimEndpoint

structure SimEndpoint where
  buf : List UInt8 := []
  inner : SimEndpoint.Inner := {}
  closed : Bool := false

namespace SimEndpoint

/-! ## One call -/

def new : SimEndpoint := {}

namespace Inner

def queue_read_response (self : Inner) (r : Except RcpError (List UInt8)) : Inner :=
  { self with read_responses := self.read_responses ++ [r] }

def queue_write_response (self : Inner) (r : Except RcpError Unit) : Inner :=
  { self with write_responses := self.write_responses ++ [r] }

def clear_calls (self : Inner) : Inner := { self with calls := [] }

def push (call : SimCall) (self : Inner) : Inner := { self with calls := self.calls ++ [call] }

/-- What a call does under the lock: it is recorded, and takes a response if one waits for its kind. -/
def dispatch (access : Access) (self : Inner) : Option (Except RcpError (List UInt8)) × Inner :=
  let self := self.push (.of access)
  match access with
  | .read _ =>
    match self.read_responses with
    | [] => (none, self)
    | queued :: rest => (some queued, { self with read_responses := rest })
  | .write _ =>
    match self.write_responses with
    | [] => (none, self)
    | queued :: rest => (some ((fun _ => []) <$> queued), { self with write_responses := rest })

end Inner

def queue_read_response (self : SimEndpoint) (r : Except RcpError (List UInt8)) : SimEndpoint :=
  { self with inner := self.inner.queue_read_response r }

def queue_write_response (self : SimEndpoint) (r : Except RcpError Unit) : SimEndpoint :=
  { self with inner := self.inner.queue_write_response r }

def calls (self : SimEndpoint) : List SimCall := self.inner.calls

def clear_calls (self : SimEndpoint) : SimEndpoint := { self with inner := self.inner.clear_calls }

def close (self : SimEndpoint) : SimEndpoint := { self with closed := true }

def read (read_size : UInt16) : Stateful RcpError SimEndpoint (List UInt8) := do
  if (← get).closed then
    throw .Closed
  modify fun self => { self with inner := self.inner.push (.Read read_size) }
  match (← get).inner.read_responses with
  | queued :: rest =>
    modify fun self => { self with inner := { self.inner with read_responses := rest } }
    MonadExcept.ofExcept queued
  | [] =>
    let buf := (← get).buf
    let n := min read_size.toNat buf.length
    return buf.take n

def write (payload : List UInt8) : Stateful RcpError SimEndpoint Unit := do
  if (← get).closed then
    throw .Closed
  modify fun self => { self with inner := self.inner.push (.Write payload) }
  match (← get).inner.write_responses with
  | queued :: rest =>
    modify fun self => { self with inner := { self.inner with write_responses := rest } }
    MonadExcept.ofExcept queued
  | [] => modify fun self => { self with buf := payload }

/-- Either of them. -/
def perform : Access → Stateful RcpError SimEndpoint (List UInt8)
  | .read read_size => read read_size
  | .write payload => do
    write payload
    return []

/-- What a call that nothing is queued for does with the buffer. -/
def unqueued (access : Access) (buf : List UInt8) : Except RcpError (List UInt8) × List UInt8 :=
  match access with
  | .read read_size => (.ok (buf.take (min read_size.toNat buf.length)), buf)
  | .write payload => (.ok [], payload)

/-- A call alone, from its three parts. -/
theorem perform_spec (self : SimEndpoint) (access : Access) :
    exec (perform access) self =
      if self.closed then (.error .Closed, self)
      else match self.inner.dispatch access with
        | (some queued, inner) => (queued, { self with inner })
        | (none, inner) =>
          ((unqueued access self.buf).1, { self with inner, buf := (unqueued access self.buf).2 }) := by
  cases hclosed : self.closed with
  | true => cases access <;> simp [perform, read, write, exec_bind, hclosed]
  | false =>
    cases access with
    | read read_size =>
      cases hqueue : self.inner.read_responses <;>
        simp [perform, read, exec_bind, hclosed, Inner.dispatch, Inner.push, hqueue, unqueued, SimCall.of]
    | write payload =>
      cases hqueue : self.inner.write_responses with
      | nil => simp [perform, write, exec_bind, hclosed, Inner.dispatch, Inner.push, hqueue, unqueued, SimCall.of]
      | cons queued rest =>
        cases queued <;>
          simp [perform, write, exec_bind, hclosed, Inner.dispatch, Inner.push, hqueue, SimCall.of]

/-! ## Calls side by side -/

inductive Job where
  | access (access : Access)
  | queue_read_response (r : Except RcpError (List UInt8))
  | queue_write_response (r : Except RcpError Unit)
  | clear_calls
  | close

inductive Phase where
  | idle
  | opened
  | missed
  | returned (result : Except RcpError (List UInt8))

/-- The flag, the lock of the log and the queues, and the buffer's lock. -/
inductive Stage where
  | flag
  | queues
  | buffer
  deriving DecidableEq

variable {ι : Type} (jobs : ι → Job)

def move : Move ι SimEndpoint Phase := fun i self phase =>
  match jobs i, phase with
  -- the flag is read before either lock is taken
  | .access _, .idle => some (self, if self.closed then .returned (.error .Closed) else .opened)
  | .access access, .opened =>
    let (queued, inner) := self.inner.dispatch access
    some ({ self with inner }, match queued with
      | some queued => .returned queued
      | none => .missed)
  -- the queues' lock is free again
  | .access access, .missed =>
    let (result, buf) := unqueued access self.buf
    some ({ self with buf }, .returned result)
  | .queue_read_response r, .idle => some (self.queue_read_response r, .returned (.ok []))
  | .queue_write_response r, .idle => some (self.queue_write_response r, .returned (.ok []))
  | .clear_calls, .idle => some (self.clear_calls, .returned (.ok []))
  | .close, .idle => some (self.close, .returned (.ok []))
  | _, _ => none

/-- Which stage a call comes past. -/
def stage : Job → Phase → Option Stage
  | .access _, .idle | .close, .idle => some .flag
  | .access _, .opened => some .queues
  | .access _, .missed => some .buffer
  | .queue_read_response _, .idle | .queue_write_response _, .idle | .clear_calls, .idle => some .queues
  | _, _ => none

def seen : ι → SimEndpoint → Phase → Option (Stage × ι) := fun i _ phase => (stage (jobs i) phase).map (·, i)

/-- A call that is left alone does what the endpoint's method does. -/
theorem turns_alone [DecidableEq ι] {race : Race ι SimEndpoint Phase} {i : ι} {access : Access}
    (hidle : race.phase i = .idle) (hjob : jobs i = .access access) :
    run (move jobs) race (List.replicate 3 i) =
      ⟨(exec (perform access) race.shared).2,
        Function.update race.phase i (.returned (exec (perform access) race.shared).1)⟩ := by
  rw [run_replicate (race.shared, .idle) hidle, perform_spec]
  cases hclosed : race.shared.closed with
  | true => simp [alone, move, hjob, hclosed]
  | false =>
    cases hdispatch : race.shared.inner.dispatch access with
    | mk queued inner => cases queued <;> simp [alone, move, hjob, hclosed, hdispatch]

/-! ## What a job does where -/

/-- What a job sees of the flag, and leaves of it. -/
def latch (i : ι) (closed : Bool) : Bool × Bool :=
  match jobs i with
  | .close => (closed, true)
  | _ => (closed, closed)

/-- What it does under the lock of the log and the queues. -/
def serve (i : ι) (inner : Inner) : Option (Except RcpError (List UInt8)) × Inner :=
  match jobs i with
  | .access access => inner.dispatch access
  | .queue_read_response r => (none, inner.queue_read_response r)
  | .queue_write_response r => (none, inner.queue_write_response r)
  | .clear_calls => (none, inner.clear_calls)
  | .close => (none, inner)

def hold (i : ι) (buf : List UInt8) : Except RcpError (List UInt8) × List UInt8 :=
  match jobs i with
  | .access access => unqueued access buf
  | _ => (.ok [], buf)

/-- What coming past a stage does to the endpoint. -/
def act (stage : Stage) (i : ι) (self : SimEndpoint) : SimEndpoint :=
  match stage with
  | .flag => { self with closed := (latch jobs i self.closed).2 }
  | .queues => { self with inner := (serve jobs i self.inner).2 }
  | .buffer => { self with buf := (hold jobs i self.buf).2 }

variable (start : SimEndpoint)

theorem kept_eq (log : List (Stage × ι)) : kept (act jobs) start log = {
    buf := after (hold jobs) start.buf (passed .buffer log)
    inner := after (serve jobs) start.inner (passed .queues log)
    closed := after (latch jobs) start.closed (passed .flag log) } := by
  induction log using List.reverseRecOn with
  | nil => rfl
  | append_singleton log note ih =>
    obtain ⟨stage, k⟩ := note
    rw [kept_concat, ih]
    cases stage <;> simp [act, after_concat]

/-! ## The queues, the log and the flag -/

/-- What waits for the reads, or for the writes. A write is answered no bytes. -/
def Inner.waiting (is_write : Bool) (self : Inner) : List (Except RcpError (List UInt8)) :=
  if is_write then self.write_responses.map ((fun _ => []) <$> ·) else self.read_responses

theorem dispatch_waiting (is_write : Bool) (access : Access) (inner : Inner) :
    (if access.is_write = is_write then (inner.dispatch access).1.toList else []) ++
      (inner.dispatch access).2.waiting is_write = inner.waiting is_write := by
  cases access with
  | read read_size =>
    cases hqueue : inner.read_responses <;> cases is_write <;>
      simp [Inner.dispatch, Inner.push, Inner.waiting, Access.is_write, hqueue]
  | write payload =>
    cases hqueue : inner.write_responses <;> cases is_write <;>
      simp [Inner.dispatch, Inner.push, Inner.waiting, Access.is_write, hqueue]

theorem dispatch_calls (access : Access) (inner : Inner) :
    (inner.dispatch access).2.calls = inner.calls ++ [.of access] := by
  cases access with
  | read read_size => cases hqueue : inner.read_responses <;> simp [Inner.dispatch, Inner.push, hqueue]
  | write payload => cases hqueue : inner.write_responses <;> simp [Inner.dispatch, Inner.push, hqueue]

/-- The response a job queues for a kind. -/
def Job.queues (is_write : Bool) : Job → Option (Except RcpError (List UInt8))
  | .queue_read_response r => if is_write then none else some r
  | .queue_write_response r => if is_write then some ((fun _ => []) <$> r) else none
  | _ => none

/-- The responses queued for a kind, in their order. -/
def queuedFor (is_write : Bool) (order : List ι) : List (Except RcpError (List UInt8)) :=
  order.filterMap fun i => (jobs i).queues is_write

/-- What a job leaves of the log. -/
def Job.records (calls : List SimCall) : Job → List SimCall
  | .access asked => calls ++ [.of asked]
  | .clear_calls => []
  | _ => calls

/-- The accesses recorded since the log was cleared last. -/
def recorded (calls : List SimCall) (order : List ι) : List SimCall :=
  order.foldl (fun calls i => (jobs i).records calls) calls

variable {jobs} in
theorem calls_after (inner : Inner) (order : List ι) :
    (after (serve jobs) inner order).calls = recorded jobs inner.calls order := by
  induction order using List.reverseRecOn with
  | nil => rfl
  | append_singleton order k ih =>
    have hlast : recorded jobs inner.calls (order ++ [k]) = (jobs k).records (recorded jobs inner.calls order) := by
      rw [recorded, List.foldl_append]
      rfl
    rw [after_concat, hlast, ← ih]
    cases hjob : jobs k with
    | access access => simp [serve, hjob, dispatch_calls, Job.records]
    | queue_read_response r | queue_write_response r | clear_calls | close =>
      simp [serve, hjob, Inner.queue_read_response, Inner.queue_write_response, Inner.clear_calls, Job.records]

variable {jobs} in
/-- The flag is up if it was at the start or some call has put it up. -/
theorem after_latch (closed : Bool) (order : List ι) :
    after (latch jobs) closed order = true ↔ closed = true ∨ ∃ k ∈ order, jobs k = .close := by
  induction order using List.reverseRecOn with
  | nil => simp [after]
  | append_singleton order k ih =>
    rw [after_concat]
    cases hjob : jobs k with
    | close => simp [latch, hjob]
    | access access | queue_read_response r | queue_write_response r | clear_calls => simp [latch, hjob, ih]

/-! ## What settles a call -/

section
variable [DecidableEq ι] (log : List (Stage × ι)) (i : ι)

/-- Whether a call finds the endpoint closed. -/
def shut : Bool := told (latch jobs) start.closed (passed .flag log) i

/-- The response it takes. -/
def taken : Option (Except RcpError (List UInt8)) := told (serve jobs) start.inner (passed .queues log) i

def outcome : Except RcpError (List UInt8) :=
  if shut jobs start log i then .error .Closed
  else (taken jobs start log i).getD (told (hold jobs) start.buf (passed .buffer log) i)

/-- The stages of a call that has returned. -/
def way : List Stage :=
  .flag :: if shut jobs start log i then [] else .queues :: if (taken jobs start log i).isSome then [] else [.buffer]

/-- How far a call has come, as its notes have it. -/
def Phase.At (phase : Phase) : Prop :=
  match jobs i, phase with
  | _, .idle => stagesOf i log = []
  | .access _, .opened => stagesOf i log = [.flag] ∧ shut jobs start log i = false
  | .access _, .missed =>
    stagesOf i log = [.flag, .queues] ∧ shut jobs start log i = false ∧ taken jobs start log i = none
  | .access _, .returned result => stagesOf i log = way jobs start log i ∧ result = outcome jobs start log i
  | .close, .returned result => stagesOf i log = [.flag] ∧ result = .ok []
  | .queue_read_response _, .returned result | .queue_write_response _, .returned result
  | .clear_calls, .returned result => stagesOf i log = [.queues] ∧ result = .ok []
  | _, _ => False

end

variable {jobs start} [DecidableEq ι] {log : List (Stage × ι)} {i k : ι}

theorem shut_concat (h : (.flag, i) ∈ log) (later : Stage × ι) :
    shut jobs start (log ++ [later]) i = shut jobs start log i := told_passed_concat h later

theorem taken_concat (h : (.queues, i) ∈ log) (later : Stage × ι) :
    taken jobs start (log ++ [later]) i = taken jobs start log i := told_passed_concat h later

/-- No later note changes what a call that has come its way is told. -/
theorem way_concat (h : stagesOf i log = way jobs start log i) (later : Stage × ι) :
    way jobs start (log ++ [later]) i = way jobs start log i ∧
      outcome jobs start (log ++ [later]) i = outcome jobs start log i := by
  have hnote {stage : Stage} (hmem : stage ∈ way jobs start log i) : (stage, i) ∈ log := mem_stagesOf.1 (h ▸ hmem)
  have hflag : (.flag, i) ∈ log := hnote (by simp [way])
  cases hshut : shut jobs start log i with
  | true => simp [way, outcome, shut_concat hflag, hshut]
  | false =>
    have hqueues : (.queues, i) ∈ log := hnote (by simp [way, hshut])
    cases htaken : taken jobs start log i with
    | some response => simp [way, outcome, shut_concat hflag, taken_concat hqueues, hshut, htaken]
    | none =>
      have hbuffer : (.buffer, i) ∈ log := hnote (by simp [way, hshut, htaken])
      simp [way, outcome, shut_concat hflag, taken_concat hqueues, told_passed_concat hbuffer, hshut, htaken]

theorem Phase.At.concat {phase : Phase} (h : phase.At jobs start log i) (stage : Stage) (hne : k ≠ i) :
    phase.At jobs start (log ++ [(stage, k)]) i := by
  have hstages : stagesOf i (log ++ [(stage, k)]) = stagesOf i log := by rw [stagesOf_concat, if_neg hne]
  have hnote {stage' : Stage} (hmem : stage' ∈ stagesOf i log) : (stage', i) ∈ log := mem_stagesOf.1 hmem
  unfold At at h ⊢
  rw [hstages]
  split at h
  · exact h
  · rw [shut_concat (hnote (by simp [h.1]))]
    exact h
  · rw [shut_concat (hnote (by simp [h.1])), taken_concat (hnote (by simp [h.1]))]
    exact h
  · rw [(way_concat h.1 _).1, (way_concat h.1 _).2]
    exact h
  all_goals exact h

theorem steps_at {phase : Phase} (hplace : phase.At jobs start log k) :
    Steps (act jobs) start (move jobs) (seen jobs) (Phase.At jobs start) log k phase := by
  have hnew {stages : List Stage} {stage : Stage} : stagesOf k log = stages → stage ∉ stages → (stage, k) ∉ log :=
    notMem_of_stagesOf
  cases hjob : jobs k with
  | access access =>
    cases phase with
    | idle =>
      simp only [Phase.At] at hplace
      have hshut : shut jobs start (log ++ [(.flag, k)]) k = (kept (act jobs) start log).closed := by
        rw [shut, told_passed_last (hnew hplace (by simp)), latch, hjob, kept_eq]
      refine .passes .flag _ (by simp only [move, act, latch, hjob]; rfl) (by simp [seen, stage, hjob]) ?_
      cases hclosed : (kept (act jobs) start log).closed with
      | true =>
        rw [hclosed] at hshut
        simp [Phase.At, hjob, hplace, way, outcome, hshut]
      | false =>
        rw [hclosed] at hshut
        simp [Phase.At, hjob, hplace, hshut]
    | opened =>
      simp only [Phase.At, hjob] at hplace
      have hshut : shut jobs start (log ++ [(.queues, k)]) k = false := by
        rw [shut_concat (mem_stagesOf.1 (by simp [hplace.1])), hplace.2]
      have htaken : taken jobs start (log ++ [(.queues, k)]) k =
          ((kept (act jobs) start log).inner.dispatch access).1 := by
        rw [taken, told_passed_last (hnew hplace.1 (by simp)), serve, hjob, kept_eq]
      refine .passes .queues _ (by simp only [move, act, serve, hjob]; rfl) (by simp [seen, stage, hjob]) ?_
      cases hdispatch : ((kept (act jobs) start log).inner.dispatch access).1 with
      | none =>
        rw [hdispatch] at htaken
        simp [Phase.At, hjob, hplace, hshut, htaken]
      | some queued =>
        rw [hdispatch] at htaken
        simp [Phase.At, hjob, hplace, way, outcome, hshut, htaken]
    | missed =>
      simp only [Phase.At, hjob] at hplace
      have hshut : shut jobs start (log ++ [(.buffer, k)]) k = false := by
        rw [shut_concat (mem_stagesOf.1 (by simp [hplace.1])), hplace.2.1]
      have htaken : taken jobs start (log ++ [(.buffer, k)]) k = none := by
        rw [taken_concat (mem_stagesOf.1 (by simp [hplace.1])), hplace.2.2]
      have hheld : told (hold jobs) start.buf (passed .buffer (log ++ [(.buffer, k)])) k =
          (unqueued access (kept (act jobs) start log).buf).1 := by
        rw [told_passed_last (hnew hplace.1 (by simp)), hold, hjob, kept_eq]
      refine .passes .buffer _ (by simp only [move, act, hold, hjob]; rfl) (by simp [seen, stage, hjob]) ?_
      have houtcome : outcome jobs start (log ++ [(.buffer, k)]) k =
          (unqueued access (kept (act jobs) start log).buf).1 := by
        rw [outcome, hshut, htaken, hheld]
        rfl
      simp [Phase.At, hjob, hplace, way, hshut, htaken, houtcome]
    | returned result => exact .waits (by simp [move, hjob]) (by simp [seen, stage, hjob])
  | close =>
    cases phase with
    | idle =>
      simp only [Phase.At] at hplace
      exact .passes .flag (.returned (.ok [])) (by simp [move, act, latch, close, hjob]) (by simp [seen, stage, hjob])
        (by simp [Phase.At, hjob, hplace])
    | opened | missed => simp only [Phase.At, hjob] at hplace
    | returned result => exact .waits (by simp [move, hjob]) (by simp [seen, stage, hjob])
  | queue_read_response r | queue_write_response r | clear_calls =>
    cases phase with
    | idle =>
      simp only [Phase.At] at hplace
      exact .passes .queues (.returned (.ok []))
        (by simp [move, act, serve, queue_read_response, queue_write_response, clear_calls, hjob])
        (by simp [seen, stage, hjob]) (by simp [Phase.At, hjob, hplace])
    | opened | missed => simp only [Phase.At, hjob] at hplace
    | returned result => exact .waits (by simp [move, hjob]) (by simp [seen, stage, hjob])

variable (jobs start) in
theorem staged : Staged (act jobs) start (move jobs) (seen jobs) (Phase.At jobs start) .idle where
  begins i := by simp [Phase.At]
  stays h stage _ hne := h.concat stage hne
  steps := steps_at

theorem Phase.At.nodup {phase : Phase} (h : phase.At jobs start log i) : (stagesOf i log).Nodup := by
  unfold At at h
  split at h
  · simp [h]
  · simp [h.1]
  · simp [h.1]
  · rw [h.1, way]
    cases shut jobs start log i <;> cases taken jobs start log i <;> simp
  · simp [h.1]
  · simp [h.1]
  · simp [h.1]
  · simp [h.1]
  · exact h.elim

/-! ## Responses -/

/-- The responses that the calls of a kind take, in the order of the calls. -/
def takenBy (jobs : ι → Job) (is_write : Bool) (inner : Inner) (order : List ι) :
    List (Except RcpError (List UInt8)) :=
  order.filterMap fun i => match jobs i with
    | .access access => if access.is_write = is_write then told (serve jobs) inner order i else none
    | _ => none

theorem takenBy_concat {is_write : Bool} {inner : Inner} {order : List ι} (hk : k ∉ order) :
    takenBy jobs is_write inner (order ++ [k]) = takenBy jobs is_write inner order ++ (match jobs k with
      | .access access =>
        if access.is_write = is_write then ((after (serve jobs) inner order).dispatch access).1.toList else []
      | _ => []) := by
  have hearlier : order.filterMap (fun i => match jobs i with
        | .access access => if access.is_write = is_write then told (serve jobs) inner (order ++ [k]) i else none
        | _ => none) = takenBy jobs is_write inner order :=
    List.filterMap_congr fun i hi => by rw [told_concat hi]
  rw [takenBy, List.filterMap_append, hearlier]
  cases hjob : jobs k with
  | access access =>
    have htold : told (serve jobs) inner (order ++ [k]) k = ((after (serve jobs) inner order).dispatch access).1 := by
      rw [told_last hk, serve, hjob]
    by_cases hkind : access.is_write = is_write
    · simp only [List.filterMap_cons, List.filterMap_nil, hjob, if_pos hkind, htold]
      cases ((after (serve jobs) inner order).dispatch access).1 <;> rfl
    · simp [hjob, hkind]
  | queue_read_response r | queue_write_response r | clear_calls | close => simp [hjob]

/-- What has been taken and what still waits are what was queued, in its order. -/
theorem taken_and_waiting (is_write : Bool) (inner : Inner) {order : List ι} (h : order.Nodup) :
    takenBy jobs is_write inner order ++ (after (serve jobs) inner order).waiting is_write =
      inner.waiting is_write ++ queuedFor jobs is_write order := by
  induction order using List.reverseRecOn with
  | nil => simp [takenBy, queuedFor, after]
  | append_singleton order k ih =>
    rw [List.nodup_append] at h
    have hk : k ∉ order := fun hmem => h.2.2 k hmem k List.mem_cons_self rfl
    rw [takenBy_concat hk, after_concat, queuedFor, List.filterMap_append, ← queuedFor, ← List.append_assoc, ← ih h.1]
    cases hjob : jobs k with
    | access access =>
      rw [List.append_assoc, serve, hjob]
      simp [dispatch_waiting, Job.queues, hjob]
    | queue_read_response r | queue_write_response r =>
      cases is_write <;>
        simp [serve, hjob, Inner.waiting, Inner.queue_read_response, Inner.queue_write_response, Job.queues]
    | clear_calls | close => cases is_write <;> simp [serve, hjob, Inner.waiting, Inner.clear_calls, Job.queues]

/-! ## Every schedule -/

section
variable (jobs : ι → Job) (start : SimEndpoint) (schedule : List ι)

/-- What a schedule makes of the endpoint and the jobs. -/
def simulated : Race ι SimEndpoint Phase := run (move jobs) (fresh start .idle) schedule

/-- What it shows. -/
def shown : List (Stage × ι) := trace (move jobs) (seen jobs) (fresh start .idle) schedule

/-- What every schedule keeps to. -/
structure Conserved (log : List (Stage × ι)) (race : Race ι SimEndpoint Phase) : Prop where
  once : log.Nodup
  responses : ∀ is_write, takenBy jobs is_write start.inner (passed .queues log) ++ race.shared.inner.waiting is_write =
    start.inner.waiting is_write ++ queuedFor jobs is_write (passed .queues log)
  recorded : race.shared.calls = recorded jobs start.calls (passed .queues log)
  /-- A call finds the endpoint closed if a call that closes it comes to the flag before it. -/
  shut : ∀ i, shut jobs start log i = true ↔
    start.closed = true ∨ ∃ k ∈ upTo i (passed .flag log), jobs k = .close
  returned : ∀ i access result, jobs i = .access access → race.phase i = .returned result →
    result = outcome jobs start log i ∧ stagesOf i log = way jobs start log i

/-- No schedule of calls loses a queued response, hands one out twice or out of its order; a call returns the response
it takes, what the buffer gives if none waits, and the refusal, with nothing recorded or taken, if it comes after the
endpoint was closed. -/
theorem responses_conserved : Conserved jobs start (shown jobs start schedule) (simulated jobs start schedule) := by
  have hshared : (simulated jobs start schedule).shared = kept (act jobs) start (shown jobs start schedule) :=
    ((staged jobs start).run schedule).1
  have hat : ∀ i, ((simulated jobs start schedule).phase i).At jobs start (shown jobs start schedule) i :=
    ((staged jobs start).run schedule).2
  have hnodup : (shown jobs start schedule).Nodup := nodup_of_stagesOf fun i => (hat i).nodup
  rw [kept_eq] at hshared
  constructor
  · exact hnodup
  · intro is_write
    rw [hshared]
    exact taken_and_waiting is_write start.inner (nodup_passed hnodup)
  · rw [hshared]
    exact calls_after start.inner _
  · intro i
    rw [← after_latch]
    cases hjob : jobs i <;> simp [SimEndpoint.shut, told, latch, hjob]
  · intro i access result hjob hreturned
    have hplace := hat i
    simp only [Phase.At, hjob, hreturned] at hplace
    exact hplace.symm

end

end SimEndpoint

end RustRcp
