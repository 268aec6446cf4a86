import RustRcp.Mock
import RustRcp.Lib.Threads
import RustRcp.Lib.Stages
/-!
# Injected faults

The fault-injecting endpoint (`src/faultinject.rs`). A call draws its number, is counted,
and looks at the rules in three steps of their own, so others come in between. What a call
returns is settled by its number and by the rules it finds (`faults_ruled`); with the rules
left alone, a campaign faults the same numbers under every schedule (`campaign_settled`).
-/
open Stateful Threads Stages

namespace RustRcp

/-! ## Rules -/

inductive FaultRule where
  | Always
  /-- The first call is number 1. -/
  | OnNthCall (n : UInt64)
  | AfterNthCall (n : UInt64)

structure FaultSpec where
  rule : FaultRule
  error : RcpError

def FaultRule.triggered (call_no : UInt64) : FaultRule → Bool
  | .Always => true
  | .OnNthCall n => call_no == n
  | .AfterNthCall n => n ≤ call_no

/-- The error of the first rule that a call number triggers. -/
def triggered_error (call_no : UInt64) (faults : List FaultSpec) : Option RcpError :=
  faults.findSome? fun spec => if spec.rule.triggered call_no then some spec.error else none

/-! ## The endpoint -/

structure FaultInjectEndpoint (M : Type) where
  inner : Endpoint M
  faults : List FaultSpec := []
  call_no : UInt64 := 0
  total : UInt64 := 0
  /-- What the wrapped endpoint keeps. -/
  memory : M

namespace FaultInjectEndpoint
variable {M : Type}

def new (inner : Endpoint M) (memory : M) : FaultInjectEndpoint M := { inner, memory }

def inject (self : FaultInjectEndpoint M) (spec : FaultSpec) : FaultInjectEndpoint M :=
  { self with faults := self.faults ++ [spec] }

def clear (self : FaultInjectEndpoint M) : FaultInjectEndpoint M := { self with faults := [] }

def call_count (self : FaultInjectEndpoint M) : UInt64 := self.total

def next_fault : Stateful RcpError (FaultInjectEndpoint M) (Option RcpError) := do
  modify fun self => { self with call_no := self.call_no + 1 }
  let call_no := (← get).call_no
  modify fun self => { self with total := self.total + 1 }
  return triggered_error call_no (← get).faults

def on_inner {α : Type} (x : Endpoint M → Stateful RcpError M α) : Stateful RcpError (FaultInjectEndpoint M) α := do
  let self ← get
  within FaultInjectEndpoint.memory (fun self memory => { self with memory }) (x self.inner)

def read (read_size : UInt16) : Stateful RcpError (FaultInjectEndpoint M) (List UInt8) := do
  match ← next_fault with
  | some err => throw err
  | none => on_inner fun inner => inner.read read_size

def write (payload : List UInt8) : Stateful RcpError (FaultInjectEndpoint M) Unit := do
  match ← next_fault with
  | some err => throw err
  | none => on_inner fun inner => inner.write payload

/-- Either of them. -/
def perform : Access → Stateful RcpError (FaultInjectEndpoint M) (List UInt8)
  | .read read_size => read read_size
  | .write payload => do
    write payload
    return []

/-- A call alone: the next number, and the wrapped endpoint unless a rule has that number. -/
theorem perform_spec (self : FaultInjectEndpoint M) (access : Access) :
    exec (perform access) self =
      let counted : FaultInjectEndpoint M := { self with call_no := self.call_no + 1, total := self.total + 1 }
      match triggered_error (self.call_no + 1) self.faults with
      | some err => (.error err, counted)
      | none => ((exec (self.inner.perform access) self.memory).1,
          { counted with memory := (exec (self.inner.perform access) self.memory).2 }) := by
  cases herr : triggered_error (self.call_no + 1) self.faults with
  | some err => cases access <;> simp [perform, read, write, next_fault, exec_bind, herr]
  | none =>
    cases access with
    | read read_size => simp [perform, read, next_fault, exec_bind, on_inner, Endpoint.perform, herr]
    | write payload =>
      rcases hrun : exec (self.inner.write payload) self.memory with ⟨_ | _, memory⟩ <;>
        simp [perform, write, next_fault, exec_bind, on_inner, Endpoint.perform, herr, hrun]

/-! ## Calls side by side -/

/-- What the endpoint is asked: an access, or a change of its rules. -/
inductive Job where
  | access (access : Access)
  | inject (spec : FaultSpec)
  | clear

inductive Phase where
  | idle
  | numbered (call_no : UInt64)
  | counted (call_no : UInt64)
  | passed
  | returned (result : Except RcpError (List UInt8))

inductive Stage where
  | number
  | count
  | consult
  | effect
  | change
  deriving DecidableEq

variable {ι : Type} (jobs : ι → Job)

/-- Drawing the number and looking at the rules hold the lock, one after the other. -/
def move : Move ι (FaultInjectEndpoint M) Phase := fun i self phase =>
  match jobs i, phase with
  | .access _, .idle => some ({ self with call_no := self.call_no + 1 }, .numbered (self.call_no + 1))
  | .access _, .numbered call_no => some ({ self with total := self.total + 1 }, .counted call_no)
  -- the rules may have changed since the number was drawn
  | .access _, .counted call_no =>
    match triggered_error call_no self.faults with
    | some err => some (self, .returned (.error err))
    | none => some (self, .passed)
  | .access access, .passed =>
    let (result, memory) := exec (self.inner.perform access) self.memory
    some ({ self with memory }, .returned result)
  | .inject spec, .idle => some (self.inject spec, .returned (.ok []))
  | .clear, .idle => some (self.clear, .returned (.ok []))
  | _, _ => none

/-- Which stage a call comes past. -/
def stage : Job → Phase → Option Stage
  | .access _, .idle => some .number
  | .access _, .numbered _ => some .count
  | .access _, .counted _ => some .consult
  | .access _, .passed => some .effect
  | .inject _, .idle => some .change
  | .clear, .idle => some .change
  | _, _ => none

def seen : ι → FaultInjectEndpoint M → Phase → Option (Stage × ι) := fun i _ phase =>
  (stage (jobs i) phase).map (·, i)

/-- A call that is left alone does what the endpoint's method does. -/
theorem turns_alone [DecidableEq ι] {race : Race ι (FaultInjectEndpoint M) Phase} {i : ι} {access : Access}
    (hidle : race.phase i = .idle) (hjob : jobs i = .access access) :
    run (move jobs) race (List.replicate 4 i) =
      ⟨(exec (perform access) race.shared).2,
        Function.update race.phase i (.returned (exec (perform access) race.shared).1)⟩ := by
  rw [run_replicate (race.shared, .idle) hidle, perform_spec]
  cases herr : triggered_error (race.shared.call_no + 1) race.shared.faults with
  | some err => simp [alone, move, hjob, herr]
  | none => simp [alone, move, hjob, herr]

/-! ## What settles a call -/

/-- Drawing the next number. -/
def draw (_ : ι) (call_no : UInt64) : UInt64 × UInt64 := (call_no + 1, call_no + 1)

def tally (_ : ι) (total : UInt64) : Unit × UInt64 := ((), total + 1)

theorem after_draw (call_no : UInt64) (order : List ι) :
    after draw call_no order = call_no + UInt64.ofNat order.length := by
  induction order using List.reverseRecOn with
  | nil => simp [after]
  | append_singleton order k ih =>
    rw [after_concat, ih, List.length_append, List.length_singleton, UInt64.ofNat_add, ← UInt64.add_assoc]
    rfl

theorem after_tally (total : UInt64) (order : List ι) :
    after tally total order = total + UInt64.ofNat order.length := by
  rw [← after_draw]
  rfl

/-- What a job makes of the rules. -/
def revise (i : ι) (faults : List FaultSpec) : Unit × List FaultSpec :=
  match jobs i with
  | .access _ => ((), faults)
  | .inject spec => ((), faults ++ [spec])
  | .clear => ((), [])

/-- What it does at the wrapped endpoint. -/
def reach (inner : Endpoint M) (i : ι) (memory : M) : Except RcpError (List UInt8) × M :=
  match jobs i with
  | .access access => exec (inner.perform access) memory
  | .inject _ | .clear => (.ok [], memory)

section
variable (start : FaultInjectEndpoint M)

/-- The rules as the changes of a log leave them. -/
def rules (log : List (Stage × ι)) : List FaultSpec := after (revise jobs) start.faults (passed .change log)

/-- What coming past a stage does to the endpoint. -/
def act (stage : Stage) (i : ι) (self : FaultInjectEndpoint M) : FaultInjectEndpoint M :=
  match stage with
  | .number => { self with call_no := (draw i self.call_no).2 }
  | .count => { self with total := (tally i self.total).2 }
  | .consult => self
  | .effect => { self with memory := (reach jobs self.inner i self.memory).2 }
  | .change => { self with faults := (revise jobs i self.faults).2 }

theorem kept_eq (log : List (Stage × ι)) : kept (act jobs) start log = {
    inner := start.inner
    faults := rules jobs start log
    call_no := after draw start.call_no (passed .number log)
    total := after tally start.total (passed .count log)
    memory := after (reach jobs start.inner) start.memory (passed .effect log) } := by
  induction log using List.reverseRecOn with
  | nil => rfl
  | append_singleton log note ih =>
    obtain ⟨stage, k⟩ := note
    rw [kept_concat, ih]
    cases stage <;> simp [act, rules, after_concat]

variable [DecidableEq ι] (log : List (Stage × ι)) (i : ι)

/-- The number a call has drawn. -/
def number : UInt64 := told draw start.call_no (passed .number log) i

/-- The error that the rules a call finds have for its number. -/
def fault : Option RcpError :=
  triggered_error (number start log i) (rules jobs start (upTo (.consult, i) log))

/-- That error, or the answer where it stands among the calls that reach the wrapped endpoint. -/
def outcome : Except RcpError (List UInt8) :=
  match fault jobs start log i with
  | some err => .error err
  | none => told (reach jobs start.inner) start.memory (passed .effect log) i

/-- How far a call has come, as its notes have it. -/
def Phase.At (phase : Phase) : Prop :=
  match jobs i, phase with
  | _, .idle => stagesOf i log = []
  | .access _, .numbered call_no => stagesOf i log = [.number] ∧ call_no = number start log i
  | .access _, .counted call_no => stagesOf i log = [.number, .count] ∧ call_no = number start log i
  | .access _, .passed => stagesOf i log = [.number, .count, .consult] ∧ fault jobs start log i = none
  | .access _, .returned result =>
    stagesOf i log = .number :: .count :: .consult :: (match fault jobs start log i with
      | some _ => []
      | none => [.effect]) ∧ result = outcome jobs start log i
  | .inject _, .returned result | .clear, .returned result => stagesOf i log = [.change] ∧ result = .ok []
  | _, _ => False

end

/-! ## Numbers that no rule is triggered by -/

section
variable (start : FaultInjectEndpoint M) (log : List (Stage × ι))

/-- The error that the rules have for the call that `n` others come before. -/
def fault_at (n : Nat) : Option RcpError := triggered_error (start.call_no + UInt64.ofNat (n + 1)) start.faults

/-- The calls of an order whose numbers no rule is triggered by. -/
def spared (order : List ι) : List ι := (order.zipIdx.filter fun p => (start.fault_at p.2).isNone).map Prod.fst

theorem mem_spared {order : List ι} {i : ι} :
    i ∈ start.spared order ↔ ∃ n, order[n]? = some i ∧ start.fault_at n = none := by
  simp only [spared, List.mem_map, List.mem_filter, Prod.exists, List.mem_zipIdx_iff_getElem?,
    Option.isNone_iff_eq_none]
  constructor
  · rintro ⟨i, n, h, rfl⟩
    exact ⟨n, h⟩
  · rintro ⟨n, h⟩
    exact ⟨i, n, h, rfl⟩

theorem nodup_spared {order : List ι} (h : order.Nodup) : (start.spared order).Nodup := by
  have hsub : (start.spared order).Sublist (order.zipIdx.map Prod.fst) := List.filter_sublist.map _
  rw [List.zipIdx_map_fst] at hsub
  exact hsub.nodup h

/-- How many calls are spared, their number settles. -/
theorem length_spared (order : List ι) :
    (start.spared order).length = ((List.range order.length).filter fun n => (start.fault_at n).isNone).length := by
  have hnumbers : List.range order.length = order.zipIdx.map Prod.snd := by
    rw [List.zipIdx_map_snd, List.range_eq_range']
  rw [hnumbers, List.filter_map, List.length_map, spared, List.length_map]
  rfl

theorem rules_accesses (accesses : ι → Access) : rules (Job.access ∘ accesses) start log = start.faults := by
  rw [rules]
  induction passed .change log using List.reverseRecOn with
  | nil => rfl
  | append_singleton order k ih => rw [after_concat, ih]; rfl

end

variable {jobs} [DecidableEq ι] {start : FaultInjectEndpoint M} {log : List (Stage × ι)} {i k : ι}

/-- No later note changes what a call has found. -/
theorem fault_concat (hnumber : (.number, i) ∈ log) (hconsult : (.consult, i) ∈ log) (later : Stage × ι) :
    fault jobs start (log ++ [later]) i = fault jobs start log i := by
  rw [fault, fault, number, number, told_passed_concat hnumber, upTo_concat hconsult]

theorem Phase.At.concat {phase : Phase} (h : phase.At jobs start log i) (hne : k ≠ i) (stage : Stage) :
    phase.At jobs start (log ++ [(stage, k)]) i := by
  have hstages : stagesOf i (log ++ [(stage, k)]) = stagesOf i log := by rw [stagesOf_concat, if_neg hne]
  have hnote {stage' : Stage} (hmem : stage' ∈ stagesOf i log) : (stage', i) ∈ log := mem_stagesOf.1 hmem
  unfold At at h ⊢
  rw [hstages]
  split at h
  · exact h
  · rw [number, told_passed_concat (hnote (by simp [h.1]))]
    exact h
  · rw [number, told_passed_concat (hnote (by simp [h.1]))]
    exact h
  · rw [fault_concat (hnote (by simp [h.1])) (hnote (by simp [h.1]))]
    exact h
  · rw [outcome, fault_concat (hnote (by simp [h.1])) (hnote (by simp [h.1]))]
    cases hfault : fault jobs start log i with
    | some err => simpa [outcome, hfault] using h
    | none =>
      rw [told_passed_concat (hnote (by simp [h.1, hfault]))]
      simpa [outcome, hfault] using h
  · exact h
  · exact h
  · exact h

theorem steps_at {phase : Phase} (hplace : phase.At jobs start log k) :
    Steps (act jobs) start (move jobs) (seen jobs) (Phase.At jobs start) log k phase := by
  have hnew {stages : List Stage} {stage : Stage} : stagesOf k log = stages → stage ∉ stages → (stage, k) ∉ log :=
    notMem_of_stagesOf
  cases hjob : jobs k with
  | access access =>
    cases phase with
    | idle =>
      simp only [Phase.At] at hplace
      have hnumber : number start (log ++ [(.number, k)]) k = (kept (act jobs) start log).call_no + 1 := by
        rw [number, told_passed_last (hnew hplace (by simp)), kept_eq]
        rfl
      exact .passes .number _ (by simp only [move, hjob]; rfl) (by simp [seen, stage, hjob])
        (by simp [Phase.At, hjob, hplace, hnumber])
    | numbered call_no =>
      simp only [Phase.At, hjob] at hplace
      have hnumber : number start (log ++ [(.count, k)]) k = number start log k :=
        told_passed_concat (mem_stagesOf.1 (by simp [hplace.1])) _
      exact .passes .count _ (by simp only [move, hjob]; rfl) (by simp [seen, stage, hjob])
        (by simp [Phase.At, hjob, hplace, hnumber])
    | counted call_no =>
      simp only [Phase.At, hjob] at hplace
      have hnumber : number start (log ++ [(.consult, k)]) k = number start log k :=
        told_passed_concat (mem_stagesOf.1 (by simp [hplace.1])) _
      have hfault : fault jobs start (log ++ [(.consult, k)]) k =
          triggered_error call_no (kept (act jobs) start log).faults := by
        rw [fault, hnumber, upTo_last (hnew hplace.1 (by simp)), kept_eq, hplace.2]
      cases herr : triggered_error call_no (kept (act jobs) start log).faults with
      | some err =>
        rw [herr] at hfault
        exact .passes .consult _ (by simp only [move, hjob, herr]; rfl) (by simp [seen, stage, hjob])
          (by simp [Phase.At, hjob, hplace, hfault, outcome])
      | none =>
        rw [herr] at hfault
        exact .passes .consult _ (by simp only [move, hjob, herr]; rfl) (by simp [seen, stage, hjob])
          (by simp [Phase.At, hjob, hplace, hfault])
    | passed =>
      simp only [Phase.At, hjob] at hplace
      have hfault : fault jobs start (log ++ [(.effect, k)]) k = none := by
        rw [fault_concat (mem_stagesOf.1 (by simp [hplace.1])) (mem_stagesOf.1 (by simp [hplace.1])), hplace.2]
      have houtcome : outcome jobs start (log ++ [(.effect, k)]) k =
          (exec ((kept (act jobs) start log).inner.perform access) (kept (act jobs) start log).memory).1 := by
        rw [outcome, hfault, kept_eq]
        simp only
        rw [told_passed_last (hnew hplace.1 (by simp)), reach, hjob]
      exact .passes .effect _ (by simp only [move, hjob, act, reach]; rfl) (by simp [seen, stage, hjob])
        (by simp [Phase.At, hjob, hplace, hfault, houtcome])
    | returned result => exact .waits (by simp [move, hjob]) (by simp [seen, stage, hjob])
  | inject _ | clear =>
    cases phase with
    | idle =>
      simp only [Phase.At] at hplace
      exact .passes .change (.returned (.ok [])) (by simp [move, act, revise, inject, clear, hjob])
        (by simp [seen, stage, hjob]) (by simp [Phase.At, hjob, hplace])
    | numbered _ | counted _ | passed => simp only [Phase.At, hjob] at hplace
    | returned result => exact .waits (by simp [move, hjob]) (by simp [seen, stage, hjob])

variable (jobs start) in
theorem staged : Staged (act jobs) start (move jobs) (seen jobs) (Phase.At jobs start) .idle where
  begins i := by simp [Phase.At]
  stays h stage _ hne := h.concat hne stage
  steps := steps_at

/-! ## Every schedule -/

section
variable (jobs start) (schedule : List ι)

/-- What a schedule makes of the endpoint and the jobs. -/
def injected : Race ι (FaultInjectEndpoint M) Phase := run (move jobs) (fresh start .idle) schedule

/-- What it shows. -/
def shown : List (Stage × ι) := trace (move jobs) (seen jobs) (fresh start .idle) schedule

theorem shared_injected : (injected jobs start schedule).shared = kept (act jobs) start (shown jobs start schedule) :=
  ((staged jobs start).run schedule).1

theorem at_injected (i : ι) :
    ((injected jobs start schedule).phase i).At jobs start (shown jobs start schedule) i :=
  ((staged jobs start).run schedule).2 i

end

/-- A call comes past the stages it has come past once each. -/
theorem Phase.At.nodup {phase : Phase} (h : phase.At jobs start log i) : (stagesOf i log).Nodup := by
  unfold At at h
  split at h
  · simp [h]
  · simp [h.1]
  · simp [h.1]
  · simp [h.1]
  · rw [h.1]
    cases fault jobs start log i <;> simp
  · simp [h.1]
  · simp [h.1]
  · exact h.elim

theorem nodup_shown (jobs : ι → Job) (start : FaultInjectEndpoint M) (schedule : List ι) :
    (shown jobs start schedule).Nodup :=
  nodup_of_stagesOf fun i => (at_injected jobs start schedule i).nodup

theorem number_eq (i : ι) : number start log i =
    start.call_no + UInt64.ofNat ((passed .number log).idxOf i + 1) := by
  rw [number, told, after_draw, length_upTo, UInt64.ofNat_add, ← UInt64.add_assoc]
  rfl

/-- What every schedule keeps to. -/
structure Ruled (jobs : ι → Job) (start : FaultInjectEndpoint M) (log : List (Stage × ι))
    (race : Race ι (FaultInjectEndpoint M) Phase) : Prop where
  once : log.Nodup
  counted : race.shared.call_count = start.call_count + UInt64.ofNat (passed .count log).length
  memory : race.shared.memory = after (reach jobs start.inner) start.memory (passed .effect log)
  numbers : ∀ i, number start log i = start.call_no + UInt64.ofNat ((passed .number log).idxOf i + 1)
  spared : ∀ i, (.effect, i) ∈ log → fault jobs start log i = none
  returned : ∀ i access result, jobs i = .access access → race.phase i = .returned result →
    result = outcome jobs start log i ∧ ((.effect, i) ∈ log ↔ fault jobs start log i = none)

theorem Phase.At.spared {phase : Phase} (h : phase.At jobs start log i) (hi : (.effect, i) ∈ log) :
    fault jobs start log i = none := by
  have hmem := mem_stagesOf.2 hi
  unfold At at h
  split at h
  · simp [h] at hmem
  · simp [h.1] at hmem
  · simp [h.1] at hmem
  · simp [h.1] at hmem
  · cases hfault : fault jobs start log i with
    | none => rfl
    | some err => simp [h.1, hfault] at hmem
  · simp [h.1] at hmem
  · simp [h.1] at hmem
  · exact h.elim

/-- Under every schedule of accesses and changes of the rules, a call returns the error of the first rule that its
number triggers among those it finds, without reaching the wrapped endpoint, and otherwise what the wrapped endpoint
answers it where it stands among the calls that reach it. -/
theorem faults_ruled (jobs : ι → Job) (start : FaultInjectEndpoint M) (schedule : List ι) :
    Ruled jobs start (shown jobs start schedule) (injected jobs start schedule) := by
  have hat := at_injected jobs start schedule
  constructor
  · exact nodup_shown jobs start schedule
  · rw [shared_injected, kept_eq, call_count, after_tally]
    rfl
  · rw [shared_injected, kept_eq]
  · exact number_eq
  · exact fun i hi => (hat i).spared hi
  · intro i access result hjob hreturned
    have hplace := hat i
    simp only [Phase.At, hjob, hreturned] at hplace
    refine ⟨hplace.2, fun hi => (hat i).spared hi, fun hfault => mem_stagesOf.1 ?_⟩
    simp [hplace.1, hfault]

/-! ## Campaigns -/

section
variable (accesses : ι → Access) (start : FaultInjectEndpoint M)

/-- What a campaign comes to: the calls in the order of their numbers, those no rule has at the wrapped endpoint once
each, and every call faulted or answered by its number. -/
structure Settled (schedule : List ι) (race : Race ι (FaultInjectEndpoint M) Phase) (order effects : List ι) :
    Prop where
  calls : order.Nodup ∧ ∀ i, i ∈ order ↔ i ∈ schedule
  counted : race.shared.call_count = start.call_count + UInt64.ofNat order.length
  reached : effects.Perm (start.spared order)
  memory : race.shared.memory = after (fun i => exec (start.inner.perform (accesses i))) start.memory effects
  returned : ∀ n (h : n < order.length), race.phase (order.get ⟨n, h⟩) = .returned (match start.fault_at n with
    | some err => .error err
    | none => told (fun i => exec (start.inner.perform (accesses i))) start.memory effects (order.get ⟨n, h⟩))

end

theorem fault_accesses (accesses : ι → Access) (i : ι) :
    fault (Job.access ∘ accesses) start log i = start.fault_at ((passed .number log).idxOf i) := by
  rw [fault, rules_accesses, number_eq, fault_at]

section
variable {accesses : ι → Access} {schedule : List ι}

/-- The way of a call that has returned. -/
def wayOf (fault : Option RcpError) : List Stage :=
  .number :: .count :: .consult :: (match fault with
    | some _ => []
    | none => [.effect])

theorem effect_mem_wayOf {fault : Option RcpError} : .effect ∈ wayOf fault ↔ fault = none := by
  cases fault <;> simp [wayOf]

/-- When the calls of a schedule have all returned, each has come its whole way, and no other has begun. -/
theorem finished_ways (hfinished : Finished (move (Job.access ∘ accesses)) (fresh start .idle) schedule) (i : ι) :
    if i ∈ schedule then
      (injected (Job.access ∘ accesses) start schedule).phase i =
          .returned (outcome (Job.access ∘ accesses) start (shown (Job.access ∘ accesses) start schedule) i) ∧
        stagesOf i (shown (Job.access ∘ accesses) start schedule) =
          wayOf (fault (Job.access ∘ accesses) start (shown (Job.access ∘ accesses) start schedule) i)
    else stagesOf i (shown (Job.access ∘ accesses) start schedule) = [] := by
  have hplace := at_injected (Job.access ∘ accesses) start schedule i
  split
  next hi =>
    have hstop := hfinished i hi
    rw [← injected] at hstop
    cases hphase : (injected (Job.access ∘ accesses) start schedule).phase i with
    | returned result =>
      simp only [Phase.At, Function.comp, hphase] at hplace
      exact ⟨congrArg Phase.returned hplace.2, hplace.1⟩
    | counted call_no =>
      rw [hphase] at hstop
      cases herr : triggered_error call_no (injected (Job.access ∘ accesses) start schedule).shared.faults <;>
        simp [move, herr] at hstop
    | idle | numbered call_no | passed => simp [move, hphase] at hstop
  next hi =>
    have hidle : (injected (Job.access ∘ accesses) start schedule).phase i = .idle := phase_run_of_notMem hi
    rw [hidle] at hplace
    exact hplace

/-- Who comes past a stage, once all have returned. -/
theorem finished_passed (hfinished : Finished (move (Job.access ∘ accesses)) (fresh start .idle) schedule)
    (stage : Stage) (i : ι) :
    i ∈ passed stage (shown (Job.access ∘ accesses) start schedule) ↔ i ∈ schedule ∧
      stage ∈ wayOf (fault (Job.access ∘ accesses) start (shown (Job.access ∘ accesses) start schedule) i) := by
  have hway := finished_ways hfinished i
  rw [mem_passed, ← mem_stagesOf]
  by_cases hi : i ∈ schedule
  · rw [if_pos hi] at hway
    rw [hway.2]
    simp [hi]
  · rw [if_neg hi] at hway
    rw [hway]
    simp [hi]

end

/-- However the calls of a campaign take turns, the same numbers are faulted, with the same errors, and all others
reach the wrapped endpoint. -/
theorem campaign_settled (accesses : ι → Access) (start : FaultInjectEndpoint M) (schedule : List ι)
    (hfinished : Finished (move (Job.access ∘ accesses)) (fresh start .idle) schedule) :
    ∃ order effects, Settled accesses start schedule (injected (Job.access ∘ accesses) start schedule) order effects ∧
      effects.length = ((List.range order.length).filter fun n => (start.fault_at n).isNone).length := by
  have hlog := nodup_shown (Job.access ∘ accesses) start schedule
  have hshared := shared_injected (Job.access ∘ accesses) start schedule
  have hpassed := finished_passed hfinished
  have hways := finished_ways hfinished
  generalize shown (Job.access ∘ accesses) start schedule = log at *
  have hnodup {stage : Stage} : (passed stage log).Nodup := nodup_passed hlog
  have hnumber (i : ι) : i ∈ passed .number log ↔ i ∈ schedule := by simp [hpassed, wayOf]
  have hcount : (passed .count log).Perm (passed .number log) := by
    rw [List.perm_ext_iff_of_nodup hnodup hnodup]
    intro i
    simp [hpassed, wayOf]
  have heffect : (passed .effect log).Perm (start.spared (passed .number log)) := by
    rw [List.perm_ext_iff_of_nodup hnodup (nodup_spared start hnodup)]
    intro i
    rw [hpassed, mem_spared, fault_accesses, ← hnumber, effect_mem_wayOf]
    constructor
    · rintro ⟨hi, hfault⟩
      exact ⟨_, List.getElem?_idxOf hi, hfault⟩
    · rintro ⟨n, hn, hfault⟩
      obtain ⟨h, rfl⟩ := List.getElem?_eq_some_iff.1 hn
      rw [hnodup.idxOf_getElem]
      exact ⟨List.getElem_mem h, hfault⟩
  refine ⟨passed .number log, passed .effect log, ⟨⟨hnodup, hnumber⟩, ?_, heffect, ?_, ?_⟩, ?_⟩
  · rw [hshared, kept_eq, call_count, after_tally, hcount.length_eq]
    rfl
  · rw [hshared, kept_eq]
    rfl
  · intro n h
    have hway := hways ((passed .number log).get ⟨n, h⟩)
    rw [if_pos ((hnumber _).1 (List.get_mem ..))] at hway
    rw [hway.1, outcome, fault_accesses, List.get_eq_getElem, hnodup.idxOf_getElem]
    rfl
  · rw [heffect.length_eq, length_spared]

/-- A write and a read that take turns, the second number faulted. -/
theorem campaign_settled_two :
    let accesses : Bool → Access := fun i => if i then .read 1 else .write [1]
    let start := (new (MockEndpoint 0) [[0]]).inject ⟨.OnNthCall 2, .Busy⟩
    let schedule := [true, false, false, true, false, true, true, false]
    ∃ order effects, Settled accesses start schedule (injected (Job.access ∘ accesses) start schedule) order effects ∧
      effects.length = ((List.range order.length).filter fun n => (start.fault_at n).isNone).length :=
  campaign_settled (fun i : Bool => if i then .read 1 else .write [1])
    ((new (MockEndpoint 0) [[0]]).inject ⟨.OnNthCall 2, .Busy⟩) [true, false, false, true, false, true, true, false]
    fun i _ => by cases i <;> rfl

end FaultInjectEndpoint

end RustRcp
