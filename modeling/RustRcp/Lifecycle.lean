import RustRcp.Sequencer
/-!
# The life of a request

The gates of the request kinds, the lifecycle they guard and the three force-cancels
(`src/request.rs`, `AvtpTimestamp` of `src/timestamp.rs`). `History` is what a run has
behind it when it stands in a state.
-/
open Stateful

namespace RustRcp

/-! ## Timestamps -/

/-- How a decoded timestamp value should be interpreted. -/
inductive TimestampMeaning where
  | Untimed
  | Timed
  deriving DecidableEq, Repr

structure AvtpTimestamp where
  raw : UInt32 := 0
  deriving DecidableEq, Repr

namespace AvtpTimestamp

def semantics (self : AvtpTimestamp) : TimestampMeaning := if self.raw = 0 then .Untimed else .Timed

def is_untimed (self : AvtpTimestamp) : Bool := self.semantics == .Untimed

/-- The wrapped difference, read as a signed number. -/
def wrapping_delta (self earlier : AvtpTimestamp) : Int := (self.raw - earlier.raw).toInt32.toInt

def is_after (self other : AvtpTimestamp) : Bool := decide (0 < self.wrapping_delta other)

end AvtpTimestamp

/-! ## Gates of the kinds -/

inductive TriggerRepeatCount where
  | Finite (target : UInt16)
  | Infinite
  deriving DecidableEq, Repr

def is_trigger_repeat_exhausted (occurrences_so_far : UInt16) : TriggerRepeatCount → Bool
  | .Infinite => false
  | .Finite target => decide (target ≤ occurrences_so_far)

def should_count_trigger_occurrence (_endpoint_busy : Bool) : Bool := true

def check_chain_continuation (cs predecessor_errored : Bool) : Except RcpError Unit :=
  if cs && predecessor_errored then .error .ChainAborted else .ok ()

structure TimedExecutionTime where
  time : AvtpTimestamp := {}
  deriving DecidableEq, Repr

def is_timed_request_ready (current : AvtpTimestamp) (exec_time : TimedExecutionTime) : Bool :=
  if exec_time.time.is_untimed then true
  else current == exec_time.time || current.is_after exec_time.time

def check_clear_all_cancellation : Except RcpError Unit := .error .RequestCanceled

def check_clear_non_safestate_cancellation (is_safestate_related : Bool) : Except RcpError Unit :=
  if is_safestate_related then .ok () else .error .RequestCanceled

structure ClearTransactionNum where
  num : UInt8 := 0
  deriving DecidableEq, Repr

def check_clear_single_cancellation (candidate_transaction_num : UInt8) (target : ClearTransactionNum) :
    Except RcpError Unit :=
  if candidate_transaction_num = target.num then .error .RequestCanceled else .ok ()

/-! ## The lifecycle -/

inductive RequestLifecycleState where
  | Pending
  | Started
  | UnderExecution
  | Finalized
  deriving DecidableEq, Repr

def is_request_lifecycle_transition_defined : RequestLifecycleState → RequestLifecycleState → Bool
  | .Pending, .Started => true
  | .Started, .UnderExecution => true
  | .UnderExecution, .Finalized => true
  | _, _ => false

inductive RequestLifecycleGuardInput where
  | Standard
  | Chained (cs predecessor_errored : Bool)
  | ClearAll
  | ClearNonSafestate
  | ClearSingle
  | Timed (current : AvtpTimestamp) (exec_time : TimedExecutionTime)
  | CompoundWait (current_sequencer_state : SequencerState) (gate : CompoundGateConfig) (svr_sequencers_max : UInt8)
  | Triggered (endpoint_busy : Bool) (repeat_count : TriggerRepeatCount) (occurrences_so_far : UInt16)
  | Compound (current_sequencer_state : SequencerState) (gate : CompoundGateConfig) (svr_sequencers_max : UInt8)
  deriving DecidableEq, Repr

def request_lifecycle_transition_guard (target : RequestLifecycleState) (input : RequestLifecycleGuardInput) :
    Except RcpError Unit :=
  match target, input with
  | .Started, .Compound current_sequencer_state gate svr_sequencers_max
  | .Started, .CompoundWait current_sequencer_state gate svr_sequencers_max =>
    check_compound_gate current_sequencer_state gate svr_sequencers_max
  | .Started, .Timed current exec_time =>
    if is_timed_request_ready current exec_time then .ok () else .error .RequestRejected
  | .UnderExecution, .Chained cs predecessor_errored => check_chain_continuation cs predecessor_errored
  | .UnderExecution, .Triggered endpoint_busy repeat_count occurrences_so_far =>
    if should_count_trigger_occurrence endpoint_busy && is_trigger_repeat_exhausted occurrences_so_far repeat_count then
      .error .RequestRejected
    else .ok ()
  | _, _ => .ok ()

namespace RequestLifecycleState

def try_transition (self target : RequestLifecycleState) (input : RequestLifecycleGuardInput) :
    Except RcpError RequestLifecycleState :=
  if !is_request_lifecycle_transition_defined self target then .error .RequestRejected else do
  request_lifecycle_transition_guard target input
  return target

end RequestLifecycleState

/-- What the three force-cancels have in common: a check that fails cancels. -/
def try_force_cancel (check : Except RcpError Unit) : Stateful RcpError RequestLifecycleState Unit := do
  if (← get) = .Finalized then return ()
  else match check with
    | .ok () => return ()
    | .error err =>
      set RequestLifecycleState.Finalized
      throw err

def try_force_cancel_all : Stateful RcpError RequestLifecycleState Unit :=
  try_force_cancel check_clear_all_cancellation

def try_force_cancel_non_safestate (is_safestate_related : Bool) : Stateful RcpError RequestLifecycleState Unit :=
  try_force_cancel (check_clear_non_safestate_cancellation is_safestate_related)

def try_force_cancel_single (candidate_transaction_num : UInt8) (target : ClearTransactionNum) :
    Stateful RcpError RequestLifecycleState Unit :=
  try_force_cancel (check_clear_single_cancellation candidate_transaction_num target)

/-! ## What the gates ask -/

namespace RequestLifecycleGuardInput

/-- The kinds of request. -/
inductive Kind where
  | Standard
  | Chained
  | ClearAll
  | ClearNonSafestate
  | ClearSingle
  | Timed
  | CompoundWait
  | Triggered
  | Compound
  deriving DecidableEq, Repr

def kind : RequestLifecycleGuardInput → Kind
  | .Standard => .Standard
  | .Chained .. => .Chained
  | .ClearAll => .ClearAll
  | .ClearNonSafestate => .ClearNonSafestate
  | .ClearSingle => .ClearSingle
  | .Timed .. => .Timed
  | .CompoundWait .. => .CompoundWait
  | .Triggered .. => .Triggered
  | .Compound .. => .Compound

/-- The condition to start: the sequencer is known and in its start state; the execution time, if there
is one, is not ahead within half a turn of the clock. -/
def StartCondition : RequestLifecycleGuardInput → Prop
  | .Compound state gate max | .CompoundWait state gate max =>
    gate.sequencer_num.toNat < max.toNat ∧ state = gate.start_state
  | .Timed current exec_time =>
    exec_time.time.raw = 0 ∨ (current.raw.toNat + 2 ^ 32 - exec_time.time.raw.toNat) % 2 ^ 32 < 2 ^ 31
  | _ => True

/-- The condition to execute: the chain goes on, or there are repeats left. -/
def ExecutionCondition : RequestLifecycleGuardInput → Prop
  | .Chained cs predecessor_errored => ¬ (cs = true ∧ predecessor_errored = true)
  | .Triggered _ repeat_count occurrences_so_far =>
    ∀ target, repeat_count = .Finite target → occurrences_so_far.toNat < target.toNat
  | _ => True

end RequestLifecycleGuardInput

theorem check_compound_gate_ok_iff {state : SequencerState} {gate : CompoundGateConfig} {max : UInt8} :
    check_compound_gate state gate max = .ok () ↔ gate.sequencer_num.toNat < max.toNat ∧ state = gate.start_state := by
  unfold check_compound_gate check_sequencer_num_in_bounds is_gate_satisfied
  rw [← UInt8.lt_iff_toNat_lt]
  by_cases hnum : gate.sequencer_num < max
  · by_cases hstate : state = gate.start_state <;> simp [hnum, hstate, bind, Except.bind]
  · rw [if_neg hnum]
    exact ⟨fun h => (by cases h), fun h => absurd h.1 hnum⟩

/-- Being after or equal is being less than half a turn ahead, however the clock has wrapped. -/
theorem is_timed_request_ready_iff {current : AvtpTimestamp} {exec_time : TimedExecutionTime} :
    is_timed_request_ready current exec_time = true ↔ exec_time.time.raw = 0 ∨
      (current.raw.toNat + 2 ^ 32 - exec_time.time.raw.toNat) % 2 ^ 32 < 2 ^ 31 := by
  obtain ⟨⟨exec⟩⟩ := exec_time
  obtain ⟨now⟩ := current
  have hnow := now.toNat_lt
  have hexec := exec.toNat_lt
  have hsub : (now - exec).toNat = (2 ^ 32 - exec.toNat + now.toNat) % 2 ^ 32 := UInt32.toNat_sub ..
  have hafter : (0 < (now - exec).toInt32.toInt) ↔ 0 < (now - exec).toNat ∧ (now - exec).toNat < 2 ^ 31 := by
    show 0 < (now - exec).toBitVec.toInt ↔ _
    rw [BitVec.toInt_eq_toNat_cond, UInt32.toNat_toBitVec]
    split <;> omega
  by_cases hzero : exec = 0
  · simp [is_timed_request_ready, AvtpTimestamp.is_untimed, AvtpTimestamp.semantics, hzero]
  · have heq : now = exec ↔ now.toNat = exec.toNat := UInt32.toNat_inj.symm
    simp only [is_timed_request_ready, AvtpTimestamp.is_untimed, AvtpTimestamp.semantics, hzero, if_false, false_or,
      AvtpTimestamp.is_after, AvtpTimestamp.wrapping_delta, Bool.or_eq_true, beq_iff_eq, AvtpTimestamp.mk.injEq, heq,
      decide_eq_true_eq, hafter, reduceCtorEq]
    omega

theorem is_trigger_repeat_exhausted_iff {occurrences : UInt16} {count : TriggerRepeatCount} :
    is_trigger_repeat_exhausted occurrences count = false ↔
      ∀ target, count = .Finite target → occurrences.toNat < target.toNat := by
  cases count with
  | Finite target => simp [is_trigger_repeat_exhausted, UInt16.lt_iff_toNat_lt]
  | Infinite => simp [is_trigger_repeat_exhausted]

/-- The guard of the first hop lets through what meets the condition to start. -/
theorem guard_started_iff (input : RequestLifecycleGuardInput) :
    request_lifecycle_transition_guard .Started input = .ok () ↔ input.StartCondition := by
  cases input with
  | Compound state gate max => exact check_compound_gate_ok_iff
  | CompoundWait state gate max => exact check_compound_gate_ok_iff
  | Timed current exec_time =>
    rw [RequestLifecycleGuardInput.StartCondition, ← is_timed_request_ready_iff]
    simp [request_lifecycle_transition_guard]
  | _ => simp [request_lifecycle_transition_guard, RequestLifecycleGuardInput.StartCondition]

theorem guard_under_execution_iff (input : RequestLifecycleGuardInput) :
    request_lifecycle_transition_guard .UnderExecution input = .ok () ↔ input.ExecutionCondition := by
  cases input with
  | Chained cs errored =>
    simp [request_lifecycle_transition_guard, check_chain_continuation, RequestLifecycleGuardInput.ExecutionCondition]
  | Triggered busy count occurrences =>
    rw [RequestLifecycleGuardInput.ExecutionCondition, ← is_trigger_repeat_exhausted_iff]
    simp [request_lifecycle_transition_guard, should_count_trigger_occurrence]
  | _ => simp [request_lifecycle_transition_guard, RequestLifecycleGuardInput.ExecutionCondition]

/-! ## Runs -/

/-- What may be done to a request. -/
inductive LifecycleStep where
  | attempt (target : RequestLifecycleState) (input : RequestLifecycleGuardInput)
  | cancel_all
  | cancel_non_safestate (is_safestate_related : Bool)
  | cancel_single (candidate_transaction_num : UInt8) (target : ClearTransactionNum)
  deriving DecidableEq, Repr

namespace LifecycleStep

/-- A transition attempted in place: a refused one gives no new state. -/
def perform : LifecycleStep → Stateful RcpError RequestLifecycleState Unit
  | .attempt target input => do
    let state ← MonadExcept.ofExcept ((← get).try_transition target input)
    set state
  | .cancel_all => try_force_cancel_all
  | .cancel_non_safestate is_safestate_related => try_force_cancel_non_safestate is_safestate_related
  | .cancel_single candidate_transaction_num target => try_force_cancel_single candidate_transaction_num target

def result (step : LifecycleStep) (s : RequestLifecycleState) : Except RcpError Unit := (exec step.perform s).1

def after (s : RequestLifecycleState) (step : LifecycleStep) : RequestLifecycleState := (exec step.perform s).2

def is_cancel : LifecycleStep → Prop
  | .attempt .. => False
  | _ => True

/-- The attempts have inputs of this kind. -/
def OfKind (kind : RequestLifecycleGuardInput.Kind) : LifecycleStep → Prop
  | .attempt _ input => input.kind = kind
  | _ => True

/-- The check of a force-cancel. -/
def check : LifecycleStep → Except RcpError Unit
  | .attempt .. => .ok ()
  | .cancel_all => check_clear_all_cancellation
  | .cancel_non_safestate is_safestate_related => check_clear_non_safestate_cancellation is_safestate_related
  | .cancel_single candidate_transaction_num target => check_clear_single_cancellation candidate_transaction_num target

variable {s t : RequestLifecycleState} {step : LifecycleStep} {steps : List LifecycleStep}
  {kind : RequestLifecycleGuardInput.Kind}

theorem force_cancel_spec (check : Except RcpError Unit) (s : RequestLifecycleState) :
    exec (try_force_cancel check) s =
      if s = .Finalized then (.ok (), s) else (check, if check = .ok () then s else .Finalized) := by
  unfold try_force_cancel
  rw [exec_bind_ok (exec_get s)]
  by_cases h : s = .Finalized
  · simp [h]
  · cases check <;> simp [h, exec_bind]

theorem perform_cancel (h : step.is_cancel) : step.perform = try_force_cancel step.check := by
  cases step with
  | attempt target input => cases h
  | _ => rfl

theorem check_cases (step : LifecycleStep) : step.check = .ok () ∨ step.check = .error .RequestCanceled := by
  cases step with
  | attempt target input => exact .inl rfl
  | cancel_all => exact .inr rfl
  | cancel_non_safestate related => cases related <;> simp [check, check_clear_non_safestate_cancellation]
  | cancel_single num target =>
    by_cases h : num = target.num <;> simp [check, check_clear_single_cancellation, h]

theorem try_transition_ok_iff {target : RequestLifecycleState} {input : RequestLifecycleGuardInput} :
    s.try_transition target input = .ok t ↔ t = target ∧ is_request_lifecycle_transition_defined s target = true ∧
      request_lifecycle_transition_guard target input = .ok () := by
  unfold RequestLifecycleState.try_transition
  simp only [guard_ok_iff, bind_ok_iff, Bool.not_eq_true', Bool.not_eq_false]
  constructor
  · rintro ⟨hdefined, u, hguard, ht⟩
    cases ht
    exact ⟨rfl, hdefined, hguard⟩
  · rintro ⟨rfl, hdefined, hguard⟩
    exact ⟨hdefined, (), hguard, rfl⟩

/-- No guard fails the way a cancellation reports itself. -/
theorem guard_not_canceled (target : RequestLifecycleState) (input : RequestLifecycleGuardInput) :
    request_lifecycle_transition_guard target input ≠ .error .RequestCanceled := by
  have hgate (state : SequencerState) (gate : CompoundGateConfig) (max : UInt8) :
      check_compound_gate state gate max ≠ .error .RequestCanceled := by
    unfold check_compound_gate check_sequencer_num_in_bounds
    split <;> [split; skip] <;> simp [bind, Except.bind]
  unfold request_lifecycle_transition_guard
  split
  · exact hgate _ _ _
  · exact hgate _ _ _
  · split <;> simp
  · unfold check_chain_continuation
    split <;> simp
  · split <;> simp
  · simp

theorem try_transition_not_canceled (s target : RequestLifecycleState) (input : RequestLifecycleGuardInput) :
    s.try_transition target input ≠ .error .RequestCanceled := by
  have hguard := guard_not_canceled target input
  unfold RequestLifecycleState.try_transition
  split
  · simp
  · cases hresult : request_lifecycle_transition_guard target input with
    | ok u => simp [bind, Except.bind, pure, Except.pure]
    | error e =>
      rw [hresult] at hguard
      simpa [bind, Except.bind] using hguard

theorem attempt_spec (target : RequestLifecycleState) (input : RequestLifecycleGuardInput)
    (s : RequestLifecycleState) : exec (perform (.attempt target input)) s =
      match s.try_transition target input with
      | .ok t => (.ok (), t)
      | .error e => (.error e, s) := by
  rw [perform, exec_bind_ok (exec_get s), exec_bind, exec_ofExcept]
  cases s.try_transition target input <;> rfl

/-- A step leaves the state and cancels nothing, or is an attempt that succeeds, or a cancellation. -/
theorem after_cases (s : RequestLifecycleState) (step : LifecycleStep) :
    (after s step = s ∧ step.result s ≠ .error .RequestCanceled) ∨
      (∃ input, step = .attempt (after s step) input ∧ is_request_lifecycle_transition_defined s (after s step) = true ∧
        request_lifecycle_transition_guard (after s step) input = .ok () ∧ step.result s = .ok ()) ∨
      (step.is_cancel ∧ s ≠ .Finalized ∧ after s step = .Finalized ∧ step.result s = .error .RequestCanceled) := by
  by_cases hcancel : step.is_cancel
  · rw [after, result, perform_cancel hcancel, force_cancel_spec]
    by_cases hfinal : s = .Finalized
    · exact .inl (by simp [hfinal])
    · rcases check_cases step with hcheck | hcheck
      · exact .inl (by simp [hfinal, hcheck])
      · exact .inr (.inr ⟨hcancel, hfinal, by simp [hfinal, hcheck]⟩)
  · cases step with
    | attempt target input =>
      rw [after, result, attempt_spec]
      cases htry : s.try_transition target input with
      | ok t =>
        obtain ⟨rfl, hdefined, hguard⟩ := try_transition_ok_iff.1 htry
        exact .inr (.inl ⟨input, rfl, hdefined, hguard, rfl⟩)
      | error e =>
        refine .inl ⟨rfl, fun h => try_transition_not_canceled s target input ?_⟩
        rw [htry]
        exact congrArg _ (Except.error.inj h)
    | _ => exact absurd trivial hcancel

/-! ## Histories -/

/-- No step of the run cancels anything. -/
def Undisturbed (s : RequestLifecycleState) (steps : List LifecycleStep) : Prop :=
  ∀ p ∈ visits after s steps, p.2.result p.1 ≠ .error .RequestCanceled

/-- The request was started on its condition, and nothing has been cancelled or moved since. -/
structure StartedBy (kind : RequestLifecycleGuardInput.Kind) (start : RequestLifecycleGuardInput)
    (before since : List LifecycleStep) : Prop where
  kind : start.kind = kind
  pending : before.foldl after .Pending = .Pending
  condition : start.StartCondition
  calm : Undisturbed .Started since
  still : since.foldl after .Started = .Started

/-- What a run from `Pending` has behind it in the state it ends in. -/
def History (kind : RequestLifecycleGuardInput.Kind) (steps : List LifecycleStep) : RequestLifecycleState → Prop
  | .Started => ∃ before start since, steps = before ++ .attempt .Started start :: since ∧
      StartedBy kind start before since
  | .UnderExecution => ∃ before start since execute later,
      steps = before ++ .attempt .Started start :: (since ++ .attempt .UnderExecution execute :: later) ∧
      StartedBy kind start before since ∧ execute.kind = kind ∧ execute.ExecutionCondition
  | _ => True

theorem Undisturbed.concat (h : Undisturbed s steps)
    (hstep : step.result (steps.foldl after s) ≠ .error .RequestCanceled) : Undisturbed s (steps ++ [step]) := by
  intro p hp
  rw [visits_append] at hp
  rcases List.mem_append.1 hp with hp | hp
  · exact h p hp
  · rw [visits, visits, List.mem_singleton] at hp
    subst hp
    exact hstep

/-- A step that leaves the state lengthens its history. -/
theorem History.stay (h : History kind steps s) (hs : steps.foldl after .Pending = s)
    (hcalm : step.result s ≠ .error .RequestCanceled) (hstay : after s step = s) :
    History kind (steps ++ [step]) s := by
  cases s with
  | Pending => trivial
  | Finalized => trivial
  | Started =>
    obtain ⟨before, start, since, rfl, hstart⟩ := h
    refine ⟨before, start, since ++ [step], by simp, { hstart with calm := ?_, still := ?_ }⟩
    · exact hstart.calm.concat (by rwa [hstart.still])
    · rw [List.foldl_concat, hstart.still, hstay]
  | UnderExecution =>
    obtain ⟨before, start, since, execute, later, rfl, hrest⟩ := h
    exact ⟨before, start, since, execute, later ++ [step], by simp, hrest⟩

/-- A hop begins a new history or adds to the one there is. -/
theorem History.hop (h : History kind steps s) (hs : steps.foldl after .Pending = s)
    {input : RequestLifecycleGuardInput} (hkind : input.kind = kind)
    (hdefined : is_request_lifecycle_transition_defined s t = true)
    (hguard : request_lifecycle_transition_guard t input = .ok ()) :
    History kind (steps ++ [.attempt t input]) t := by
  cases t with
  | Pending => trivial
  | Finalized => trivial
  | Started =>
    have hpending : s = .Pending := by cases s <;> first | rfl | cases hdefined
    have hcondition := (guard_started_iff input).1 hguard
    exact ⟨steps, input, [], rfl, hkind, hs.trans hpending, hcondition, by simp [Undisturbed, visits], rfl⟩
  | UnderExecution =>
    have hstarted : s = .Started := by cases s <;> first | rfl | cases hdefined
    subst hstarted
    obtain ⟨before, start, since, rfl, hstart⟩ := h
    exact ⟨before, start, since, input, [], by simp, hstart, hkind, (guard_under_execution_iff input).1 hguard⟩

theorem history_run (hkind : ∀ step ∈ steps, step.OfKind kind) :
    History kind steps (steps.foldl after .Pending) := by
  induction steps using List.reverseRecOn with
  | nil => trivial
  | append_singleton steps step ih =>
    have hrun := ih fun step hstep => hkind step (by simp [hstep])
    rw [List.foldl_concat]
    rcases after_cases (steps.foldl after .Pending) step with ⟨hstay, hcalm⟩ | ⟨input, hstep, hdefined, hguard, -⟩ |
      ⟨-, -, hfinal, -⟩
    · rw [hstay]
      exact hrun.stay rfl hcalm hstay
    · have hinput : LifecycleStep.OfKind kind (.attempt _ input) := hstep ▸ hkind step (by simp)
      have hhop := hrun.hop rfl hinput hdefined hguard
      rwa [← hstep] at hhop
    · rw [hfinal]
      trivial

/-! ## The rules -/

/-- What holds of every request of a kind. -/
structure Ruled (kind : RequestLifecycleGuardInput.Kind) : Prop where
  /-- Who executes was started on its condition, was not cancelled after that, and then met the condition to execute. -/
  executed : ∀ steps : List LifecycleStep, (∀ step ∈ steps, step.OfKind kind) →
    .UnderExecution ∈ states after .Pending steps →
    ∃ before start since execute later,
      steps = before ++ .attempt .Started start :: (since ++ .attempt .UnderExecution execute :: later) ∧
      StartedBy kind start before since ∧ execute.kind = kind ∧ execute.ExecutionCondition
  final : ∀ step, after .Finalized step = .Finalized
  cancels : ∀ s (step : LifecycleStep), step.is_cancel → (after s step ≠ s ↔ step.result s = .error .RequestCanceled)
  safestate : ∀ s, after s (.cancel_non_safestate true) = s
  single : ∀ s num target, num ≠ target.num → after s (.cancel_single num target) = s
  refused : ∀ s target input e, s.try_transition target input = .error e →
    (LifecycleStep.attempt target input).result s = .error e ∧ after s (.attempt target input) = s

theorem cancel_iff (h : step.is_cancel) : after s step ≠ s ↔ step.result s = .error .RequestCanceled := by
  rcases after_cases s step with ⟨hstay, hcalm⟩ | ⟨input, hstep, -⟩ | ⟨-, hopen, hfinal, hresult⟩
  · exact ⟨fun hmoved => absurd hstay hmoved, fun hresult => absurd hresult hcalm⟩
  · rw [hstep] at h
    cases h
  · exact ⟨fun _ => hresult, fun _ => by rw [hfinal]; exact hopen.symm⟩

/-- A force-cancel whose check passes touches nothing. -/
theorem after_of_check_ok (hcancel : step.is_cancel) (h : step.check = .ok ()) : after s step = s := by
  rw [after, perform_cancel hcancel, force_cancel_spec, h, if_pos rfl]
  split <;> rfl

theorem request_ruled (kind : RequestLifecycleGuardInput.Kind) : Ruled kind where
  executed steps hkind hmem := by
    obtain ⟨first, rest, rfl, hstate⟩ := mem_states after hmem
    have hrun := history_run fun step hstep => hkind step (List.mem_append_left rest hstep)
    rw [hstate] at hrun
    obtain ⟨before, start, since, execute, later, rfl, hrest⟩ := hrun
    exact ⟨before, start, since, execute, later ++ rest, by simp, hrest⟩
  final step := by
    rcases after_cases .Finalized step with ⟨hstay, -⟩ | ⟨input, -, hdefined, -⟩ | ⟨-, hopen, -⟩
    · exact hstay
    · cases hdefined
    · exact absurd rfl hopen
  cancels _ _ h := cancel_iff h
  safestate _ := after_of_check_ok trivial rfl
  single _ num target h := after_of_check_ok trivial (if_neg h)
  refused s target input e h := by
    rw [result, after, attempt_spec, h]
    exact ⟨rfl, rfl⟩

end LifecycleStep

end RustRcp
