import RustRcp.E2e
import RustRcp.Rollover
import RustRcp.Sequencer
/-!
# Safe states

A stream's watchdog (`src/watchdog.rs`), the rules by which the settings of its row drive it
to a safe state, and that state's mechanisms (`src/request.rs`). On a clock that does not go
backwards a watchdog has expired exactly when no request came within its interval
(`watchdog_run`). Whether a stream should enter its safe state its caller decides, from outcomes
of which each row says what they take; a safe state that a sequencer drives holds until a call
leaves it, and which calls can is settled by the row (`safe_state_holds`).
-/
open Stateful

namespace RustRcp

/-! ## The watchdog -/

/-- In clock ticks. -/
structure StreamWatchdogTimeout where
  ticks : UInt16 := 0
  deriving DecidableEq, Repr

structure StreamWatchdogState where
  last_reset_tick : UInt64 := 0
  deriving DecidableEq, Repr

namespace StreamWatchdogState

def new (now_tick : UInt64) : StreamWatchdogState := { last_reset_tick := now_tick }

def reset_on_request (_self : StreamWatchdogState) (now_tick : UInt64) : StreamWatchdogState :=
  { last_reset_tick := now_tick }

end StreamWatchdogState

/-- `u64::saturating_sub`. -/
def saturating_sub (a b : UInt64) : UInt64 := if b ≤ a then a - b else 0

def is_stream_watchdog_expired (state : StreamWatchdogState) (now_tick : UInt64) (timeout : StreamWatchdogTimeout) :
    Bool :=
  timeout.ticks.toUInt64 ≤ saturating_sub now_tick state.last_reset_tick

inductive StreamWatchdogOutcome where
  | Alive
  | ExpiredNoSafestate
  | ExpiredSafestate
  deriving DecidableEq, Repr

namespace StreamWatchdogOutcome

def watchdog_overflowed : StreamWatchdogOutcome → Bool
  | Alive => false
  | _ => true

def drives_safestate : StreamWatchdogOutcome → Bool
  | ExpiredSafestate => true
  | _ => false

end StreamWatchdogOutcome

def evaluate_stream_watchdog (state : StreamWatchdogState) (now_tick : UInt64) (timeout : StreamWatchdogTimeout)
    (rx_wd_enable rx_wd_safestate_enable : Bool) : StreamWatchdogOutcome :=
  if !rx_wd_enable || !is_stream_watchdog_expired state now_tick timeout then .Alive
  else if rx_wd_safestate_enable then .ExpiredSafestate
  else .ExpiredNoSafestate

theorem expired_iff (state : StreamWatchdogState) (now_tick : UInt64) (timeout : StreamWatchdogTimeout) :
    is_stream_watchdog_expired state now_tick timeout = true ↔
      timeout.ticks.toNat ≤ now_tick.toNat - state.last_reset_tick.toNat := by
  rw [is_stream_watchdog_expired, decide_eq_true_eq, UInt64.le_iff_toNat_le, UInt16.toNat_toUInt64, saturating_sub]
  split
  next hle => rw [UInt64.toNat_sub_of_le _ _ hle]
  next hlt =>
    rw [UInt64.le_iff_toNat_le, Nat.not_le] at hlt
    rw [Nat.sub_eq_zero_of_le hlt.le]
    rfl

/-- Whether it overflows, and whether that drives the stream to its safe state. -/
theorem evaluate_stream_watchdog_eq (state : StreamWatchdogState) (now_tick : UInt64) (timeout : StreamWatchdogTimeout)
    (rx_wd_enable rx_wd_safestate_enable : Bool) :
    (evaluate_stream_watchdog state now_tick timeout rx_wd_enable rx_wd_safestate_enable).watchdog_overflowed =
        (rx_wd_enable && is_stream_watchdog_expired state now_tick timeout) ∧
      (evaluate_stream_watchdog state now_tick timeout rx_wd_enable rx_wd_safestate_enable).drives_safestate =
        (rx_wd_enable && is_stream_watchdog_expired state now_tick timeout && rx_wd_safestate_enable) := by
  unfold evaluate_stream_watchdog
  cases rx_wd_enable <;> cases is_stream_watchdog_expired state now_tick timeout <;>
    cases rx_wd_safestate_enable <;> decide

/-! ## Requests and time -/

/-- The watchdog after requests at some ticks. -/
def requested (start : UInt64) (requests : List UInt64) : StreamWatchdogState :=
  requests.foldl StreamWatchdogState.reset_on_request (.new start)

theorem requested_last (start : UInt64) (requests : List UInt64) :
    (requested start requests).last_reset_tick = (start :: requests).getLast (List.cons_ne_nil _ _) := by
  induction requests using List.reverseRecOn with
  | nil => rfl
  | append_singleton requests tick ih =>
    rw [requested, List.foldl_append]
    simp [StreamWatchdogState.reset_on_request]

/-- On a clock that does not go backwards a watchdog overflows exactly when it is enabled and neither the start nor a
request lies less than its interval back. -/
theorem watchdog_run (start now_tick : UInt64) (requests : List UInt64) (timeout : StreamWatchdogTimeout)
    (rx_wd_enable rx_wd_safestate_enable : Bool) (hclock : (start :: requests ++ [now_tick]).Pairwise (· ≤ ·)) :
    let outcome := evaluate_stream_watchdog (requested start requests) now_tick timeout rx_wd_enable
      rx_wd_safestate_enable
    (outcome.watchdog_overflowed = true ↔
        rx_wd_enable = true ∧ ∀ tick ∈ start :: requests, tick.toNat + timeout.ticks.toNat ≤ now_tick.toNat) ∧
      (outcome.drives_safestate = true ↔ outcome.watchdog_overflowed = true ∧ rx_wd_safestate_enable = true) := by
  obtain ⟨hpast, -, hnow⟩ := List.pairwise_append.1 hclock
  have hlast : (start :: requests).getLast (List.cons_ne_nil _ _) ∈ start :: requests := List.getLast_mem _
  have hnewest : ∀ tick ∈ start :: requests, tick ≤ (start :: requests).getLast (List.cons_ne_nil _ _) := by
    intro tick hmem
    exact hpast.rel_getLast hmem
  have hexpired : is_stream_watchdog_expired (requested start requests) now_tick timeout = true ↔
      ∀ tick ∈ start :: requests, tick.toNat + timeout.ticks.toNat ≤ now_tick.toNat := by
    have hlast_now := hnow _ hlast now_tick List.mem_cons_self
    rw [expired_iff, requested_last]
    rw [UInt64.le_iff_toNat_le] at hlast_now
    constructor
    · intro hwaited tick hmem
      have htick := UInt64.le_iff_toNat_le.1 (hnewest tick hmem)
      omega
    · intro hall
      have hwaited := hall _ hlast
      omega
  obtain ⟨hoverflow, hdrives⟩ := evaluate_stream_watchdog_eq (requested start requests) now_tick timeout rx_wd_enable
    rx_wd_safestate_enable
  dsimp only
  rw [hoverflow, hdrives, Bool.and_eq_true, Bool.and_eq_true, Bool.and_eq_true, hexpired]
  exact ⟨Iff.rfl, Iff.rfl⟩

/-- A request 5 ticks before a check keeps an interval of 10 ticks from running out, one 10 ticks before it does not. -/
theorem watchdog_run_two :
    (evaluate_stream_watchdog (requested 0 [3, 15]) 20 ⟨10⟩ true true).watchdog_overflowed = false ∧
      (evaluate_stream_watchdog (requested 0 [3, 10]) 20 ⟨10⟩ true true).drives_safestate = true := by
  have hearly := watchdog_run 0 20 [3, 15] ⟨10⟩ true true (by decide)
  have hlate := watchdog_run 0 20 [3, 10] ⟨10⟩ true true (by decide)
  constructor
  · rw [← Bool.not_eq_true, hearly.1]
    simp
  · rw [hlate.2, hlate.1]
    simp

/-! ## What drives a stream to its safe state -/

inductive OverflowOutcome where
  | NoOverflow
  | OverflowNoSafestate
  | OverflowSafestate
  deriving DecidableEq, Repr

namespace OverflowOutcome

def drives_safestate : OverflowOutcome → Bool
  | OverflowSafestate => true
  | _ => false

end OverflowOutcome

def evaluate_request_storage_overflow (storage_overflowed rx_ovrflw_safestate_enable : Bool) : OverflowOutcome :=
  if !storage_overflowed then .NoOverflow
  else if rx_ovrflw_safestate_enable then .OverflowSafestate
  else .OverflowNoSafestate

inductive SafeStateMechanism where
  | HiZAllPins
  | SequencerDriven (gate : CompoundGateConfig)
  deriving DecidableEq, Repr

def safe_state_sequencer_gate (rx_safestate_sequencer rx_safe_sequencer_state : UInt8) : CompoundGateConfig where
  sequencer_num := rx_safestate_sequencer
  start_state := ⟨rx_safe_sequencer_state⟩

def resolve_safe_state_mechanism (rx_safety_measure : Bool) (rx_safestate_sequencer rx_safe_sequencer_state : UInt8) :
    SafeStateMechanism :=
  if rx_safety_measure then
    .SequencerDriven (safe_state_sequencer_gate rx_safestate_sequencer rx_safe_sequencer_state)
  else .HiZAllPins

inductive SafeStateAction where
  | None
  | ForceHiZAllPins
  | ForceSequencerState (gate : CompoundGateConfig)
  deriving DecidableEq, Repr

def resolve_safe_state_action (should_enter_safe_state : Bool) (mechanism : SafeStateMechanism) : SafeStateAction :=
  if !should_enter_safe_state then .None
  else match mechanism with
    | .HiZAllPins => .ForceHiZAllPins
    | .SequencerDriven gate => .ForceSequencerState gate

/-- What it takes of a row for each of the outcomes that are a reason to enter the safe state: silence for an
interval, a full storage, a sequence number that does not count up, and a wrong checksum, with the row's settings
for it. -/
structure Reasons (row : RequestStreamConfigEntry) : Prop where
  silence : ∀ state now_tick, (evaluate_stream_watchdog state now_tick ⟨row.rx_wd_timeout_interval⟩ row.rx_wd_enable
      row.rx_wd_safestate_enable).drives_safestate = true ↔
    row.rx_wd_enable = true ∧ row.rx_wd_safestate_enable = true ∧
      row.rx_wd_timeout_interval.toNat ≤ now_tick.toNat - state.last_reset_tick.toNat
  storage : ∀ storage_overflowed,
    (evaluate_request_storage_overflow storage_overflowed row.rx_ovrflw_safestate_enable).drives_safestate = true ↔
      row.rx_ovrflw_safestate_enable = true ∧ storage_overflowed = true
  sequence : ∀ last_accepted_seq candidate_seq, (evaluate_rx_enforce_seq last_accepted_seq candidate_seq
      row.rx_enforce_seq row.rx_seq_safestate_enable).drives_safestate = true ↔
    row.rx_enforce_seq = true ∧ row.rx_seq_safestate_enable = true ∧ candidate_seq ≤ last_accepted_seq
  checksum : ∀ coverage_buffer expected_crc,
    (∃ e, check_rx_enforce_e2e coverage_buffer expected_crc row.rx_enforce_e2e = .error (e, .LatchStream)) ↔
      row.rx_enforce_e2e = true ∧ crc32_tc18 coverage_buffer ≠ expected_crc

theorem reasons (row : RequestStreamConfigEntry) : Reasons row where
  silence state now_tick := by
    rw [(evaluate_stream_watchdog_eq state now_tick ⟨row.rx_wd_timeout_interval⟩ row.rx_wd_enable
      row.rx_wd_safestate_enable).2, Bool.and_eq_true, Bool.and_eq_true, expired_iff, and_assoc]
    exact and_congr_right fun _ => and_comm
  storage storage_overflowed := by
    cases storage_overflowed <;> cases row.rx_ovrflw_safestate_enable <;> decide
  sequence last candidate := by
    rw [evaluate_rx_enforce_seq_safestate, Bool.and_eq_true]
    cases henforce : row.rx_enforce_seq with
    | true => rw [evaluate_rx_enforce_seq_rejected]; simp [and_comm]
    | false => simp [evaluate_rx_enforce_seq, SequenceEnforcementOutcome.is_rejected]
  checksum coverage_buffer expected_crc := by
    rw [check_rx_enforce_e2e]
    by_cases h : crc32_tc18 coverage_buffer = expected_crc <;> cases row.rx_enforce_e2e <;> simp [h, e2e_failure_scope]

/-! ## A safe state that holds -/

namespace BankCall
variable {bank : SequencerBank} {gate : CompoundGateConfig} {ι : Type}

/-- A call that can move a gate's sequencer away from the gate's state: an advance gated on just that state, or a
write of another state. -/
def Leaves (gate : CompoundGateConfig) : BankCall → Prop
  | .read _ | .check _ => False
  | .advance gate' next => gate' = gate ∧ next ≠ gate.start_state
  | .force sequencer_num state => sequencer_num = gate.sequencer_num ∧ state ≠ gate.start_state
  | .enter_safe_state gate' => gate'.sequencer_num = gate.sequencer_num ∧ gate'.start_state ≠ gate.start_state

theorem lt_max_of_held {n : UInt8} {state : SequencerState} (h : bank.held n = some state) :
    n < bank.svr_sequencers_max ∧ bank.at_num n = state := by
  have hlt : n < bank.svr_sequencers_max := by
    rw [SequencerBank.lt_max_iff]
    exact (List.getElem?_eq_some_iff.1 h).1
  rw [SequencerBank.held_of_lt hlt] at h
  exact ⟨hlt, Option.some.inj h⟩

/-- No other call moves it. -/
theorem held_after_of_stays {call : BankCall} (h : bank.held gate.sequencer_num = some gate.start_state)
    (hstays : ¬ call.Leaves gate) : (call.after bank).held gate.sequencer_num = some gate.start_state := by
  by_cases hsame : gate.sequencer_num = call.sequencer
  · obtain ⟨hlt, hstate⟩ := lt_max_of_held h
    rw [after, perform_spec, if_pos (hsame ▸ hlt)]
    have hput {state : SequencerState} (heq : state = gate.start_state) :
        (bank.put call.sequencer state).held gate.sequencer_num = some gate.start_state := by
      rw [← hsame, SequencerBank.held_put hlt, heq]
    cases call with
    | read n | check gate' => exact h
    | advance gate' next =>
      simp only [known]
      split
      next hstart =>
        have hgate : gate' = gate := by
          obtain ⟨n, state⟩ := gate'
          obtain rfl : gate.sequencer_num = n := hsame
          obtain rfl : bank.at_num gate.sequencer_num = state := hstart
          rw [hstate]
        exact hput (by_contra fun hnext => hstays ⟨hgate, hnext⟩)
      next => exact h
    | force n state => exact hput (by_contra fun hstate' => hstays ⟨hsame.symm, hstate'⟩)
    | enter_safe_state gate' => exact hput (by_contra fun hstate' => hstays ⟨hsame.symm, hstate'⟩)
  · rw [after_held_of_ne hsame, h]

/-- In a run, either the sequencer holds the state to the end, or some call it meets in that state leaves it. -/
theorem held_until (h : bank.held gate.sequencer_num = some gate.start_state) (calls : List (ι × BankCall)) :
    (settled bank calls).held gate.sequencer_num = some gate.start_state ∨
      ∃ p ∈ meets bank calls, p.2.2.Leaves gate ∧ p.1.held gate.sequencer_num = some gate.start_state := by
  induction calls generalizing bank with
  | nil => exact .inl h
  | cons call calls ih =>
    by_cases hleaves : call.2.Leaves gate
    · exact .inr ⟨(bank, call), List.mem_cons_self, hleaves, h⟩
    · rcases ih (held_after_of_stays h hleaves) with hheld | ⟨p, hp, hfound⟩
      · exact .inl hheld
      · exact .inr ⟨p, List.mem_cons_of_mem _ hp, hfound⟩

/-- What the requests gated on a sequencer in some state meet: those gated on that state pass and advance it, those
gated on any other are refused and advance nothing. -/
structure OpensOnly (bank : SequencerBank) (gate : CompoundGateConfig) : Prop where
  pass : exec (perform (.check gate)) bank = (.ok .done, bank)
  advance : ∀ next, exec (perform (.advance gate next)) bank = (.ok (.advanced true), bank.put gate.sequencer_num next)
  refuse : ∀ state, state ≠ gate.start_state →
    exec (perform (.check ⟨gate.sequencer_num, state⟩)) bank = (.error .RequestRejected, bank)
  idle : ∀ state, state ≠ gate.start_state → ∀ next,
    exec (perform (.advance ⟨gate.sequencer_num, state⟩ next)) bank = (.ok (.advanced false), bank)

theorem opensOnly_of_held (h : bank.held gate.sequencer_num = some gate.start_state) : OpensOnly bank gate := by
  obtain ⟨hlt, hstate⟩ := lt_max_of_held h
  constructor
  · rw [perform_spec, sequencer, if_pos hlt, known, if_pos hstate]
  · intro next
    rw [perform_spec, sequencer, if_pos hlt, known, if_pos hstate]
  · intro state hne
    rw [perform_spec, sequencer, if_pos hlt, known, if_neg (fun heq => hne (heq.symm.trans hstate))]
  · intro state hne next
    rw [perform_spec, sequencer, if_pos hlt, known, if_neg (fun heq => hne (heq.symm.trans hstate))]

end BankCall

/-- What a row comes to, whatever its caller decides. -/
structure Safeguarded (ι : Type) (row : RequestStreamConfigEntry) (should_enter_safe_state : Bool)
    (bank : SequencerBank) : Prop extends Reasons row where
  none : resolve_safe_state_action should_enter_safe_state (resolve_safe_state_mechanism row.rx_safety_measure
      row.rx_safestate_sequencer row.rx_safe_sequencer_state) = .None ↔ should_enter_safe_state = false
  hi_z : resolve_safe_state_action should_enter_safe_state (resolve_safe_state_mechanism row.rx_safety_measure
      row.rx_safestate_sequencer row.rx_safe_sequencer_state) = .ForceHiZAllPins ↔
    should_enter_safe_state = true ∧ row.rx_safety_measure = false
  sequencer : ∀ gate, resolve_safe_state_action should_enter_safe_state (resolve_safe_state_mechanism
      row.rx_safety_measure row.rx_safestate_sequencer row.rx_safe_sequencer_state) = .ForceSequencerState gate ↔
    should_enter_safe_state = true ∧ row.rx_safety_measure = true ∧
      gate = ⟨row.rx_safestate_sequencer, ⟨row.rx_safe_sequencer_state⟩⟩
  /-- The bank has the sequencer, or is left as it is. -/
  known : ∀ gate, (exec (enter_sequencer_driven_safe_state gate) bank).1 = .ok () ↔
    gate.sequencer_num < bank.svr_sequencers_max
  /-- Until a call leaves the safe state, just the requests gated on it pass. -/
  holds : ∀ gate, (exec (enter_sequencer_driven_safe_state gate) bank).1 = .ok () → ∀ calls : List (ι × BankCall),
    let entered := (exec (enter_sequencer_driven_safe_state gate) bank).2
    (∀ p ∈ BankCall.meets entered calls, p.1.held gate.sequencer_num = some gate.start_state →
      ¬ p.2.2.Leaves gate) → BankCall.OpensOnly (BankCall.settled entered calls) gate
  /-- The other sequencers keep their states. -/
  others : ∀ gate n, n ≠ gate.sequencer_num →
    (exec (enter_sequencer_driven_safe_state gate) bank).2.held n = bank.held n

theorem safe_state_holds (ι : Type) (row : RequestStreamConfigEntry) (should_enter_safe_state : Bool)
    (bank : SequencerBank) : Safeguarded ι row should_enter_safe_state bank := by
  have henter (gate : CompoundGateConfig) : exec (enter_sequencer_driven_safe_state gate) bank =
      if gate.sequencer_num < bank.svr_sequencers_max then (.ok (), bank.put gate.sequencer_num gate.start_state)
      else (.error .SequencerNotKnown, bank) := SequencerBank.force_spec ..
  refine ⟨reasons row, ?_, ?_, ?_, ?_, ?_, ?_⟩
  · unfold resolve_safe_state_action
    cases should_enter_safe_state <;> cases row.rx_safety_measure <;> simp [resolve_safe_state_mechanism]
  · unfold resolve_safe_state_action
    cases should_enter_safe_state <;> cases row.rx_safety_measure <;> simp [resolve_safe_state_mechanism]
  · intro gate
    unfold resolve_safe_state_action
    cases should_enter_safe_state <;> cases row.rx_safety_measure <;>
      simp [resolve_safe_state_mechanism, safe_state_sequencer_gate, eq_comm]
  · intro gate
    rw [henter]
    split <;> simp [*]
  · intro gate hentered calls
    rw [henter] at hentered ⊢
    split at hentered
    next hlt =>
      rw [if_pos hlt]
      intro entered hstays
      -- no call of the run leaves the state, so it is held at its end
      apply BankCall.opensOnly_of_held
      have hput : (bank.put gate.sequencer_num gate.start_state).held gate.sequencer_num = some gate.start_state :=
        SequencerBank.held_put hlt
      rcases BankCall.held_until hput calls with hheld | ⟨p, hp, hleaves, hheld⟩
      · exact hheld
      · exact absurd hleaves (hstays p hp hheld)
    next => cases hentered
  · intro gate n hne
    rw [henter]
    split
    · exact SequencerBank.held_put_of_ne hne
    · rfl

end RustRcp
