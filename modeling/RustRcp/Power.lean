import RustRcp.Lifecycle
import RustRcp.Lib.Since
/-!
# Power modes

The four power modes, the gate between them and the wake-up handshake
(`src/powerstate.rs`), the sleep command and the wake sources that begin one
(`src/wakeup.rs`). Nothing in the crate keeps a mode: `Domain` is what a caller keeps, and
`power_ruled` is about any run of calls on it.
-/
open Stateful

namespace RustRcp

/-! ## Modes -/

inductive PowerMode where
  | Normal
  | StandBy
  | Sleep
  | Unpowered
  deriving DecidableEq, Repr

def is_power_mode_transition_defined : PowerMode → PowerMode → Bool
  | .Normal, .StandBy | .Normal, .Sleep => true
  | _, _ => false

structure PowerModeGateInput where
  all_endpoints_idle : Bool := false
  no_pending_response : Bool := false
  deriving DecidableEq, Repr

def is_power_mode_gate_satisfied (input : PowerModeGateInput) : Bool :=
  input.all_endpoints_idle && input.no_pending_response

def power_mode_gate_from_request_states (states : List RequestLifecycleState) : PowerModeGateInput :=
  let idle := states.all (· = .Finalized)
  { all_endpoints_idle := idle, no_pending_response := idle }

def try_enter_power_mode (current target : PowerMode) (gate : PowerModeGateInput) : Except RcpError PowerMode :=
  if !is_power_mode_transition_defined current target then .error .RequestRejected
  else if !is_power_mode_gate_satisfied gate then .error .RequestRejected
  else .ok target

def shutdown_to_unpowered (_current : PowerMode) : PowerMode := .Unpowered

def try_cold_start (current : PowerMode) (gate : PowerModeGateInput) : Except RcpError PowerMode :=
  if !(current = .Unpowered || current = .Sleep) then .error .RequestRejected
  else if !is_power_mode_gate_satisfied gate then .error .RequestRejected
  else .ok .Normal

/-! ## The handshake -/

inductive WakeUpHandshakeState where
  | Idle
  | RequestSent
  | Acknowledged
  deriving DecidableEq, Repr

def send_wakeup_request : WakeUpHandshakeState → Except RcpError WakeUpHandshakeState
  | .Idle => .ok .RequestSent
  | _ => .error .RequestRejected

def acknowledge_wakeup_request : WakeUpHandshakeState → Except RcpError WakeUpHandshakeState
  | .RequestSent => .ok .Acknowledged
  | _ => .error .RequestRejected

def is_wakeup_handshake_complete : WakeUpHandshakeState → Bool
  | .Acknowledged => true
  | _ => false

def try_hot_start (current : PowerMode) (wakeup : WakeUpHandshakeState) (gate : PowerModeGateInput) :
    Except RcpError PowerMode :=
  if current ≠ .StandBy then .error .RequestRejected
  else if !is_wakeup_handshake_complete wakeup then .error .RequestRejected
  else if !is_power_mode_gate_satisfied gate then .error .RequestRejected
  else .ok .Normal

/-! ## The sleep command and the wake sources -/

structure SleepCmdRequest where
  deriving DecidableEq, Repr

namespace SleepCmdRequest

def DISCRIMINANT : UInt8 := 0xA5

def decode : List UInt8 → Except RcpError SleepCmdRequest
  | [] => .error .ShortFrame
  | b :: _ => if b = DISCRIMINANT then .ok {} else .error .InvalidParameter

end SleepCmdRequest

/-- Bit `n` is wake-source pin `n`. -/
structure WakeSourcePinMask where
  mask : UInt32 := 0
  deriving DecidableEq, Repr

structure WakeupTriggerConfig where
  wake_enable : WakeSourcePinMask := {}
  deriving DecidableEq, Repr

structure WakeSourceSignals where
  fired : WakeSourcePinMask := {}
  deriving DecidableEq, Repr

def WakeSourceSignals.any_fired (self : WakeSourceSignals) : Bool := self.fired.mask != 0

def evaluate_wake_source_signals (config : WakeupTriggerConfig) (observed : WakeSourcePinMask) : WakeSourceSignals where
  fired := ⟨observed.mask &&& config.wake_enable.mask⟩

def request_sleep_via_sleep_cmd (_cmd : SleepCmdRequest) (current target : PowerMode) (gate : PowerModeGateInput) :
    Except RcpError PowerMode := try_enter_power_mode current target gate

def wake_source_signals_trigger_handshake (state : WakeUpHandshakeState) (signals : WakeSourceSignals) :
    Except RcpError WakeUpHandshakeState :=
  if !signals.any_fired then .error .RequestRejected else send_wakeup_request state

/-! ## A caller -/

/-- What a caller keeps: the mode, the handshake, and the requests it serves. -/
structure Domain where
  mode : PowerMode
  wakeup : WakeUpHandshakeState := .Idle
  requests : List RequestLifecycleState := []

namespace Domain

/-- A request comes in or moves on, a mode is asked for, or the handshake moves on or is begun anew. -/
inductive Call where
  | arrive
  | request (index : Nat) (step : LifecycleStep)
  | enter (target : PowerMode)
  | sleep_cmd (bytes : List UInt8) (target : PowerMode)
  | shutdown
  | cold_start
  | hot_start
  | handshake
  | send
  | signals (config : WakeupTriggerConfig) (observed : WakeSourcePinMask)
  | acknowledge

def gate (self : Domain) : PowerModeGateInput := power_mode_gate_from_request_states self.requests

def perform (self : Domain) : Call → Except RcpError Domain
  | .arrive => return { self with requests := self.requests ++ [.Pending] }
  | .request index step => return { self with requests := self.requests.modify index (LifecycleStep.after · step) }
  | .enter target => do
    return { self with mode := ← try_enter_power_mode self.mode target self.gate }
  | .sleep_cmd bytes target => do
    let cmd ← SleepCmdRequest.decode bytes
    return { self with mode := ← request_sleep_via_sleep_cmd cmd self.mode target self.gate }
  | .shutdown => return { self with mode := shutdown_to_unpowered self.mode }
  | .cold_start => do
    return { self with mode := ← try_cold_start self.mode self.gate }
  | .hot_start => do
    return { self with mode := ← try_hot_start self.mode self.wakeup self.gate }
  | .handshake => return { self with wakeup := .Idle }
  | .send => do
    return { self with wakeup := ← send_wakeup_request self.wakeup }
  | .signals config observed => do
    let signals := evaluate_wake_source_signals config observed
    return { self with wakeup := ← wake_source_signals_trigger_handshake self.wakeup signals }
  | .acknowledge => do
    return { self with wakeup := ← acknowledge_wakeup_request self.wakeup }

/-- A refused call changes nothing. -/
def after (self : Domain) (call : Call) : Domain := (self.perform call).toOption.getD self

/-! ## The state diagram -/

inductive Edge : PowerMode → PowerMode → Prop where
  | power_on : Edge .Unpowered .Normal
  | wake_up : Edge .Sleep .Normal
  | hot_start : Edge .StandBy .Normal
  | go_to_standby : Edge .Normal .StandBy
  | go_to_sleep : Edge .Normal .Sleep

def LowPower (mode : PowerMode) : Prop := mode = .StandBy ∨ mode = .Sleep

/-- No request is left to serve. -/
def Quiet (self : Domain) : Prop := ∀ s ∈ self.requests, s = .Finalized

namespace Call

/-- The call asks for a mode: by name, or with a sleep command. -/
def Asks (mode : PowerMode) : Call → Prop
  | .enter target => target = mode
  | .sleep_cmd bytes target => bytes.head? = some SleepCmdRequest.DISCRIMINANT ∧ target = mode
  | _ => False

/-- The call begins a handshake: outright, or as some pin is both armed and asserted. -/
def Begins : Call → Prop
  | .send => True
  | .signals config observed =>
    ∃ pin, config.wake_enable.mask.toNat.testBit pin = true ∧ observed.mask.toNat.testBit pin = true
  | _ => False

/-- A handshake is begun and not given up. -/
def Begun : List Call → Prop := Since (fun _ call => call.Begins) (· ≠ .handshake)

/-- A handshake is begun, then acknowledged, and not given up. -/
def Woken : List Call → Prop := Since (fun earlier call => call = .acknowledge ∧ Begun earlier) (· ≠ .handshake)

end Call

/-- The changes of mode: the power is cut, a low-power mode is gone to, or there is a start from one. -/
inductive Move (d : Domain) : Call → PowerMode → Prop where
  | cut : Move d .shutdown .Unpowered
  | go_to {call : Call} {mode : PowerMode} (hnormal : d.mode = .Normal) (hlow : LowPower mode) (hasks : call.Asks mode)
      (hquiet : d.Quiet) : Move d call mode
  | cold_start (horigin : d.mode = .Unpowered ∨ d.mode = .Sleep) (hquiet : d.Quiet) : Move d .cold_start .Normal
  | hot_start (horigin : d.mode = .StandBy) (hwoken : d.wakeup = .Acknowledged) (hquiet : d.Quiet) :
      Move d .hot_start .Normal

variable {d : Domain} {call : Call} {mode target : PowerMode}

theorem Move.edge_or_cut (h : Move d call mode) :
    (call = .shutdown ∧ mode = .Unpowered) ∨ (Edge d.mode mode ∧ d.Quiet) := by
  cases h with
  | cut => exact .inl ⟨rfl, rfl⟩
  | go_to hnormal hlow _ hquiet =>
    rw [hnormal]
    rcases hlow with rfl | rfl
    · exact .inr ⟨.go_to_standby, hquiet⟩
    · exact .inr ⟨.go_to_sleep, hquiet⟩
  | cold_start horigin hquiet =>
    rcases horigin with h | h <;> rw [h]
    · exact .inr ⟨.power_on, hquiet⟩
    · exact .inr ⟨.wake_up, hquiet⟩
  | hot_start horigin _ hquiet =>
    rw [horigin]
    exact .inr ⟨.hot_start, hquiet⟩

/-! ## One call -/

theorem gate_satisfied_iff (d : Domain) : is_power_mode_gate_satisfied d.gate = true ↔ d.Quiet := by
  simp [is_power_mode_gate_satisfied, gate, power_mode_gate_from_request_states, Quiet]

theorem transition_defined_iff : is_power_mode_transition_defined mode target = true ↔
    mode = .Normal ∧ LowPower target := by
  cases mode <;> cases target <;> simp [is_power_mode_transition_defined, LowPower]

theorem try_enter_ok_iff : try_enter_power_mode d.mode target d.gate = .ok mode ↔
    target = mode ∧ d.mode = .Normal ∧ LowPower mode ∧ d.Quiet := by
  rw [try_enter_power_mode, guard_ok_iff, guard_ok_iff, Bool.not_eq_true, Bool.not_eq_true, Bool.not_eq_false',
    Bool.not_eq_false', transition_defined_iff, gate_satisfied_iff]
  constructor
  · rintro ⟨⟨hnormal, hlow⟩, hquiet, h⟩
    cases h
    exact ⟨rfl, hnormal, hlow, hquiet⟩
  · rintro ⟨rfl, hnormal, hlow, hquiet⟩
    exact ⟨⟨hnormal, hlow⟩, hquiet, rfl⟩

theorem try_cold_start_ok_iff : try_cold_start d.mode d.gate = .ok mode ↔
    mode = .Normal ∧ (d.mode = .Unpowered ∨ d.mode = .Sleep) ∧ d.Quiet := by
  rw [try_cold_start, guard_ok_iff, guard_ok_iff, Bool.not_eq_true, Bool.not_eq_true, Bool.not_eq_false',
    Bool.not_eq_false', gate_satisfied_iff, Bool.or_eq_true, decide_eq_true_iff, decide_eq_true_iff]
  constructor
  · rintro ⟨horigin, hquiet, h⟩
    cases h
    exact ⟨rfl, horigin, hquiet⟩
  · rintro ⟨rfl, horigin, hquiet⟩
    exact ⟨horigin, hquiet, rfl⟩

theorem complete_iff {wakeup : WakeUpHandshakeState} :
    is_wakeup_handshake_complete wakeup = true ↔ wakeup = .Acknowledged := by
  cases wakeup <;> simp [is_wakeup_handshake_complete]

theorem try_hot_start_ok_iff : try_hot_start d.mode d.wakeup d.gate = .ok mode ↔
    mode = .Normal ∧ d.mode = .StandBy ∧ d.wakeup = .Acknowledged ∧ d.Quiet := by
  rw [try_hot_start, guard_ok_iff, guard_ok_iff, guard_ok_iff, Bool.not_eq_true, Bool.not_eq_true, Bool.not_eq_false',
    Bool.not_eq_false', gate_satisfied_iff, complete_iff, ne_eq, not_not]
  constructor
  · rintro ⟨horigin, hwoken, hquiet, h⟩
    cases h
    exact ⟨rfl, horigin, hwoken, hquiet⟩
  · rintro ⟨rfl, horigin, hwoken, hquiet⟩
    exact ⟨horigin, hwoken, hquiet, rfl⟩

theorem decode_ok_iff {bytes : List UInt8} {cmd : SleepCmdRequest} :
    SleepCmdRequest.decode bytes = .ok cmd ↔ bytes.head? = some SleepCmdRequest.DISCRIMINANT := by
  cases bytes with
  | nil => simp [SleepCmdRequest.decode]
  | cons b bytes => by_cases h : b = SleepCmdRequest.DISCRIMINANT <;> simp [SleepCmdRequest.decode, h]

theorem any_fired_iff (config : WakeupTriggerConfig) (observed : WakeSourcePinMask) :
    (evaluate_wake_source_signals config observed).any_fired = true ↔ (Call.signals config observed).Begins := by
  simp only [evaluate_wake_source_signals, WakeSourceSignals.any_fired, bne_iff_ne, ne_eq, Call.Begins]
  rw [← UInt32.toNat_inj, UInt32.toNat_and, UInt32.toNat_zero]
  constructor
  · intro h
    obtain ⟨pin, hpin⟩ := Nat.exists_testBit_of_ne_zero h
    rw [Nat.testBit_and, Bool.and_eq_true] at hpin
    exact ⟨pin, hpin.2, hpin.1⟩
  · rintro ⟨pin, harmed, hasserted⟩ h
    have hpin := Nat.testBit_and observed.mask.toNat config.wake_enable.mask.toNat pin
    rw [h, harmed, hasserted, Nat.zero_testBit] at hpin
    cases hpin

/-- A call that computes a mode. -/
theorem after_of_mode {x : Except RcpError PowerMode}
    (h : d.perform call = (fun mode => { d with mode := mode }) <$> x) :
    d.after call = { d with mode := x.toOption.getD d.mode } := by
  rw [after, h]
  cases x <;> rfl

theorem after_mode_iff_of_map {x : Except RcpError PowerMode} (hne : mode ≠ d.mode)
    (h : d.perform call = (fun mode => { d with mode := mode }) <$> x) : (d.after call).mode = mode ↔ x = .ok mode := by
  rw [after_of_mode h]
  cases x with
  | error e => simp [Except.toOption, hne.symm]
  | ok found => simp [Except.toOption]

/-- A call that computes a state of the handshake. -/
theorem after_of_wakeup {x : Except RcpError WakeUpHandshakeState}
    (h : d.perform call = (fun wakeup => { d with wakeup := wakeup }) <$> x) :
    d.after call = { d with wakeup := x.toOption.getD d.wakeup } := by
  rw [after, h]
  cases x <;> rfl

theorem perform_sleep_cmd {bytes : List UInt8} : d.perform (.sleep_cmd bytes target) =
    (fun mode => { d with mode := mode }) <$>
      (SleepCmdRequest.decode bytes >>= fun cmd => request_sleep_via_sleep_cmd cmd d.mode target d.gate) := by
  rw [perform]
  cases SleepCmdRequest.decode bytes <;> rfl

theorem after_mode_iff (hne : mode ≠ d.mode) : (d.after call).mode = mode ↔ Move d call mode := by
  cases call with
  | arrive | request index step | handshake =>
    refine ⟨fun h => absurd h.symm hne, fun h => ?_⟩
    cases h with
    | go_to hnormal hlow hasks => cases hasks
  | send | signals config observed | acknowledge =>
    rw [after_of_wakeup rfl]
    refine ⟨fun h => absurd h.symm hne, fun h => ?_⟩
    cases h with
    | go_to hnormal hlow hasks => cases hasks
  | shutdown =>
    constructor
    · rintro rfl
      exact .cut
    · rintro (_ | ⟨-, -, hasks, -⟩)
      · rfl
      · cases hasks
  | enter target =>
    rw [after_mode_iff_of_map hne rfl, try_enter_ok_iff]
    constructor
    · rintro ⟨rfl, hnormal, hlow, hquiet⟩
      exact .go_to hnormal hlow rfl hquiet
    · rintro (_ | ⟨hnormal, hlow, hasks, hquiet⟩)
      exact ⟨hasks, hnormal, hlow, hquiet⟩
  | sleep_cmd bytes target =>
    rw [after_mode_iff_of_map hne perform_sleep_cmd, bind_ok_iff]
    simp only [decode_ok_iff, request_sleep_via_sleep_cmd, try_enter_ok_iff]
    constructor
    · rintro ⟨cmd, hbytes, rfl, hnormal, hlow, hquiet⟩
      exact .go_to hnormal hlow ⟨hbytes, rfl⟩ hquiet
    · rintro (_ | ⟨hnormal, hlow, ⟨hbytes, htarget⟩, hquiet⟩)
      exact ⟨{}, hbytes, htarget, hnormal, hlow, hquiet⟩
  | cold_start =>
    rw [after_mode_iff_of_map hne rfl, try_cold_start_ok_iff]
    constructor
    · rintro ⟨rfl, horigin, hquiet⟩
      exact .cold_start horigin hquiet
    · rintro (_ | ⟨-, -, hasks, -⟩ | ⟨horigin, hquiet⟩)
      · cases hasks
      · exact ⟨rfl, horigin, hquiet⟩
  | hot_start =>
    rw [after_mode_iff_of_map hne rfl, try_hot_start_ok_iff]
    constructor
    · rintro ⟨rfl, horigin, hwoken, hquiet⟩
      exact .hot_start horigin hwoken hquiet
    · rintro (_ | ⟨-, -, hasks, -⟩ | _ | ⟨horigin, hwoken, hquiet⟩)
      · cases hasks
      · exact ⟨rfl, horigin, hwoken, hquiet⟩

theorem after_wakeup (d : Domain) (call : Call) : (d.after call).wakeup = match call with
    | .handshake => .Idle
    | .send => (send_wakeup_request d.wakeup).toOption.getD d.wakeup
    | .signals config observed =>
      (wake_source_signals_trigger_handshake d.wakeup
        (evaluate_wake_source_signals config observed)).toOption.getD d.wakeup
    | .acknowledge => (acknowledge_wakeup_request d.wakeup).toOption.getD d.wakeup
    | _ => d.wakeup := by
  cases call with
  | arrive | request index step | shutdown | handshake => rfl
  | enter target | cold_start | hot_start => rw [after_of_mode rfl]
  | sleep_cmd bytes target => rw [after_of_mode perform_sleep_cmd]
  | send | signals config observed | acknowledge => rw [after_of_wakeup rfl]

theorem after_begun_iff : (d.after call).wakeup ≠ .Idle ↔
    call.Begins ∨ (call ≠ .handshake ∧ d.wakeup ≠ .Idle) := by
  rw [after_wakeup]
  cases call with
  | signals config observed =>
    rw [← any_fired_iff]
    unfold wake_source_signals_trigger_handshake
    cases hfired : (evaluate_wake_source_signals config observed).any_fired <;> cases d.wakeup <;>
      simp [hfired, send_wakeup_request, Except.toOption]
  | send => cases d.wakeup <;> simp [Call.Begins, send_wakeup_request, Except.toOption]
  | acknowledge => cases d.wakeup <;> simp [Call.Begins, acknowledge_wakeup_request, Except.toOption]
  | _ => simp [Call.Begins]

theorem after_acknowledged_iff : (d.after call).wakeup = .Acknowledged ↔
    (call = .acknowledge ∧ d.wakeup ≠ .Idle) ∨ (call ≠ .handshake ∧ d.wakeup = .Acknowledged) := by
  rw [after_wakeup]
  cases call with
  | signals config observed =>
    unfold wake_source_signals_trigger_handshake
    cases hfired : (evaluate_wake_source_signals config observed).any_fired <;> cases d.wakeup <;>
      simp [hfired, send_wakeup_request, Except.toOption]
  | send => cases d.wakeup <;> simp [send_wakeup_request, Except.toOption]
  | acknowledge => cases d.wakeup <;> simp [acknowledge_wakeup_request, Except.toOption]
  | _ => simp

/-! ## Runs -/

/-- The handshake has got as far as the calls have. -/
def History (calls : List Call) (d : Domain) : Prop :=
  (d.wakeup ≠ .Idle ↔ Call.Begun calls) ∧ (d.wakeup = .Acknowledged ↔ Call.Woken calls)

theorem history_run (hidle : d.wakeup = .Idle) (calls : List Call) : History calls (calls.foldl after d) := by
  apply past_run
  · simp [History, hidle, Call.Begun, Call.Woken]
  · rintro calls d call ⟨hbegun, hwoken⟩
    rw [History, after_begun_iff, after_acknowledged_iff, hbegun, hwoken, Call.Begun, since_concat, Call.Woken,
      since_concat]
    exact ⟨Iff.rfl, Iff.rfl⟩

/-- A run that ends in a low-power mode was in it all along, or went to it when it was asked for with no request left
and has stayed since. -/
theorem low_power_run (hlow : LowPower mode) (calls : List Call) (h : (calls.foldl after d).mode = mode) :
    (∀ p ∈ visits after d calls, p.1.mode = mode) ∨
      Since (fun _ p => p.1.mode = .Normal ∧ p.1.Quiet ∧ p.2.Asks mode) (·.1.mode = mode) (visits after d calls) := by
  induction calls using List.reverseRecOn with
  | nil => exact .inl fun p hp => absurd hp List.not_mem_nil
  | append_singleton calls call ih =>
    rw [List.foldl_append, List.foldl_cons, List.foldl_nil] at h
    rw [visits_append, visits, visits, since_concat]
    by_cases hstay : (calls.foldl after d).mode = mode
    · rcases ih hstay with hall | hsince
      · refine .inl fun p hp => ?_
        rcases List.mem_append.1 hp with hp | hp
        · exact hall p hp
        · rw [List.mem_singleton.1 hp]
          exact hstay
      · exact .inr (.inr ⟨hstay, hsince⟩)
    · have hmove := (after_mode_iff (Ne.symm hstay)).1 h
      cases hmove with
      | go_to hnormal _ hasks hquiet => exact .inr (.inl ⟨hnormal, hquiet, hasks⟩)
      | _ => rcases hlow with hlow | hlow <;> cases hlow

/-! ## Every mode is reached -/

/-- Calls that lead from one domain to another with the power on. -/
def Reaches (d d' : Domain) : Prop := ∃ calls : List Call, .shutdown ∉ calls ∧ calls.foldl after d = d'

theorem Reaches.trans {d d' d'' : Domain} (h : Reaches d d') (h' : Reaches d' d'') : Reaches d d'' := by
  obtain ⟨calls, hon, rfl⟩ := h
  obtain ⟨more, hmore, rfl⟩ := h'
  exact ⟨calls ++ more, by simp [hon, hmore], List.foldl_append ..⟩

/-- Cancelling every request leaves none to serve. -/
theorem reaches_quiet (d : Domain) : ∃ d', Reaches d d' ∧ d'.Quiet := by
  have hcancel (s : RequestLifecycleState) : LifecycleStep.after s .cancel_all = .Finalized := by cases s <;> rfl
  have hrange (n : Nat) : ∃ rs, ((List.range n).map (Call.request · .cancel_all)).foldl after d =
      { d with requests := rs } ∧ rs.length = d.requests.length ∧ ∀ i < n, ∀ s ∈ rs[i]?, s = .Finalized := by
    induction n with
    | zero => exact ⟨d.requests, rfl, rfl, nofun⟩
    | succ n ih =>
      obtain ⟨rs, hrun, hlen, hdone⟩ := ih
      refine ⟨rs.modify n (LifecycleStep.after · .cancel_all), ?_, by rw [List.length_modify, hlen], ?_⟩
      · rw [List.range_succ, List.map_append, List.foldl_append, hrun]
        rfl
      · intro i hi s hs
        rw [List.getElem?_modify] at hs
        split at hs
        next heq =>
          obtain ⟨t, -, rfl⟩ := Option.mem_map.1 hs
          exact hcancel t
        next hne => exact hdone i (by omega) s (by simpa using hs)
  obtain ⟨rs, hrun, hlen, hdone⟩ := hrange d.requests.length
  refine ⟨_, ⟨_, by simp, hrun⟩, fun s hs => ?_⟩
  obtain ⟨i, hi, rfl⟩ := List.getElem_of_mem hs
  exact hdone i (hlen ▸ hi) _ (by simp)

theorem after_cold_start (horigin : d.mode = .Unpowered ∨ d.mode = .Sleep) (hquiet : d.Quiet) :
    d.after .cold_start = { d with mode := .Normal } := by
  rw [after_of_mode rfl, try_cold_start_ok_iff.2 ⟨rfl, horigin, hquiet⟩]
  rfl

theorem after_hot_start (horigin : d.mode = .StandBy) (hwoken : d.wakeup = .Acknowledged) (hquiet : d.Quiet) :
    d.after .hot_start = { d with mode := .Normal } := by
  rw [after_of_mode rfl, try_hot_start_ok_iff.2 ⟨rfl, horigin, hwoken, hquiet⟩]
  rfl

theorem reaches_normal (hquiet : d.Quiet) : ∃ d', Reaches d d' ∧ d'.Quiet ∧ d'.mode = .Normal := by
  cases hmode : d.mode with
  | Normal => exact ⟨d, ⟨[], List.not_mem_nil, rfl⟩, hquiet, hmode⟩
  | Unpowered | Sleep =>
    exact ⟨{ d with mode := .Normal }, ⟨[.cold_start], by simp, after_cold_start (by simp [hmode]) hquiet⟩, hquiet, rfl⟩
  | StandBy =>
    have hwoken : [Call.handshake, .send, .acknowledge].foldl after d = { d with wakeup := .Acknowledged } := rfl
    refine ⟨{ d with mode := .Normal, wakeup := .Acknowledged }, ⟨[.handshake, .send, .acknowledge] ++ [.hot_start],
      by simp, ?_⟩, hquiet, rfl⟩
    rw [List.foldl_append, hwoken]
    exact after_hot_start (d := { d with wakeup := .Acknowledged }) hmode rfl hquiet

theorem reaches_mode (d : Domain) (hpowered : mode ≠ .Unpowered) : ∃ d', Reaches d d' ∧ d'.mode = mode := by
  obtain ⟨quiet, hreach, hquiet⟩ := reaches_quiet d
  obtain ⟨normal, hstart, hquiet, hnormal⟩ := reaches_normal hquiet
  by_cases hmode : mode = .Normal
  · exact ⟨normal, hreach.trans hstart, hnormal.trans hmode.symm⟩
  · have hlow : LowPower mode := by cases mode <;> simp_all [LowPower]
    refine ⟨normal.after (.enter mode), (hreach.trans hstart).trans ⟨[.enter mode], by simp, rfl⟩, ?_⟩
    rw [after_mode_iff (by rwa [hnormal])]
    exact .go_to hnormal hlow rfl hquiet

/-! ## The modes over a run -/

structure Ruled (d : Domain) (calls : List Call) : Prop where
  /-- Just what a move is for changes the mode. -/
  moves : ∀ p ∈ visits after d calls, ∀ mode ≠ p.1.mode, (p.1.after p.2).mode = mode ↔ Move p.1 p.2 mode
  /-- Other than by a loss of power the mode follows the diagram, with no request left. -/
  edges : ∀ p ∈ visits after d calls, (p.1.after p.2).mode = p.1.mode ∨
    (p.2 = .shutdown ∧ (p.1.after p.2).mode = .Unpowered) ∨ (Edge p.1.mode (p.1.after p.2).mode ∧ p.1.Quiet)
  low_power : ∀ mode, LowPower mode → (calls.foldl after d).mode = mode →
    (∀ p ∈ visits after d calls, p.1.mode = mode) ∨
      Since (fun _ p => p.1.mode = .Normal ∧ p.1.Quiet ∧ p.2.Asks mode) (·.1.mode = mode) (visits after d calls)
  /-- A hot start is for what has been woken. -/
  hot_start : d.wakeup = .Idle → (calls.foldl after d).mode = .StandBy →
    (((calls.foldl after d).after .hot_start).mode = .Normal ↔ (calls.foldl after d).Quiet ∧ Call.Woken calls)
  /-- No run comes to a mode that cannot be left. -/
  open_ended : ∀ mode ≠ .Unpowered, ∃ more : List Call, .shutdown ∉ more ∧ ((calls ++ more).foldl after d).mode = mode

theorem power_ruled (d : Domain) (calls : List Call) : Ruled d calls := by
  constructor
  · exact fun p _ mode hne => after_mode_iff hne
  · intro p _
    by_cases hstay : (p.1.after p.2).mode = p.1.mode
    · exact .inl hstay
    · have hmove := (after_mode_iff hstay).1 rfl
      rcases hmove.edge_or_cut with hcut | hedge
      · exact .inr (.inl hcut)
      · exact .inr (.inr hedge)
  · exact fun mode hlow h => low_power_run hlow calls h
  · intro hidle hstandby
    rw [after_mode_iff (by rw [hstandby]; simp), ← (history_run hidle calls).2]
    constructor
    · rintro (_ | ⟨-, -, hasks, -⟩ | _ | ⟨-, hwoken, hquiet⟩)
      · cases hasks
      · exact ⟨hquiet, hwoken⟩
    · rintro ⟨hquiet, hwoken⟩
      exact .hot_start hstandby hwoken hquiet
  · intro mode hpowered
    obtain ⟨d', ⟨more, hon, rfl⟩, hmode⟩ := reaches_mode (calls.foldl after d) hpowered
    exact ⟨more, hon, by rw [List.foldl_append, hmode]⟩

end Domain

end RustRcp
