import RustRcp.Error
import RustRcp.Tables
import RustRcp.Lib.Stateful
/-!
# Sequencers

The sequencer states, the gate of a compound request and the advance that ends one
(`src/request.rs`). Calls of any clients on one bank are a list: every operation
holds the bank for itself. `successes_le_entries` counts what the advances can win.
-/
open Stateful

namespace RustRcp

/-! ## Gates -/

structure SequencerState where
  value : UInt8 := 0
  deriving DecidableEq, Repr

structure CompoundGateConfig where
  sequencer_num : UInt8 := 0
  start_state : SequencerState := {}
  deriving DecidableEq, Repr

def check_sequencer_num_in_bounds (sequencer_num svr_sequencers_max : UInt8) : Except RcpError Unit :=
  if sequencer_num < svr_sequencers_max then .ok () else .error .SequencerNotKnown

def is_gate_satisfied (current_state : SequencerState) (gate : CompoundGateConfig) : Bool :=
  current_state == gate.start_state

def check_compound_gate (current_state : SequencerState) (gate : CompoundGateConfig) (svr_sequencers_max : UInt8) :
    Except RcpError Unit := do
  check_sequencer_num_in_bounds gate.sequencer_num svr_sequencers_max
  if is_gate_satisfied current_state gate then .ok () else .error .RequestRejected

def advance_sequencer_if_still_in_start_state (observed_state : SequencerState) (gate : CompoundGateConfig)
    (next_state : SequencerState) : Option SequencerState :=
  if observed_state = gate.start_state then some next_state else none

/-! ## The bank -/

/-- `SequencerStateEntry::power_on_default`. -/
def SequencerStateEntry.power_on_default : SequencerStateEntry := { seq_state := 1, request_stream_index := 0 }

/-- A bank has no more sequencers than its bound, a byte, can count. -/
structure SequencerBank where
  states : List SequencerState
  few : states.length < UInt8.size

namespace SequencerBank

def new (svr_sequencers_max : UInt8) : SequencerBank where
  states := List.replicate svr_sequencers_max.toNat ⟨SequencerStateEntry.power_on_default.seq_state⟩
  few := by rw [List.length_replicate]; exact svr_sequencers_max.toNat_lt

/-- The cast never truncates. -/
def svr_sequencers_max (self : SequencerBank) : UInt8 := UInt8.ofNat self.states.length

/-- `self.states[sequencer_num as usize] = state`. -/
def put (self : SequencerBank) (sequencer_num : UInt8) (state : SequencerState) : SequencerBank where
  states := self.states.set sequencer_num.toNat state
  few := by rw [List.length_set]; exact self.few

/-- `self.states[sequencer_num as usize]`. -/
def at_num (self : SequencerBank) (sequencer_num : UInt8) : SequencerState := self.states.getD sequencer_num.toNat {}

def read (sequencer_num : UInt8) : Stateful RcpError SequencerBank SequencerState := do
  let self ← get
  MonadExcept.ofExcept (check_sequencer_num_in_bounds sequencer_num self.svr_sequencers_max)
  return self.at_num sequencer_num

def advance_if_still_in_start_state (gate : CompoundGateConfig) (next_state : SequencerState) :
    Stateful RcpError SequencerBank Bool := do
  let self ← get
  MonadExcept.ofExcept (check_sequencer_num_in_bounds gate.sequencer_num self.svr_sequencers_max)
  let observed_state := self.at_num gate.sequencer_num
  match advance_sequencer_if_still_in_start_state observed_state gate next_state with
  | some advanced =>
    set (self.put gate.sequencer_num advanced)
    return true
  | none => return false

def check_compound_gate (gate : CompoundGateConfig) : Stateful RcpError SequencerBank Unit := do
  let current_state ← read gate.sequencer_num
  let self ← get
  MonadExcept.ofExcept (RustRcp.check_compound_gate current_state gate self.svr_sequencers_max)

def force_state (sequencer_num : UInt8) (new_state : SequencerState) : Stateful RcpError SequencerBank Unit := do
  let self ← get
  MonadExcept.ofExcept (check_sequencer_num_in_bounds sequencer_num self.svr_sequencers_max)
  set (self.put sequencer_num new_state)

end SequencerBank

def enter_sequencer_driven_safe_state (gate : CompoundGateConfig) : Stateful RcpError SequencerBank Unit :=
  SequencerBank.force_state gate.sequencer_num gate.start_state

/-! ## Calls -/

/-- An operation on a bank. -/
inductive BankCall where
  | read (sequencer_num : UInt8)
  | check (gate : CompoundGateConfig)
  | advance (gate : CompoundGateConfig) (next_state : SequencerState)
  | force (sequencer_num : UInt8) (new_state : SequencerState)
  | enter_safe_state (gate : CompoundGateConfig)
  deriving DecidableEq, Repr

namespace BankCall

/-- What a call returns: a state, whether it advanced, or nothing. -/
inductive Returned where
  | state (s : SequencerState)
  | advanced (won : Bool)
  | done
  deriving DecidableEq, Repr

def sequencer : BankCall → UInt8
  | .read sequencer_num | .force sequencer_num _ => sequencer_num
  | .check gate | .advance gate _ | .enter_safe_state gate => gate.sequencer_num

def perform : BankCall → Stateful RcpError SequencerBank Returned
  | .read sequencer_num => .state <$> SequencerBank.read sequencer_num
  | .check gate => (fun _ => .done) <$> SequencerBank.check_compound_gate gate
  | .advance gate next_state => .advanced <$> SequencerBank.advance_if_still_in_start_state gate next_state
  | .force sequencer_num new_state => (fun _ => .done) <$> SequencerBank.force_state sequencer_num new_state
  | .enter_safe_state gate => (fun _ => .done) <$> enter_sequencer_driven_safe_state gate

/-- The bank after a call. -/
def after (call : BankCall) (bank : SequencerBank) : SequencerBank := (exec call.perform bank).2

end BankCall

namespace SequencerBank
variable (bank : SequencerBank)

/-- The state a sequencer holds, if there is such a sequencer. -/
def held (sequencer_num : UInt8) : Option SequencerState := bank.states[sequencer_num.toNat]?

theorem lt_max_iff (n : UInt8) : n < bank.svr_sequencers_max ↔ n.toNat < bank.states.length := by
  rw [UInt8.lt_iff_toNat_lt, svr_sequencers_max, UInt8.toNat_ofNat_of_lt' bank.few]

variable {bank} {n m : UInt8} {state : SequencerState}

theorem held_of_lt (h : n < bank.svr_sequencers_max) : bank.held n = some (bank.at_num n) := by
  have hlt := (lt_max_iff bank n).1 h
  rw [held, at_num, List.getD_eq_getElem?_getD, List.getElem?_eq_getElem hlt, Option.getD_some]

theorem held_put (h : n < bank.svr_sequencers_max) : (bank.put n state).held n = some state := by
  rw [held, put, List.getElem?_set_self ((lt_max_iff bank n).1 h)]

theorem held_put_of_ne (h : m ≠ n) : (bank.put n state).held m = bank.held m := by
  rw [held, held, put, List.getElem?_set_ne fun hnm => h (UInt8.toNat_inj.1 hnm.symm)]

/-! ## What an operation does -/

/-- The check every operation begins with. -/
theorem exec_in_bounds {α : Type} (n : UInt8) (x : Stateful RcpError SequencerBank α) (bank : SequencerBank) :
    exec (do MonadExcept.ofExcept (check_sequencer_num_in_bounds n bank.svr_sequencers_max); x) bank =
      if n < bank.svr_sequencers_max then exec x bank else (.error .SequencerNotKnown, bank) := by
  rw [exec_bind, exec_ofExcept, check_sequencer_num_in_bounds]
  split <;> rename_i heq <;> split at heq <;> rename_i hlt <;> cases heq
  · rw [if_pos hlt]
  · rw [if_neg hlt]

theorem read_spec (n : UInt8) (bank : SequencerBank) : exec (read n) bank =
    if n < bank.svr_sequencers_max then (.ok (bank.at_num n), bank) else (.error .SequencerNotKnown, bank) := by
  rw [read, exec_bind_ok (exec_get bank), exec_in_bounds]
  rfl

theorem check_compound_gate_spec (gate : CompoundGateConfig) (bank : SequencerBank) :
    exec (check_compound_gate gate) bank =
      if gate.sequencer_num < bank.svr_sequencers_max then
        (if bank.at_num gate.sequencer_num = gate.start_state then .ok () else .error .RequestRejected, bank)
      else (.error .SequencerNotKnown, bank) := by
  rw [check_compound_gate, exec_bind, read_spec]
  by_cases h : gate.sequencer_num < bank.svr_sequencers_max
  · simp only [if_pos h, exec_bind, exec_get, exec_ofExcept, RustRcp.check_compound_gate,
      check_sequencer_num_in_bounds, is_gate_satisfied, beq_iff_eq]
    rfl
  · simp only [if_neg h]

/-- An advance wins exactly when the sequencer is still in the start state. -/
theorem advance_spec (gate : CompoundGateConfig) (next : SequencerState) (bank : SequencerBank) :
    exec (advance_if_still_in_start_state gate next) bank =
      if gate.sequencer_num < bank.svr_sequencers_max then
        if bank.at_num gate.sequencer_num = gate.start_state then (.ok true, bank.put gate.sequencer_num next)
        else (.ok false, bank)
      else (.error .SequencerNotKnown, bank) := by
  rw [advance_if_still_in_start_state, exec_bind_ok (exec_get bank), exec_in_bounds]
  simp only [advance_sequencer_if_still_in_start_state]
  by_cases hstart : bank.at_num gate.sequencer_num = gate.start_state
  · simp only [if_pos hstart]
    rfl
  · simp only [if_neg hstart]
    rfl

theorem force_spec (n : UInt8) (state : SequencerState) (bank : SequencerBank) : exec (force_state n state) bank =
    if n < bank.svr_sequencers_max then (.ok (), bank.put n state) else (.error .SequencerNotKnown, bank) := by
  rw [force_state, exec_bind_ok (exec_get bank), exec_in_bounds]
  rfl

end SequencerBank

namespace BankCall
variable {bank : SequencerBank} {call : BankCall} {n q : UInt8} {a : SequencerState}

/-- What a call does to a bank that has its sequencer. -/
def known (bank : SequencerBank) : BankCall → Except RcpError Returned × SequencerBank
  | .read n => (.ok (.state (bank.at_num n)), bank)
  | .check gate =>
    (if bank.at_num gate.sequencer_num = gate.start_state then .ok .done else .error .RequestRejected, bank)
  | .advance gate next =>
    if bank.at_num gate.sequencer_num = gate.start_state then (.ok (.advanced true), bank.put gate.sequencer_num next)
    else (.ok (.advanced false), bank)
  | .force n state => (.ok .done, bank.put n state)
  | .enter_safe_state gate => (.ok .done, bank.put gate.sequencer_num gate.start_state)

theorem perform_spec (call : BankCall) (bank : SequencerBank) : exec call.perform bank =
    if call.sequencer < bank.svr_sequencers_max then call.known bank else (.error .SequencerNotKnown, bank) := by
  cases call with
  | read n =>
    simp only [perform, exec_map, SequencerBank.read_spec, sequencer, known]
    by_cases h : n < bank.svr_sequencers_max <;> simp [h]
  | check gate =>
    simp only [perform, exec_map, SequencerBank.check_compound_gate_spec, sequencer, known]
    by_cases h : gate.sequencer_num < bank.svr_sequencers_max <;>
      by_cases hstart : bank.at_num gate.sequencer_num = gate.start_state <;> simp [h, hstart]
  | advance gate next =>
    simp only [perform, exec_map, SequencerBank.advance_spec, sequencer, known]
    by_cases h : gate.sequencer_num < bank.svr_sequencers_max <;>
      by_cases hstart : bank.at_num gate.sequencer_num = gate.start_state <;> simp [h, hstart]
  | force n state =>
    simp only [perform, exec_map, SequencerBank.force_spec, sequencer, known]
    by_cases h : n < bank.svr_sequencers_max <;> simp [h]
  | enter_safe_state gate =>
    simp only [perform, enter_sequencer_driven_safe_state, exec_map, SequencerBank.force_spec, sequencer, known]
    by_cases h : gate.sequencer_num < bank.svr_sequencers_max <;> simp [h]

/-- A number out of range is refused, whatever the call. -/
theorem perform_unknown (h : ¬ call.sequencer < bank.svr_sequencers_max) :
    exec call.perform bank = (.error .SequencerNotKnown, bank) := by
  rw [perform_spec, if_neg h]

/-- A call leaves the bank as it is or stores a state for its own sequencer. -/
theorem after_cases (call : BankCall) (bank : SequencerBank) : call.after bank = bank ∨
    call.sequencer < bank.svr_sequencers_max ∧ ∃ state, call.after bank = bank.put call.sequencer state := by
  rw [after, perform_spec]
  by_cases h : call.sequencer < bank.svr_sequencers_max
  · rw [if_pos h]
    cases call with
    | read n => exact .inl rfl
    | check gate => exact .inl rfl
    | advance gate next =>
      simp only [known]
      split
      · exact .inr ⟨h, next, rfl⟩
      · exact .inl rfl
    | force n state => exact .inr ⟨h, state, rfl⟩
    | enter_safe_state gate => exact .inr ⟨h, gate.start_state, rfl⟩
  · exact .inl (by rw [if_neg h])

theorem after_length (call : BankCall) (bank : SequencerBank) :
    (call.after bank).states.length = bank.states.length := by
  obtain h | ⟨-, state, h⟩ := after_cases call bank
  · rw [h]
  · rw [h, SequencerBank.put, List.length_set]

theorem after_held_of_ne (h : n ≠ call.sequencer) (bank : SequencerBank) : (call.after bank).held n = bank.held n := by
  obtain heq | ⟨-, state, heq⟩ := after_cases call bank
  · rw [heq]
  · rw [heq, SequencerBank.held_put_of_ne h]

/-! ## Winning -/

/-- The call is the advance of a request gated on sequencer `q` in state `a` that moves it to another
state, and it wins. -/
def wins (q : UInt8) (a : SequencerState) (bank : SequencerBank) : BankCall → Bool
  | .advance gate next => decide (gate = ⟨q, a⟩) && decide (next ≠ a) &&
      (exec (perform (.advance gate next)) bank).1.toOption == some (.advanced true)
  | _ => false

/-- The call makes sequencer `q` hold `a`, which it did not. -/
def enters (q : UInt8) (a : SequencerState) (bank : SequencerBank) (call : BankCall) : Bool :=
  decide (bank.held q ≠ some a) && decide ((call.after bank).held q = some a)

/-- Who wins finds the sequencer in its start state and does not leave it there. -/
theorem held_of_wins (h : call.wins q a bank = true) : bank.held q = some a ∧ (call.after bank).held q ≠ some a := by
  cases call with
  | advance gate next =>
    simp only [wins, Bool.and_eq_true, decide_eq_true_eq, beq_iff_eq] at h
    obtain ⟨⟨rfl, hnext⟩, hwon⟩ := h
    rw [after]
    rw [perform_spec] at hwon ⊢
    by_cases hlt : (BankCall.advance ⟨q, a⟩ next).sequencer < bank.svr_sequencers_max
    · rw [if_pos hlt] at hwon ⊢
      simp only [known] at hwon ⊢
      by_cases hstart : bank.at_num q = a
      · have hput : (bank.put q next).held q = some next := SequencerBank.held_put hlt
        have hheld : bank.held q = some (bank.at_num q) := SequencerBank.held_of_lt hlt
        rw [if_pos hstart, hput, hheld, hstart]
        exact ⟨rfl, fun h => hnext (Option.some.inj h)⟩
      · rw [if_neg hstart] at hwon
        cases hwon
    · rw [if_neg hlt] at hwon
      cases hwon
  | _ => cases h

/-- One call: what wins leaves the state, and only what enters comes back to it. -/
theorem wins_le_enters (q : UInt8) (a : SequencerState) (bank : SequencerBank) (call : BankCall) :
    (call.wins q a bank).toNat + (decide ((call.after bank).held q = some a)).toNat ≤
      (call.enters q a bank).toNat + (decide (bank.held q = some a)).toNat := by
  by_cases hwins : call.wins q a bank = true
  · obtain ⟨hbefore, hafter⟩ := held_of_wins hwins
    simp [hwins, hbefore, hafter]
  · rw [Bool.not_eq_true] at hwins
    simp only [hwins, enters]
    by_cases hbefore : bank.held q = some a <;> by_cases hafter : (call.after bank).held q = some a <;>
      simp [hbefore, hafter]

/-! ## Runs -/

variable {ι : Type}

/-- The bank each call meets; whose calls they are does not matter. -/
def meets (bank : SequencerBank) (calls : List (ι × BankCall)) : List (SequencerBank × (ι × BankCall)) :=
  visits (fun bank call => call.2.after bank) bank calls

/-- How many requests gated on `q` in state `a` that move it win. -/
def successes (q : UInt8) (a : SequencerState) (bank : SequencerBank) (calls : List (ι × BankCall)) : Nat :=
  (meets bank calls).countP fun p => p.2.2.wins q a p.1

/-- How often `q` comes to hold `a`. -/
def entries (q : UInt8) (a : SequencerState) (bank : SequencerBank) (calls : List (ι × BankCall)) : Nat :=
  (meets bank calls).countP fun p => p.2.2.enters q a p.1

def settled (bank : SequencerBank) (calls : List (ι × BankCall)) : SequencerBank :=
  calls.foldl (fun bank call => call.2.after bank) bank

theorem successes_cons (q : UInt8) (a : SequencerState) (bank : SequencerBank) (call : ι × BankCall)
    (calls : List (ι × BankCall)) : successes q a bank (call :: calls) =
      successes q a (call.2.after bank) calls + (call.2.wins q a bank).toNat := by
  rw [successes, meets, visits, List.countP_cons]
  cases call.2.wins q a bank <;> simp [successes, meets]

theorem entries_cons (q : UInt8) (a : SequencerState) (bank : SequencerBank) (call : ι × BankCall)
    (calls : List (ι × BankCall)) : entries q a bank (call :: calls) =
      entries q a (call.2.after bank) calls + (call.2.enters q a bank).toNat := by
  rw [entries, meets, visits, List.countP_cons]
  cases call.2.enters q a bank <;> simp [entries, meets]

/-- A whole run: each success uses up one time the sequencer came to hold the start state. -/
theorem successes_le_entries (q : UInt8) (a : SequencerState) (bank : SequencerBank) (calls : List (ι × BankCall)) :
    successes q a bank calls + (decide ((settled bank calls).held q = some a)).toNat ≤
      entries q a bank calls + (decide (bank.held q = some a)).toNat := by
  induction calls generalizing bank with
  | nil => exact Nat.le_refl _
  | cons call calls ih =>
    have hstep := wins_le_enters q a bank call.2
    have hrest := ih (call.2.after bank)
    have hlast : settled bank (call :: calls) = settled (call.2.after bank) calls := rfl
    rw [successes_cons, entries_cons, hlast]
    omega

/-- Nobody wins while the sequencer is in another state. -/
theorem successes_eq_zero {calls : List (ι × BankCall)} (h : ∀ p ∈ meets bank calls, p.1.held q ≠ some a) :
    successes q a bank calls = 0 := by
  rw [successes, List.countP_eq_zero]
  intro p hp hwins
  exact h p hp (held_of_wins hwins).1

/-- What the bank promises its clients. -/
structure Arbitrated (ι : Type) (bank : SequencerBank) : Prop where
  /-- In any run the successes are at most the times the sequencer came to hold the start state. -/
  counted : ∀ (calls : List (ι × BankCall)) q a,
    successes q a bank calls + (decide ((settled bank calls).held q = some a)).toNat ≤
      entries q a bank calls + (decide (bank.held q = some a)).toNat
  /-- Between two moments at which the sequencer holds the start state, and none between them, one request wins. -/
  between : ∀ (calls : List (ι × BankCall)) q a, (∀ p ∈ (meets bank calls).tail, p.1.held q ≠ some a) →
    successes q a bank calls ≤ 1
  others : ∀ (call : BankCall) n, n ≠ call.sequencer → (call.after bank).held n = bank.held n
  number : ∀ call : BankCall, (call.after bank).svr_sequencers_max = bank.svr_sequencers_max
  refused : ∀ call : BankCall, bank.svr_sequencers_max ≤ call.sequencer →
    exec call.perform bank = (.error .SequencerNotKnown, bank)

theorem bank_arbitrates (ι : Type) (bank : SequencerBank) : Arbitrated ι bank where
  counted calls q a := successes_le_entries q a bank calls
  between calls q a h := by
    cases calls with
    | nil => exact Nat.zero_le 1
    | cons call calls =>
      have hlater : successes q a (call.2.after bank) calls = 0 := successes_eq_zero h
      rw [successes_cons, hlater, Nat.zero_add]
      exact Bool.toNat_le _
  others _ _ h := after_held_of_ne h bank
  number call := by rw [SequencerBank.svr_sequencers_max, SequencerBank.svr_sequencers_max, after_length]
  refused _ h := perform_unknown (UInt8.not_lt.2 h)

end BankCall

end RustRcp
