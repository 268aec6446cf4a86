/-!
# The crate's error type

`RcpError` and the numbers its variants have on the wire (`src/lib.rs`).
-/

namespace RustRcp

/-- `RcpError`. `Other` carries its message. -/
inductive RcpError where
  | Closed
  | NotConnected
  | Timeout
  | PayloadTooLarge
  | NotFound
  | AlreadyExists
  | Busy
  | ShortFrame
  | UnsupportedCmd
  | SequencerNotKnown
  | UnauthorizedAccess
  | LockedMemAccess
  | RequestCanceled
  | RequestNotFound
  | EpError
  | EpNotFound
  | ReqStorageOvfl
  | RequestRejected
  | InvalidParameter
  | ChainAborted
  | ChainError
  | CrcError
  | ConfigWriteNotImplemented
  | PwmInNoSignal
  | PociFailure
  | PresentationTimeTooFar
  | GptpFail
  | InvalidSize
  | Other (message : String)
  deriving DecidableEq, Repr

/-- The TC18 Table 27 number of an error, if it has one. -/
def RcpError.tc18_wire_code : RcpError → Option UInt8
  | UnsupportedCmd => some 1
  | SequencerNotKnown => some 2
  | UnauthorizedAccess => some 3
  | LockedMemAccess => some 4
  | RequestCanceled => some 5
  | RequestNotFound => some 6
  | EpError => some 7
  | EpNotFound => some 8
  | PwmInNoSignal => some 9
  | ReqStorageOvfl => some 10
  | RequestRejected => some 11
  | PociFailure => some 12
  | PresentationTimeTooFar => some 13
  | GptpFail => some 14
  | InvalidParameter => some 15
  | ChainAborted => some 16
  | ChainError => some 17
  | _ => none

/-- `{:02X}` of a byte. -/
def hex_02X (b : UInt8) : String :=
  let digit (n : Nat) := "0123456789ABCDEF".toList.getD n ' '
  String.ofList [digit (b.toNat / 16), digit (b.toNat % 16)]

/-- A block succeeds when its first step does and the rest does on what that step gave. -/
theorem bind_ok_iff {α β : Type} {x : Except RcpError α} {f : α → Except RcpError β} {b : β} :
    (x >>= f) = .ok b ↔ ∃ a, x = .ok a ∧ f a = .ok b := by
  cases x with
  | error e => simp [bind, Except.bind]
  | ok a => simp [bind, Except.bind]

/-- `if c { return Err(e) }` is passed when `c` is false. -/
theorem guard_ok_iff {α : Type} {c : Prop} [Decidable c] {e : RcpError} {x : Except RcpError α} {b : α} :
    (if c then .error e else x) = .ok b ↔ ¬ c ∧ x = .ok b := by
  by_cases hc : c
  · simp [hc]
  · simp [hc]

/-- `Option::ok_or`. -/
def ok_or {α : Type} (o : Option α) (e : RcpError) : Except RcpError α :=
  match o with
  | some a => .ok a
  | none => .error e

@[simp] theorem ok_or_some {α : Type} (a : α) (e : RcpError) : ok_or (some a) e = .ok a := rfl
@[simp] theorem ok_or_none {α : Type} (e : RcpError) : ok_or (none : Option α) e = .error e := rfl

theorem ok_or_eq_ok {α : Type} {o : Option α} {e : RcpError} {a : α} : ok_or o e = .ok a ↔ o = some a := by
  cases o <;> simp

/-- `usize::checked_sub`. -/
def checked_sub (a b : Nat) : Option Nat := if b ≤ a then some (a - b) else none

end RustRcp
