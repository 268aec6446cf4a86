import RustRcp.Mock
/-!
# The RELAY adapter

Messages of the RELAY envelope (`src/relay.rs`), how they name an endpoint and what
they ask of it, and the adapter that hands what they ask to a server (`src/adapt.rs`).
A call's task is never cancelled here, and its deadline is past or not.
-/
open Stateful

namespace RustRcp

/-! ## Numbers in text -/

/-- `char::to_digit`. -/
def to_digit (radix : Nat) (c : Char) : Option Nat :=
  let digit :=
    if '0' ≤ c ∧ c ≤ '9' then some (c.toNat - '0'.toNat)
    else if 'a' ≤ c ∧ c ≤ 'z' then some (c.toNat - 'a'.toNat + 10)
    else if 'A' ≤ c ∧ c ≤ 'Z' then some (c.toNat - 'A'.toNat + 10)
    else none
  digit.filter (· < radix)

/-- `from_str_radix` of the unsigned type with this maximum: a plus sign may stand before the digits. -/
def from_str_radix (radix max : Nat) (src : List Char) : Option Nat :=
  let digits := match src with
    | '+' :: rest => rest
    | _ => src
  if digits.isEmpty then none
  else digits.foldlM (fun value c => do
    let digit ← to_digit radix c
    let value := value * radix + digit
    if value ≤ max then some value else none) 0

/-- `str::split_once`. -/
def split_once (sep : Char) (s : List Char) : Option (List Char × List Char) :=
  match s.span (· ≠ sep) with
  | (_, []) => none
  | (before, _ :: after) => some (before, after)

/-- `{:016x}` of a 64-bit value. -/
def hex_016x (v : UInt64) : List Char :=
  (List.range 16).map fun i => "0123456789abcdef".toList.getD (v.toNat / 16 ^ (15 - i) % 16) ' '

/-! ## Endpoint ids -/

def ENDPOINT_ID_SEP : Char := '.'

def format_endpoint_id (stream_id : StreamId) (byte_bus_id : UInt16) : String :=
  String.ofList (hex_016x stream_id.to_u64 ++ ENDPOINT_ID_SEP :: Nat.toDigits 10 byte_bus_id.toNat)

def parse_endpoint_id (id : String) : Except RcpError (StreamId × UInt16) := do
  let (sid_hex, bus_dec) ← ok_or (split_once ENDPOINT_ID_SEP id.toList) .InvalidParameter
  let raw ← ok_or (from_str_radix 16 (2 ^ 64 - 1) sid_hex) .InvalidParameter
  let byte_bus_id ← ok_or (from_str_radix 10 (2 ^ 16 - 1) bus_dec) .InvalidParameter
  return (StreamId.from_u64 (UInt64.ofNat raw), UInt16.ofNat byte_bus_id)

/-! ## Messages -/

inductive Protocol where
  | Can
  | Dds
  | Lin
  | Mqtt
  | Rcp
  | Someip
  deriving DecidableEq, Repr

structure Version where
  major : Int32 := 0
  minor : Int32 := 0
  patch : Int32 := 0
  deriving DecidableEq

/-- The four errors of a relay. -/
inductive RelayError where
  | Closed
  | NotConnected
  | Timeout
  | PayloadTooLarge
  deriving DecidableEq, Repr

/-- The envelope. `metadata` is the map `meta`. -/
structure Message where
  protocol : Protocol := .Rcp
  version : Version := {}
  id : String
  payload : List UInt8 := []
  timestamp : Nat := 0
  seq : UInt64 := 0
  metadata : String → Option String := fun _ => none

/-- The `op` a message asks for, else a write exactly when it has a payload. -/
def message_op (msg : Message) : Except RcpError Bool :=
  match msg.metadata "rcp.op" with
  | some "write" => .ok true
  | some "read" => .ok false
  | some _ => .error .InvalidParameter
  | none => .ok (!msg.payload.isEmpty)

/-- The size a message asks for, else the largest. -/
def message_read_size (msg : Message) : Except RcpError UInt16 :=
  match msg.metadata "rcp.read_size" with
  | some v => UInt16.ofNat <$> ok_or (from_str_radix 10 (2 ^ 16 - 1) v.toList) .InvalidParameter
  | none => .ok 0xFFFF

/-- The request of a message, and the stream it comes under. -/
def from_message (msg : Message) : Except RcpError (StreamId × AcfAbbMessage) := do
  let (stream_id, byte_bus_id) ← parse_endpoint_id msg.id
  let op ← message_op msg
  let read_size ← message_read_size msg
  return (stream_id, { info := { byte_bus_id, op, read_size_segment := ⟨read_size⟩ }, payload := msg.payload })

/-- A response as a message made at this time. -/
def to_message (stream_id : StreamId) (resp : AcfAbbMessage) (timestamp : Nat) : Message where
  protocol := .Rcp
  version := {}
  id := format_endpoint_id stream_id resp.info.byte_bus_id
  payload := resp.payload
  timestamp
  seq := 0
  metadata key :=
    if key = "rcp.op" then some (if resp.info.op then "write" else "read")
    else if key = "rcp.response_kind" then some resp.info.response_kind.as_str
    else none

def response_to_message (stream_id : StreamId) (resp : AcfAbbMessage) (timestamp : Nat) : Message :=
  to_message stream_id resp timestamp

/-! ## Adapter -/

def RcpError.is_relay_closed (self : RcpError) : Bool := self == .Closed

def RcpError.is_relay_timeout (self : RcpError) : Bool := self == .Timeout || self == .Busy

def RcpError.is_relay_payload_too_large (self : RcpError) : Bool := self == .PayloadTooLarge

def map_err (e : RcpError) : RelayError :=
  if e.is_relay_closed then .Closed
  else if e.is_relay_timeout then .Timeout
  else if e.is_relay_payload_too_large then .PayloadTooLarge
  else .NotConnected

structure RcpAdapter (M : Type) where
  server : RcServer M
  closed : Bool := false

/-- A call at the time `now`, whose context is done or not. -/
def RcpAdapter.call {M : Type} (ctx_done : Bool) (req : Message) (now : Nat) :
    Stateful RelayError (RcpAdapter M) Message := do
  if (← get).closed then throw .Closed
  else if ctx_done then throw .Timeout
  else do
    let (stream_id, request) ← MonadExcept.ofExcept ((from_message req).mapError map_err)
    let response ← mapError map_err
      (within RcpAdapter.server (fun self server => { self with server }) (RcServer.handle_abb stream_id request))
    return response_to_message stream_id response now

end RustRcp
