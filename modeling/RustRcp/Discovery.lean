import RustRcp.Access
import RustRcp.Regmap
/-!
# Discovery

The stream everyone may ask under, the requests that ask for a server's identity
or for the discovery stream itself, and who holds that stream (`src/discovery.rs`).
Instants and durations are nanoseconds.
-/
open Bytes

namespace RustRcp

abbrev Instant := Nat
abbrev Duration := Nat

/-! ## Broadcast stream -/

def DISCOVERY_BROADCAST_SENDER_MAC : Vector UInt8 6 := #v[0xFF, 0xFF, 0xFF, 0xFF, 0xFF, 0xFF]
def DISCOVERY_BROADCAST_UNIQUE_ID : UInt16 := 0
def DISCOVERY_BROADCAST_STREAM_ID : StreamId :=
  { sender_mac := DISCOVERY_BROADCAST_SENDER_MAC, unique_id := DISCOVERY_BROADCAST_UNIQUE_ID }

def is_discovery_broadcast_stream_id (stream_id : StreamId) : Bool := stream_id == DISCOVERY_BROADCAST_STREAM_ID

/-! ## Requests -/

def DISCOVERY_REGISTER_ADDRESS_LEN : Nat := 2
def DISCOVERY_REGISTER_ADDRESS : UInt16 := 0

def build_discovery_request (transaction_num : UInt8) : AcfAbbMessage where
  info := { byte_bus_id := EP0_BYTE_BUS_ID, op := false, transaction_num }
  payload := be DISCOVERY_REGISTER_ADDRESS_LEN DISCOVERY_REGISTER_ADDRESS.toNat

def decode_register_address (payload : List UInt8) : Option UInt16 :=
  if payload.length < DISCOVERY_REGISTER_ADDRESS_LEN then none
  else some (UInt16.ofNat (ofBe (payload.take 2)))

def is_discovery_request (msg : AcfAbbMessage) : Bool :=
  route_byte_bus_id msg.info.byte_bus_id == .Ep0 && access_kind msg.info == .Read &&
    decode_register_address msg.payload == some DISCOVERY_REGISTER_ADDRESS

def is_discovery_configure_request (msg : AcfAbbMessage) : Bool :=
  route_byte_bus_id msg.info.byte_bus_id == .Ep0 && access_kind msg.info == .Write &&
    decode_register_address msg.payload == some DISCOVERY_REGISTER_ADDRESS

def build_discovery_response (request : ByteMessageInfo) (state : RcServerState) (general : GeneralRegisters) :
    Except RcpError AcfAbbMessage := do
  check_register_reachable state .General
  return { info := build_response_info request {}, payload := general.encode }

/-! ## Claims -/

def DISCOVERY_TIME_OUT : Duration := 20000000

/-- Who holds the discovery stream, and since when. -/
structure DiscoveryClaim where
  claimant : StreamId
  claimed_at : Instant
  deriving DecidableEq, Repr

/-- `saturating_duration_since`: an earlier `now` counts as no time at all. -/
def DiscoveryClaim.has_lapsed (self : DiscoveryClaim) (now : Instant) (timeout : Duration) : Bool :=
  decide (now - self.claimed_at ≥ timeout)

def claim_permits (current : Option DiscoveryClaim) (who : StreamId) (now : Instant) (timeout : Duration) : Bool :=
  match current with
  | none => true
  | some existing => existing.claimant == who || existing.has_lapsed now timeout

def try_claim_discovery_stream (current : Option DiscoveryClaim) (claimant : StreamId) (now : Instant)
    (timeout : Duration) : Except RcpError DiscoveryClaim :=
  if is_discovery_broadcast_stream_id claimant then .error .InvalidParameter
  else if claim_permits current claimant now timeout then .ok { claimant, claimed_at := now }
  else .error .RequestRejected

inductive DiscoveryAccessKind where
  | Read
  | Configure
  deriving DecidableEq, Repr

def check_discovery_access (current : Option DiscoveryClaim) (requester : StreamId) (kind : DiscoveryAccessKind)
    (now : Instant) (timeout : Duration) : Except RcpError Unit :=
  match kind with
  | .Read => .ok ()
  | .Configure =>
    if is_discovery_broadcast_stream_id requester then .error .InvalidParameter
    else if claim_permits current requester now timeout then .ok ()
    else .error .UnauthorizedAccess

end RustRcp
