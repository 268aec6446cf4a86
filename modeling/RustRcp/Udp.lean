import RustRcp.Discovery
import RustRcp.Mock
/-!
# The server over UDP

Annex J datagrams, the socket that wraps and unwraps them, the server behind it
(`src/udp.rs`), and the loop that serves datagrams until one fails (`cmd_serve` of
`src/bin/rcp.rs`). The operating system's socket never fails here: it hands over
the datagrams that arrive and takes the ones that are sent.
-/
open Bytes Stateful

namespace RustRcp

/-! ## Annex J -/

def encode_annex_j_udp_payload (seq : UInt32) (avtpdu : List UInt8) : List UInt8 := be 4 seq.toNat ++ avtpdu

def decode_annex_j_udp_payload (buf : List UInt8) : Except RcpError (UInt32 × List UInt8) :=
  if buf.length < 4 then .error .ShortFrame
  else .ok (UInt32.ofNat (ofBe (buf.take 4)), buf.drop 4)

/-! ## Socket -/

/-- A datagram as the operating system hands it over, with the instant the server began to wait for it. -/
structure Arrival (Peer : Type) where
  datagram : List UInt8
  peer : Peer
  now : Instant

/-- The socket with the datagrams it has sent, in order. -/
structure StdUdpSocket (Peer : Type) where
  send_seq : UInt32 := 0
  sent : List (Peer × List UInt8) := []

namespace StdUdpSocket
variable {Peer : Type}

/-- The receive buffer holds 65535 bytes. -/
def recv_from (arrival : Arrival Peer) : Except RcpError (List UInt8 × Peer) := do
  let (_seq, avtpdu) ← decode_annex_j_udp_payload (arrival.datagram.take 65535)
  return (avtpdu, arrival.peer)

def send_to (buf : List UInt8) (addr : Peer) (self : StdUdpSocket Peer) : StdUdpSocket Peer :=
  { send_seq := self.send_seq + 1
    sent := self.sent ++ [(addr, encode_annex_j_udp_payload self.send_seq buf)] }

end StdUdpSocket

/-! ## Server -/

structure UdpRcServer (M Peer : Type) where
  local_stream : StreamId
  socket : StdUdpSocket Peer := {}
  server : RcServer M
  discovery_claim : Option DiscoveryClaim := none

namespace UdpRcServer
variable {M Peer : Type}

def new (local_stream : StreamId) (server : RcServer M) : UdpRcServer M Peer := { local_stream, server }

/-- The grant of a discovery configure request. -/
def claim_discovery_stream (requester_stream : StreamId) (now : Instant) (discovery_timeout : Duration) :
    Stateful RcpError (UdpRcServer M Peer) Unit := do
  let self ← get
  MonadExcept.ofExcept
    (check_discovery_access self.discovery_claim requester_stream .Configure now discovery_timeout)
  let claim ← MonadExcept.ofExcept
    (try_claim_discovery_stream self.discovery_claim requester_stream now discovery_timeout)
  modify fun self => { self with discovery_claim := some claim }

def dispatch_request (requester_stream : StreamId) (now : Instant) (discovery_timeout : Duration)
    (request : AcfAbbMessage) : Stateful RcpError (UdpRcServer M Peer) AcfAbbMessage := do
  -- under whatever stream it comes: a direct read is answered here too
  if is_discovery_request request then
    let self ← get
    MonadExcept.ofExcept (check_discovery_access self.discovery_claim requester_stream .Read now discovery_timeout)
    MonadExcept.ofExcept (build_discovery_response request.info self.server.state self.server.general)
  else if is_discovery_configure_request request then
    claim_discovery_stream requester_stream now discovery_timeout
    return { info := build_response_info request.info {}, payload := [] }
  -- the broadcast stream is for discovery alone
  else if is_discovery_broadcast_stream_id requester_stream then
    throw .InvalidParameter
  else
    within UdpRcServer.server (fun self server => { self with server })
      (RcServer.handle_abb requester_stream request)

def serve_one (arrival : Arrival Peer) (sequence_num : UInt8) (discovery_timeout : Duration) :
    Stateful RcpError (UdpRcServer M Peer) Unit := do
  let (frame, peer_addr) ← MonadExcept.ofExcept (StdUdpSocket.recv_from arrival)
  let (hdr, acf_bytes) ← MonadExcept.ofExcept (decode_ntscf_frame frame)
  let requester_stream := StreamId.from_u64 hdr.stream_id
  let requests ← MonadExcept.ofExcept (decode_acf_abb_messages acf_bytes)
  let response_bytes ←
    collect (answer (dispatch_request requester_stream arrival.now discovery_timeout)) requests []
  let self ← get
  let response_frame ← MonadExcept.ofExcept (encode_ntscf_frame self.local_stream sequence_num response_bytes)
  modify fun self => { self with socket := self.socket.send_to response_frame peer_addr }

end UdpRcServer

/-! ## Serving -/

/-- Where the loop is when the datagrams are used up. -/
inductive LoopEnd where
  | waiting
  | stopped
  | exited (e : RcpError)
  deriving DecidableEq, Repr

/-- `--max-requests` is reached. -/
def reached (max_requests : Option UInt32) (served : UInt32) : Bool :=
  match max_requests with
  | some max => served ≥ max
  | none => false

/-- The loop of `cmd_serve` on the datagrams that arrive: the limit is looked at before each. -/
def serve_loop {M Peer : Type} (max_requests : Option UInt32) :
    UInt32 → UdpRcServer M Peer → List (Arrival Peer) → LoopEnd × UdpRcServer M Peer
  | served, server, [] => (if reached max_requests served then .stopped else .waiting, server)
  | served, server, arrival :: rest =>
    if reached max_requests served then (.stopped, server)
    else match exec (UdpRcServer.serve_one arrival served.toUInt8 DISCOVERY_TIME_OUT) server with
      | (.ok _, server) => serve_loop max_requests (served + 1) server rest
      -- `process::exit`, whatever the error is
      | (.error e, server) => (.exited e, server)

/-- The server `cmd_serve` builds: fresh, with nothing registered. -/
def cmd_serve (max_requests : Option UInt32) (local_stream : StreamId) {Peer : Type} (arrivals : List (Arrival Peer)) :
    LoopEnd × UdpRcServer Heap Peer :=
  serve_loop max_requests 0 (.new local_stream (.new {} [])) arrivals

end RustRcp
