import RustRcp.Udp
import RustRcp.AcfCodec
/-!
# The client transports

`send_acf_abb` over UDP, raw Ethernet and shared memory (`src/udp.rs`, `src/l2.rs`,
`src/shmem.rs`). The three copies differ in what is below them: `send_acf_abb_spec`
says what they have in common, and a `Carrier` is how each puts an AVTPDU on the wire.
-/
open Bytes Stateful

namespace RustRcp

variable {σ Peer Header : Type}

/-! ## Ethernet frames -/

def ETHERTYPE_AVTP : UInt16 := 0x22F0
def ETHERNET_HEADER_LEN : Nat := 14

/-- `{:04x}` of a word. -/
def hex_04x (w : UInt16) : String :=
  let digit (n : Nat) := "0123456789abcdef".toList.getD n ' '
  String.ofList [digit (w.toNat / 4096), digit (w.toNat / 256 % 16), digit (w.toNat / 16 % 16), digit (w.toNat % 16)]

def encode_ethernet_frame (dest_mac src_mac : Vector UInt8 6) (avtpdu : List UInt8) : List UInt8 :=
  dest_mac.toList ++ src_mac.toList ++ be 2 ETHERTYPE_AVTP.toNat ++ avtpdu

def decode_ethernet_frame (frame : List UInt8) : Except RcpError (Vector UInt8 6 × Vector UInt8 6 × List UInt8) :=
  if frame.length < ETHERNET_HEADER_LEN then .error .ShortFrame
  else
    let dest_mac := Vector.ofFn fun i : Fin 6 => frame.getD i 0
    let src_mac := Vector.ofFn fun i : Fin 6 => frame.getD (6 + i) 0
    let ethertype := UInt16.ofNat (ofBe ((frame.drop 12).take 2))
    if ethertype ≠ ETHERTYPE_AVTP then
      .error (.Other ("l2: unexpected EtherType 0x" ++ hex_04x ethertype ++ ", expected 0x" ++ hex_04x ETHERTYPE_AVTP))
    else .ok (dest_mac, src_mac, frame.drop ETHERNET_HEADER_LEN)

/-! ## Sockets -/

/-- A trait object that sends and receives octets, on the state `σ` it keeps behind its `&self`. -/
structure Socket (σ : Type) where
  send : List UInt8 → Stateful RcpError σ Unit
  recv : Option Duration → Stateful RcpError σ (List UInt8)

structure UdpSocket (σ Peer : Type) where
  send_to : List UInt8 → Peer → Stateful RcpError σ Unit
  recv_from : Option Duration → Stateful RcpError σ (List UInt8 × Peer)

/-- The calls of `StdUdpSocket` over the operating system's socket; its counter is beside the state. -/
def StdUdpSocket.client (os : UdpSocket σ Peer) : UdpSocket (UInt32 × σ) Peer where
  send_to buf addr := do
    let seq := (← get).1
    modify fun self => (self.1 + 1, self.2)
    within Prod.snd (fun self t => (self.1, t)) (os.send_to (encode_annex_j_udp_payload seq buf) addr)
  recv_from timeout := do
    let (buf, addr) ← within Prod.snd (fun self t => (self.1, t)) (os.recv_from timeout)
    let (_seq, avtpdu) ← MonadExcept.ofExcept (decode_annex_j_udp_payload (buf.take 65535))
    return (avtpdu, addr)

/-! ## Transports -/

/-- The body of every `send_acf_abb`, over what sends and receives AVTPDUs. -/
def send_acf_abb_over (socket : Socket σ) (local_stream : StreamId) (msg : AcfAbbMessage) (sequence_num : UInt8)
    (timeout : Option Duration) : Stateful RcpError σ AcfAbbMessage :=
  if timeout = some 0 then throw .Timeout else do
  let payload ← MonadExcept.ofExcept (encode_acf_abb msg)
  let frame ← MonadExcept.ofExcept (encode_ntscf_frame local_stream sequence_num payload)
  socket.send frame
  let resp_frame ← socket.recv timeout
  let (_, resp_payload) ← MonadExcept.ofExcept (decode_ntscf_frame resp_frame)
  let resp ← MonadExcept.ofExcept (decode_acf_abb resp_payload)
  MonadExcept.ofExcept (verify_echo_back msg.info resp.info)
  return resp

structure UdpTransport (σ Peer : Type) where
  local_stream : StreamId
  socket : UdpSocket σ Peer
  remote : Peer

def UdpTransport.send_acf_abb (self : UdpTransport σ Peer) (msg : AcfAbbMessage) (sequence_num : UInt8)
    (timeout : Option Duration) : Stateful RcpError σ AcfAbbMessage :=
  send_acf_abb_over
    { send := fun frame => self.socket.send_to frame self.remote
      recv := fun timeout => do
        let (resp_frame, _) ← self.socket.recv_from timeout
        return resp_frame }
    self.local_stream msg sequence_num timeout

structure L2Transport (σ : Type) where
  local_stream : StreamId
  socket : Socket σ
  dest_mac : Vector UInt8 6
  src_mac : Vector UInt8 6

def L2Transport.send_acf_abb (self : L2Transport σ) (msg : AcfAbbMessage) (sequence_num : UInt8)
    (timeout : Option Duration) : Stateful RcpError σ AcfAbbMessage :=
  send_acf_abb_over
    { send := fun ntscf => self.socket.send (encode_ethernet_frame self.dest_mac self.src_mac ntscf)
      recv := fun timeout => do
        let resp_frame ← self.socket.recv timeout
        let (_dest, _src, resp_ntscf) ← MonadExcept.ofExcept (decode_ethernet_frame resp_frame)
        return resp_ntscf }
    self.local_stream msg sequence_num timeout

structure ShmChannel (σ : Type) where
  write : List UInt8 → Stateful RcpError σ Unit
  read : Option Duration → Stateful RcpError σ (List UInt8)

structure ShmBridge (σ : Type) where
  local_stream : StreamId
  tx : ShmChannel σ
  rx : ShmChannel σ

def ShmBridge.send_acf_abb (self : ShmBridge σ) (msg : AcfAbbMessage) (sequence_num : UInt8)
    (timeout : Option Duration) : Stateful RcpError σ AcfAbbMessage :=
  send_acf_abb_over { send := self.tx.write, recv := self.rx.read } self.local_stream msg sequence_num timeout

/-! ## Before and after the wire -/

/-- A message in a frame of its own. -/
def abb_frame (stream_id : StreamId) (msg : AcfAbbMessage) (sequence_num : UInt8) : Except RcpError (List UInt8) := do
  let payload ← encode_acf_abb msg
  encode_ntscf_frame stream_id sequence_num payload

/-- The first message of a frame. -/
def read_abb_frame (frame : List UInt8) : Except RcpError AcfAbbMessage := do
  let (_, payload) ← decode_ntscf_frame frame
  decode_acf_abb payload

/-- What a call sends. -/
def request_frame (local_stream : StreamId) (msg : AcfAbbMessage) (sequence_num : UInt8) (timeout : Option Duration) :
    Except RcpError (List UInt8) :=
  if timeout = some 0 then .error .Timeout else abb_frame local_stream msg sequence_num

/-- What a call makes of what it receives. -/
def accept_frame (msg : AcfAbbMessage) (resp_frame : List UInt8) : Except RcpError AcfAbbMessage := do
  let resp ← read_abb_frame resp_frame
  verify_echo_back msg.info resp.info
  return resp

theorem abb_frame_ok {stream_id : StreamId} {msg : AcfAbbMessage} {sequence_num : UInt8} {frame : List UInt8}
    (h : abb_frame stream_id msg sequence_num = .ok frame) :
    read_abb_frame frame = .ok msg.onWire ∧ frame.length ≤ 2059 := by
  obtain ⟨payload, hpayload, hframe⟩ := bind_ok_iff.1 h
  obtain ⟨hdecode, hlen⟩ := decode_of_encode_ntscf_frame hframe
  exact ⟨bind_ok_iff.2 ⟨_, hdecode, decode_acf_abb_encoded hpayload⟩, hlen⟩

theorem accept_frame_ok {msg r : AcfAbbMessage} {frame : List UInt8} :
    accept_frame msg frame = .ok r ↔
      read_abb_frame frame = .ok r ∧ r.info.byte_bus_id = msg.info.byte_bus_id := by
  constructor
  · intro h
    obtain ⟨resp, hresp, h⟩ := bind_ok_iff.1 h
    obtain ⟨_, hecho, h⟩ := bind_ok_iff.1 h
    cases h
    exact ⟨hresp, Decidable.not_not.1 (guard_ok_iff.1 hecho).1⟩
  · rintro ⟨hread, hbus⟩
    exact bind_ok_iff.2 ⟨r, hread, bind_ok_iff.2 ⟨(), guard_ok_iff.2 ⟨not_not.2 hbus, rfl⟩, rfl⟩⟩

theorem accept_frame_spec (msg : AcfAbbMessage) (resp_frame : List UInt8) (s : σ) :
    exec (do
      let (_, resp_payload) ← MonadExcept.ofExcept (decode_ntscf_frame resp_frame)
      let resp ← MonadExcept.ofExcept (decode_acf_abb resp_payload)
      MonadExcept.ofExcept (verify_echo_back msg.info resp.info)
      return resp : Stateful RcpError σ AcfAbbMessage) s = (accept_frame msg resp_frame, s) := by
  rw [accept_frame, read_abb_frame, bind_assoc]
  refine exec_ofExcept_bind fun decoded => exec_ofExcept_bind fun resp => ?_
  exact exec_ofExcept_bind fun _ => exec_pure resp s

/-- One call: a frame out, a frame in, or nothing. -/
theorem send_acf_abb_over_spec (socket : Socket σ) (local_stream : StreamId) (msg : AcfAbbMessage)
    (sequence_num : UInt8) (timeout : Option Duration) (s : σ) :
    exec (send_acf_abb_over socket local_stream msg sequence_num timeout) s =
      match request_frame local_stream msg sequence_num timeout with
      | .error e => (.error e, s)
      | .ok frame => exec (do
          socket.send frame
          let resp_frame ← socket.recv timeout
          MonadExcept.ofExcept (accept_frame msg resp_frame)) s := by
  unfold send_acf_abb_over request_frame abb_frame
  by_cases hzero : timeout = some 0
  · simp [hzero]
  rw [if_neg hzero, if_neg hzero]
  cases encode_acf_abb msg with
  | error e => rfl
  | ok payload =>
    rw [exec_bind_ok (exec_ofExcept _ s)]
    change _ = match encode_ntscf_frame local_stream sequence_num payload with | .error e => _ | .ok frame => _
    cases encode_ntscf_frame local_stream sequence_num payload with
    | error e => rfl
    | ok frame =>
      rw [exec_bind_ok (exec_ofExcept _ s)]
      rcases hsend : exec (socket.send frame) s with ⟨e | _, t⟩
      · exact (exec_bind_error hsend).trans (exec_bind_error hsend).symm
      refine (exec_bind_ok hsend).trans (.trans ?_ (exec_bind_ok hsend).symm)
      rcases hrecv : exec (socket.recv timeout) t with ⟨e | resp_frame, u⟩
      · exact (exec_bind_error hrecv).trans (exec_bind_error hrecv).symm
      · refine (exec_bind_ok hrecv).trans (.trans ?_ (exec_bind_ok hrecv).symm)
        exact (accept_frame_spec msg resp_frame u).trans (exec_ofExcept _ u).symm

/-- How a transport puts an AVTPDU on the wire, with a header that may differ from packet to packet. -/
structure Carrier (Header : Type) where
  wrap : Header → List UInt8 → List UInt8
  unwrap : List UInt8 → Except RcpError (List UInt8)
  unwrap_wrap : ∀ header avtpdu, avtpdu.length ≤ 2059 → unwrap (wrap header avtpdu) = .ok avtpdu

/-- A transport's socket over that of the wire. -/
def Carrier.socket (carrier : Carrier Header) (header : Header) (wire : Socket σ) : Socket σ where
  send frame := wire.send (carrier.wrap header frame)
  recv timeout := do
    let packet ← wire.recv timeout
    MonadExcept.ofExcept (carrier.unwrap packet)

/-- The call on the wire: a packet out, a packet in, or nothing. -/
theorem send_acf_abb_spec (carrier : Carrier Header) (header : Header) (wire : Socket σ) (local_stream : StreamId)
    (msg : AcfAbbMessage) (sequence_num : UInt8) (timeout : Option Duration) (s : σ) :
    exec (send_acf_abb_over (carrier.socket header wire) local_stream msg sequence_num timeout) s =
      match request_frame local_stream msg sequence_num timeout with
      | .error e => (.error e, s)
      | .ok frame => exec (do
          wire.send (carrier.wrap header frame)
          let packet ← wire.recv timeout
          MonadExcept.ofExcept (carrier.unwrap packet >>= accept_frame msg)) s := by
  rw [send_acf_abb_over_spec]
  cases request_frame local_stream msg sequence_num timeout with
  | error e => rfl
  | ok frame =>
    simp only [Carrier.socket, exec_bind, exec_ofExcept]
    rcases exec (wire.send (carrier.wrap header frame)) s with ⟨e | _, t⟩
    · rfl
    simp only
    rcases exec (wire.recv timeout) t with ⟨e | packet, u⟩
    · rfl
    simp only
    cases carrier.unwrap packet <;> rfl

/-! ## The three wires -/

namespace StdUdpSocket

/-- Annex J, with the value of the socket's counter. -/
def carrier : Carrier UInt32 where
  wrap := encode_annex_j_udp_payload
  unwrap packet := do
    let (_seq, avtpdu) ← decode_annex_j_udp_payload (packet.take 65535)
    return avtpdu
  unwrap_wrap seq avtpdu hlen := by
    have htake : (encode_annex_j_udp_payload seq avtpdu).take 65535 = encode_annex_j_udp_payload seq avtpdu := by
      apply List.take_of_length_le
      simp only [encode_annex_j_udp_payload, List.length_append, be_length]
      omega
    rw [htake, decode_annex_j_udp_payload, if_neg (by simp [encode_annex_j_udp_payload])]
    exact congrArg Except.ok (List.drop_left' (be_length 4 _))

end StdUdpSocket

/-- The operating system's socket as a transport that knows its peer uses it. -/
def UdpSocket.wire (os : UdpSocket σ Peer) (remote : Peer) : Socket σ where
  send packet := os.send_to packet remote
  recv timeout := do
    let (packet, _) ← os.recv_from timeout
    return packet

/-- The socket's counter goes into the packet that is sent, and is nowhere else in the call. -/
theorem UdpTransport.send_acf_abb_eq (local_stream : StreamId) (os : UdpSocket σ Peer) (remote : Peer)
    (msg : AcfAbbMessage) (sequence_num : UInt8) (timeout : Option Duration) (seq : UInt32) (s : σ) :
    ∃ seq', exec (UdpTransport.send_acf_abb ⟨local_stream, StdUdpSocket.client os, remote⟩ msg sequence_num timeout)
        (seq, s) =
      let run := exec (send_acf_abb_over (StdUdpSocket.carrier.socket seq (os.wire remote)) local_stream msg
        sequence_num timeout) s
      (run.1, seq', run.2) := by
  rw [send_acf_abb_spec, UdpTransport.send_acf_abb, send_acf_abb_over_spec]
  cases request_frame local_stream msg sequence_num timeout with
  | error e => exact ⟨seq, rfl⟩
  | ok frame =>
    refine ⟨seq + 1, ?_⟩
    simp only [StdUdpSocket.client, UdpSocket.wire, StdUdpSocket.carrier, exec_bind, exec_get, exec_modify, exec_within,
      exec_ofExcept, exec_pure]
    rcases exec (os.send_to (encode_annex_j_udp_payload seq frame) remote) s with ⟨e | _, t⟩
    · rfl
    simp only
    rcases exec (os.recv_from timeout) t with ⟨e | ⟨packet, addr⟩, u⟩
    · rfl
    simp only
    cases decode_annex_j_udp_payload (packet.take 65535) <;> rfl

namespace L2Transport

/-- Ethernet frames, with the two addresses of their sender. -/
def carrier : Carrier (Vector UInt8 6 × Vector UInt8 6) where
  wrap macs := encode_ethernet_frame macs.1 macs.2
  unwrap packet := do
    let (_dest, _src, avtpdu) ← decode_ethernet_frame packet
    return avtpdu
  unwrap_wrap macs avtpdu _ := by
    have hmacs : (macs.1.toList ++ macs.2.toList).length = 12 := by simp
    have hlen : (macs.1.toList ++ macs.2.toList ++ be 2 ETHERTYPE_AVTP.toNat).length = ETHERNET_HEADER_LEN := by
      rw [List.length_append, hmacs, be_length, ETHERNET_HEADER_LEN]
    rw [encode_ethernet_frame, decode_ethernet_frame, if_neg (by rw [List.length_append, hlen]; omega)]
    have htype : UInt16.ofNat (ofBe (((macs.1.toList ++ macs.2.toList ++ be 2 ETHERTYPE_AVTP.toNat ++
        avtpdu).drop 12).take 2)) = ETHERTYPE_AVTP := by
      rw [List.append_assoc, List.drop_left' hmacs, List.take_left' (be_length 2 _)]
      decide
    simp only [htype, ne_eq, not_true_eq_false, if_false]
    exact congrArg Except.ok (List.drop_left' hlen)

theorem send_acf_abb_eq (self : L2Transport σ) :
    self.send_acf_abb =
      send_acf_abb_over (carrier.socket (self.dest_mac, self.src_mac) self.socket) self.local_stream := by
  have hdecode : ∀ resp_frame, (do
      let (_dest, _src, resp_ntscf) ← MonadExcept.ofExcept (decode_ethernet_frame resp_frame)
      return resp_ntscf : Stateful RcpError σ (List UInt8)) = MonadExcept.ofExcept (carrier.unwrap resp_frame) := by
    intro resp_frame
    change _ = MonadExcept.ofExcept (decode_ethernet_frame resp_frame >>= fun decoded => pure decoded.2.2)
    cases decode_ethernet_frame resp_frame <;> rfl
  funext msg sequence_num timeout
  rw [send_acf_abb]
  simp only [hdecode]
  rfl

end L2Transport

namespace ShmBridge

/-- Nothing around the AVTPDU. -/
def carrier : Carrier Unit where
  wrap _ avtpdu := avtpdu
  unwrap packet := .ok packet
  unwrap_wrap _ _ _ := rfl

theorem send_acf_abb_eq (self : ShmBridge σ) :
    self.send_acf_abb =
      send_acf_abb_over (carrier.socket () { send := self.tx.write, recv := self.rx.read }) self.local_stream := by
  have hrecv : (carrier.socket () { send := self.tx.write, recv := self.rx.read }).recv = self.rx.read := by
    funext timeout
    exact bind_pure (self.rx.read timeout)
  funext msg sequence_num timeout
  change _ = send_acf_abb_over
    { send := self.tx.write
      recv := (carrier.socket () { send := self.tx.write, recv := self.rx.read }).recv } _ msg sequence_num timeout
  rw [hrecv]
  rfl

end ShmBridge

end RustRcp
