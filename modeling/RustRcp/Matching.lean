import RustRcp.Transport
import RustRcp.ServerFrame
import RustRcp.Lib.Exchange
/-!
# Which response a call gets

A series of `send_acf_abb` calls and a server that echoes what it is asked, with
packets between them that are late, lost or doubled. A call takes the first response
for its `byte_bus_id`, whatever call that answers (`response_matching`): a late
response to a call that timed out is taken for the next one's (`late_response_taken`).
-/
open Stateful Exchange

namespace RustRcp

variable {σ Header : Type}

/-! ## The protocol -/

/-- The arguments of a call, and the header its packet gets. -/
structure AbbCall (Header : Type) where
  msg : AcfAbbMessage
  sequence_num : UInt8
  timeout : Option Duration
  header : Header

/-- Calls of `send_acf_abb` on a transport, and a server that answers each request with a response
that echoes it. A call with a timeout may end in it. -/
def abb_protocol (carrier : Carrier Header) (local_stream : StreamId) :
    Exchange.Protocol (AbbCall Header) (List UInt8) AcfAbbMessage RcpError where
  sends call := do
    let frame ← request_frame local_stream call.msg call.sequence_num call.timeout
    return carrier.wrap call.header frame
  serves packet response reply := ∃ request stream_id sequence_num header frame,
    (carrier.unwrap packet >>= read_abb_frame) = .ok request ∧ RcServer.Echoes request response ∧
      abb_frame stream_id response sequence_num = .ok frame ∧ reply = carrier.wrap header frame
  accepts call packet := carrier.unwrap packet >>= accept_frame call.msg
  expires call e := call.timeout ≠ none ∧ e = .Timeout

variable {carrier : Carrier Header} {local_stream : StreamId}

/-- The code of a call is its side of the protocol, on whatever sends and receives its packets. -/
theorem send_acf_abb_protocol (call : AbbCall Header) (wire : Socket σ) (s : σ) :
    exec (send_acf_abb_over (carrier.socket call.header wire) local_stream call.msg call.sequence_num call.timeout) s =
      match (abb_protocol carrier local_stream).sends call with
      | .error e => (.error e, s)
      | .ok packet => exec (do
          wire.send packet
          let reply ← wire.recv call.timeout
          MonadExcept.ofExcept ((abb_protocol carrier local_stream).accepts call reply)) s := by
  have hsends : (abb_protocol carrier local_stream).sends call = do
      let frame ← request_frame local_stream call.msg call.sequence_num call.timeout
      return carrier.wrap call.header frame := rfl
  rw [send_acf_abb_spec, hsends]
  cases request_frame local_stream call.msg call.sequence_num call.timeout <;> rfl

/-! ## What packets carry -/

theorem sends_ok {call : AbbCall Header} {packet : List UInt8}
    (h : (abb_protocol carrier local_stream).sends call = .ok packet) :
    (carrier.unwrap packet >>= read_abb_frame) = .ok call.msg.onWire := by
  obtain ⟨frame, hframe, h⟩ := bind_ok_iff.1 h
  cases h
  obtain ⟨hread, hlen⟩ := abb_frame_ok (guard_ok_iff.1 hframe).2
  exact bind_ok_iff.2 ⟨frame, carrier.unwrap_wrap _ frame hlen, hread⟩

/-- A response echoes the request of the call it answers, and comes out of its packet as it went in. -/
theorem serves_echo {call : AbbCall Header} {packet reply : List UInt8} {response : AcfAbbMessage}
    (hsend : (abb_protocol carrier local_stream).sends call = .ok packet)
    (hserve : (abb_protocol carrier local_stream).serves packet response reply) :
    RcServer.Echoes call.msg response ∧ (carrier.unwrap reply >>= read_abb_frame) = .ok response.onWire := by
  obtain ⟨request, stream_id, sequence_num, header, frame, hread, hecho, hframe, rfl⟩ := hserve
  rw [sends_ok hsend] at hread
  cases hread
  obtain ⟨hresponse, hlen⟩ := abb_frame_ok hframe
  exact ⟨hecho, bind_ok_iff.2 ⟨frame, carrier.unwrap_wrap header frame hlen, hresponse⟩⟩

theorem accepts_ok {call : AbbCall Header} {packet : List UInt8} {response : AcfAbbMessage} :
    (abb_protocol carrier local_stream).accepts call packet = .ok response ↔
      (carrier.unwrap packet >>= read_abb_frame) = .ok response ∧
        response.info.byte_bus_id = call.msg.info.byte_bus_id := by
  constructor
  · intro h
    obtain ⟨frame, hframe, h⟩ := bind_ok_iff.1 h
    obtain ⟨hread, hbus⟩ := accept_frame_ok.1 h
    exact ⟨bind_ok_iff.2 ⟨frame, hframe, hread⟩, hbus⟩
  · rintro ⟨h, hbus⟩
    obtain ⟨frame, hframe, hread⟩ := bind_ok_iff.1 h
    exact bind_ok_iff.2 ⟨frame, hframe, accept_frame_ok.2 ⟨hread, hbus⟩⟩

/-- The RC server is such a server: it answers a request in a frame of its own this way. -/
theorem rc_server_serves {M : Type} {server : RcServer M} {stream : StreamId} {packet frame out : List UInt8}
    {request : AcfAbbMessage} (hpacket : carrier.unwrap packet = .ok frame)
    (hread : read_abb_frame frame = .ok request) (hrequests : requestsOf frame = .ok [request])
    (hout : (exec (RcServer.handle_ntscf_frame stream frame) server).1 = .ok out) (header : Header) :
    ∃ response, (abb_protocol carrier local_stream).serves packet response (carrier.wrap header out) := by
  rw [RcServer.single_request_spec server stream hrequests] at hout
  cases hanswer : answered request (request.response <$> server.reply stream request) with
  | error e =>
    rw [hanswer] at hout
    cases hout
  | ok o =>
    rw [hanswer] at hout
    obtain ⟨response, hencode, hto⟩ := answered_ok hanswer
    have hecho : RcServer.Echoes request response := by
      have hserved : AnswerTo request (exec (RcServer.handle_abb stream request) server).1 response := by
        rw [RcServer.handle_abb_spec]
        exact hto
      exact RcServer.answer_echoes hserved
    exact ⟨response, request, stream, server.sequence_num.toUInt8, header, out,
      bind_ok_iff.2 ⟨frame, hpacket, hread⟩, hecho, bind_ok_iff.2 ⟨o, hencode, hout⟩, rfl⟩

/-! ## A late response -/

/-- A request for bus 5, or the response to it. -/
def bus5 (transaction_num : UInt8) (rsp : Bool) : AcfAbbMessage :=
  { info := { byte_bus_id := 5, transaction_num, rsp } }

/-- The second of two calls has returned the response to the first, and the server none to its own request. -/
def Mismatched (s : State (AbbCall Header) (List UInt8) AcfAbbMessage RcpError) : Prop :=
  (s.calls.map fun call => call.msg.info.transaction_num) = [1, 2] ∧ (1, .ok (bus5 1 true).onWire) ∈ s.results ∧
    ∀ produced, (1, produced) ∉ s.answers

/-- The first of two calls for a bus times out, and the second gets the response to the first. -/
theorem late_response (carrier : Carrier Header) (header : Header) (d : Discipline (Nat × List UInt8)) :
    ∃ s, Reachable d (abb_protocol carrier ⟨#v[2, 0, 0, 0, 0, 1], 1⟩) s ∧ Mismatched s := by
  obtain ⟨first, hfirst⟩ : ∃ frame, abb_frame ⟨#v[2, 0, 0, 0, 0, 1], 1⟩ (bus5 1 false) 0 = .ok frame := ⟨_, rfl⟩
  obtain ⟨second, hsecond⟩ : ∃ frame, abb_frame ⟨#v[2, 0, 0, 0, 0, 1], 1⟩ (bus5 2 false) 1 = .ok frame := ⟨_, rfl⟩
  obtain ⟨reply, hreply⟩ : ∃ frame, abb_frame ⟨#v[2, 0, 0, 0, 0, 1], 1⟩ (bus5 1 true) 0 = .ok frame := ⟨_, rfl⟩
  have hread : (carrier.unwrap (carrier.wrap header reply) >>= read_abb_frame) = .ok (bus5 1 true).onWire :=
    bind_ok_iff.2 ⟨reply, carrier.unwrap_wrap header reply (abb_frame_ok hreply).2, (abb_frame_ok hreply).1⟩
  have hserve : (abb_protocol carrier ⟨#v[2, 0, 0, 0, 0, 1], 1⟩).serves (carrier.wrap header first) (bus5 1 true)
      (carrier.wrap header reply) := by
    refine ⟨(bus5 1 false).onWire, _, 0, header, reply, ?_, ⟨rfl, rfl⟩, hreply, rfl⟩
    exact bind_ok_iff.2 ⟨first, carrier.unwrap_wrap header first (abb_frame_ok hfirst).2, (abb_frame_ok hfirst).1⟩
  have hcall : (abb_protocol carrier ⟨#v[2, 0, 0, 0, 0, 1], 1⟩).sends ⟨bus5 1 false, 0, some 1, header⟩ =
      .ok (carrier.wrap header first) := bind_ok_iff.2 ⟨first, hfirst, rfl⟩
  have hnext : (abb_protocol carrier ⟨#v[2, 0, 0, 0, 0, 1], 1⟩).sends ⟨bus5 2 false, 1, some 1, header⟩ =
      .ok (carrier.wrap header second) := bind_ok_iff.2 ⟨second, hsecond, rfl⟩
  have haccept : (abb_protocol carrier ⟨#v[2, 0, 0, 0, 0, 1], 1⟩).accepts ⟨bus5 2 false, 1, some 1, header⟩
      (carrier.wrap header reply) = .ok (bus5 1 true).onWire := accepts_ok.2 ⟨hread, rfl⟩
  have hcalled := Reachable.start.step (.call (d := d) rfl hcall)
  have hexpired := hcalled.step (.expire rfl (show _ = [] ++ [_] from rfl) ⟨Option.some_ne_none 1, rfl⟩)
  have hwaiting := hexpired.step (.call rfl hnext)
  have hserved := hwaiting.step (.serve rfl hserve)
  have hreceived := hserved.step (.receive rfl (show _ = [_] ++ [_] from rfl) rfl)
  refine ⟨_, hreceived, rfl, ?_, ?_⟩
  · rw [haccept]
    simp
  · intro produced hproduced
    simp at hproduced

/-! ## Matching -/

/-- What a call returns is the server's answer to its own request or to that of an earlier call for
the same bus, and it is its own exactly when it carries the call's `transaction_num`. -/
theorem response_matching (carrier : Carrier Header) (local_stream : StreamId) (d : Discipline (Nat × List UInt8))
    {s : State (AbbCall Header) (List UInt8) AcfAbbMessage RcpError}
    (h : Reachable d (abb_protocol carrier local_stream) s)
    (hdistinct : (s.calls.map fun call => call.msg.info.transaction_num).Nodup) {m : Nat} {response : AcfAbbMessage}
    (hok : (m, .ok response) ∈ s.results) :
    ∃ call, s.calls[m]? = some call ∧
      (∃ n earlier produced, n ≤ m ∧ s.calls[n]? = some earlier ∧
        earlier.msg.info.byte_bus_id = call.msg.info.byte_bus_id ∧ (n, produced) ∈ s.answers ∧
        response = produced.onWire) ∧
      ((∃ produced, (m, produced) ∈ s.answers ∧ response = produced.onWire) ↔
        response.info.transaction_num = call.msg.info.transaction_num) := by
  have hkept := h.kept
  have hecho : ∀ (call : AbbCall Header) packet produced reply,
      (abb_protocol carrier local_stream).sends call = .ok packet →
      (abb_protocol carrier local_stream).serves packet produced reply →
      produced.info.transaction_num = call.msg.info.transaction_num :=
    fun call packet produced reply hsend hserve => (serves_echo hsend hserve).1.2
  obtain ⟨n, produced, reply, call, hle, hproduced, ⟨earlier, packet, hearlier, hsend, hserve⟩, hcall, haccepts⟩ :=
    hkept.accepted m response hok
  obtain ⟨⟨hbus, htransaction⟩, hreply⟩ := serves_echo hsend hserve
  obtain ⟨hread, haccepted⟩ := accepts_ok.1 haccepts
  obtain rfl : response = produced.onWire := Except.ok.inj (hread.symm.trans hreply)
  refine ⟨call, hcall, ⟨n, earlier, produced, hle, hearlier, hbus.symm.trans haccepted, hproduced, rfl⟩, ?_⟩
  constructor
  · rintro ⟨own, hown, heq⟩
    rw [heq]
    exact (hkept.own_iff hecho hdistinct hown hcall).1 rfl
  · intro hnum
    obtain rfl := (hkept.own_iff hecho hdistinct hproduced hcall).2 hnum
    exact ⟨produced, hproduced, rfl⟩

/-- What the second call has returned is an answer to a call for its bus, though not its own. -/
theorem response_matching_late :
    ∃ s, Reachable fifo (abb_protocol ShmBridge.carrier ⟨#v[2, 0, 0, 0, 0, 1], 1⟩) s ∧
      ∃ call, s.calls[1]? = some call ∧
        (∃ n earlier produced, n ≤ 1 ∧ s.calls[n]? = some earlier ∧
          earlier.msg.info.byte_bus_id = call.msg.info.byte_bus_id ∧ (n, produced) ∈ s.answers ∧
          (bus5 1 true).onWire = produced.onWire) ∧
        ((∃ produced, (1, produced) ∈ s.answers ∧ (bus5 1 true).onWire = produced.onWire) ↔
          (bus5 1 true).onWire.info.transaction_num = call.msg.info.transaction_num) := by
  obtain ⟨s, hreachable, hnums, hok, -⟩ := late_response ShmBridge.carrier () fifo
  exact ⟨s, hreachable, response_matching _ _ _ hreachable (by rw [hnums]; decide) hok⟩

/-- The late response is taken on every transport. -/
theorem late_response_taken :
    (∃ s, Reachable datagram (abb_protocol StdUdpSocket.carrier ⟨#v[2, 0, 0, 0, 0, 1], 1⟩) s ∧ Mismatched s) ∧
      (∃ s, Reachable datagram (abb_protocol L2Transport.carrier ⟨#v[2, 0, 0, 0, 0, 1], 1⟩) s ∧ Mismatched s) ∧
      ∃ s, Reachable fifo (abb_protocol ShmBridge.carrier ⟨#v[2, 0, 0, 0, 0, 1], 1⟩) s ∧ Mismatched s :=
  ⟨late_response _ 0 _, late_response _ (#v[2, 0, 0, 0, 0, 9], #v[2, 0, 0, 0, 0, 1]) _, late_response _ () _⟩

end RustRcp
