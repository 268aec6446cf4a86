import RustRcp.Serve
import RustRcp.AvtpCodec
import RustRcp.Transport
import RustRcp.Federation
/-!
# Calls over UDP

A client's `UdpTransport` and the loop of `cmd_serve`, with a network between them that
delivers every datagram. `remote_refines_desk` says that a run of calls is what the server's
`dispatch_request` makes of the messages at a desk, without transport, framing or loop; after
such a run a server can be discovered (`discovery_over_wire`).
-/
open Bytes Stateful

namespace RustRcp

variable {M : Type}

/-! ## The wire -/

/-- The loop of `cmd_serve` at a datagram, what it has served, and what waits at the client. -/
structure Link (M : Type) where
  server : UdpRcServer M Unit
  served : UInt32 := 0
  running : Bool := true
  inbox : List (List UInt8) := []

namespace Link

/-- A datagram arrives at the loop, which sends back what it sends back, or exits. -/
def deliver (now : Instant) (datagram : List UInt8) (self : Link M) : Link M :=
  if !self.running then self
  else match exec (UdpRcServer.serve_one ⟨datagram, (), now⟩ self.served.toUInt8 DISCOVERY_TIME_OUT) self.server with
    | (.ok _, server) =>
      let sent := server.socket.sent.drop self.server.socket.sent.length
      { self with server, served := self.served + 1, inbox := self.inbox ++ sent.map Prod.snd }
    | (.error _, server) => { self with server, running := false }

/-- The client's side: a datagram sent at some instant is delivered at once, and receiving does not wait for one that
will not come. -/
def os (now : Instant) : UdpSocket (Link M) Unit where
  send_to datagram _ := modify (deliver now datagram)
  recv_from _ := do
    match (← get).inbox with
    | datagram :: inbox =>
      modify fun self => { self with inbox }
      return (datagram, ())
    | [] => throw .Timeout

end Link

structure RemoteCall where
  msg : AcfAbbMessage
  sequence_num : UInt8
  timeout : Duration
  now : Instant

variable (stream : StreamId)

/-- A call of `send_acf_abb` by a client that has this stream; the socket's counter is beside the link. -/
def remotely (call : RemoteCall) : Stateful RcpError (UInt32 × Link M) AcfAbbMessage :=
  UdpTransport.send_acf_abb ⟨stream, StdUdpSocket.client (Link.os call.now), ()⟩ call.msg call.sequence_num
    (some call.timeout)

/-! ## At a desk -/

/-- The server without its socket and its loop, as long as it is there. -/
structure Desk (M : Type) where
  server : UdpRcServer M Unit
  running : Bool := true

/-- The response to a request that has been dispatched with some result, if a message has room for it. -/
def responseFor (request : AcfAbbMessage) (result : Except RcpError AcfAbbMessage) : Option AcfAbbMessage :=
  (match result with
    | .ok response => some response
    | .error e => build_error_response request.info e).filter fun response =>
      FitsLength (ACF_ABB_HEADER_LEN + response.payload.length)

/-- The message is dispatched as the wire would have it. One that has no response is the server's last. -/
def atDesk (call : RemoteCall) : Stateful RcpError (Desk M) AcfAbbMessage := do
  if call.timeout = 0 then throw .Timeout
  let _ ← MonadExcept.ofExcept (encode_acf_abb call.msg)
  let desk ← get
  if !desk.running then throw .Timeout
  let (result, server) :=
    exec (UdpRcServer.dispatch_request stream call.now DISCOVERY_TIME_OUT call.msg.onWire) desk.server
  match responseFor call.msg.onWire result with
  | some response => do
    set { desk with server }
    return response.onWire
  | none => do
    set { server, running := false : Desk M }
    throw .Timeout

/-- All of a server but its socket. -/
def UdpRcServer.offline (self : UdpRcServer M Unit) : UdpRcServer M Unit := { self with socket := {} }

/-- The client has nothing waiting, and the server is the desk's. -/
structure Mirrors (link : Link M) (desk : Desk M) : Prop where
  server : link.server.offline = desk.server.offline
  running : link.running = desk.running
  inbox : link.inbox = []

/-! ## One call -/

variable {stream}

/-- What a message has room for, a frame has room for. -/
theorem encodedLength_le {n : Nat} (h : FitsLength (ACF_ABB_HEADER_LEN + n)) :
    encodedLength n ≤ NTSCF_DATA_LENGTH_MAX.toNat := by
  have hquadlets : quadlets (ACF_ABB_HEADER_LEN + n) ≤ 511 := h
  have hmul := quadlets_mul (ACF_ABB_HEADER_LEN + n)
  have hmax : NTSCF_DATA_LENGTH_MAX.toNat = 2047 := rfl
  have hquadlet : QUADLET_LEN = 4 := rfl
  rw [encodedLength, hmax, ← hmul, hquadlet]
  omega

variable (stream) in
/-- The socket has nothing to do with it. -/
theorem dispatch_offline {u v : UdpRcServer M Unit} (h : u.offline = v.offline) (now : Instant)
    (request : AcfAbbMessage) :
    let after := exec (UdpRcServer.dispatch_request stream now DISCOVERY_TIME_OUT request)
    (after u).1 = (after v).1 ∧ (after u).2.offline = (after v).2.offline := by
  obtain ⟨local_stream, socket, server, claim⟩ := u
  obtain ⟨local_stream', socket', server', claim'⟩ := v
  cases h
  intro after
  simp only [after, UdpRcServer.dispatch_spec]
  split_ifs <;> exact ⟨rfl, rfl⟩

/-- The response is what the loop would encode. -/
theorem responseFor_spec {u u' : UdpRcServer M Unit} {now : Instant} {request : AcfAbbMessage}
    {result : Except RcpError AcfAbbMessage} (hrequest : request.info.FieldsFit)
    (hexec : exec (UdpRcServer.dispatch_request stream now DISCOVERY_TIME_OUT request) u = (result, u')) :
    match responseFor request result with
    | some m => ∃ bytes, answered request result = .ok bytes ∧ encode_acf_abb m = .ok bytes ∧
      bytes.length ≤ NTSCF_DATA_LENGTH_MAX.toNat ∧ m.info.byte_bus_id = request.info.byte_bus_id
    | none => ∃ e, answered request result = .error e := by
  have hfirst : (exec (UdpRcServer.dispatch_request stream now DISCOVERY_TIME_OUT request) u).1 = result :=
    congrArg Prod.fst hexec
  have hdispatched : ∀ m, result = .ok m → m.info.FieldsFit := fun m hm =>
    UdpRcServer.fieldsKept_dispatch_request stream now DISCOVERY_TIME_OUT u request m hrequest (hfirst.trans hm)
  have hencodes {m : AcfAbbMessage} (hanswer : AnswerTo request result m) (hfields : m.info.FieldsFit)
      (hfits : FitsLength (ACF_ABB_HEADER_LEN + m.payload.length)) :
      ∃ bytes, encode_acf_abb m = .ok bytes ∧ bytes.length ≤ NTSCF_DATA_LENGTH_MAX.toNat ∧
        m.info.byte_bus_id = request.info.byte_bus_id := by
    have hencode := encode_acf_abb_ok.2 ⟨hfits, hfields, rfl⟩
    exact ⟨_, hencode, (encoded_length hencode).trans_le (encodedLength_le hfits),
      UdpRcServer.answer_addressed (hfirst ▸ hanswer)⟩
  unfold responseFor
  cases hresult : result with
  | ok m =>
    by_cases hfits : FitsLength (ACF_ABB_HEADER_LEN + m.payload.length)
    · obtain ⟨bytes, hencode, hrest⟩ := hencodes (.inl hresult) (hdispatched m hresult) hfits
      simp only [Option.filter, decide_eq_true hfits, if_true]
      exact ⟨bytes, hencode, hencode, hrest⟩
    · simp only [Option.filter, decide_eq_false hfits]
      exact ⟨_, encode_acf_abb_error fun hboth => hfits hboth.1⟩
  | error e =>
    cases hbuild : build_error_response request.info e with
    | none => simp [Option.filter, answered, hbuild]
    | some m =>
      obtain ⟨hinfo, hlen⟩ := error_response_fields hbuild
      have hfits : FitsLength (ACF_ABB_HEADER_LEN + m.payload.length) := by
        rw [hlen]
        decide
      have hfields : m.info.FieldsFit := by
        rw [hinfo]
        exact ⟨hrequest.1, hrequest.2, hrequest.3⟩
      obtain ⟨bytes, hencode, hrest⟩ := hencodes (.inr ⟨e, hresult, hbuild⟩) hfields hfits
      simp only [Option.filter, decide_eq_true hfits, if_true, answered, hbuild]
      exact ⟨bytes, hencode, hencode, hrest⟩

/-- A message that has been encoded is the one request of the datagram that carries it. -/
theorem requests_of_frame {msg : AcfAbbMessage} {sequence_num : UInt8} {frame : List UInt8} {seq : UInt32}
    (h : abb_frame stream msg sequence_num = .ok frame) (now : Instant) :
    Arrival.requests ⟨StdUdpSocket.carrier.wrap seq frame, (), now⟩ = .ok (stream, [msg.onWire]) := by
  obtain ⟨payload, hpayload, hframe⟩ := bind_ok_iff.1 h
  obtain ⟨hdr, hdecode, -, hstream, -⟩ := decode_encode_ntscf_frame hframe
  have hmessages : decode_acf_abb_messages payload = .ok [msg.onWire] := by
    have hone := decode_messages_encoded (List.cons_ne_nil msg []) (.cons hpayload .nil)
    simpa using hone
  have hunwrap := StdUdpSocket.carrier.unwrap_wrap seq frame (abb_frame_ok h).2
  obtain ⟨⟨seq', avtpdu⟩, hannex, hunwrap⟩ := bind_ok_iff.1 hunwrap
  cases hunwrap
  have hrecv : StdUdpSocket.recv_from ⟨StdUdpSocket.carrier.wrap seq frame, (), now⟩ = .ok (frame, ()) :=
    bind_ok_iff.2 ⟨_, hannex, rfl⟩
  refine bind_ok_iff.2 ⟨_, hrecv, bind_ok_iff.2 ⟨_, hdecode, bind_ok_iff.2 ⟨_, hmessages, ?_⟩⟩⟩
  rw [hstream]
  rfl

/-- One request is a batch of one. -/
theorem collect_one {S : Type} (dispatch : AcfAbbMessage → Stateful RcpError S AcfAbbMessage) (request : AcfAbbMessage)
    (s : S) : exec (collect (answer dispatch) [request] []) s =
      (answered request (exec (dispatch request) s).1, (exec (dispatch request) s).2) := by
  rw [exec_collect_cons, exec_answer]
  cases answered request (exec (dispatch request) s).1 <;> rfl

/-- What the loop makes of such a datagram: the server is as after a dispatch, and a response comes back if there is
one. -/
theorem deliver_spec {link : Link M} {u : UdpRcServer M Unit} {msg : AcfAbbMessage} {sequence_num : UInt8}
    {frame : List UInt8} (seq : UInt32) {now : Instant} {result : Except RcpError AcfAbbMessage}
    (hframe : abb_frame stream msg sequence_num = .ok frame) (hfits : msg.onWire.info.FieldsFit)
    (hrunning : link.running = true)
    (hexec : exec (UdpRcServer.dispatch_request stream now DISCOVERY_TIME_OUT msg.onWire) link.server = (result, u)) :
    (link.deliver now (StdUdpSocket.carrier.wrap seq frame)).server.offline = u.offline ∧
      match responseFor msg.onWire result with
      | some m => m.info.byte_bus_id = msg.onWire.info.byte_bus_id ∧
        (link.deliver now (StdUdpSocket.carrier.wrap seq frame)).running = true ∧
        ∃ out header, out.length ≤ 2059 ∧ read_abb_frame out = .ok m.onWire ∧
          (link.deliver now (StdUdpSocket.carrier.wrap seq frame)).inbox =
            link.inbox ++ [StdUdpSocket.carrier.wrap header out]
      | none => (link.deliver now (StdUdpSocket.carrier.wrap seq frame)).running = false ∧
        (link.deliver now (StdUdpSocket.carrier.wrap seq frame)).inbox = link.inbox := by
  have hserve := UdpRcServer.serve_one_eq link.server ⟨StdUdpSocket.carrier.wrap seq frame, (), now⟩
    link.served.toUInt8 DISCOVERY_TIME_OUT
  rw [requests_of_frame hframe now] at hserve
  simp only [collect_one, hexec] at hserve
  have hresponse := responseFor_spec hfits hexec
  cases hcase : responseFor msg.onWire result with
  | none =>
    rw [hcase] at hresponse
    obtain ⟨e, he⟩ := hresponse
    simp only [he] at hserve
    simp [Link.deliver, hrunning, hserve]
  | some m =>
    rw [hcase] at hresponse
    obtain ⟨bytes, hbytes, hencode, hlen, hbus⟩ := hresponse
    have hout : encode_ntscf_frame u.local_stream link.served.toUInt8 bytes = .ok _ := encode_ntscf_frame_ok hlen
    have hsocket : u.socket = link.server.socket := by
      have hsteady := (UdpRcServer.dispatched_standing stream now DISCOVERY_TIME_OUT link.server msg.onWire).1
      rw [dispatched, hexec] at hsteady
      exact hsteady.socket
    obtain ⟨hread, hshort⟩ := abb_frame_ok (bind_ok_iff.2 ⟨bytes, hencode, hout⟩)
    simp only [hbytes, hout] at hserve
    refine ⟨?_, hbus, ?_, _, u.socket.send_seq, hshort, hread, ?_⟩
    · simp [Link.deliver, hrunning, hserve, UdpRcServer.offline]
    · simp [Link.deliver, hrunning, hserve]
    · simp only [Link.deliver, hrunning, hserve, StdUdpSocket.send_to, hsocket]
      simp [StdUdpSocket.carrier]

variable (stream) in
/-- A call from the client's side: a datagram out, and one in if any has come back. -/
theorem remotely_spec (call : RemoteCall) (seq : UInt32) (link : Link M) :
    ∃ seq', exec (remotely stream call) (seq, link) =
      match request_frame stream call.msg call.sequence_num (some call.timeout) with
      | .error e => (.error e, seq', link)
      | .ok frame =>
        let left := link.deliver call.now (StdUdpSocket.carrier.wrap seq frame)
        match left.inbox with
        | [] => (.error .Timeout, seq', left)
        | packet :: inbox =>
          (StdUdpSocket.carrier.unwrap packet >>= accept_frame call.msg, seq', { left with inbox }) := by
  obtain ⟨seq', h⟩ := UdpTransport.send_acf_abb_eq stream (Link.os call.now) () call.msg call.sequence_num
    (some call.timeout) seq link
  refine ⟨seq', h.trans ?_⟩
  rw [send_acf_abb_spec]
  cases request_frame stream call.msg call.sequence_num (some call.timeout) with
  | error e => rfl
  | ok frame =>
    simp only [UdpSocket.wire, Link.os, exec_bind, exec_modify, exec_get]
    cases hinbox : (link.deliver call.now (StdUdpSocket.carrier.wrap seq frame)).inbox with
    | nil => simp
    | cons packet inbox => simp

variable (stream) in
/-- What has a message has a frame: a call is sent unless its timeout is none or its message does not fit. -/
theorem request_frame_cases (call : RemoteCall) :
    (call.timeout = 0 ∧ request_frame stream call.msg call.sequence_num (some call.timeout) = .error .Timeout) ∨
    call.timeout ≠ 0 ∧
      ((∃ e, encode_acf_abb call.msg = .error e ∧
        request_frame stream call.msg call.sequence_num (some call.timeout) = .error e) ∨
      ∃ payload frame, encode_acf_abb call.msg = .ok payload ∧ call.msg.onWire.info.FieldsFit ∧
        abb_frame stream call.msg call.sequence_num = .ok frame ∧
        request_frame stream call.msg call.sequence_num (some call.timeout) = .ok frame) := by
  rw [request_frame]
  by_cases htimeout : call.timeout = 0
  · exact .inl ⟨htimeout, by simp [htimeout]⟩
  refine .inr ⟨htimeout, ?_⟩
  rw [if_neg (fun h => htimeout (Option.some.inj h)), abb_frame]
  cases hencode : encode_acf_abb call.msg with
  | error e => exact .inl ⟨e, rfl, rfl⟩
  | ok payload =>
    obtain ⟨hfits, hfields, -⟩ := encode_acf_abb_ok.1 hencode
    have hlen := (encoded_length hencode).trans_le (encodedLength_le hfits)
    have hframe : encode_ntscf_frame stream call.sequence_num payload = .ok _ := encode_ntscf_frame_ok hlen
    exact .inr ⟨payload, _, rfl, ⟨hfields.1, hfields.2, hfields.3⟩, hframe, hframe⟩

/-- A call that is sent to a server that is there. -/
theorem atDesk_spec {call : RemoteCall} {desk : Desk M} {payload : List UInt8} {u : UdpRcServer M Unit}
    {result : Except RcpError AcfAbbMessage} (htimeout : call.timeout ≠ 0)
    (hencode : encode_acf_abb call.msg = .ok payload) (hrunning : desk.running = true)
    (hexec : exec (UdpRcServer.dispatch_request stream call.now DISCOVERY_TIME_OUT call.msg.onWire) desk.server =
      (result, u)) :
    exec (atDesk stream call) desk = match responseFor call.msg.onWire result with
      | some response => (.ok response.onWire, { desk with server := u })
      | none => (.error .Timeout, ⟨u, false⟩) := by
  simp only [atDesk, htimeout, if_false, hencode, exec_bind, exec_ofExcept, exec_get, hrunning, hexec,
    Bool.not_true, Bool.false_eq_true]
  cases responseFor call.msg.onWire result <;> simp [exec_bind]

variable (stream) in
/-- A call over the wire comes to what it comes to at the desk. -/
theorem remote_step (call : RemoteCall) (seq : UInt32) {link : Link M} {desk : Desk M} (h : Mirrors link desk) :
    ∃ seq' link' desk' result, exec (remotely stream call) (seq, link) = (result, seq', link') ∧
      exec (atDesk stream call) desk = (result, desk') ∧ Mirrors link' desk' := by
  obtain ⟨seq', hremote⟩ := remotely_spec stream call seq link
  rcases request_frame_cases stream call with ⟨hzero, hsent⟩ | ⟨htimeout, ⟨e, hencode, hsent⟩ |
    ⟨payload, frame, hencode, hfits, hframe, hsent⟩⟩
  · rw [hsent] at hremote
    exact ⟨seq', link, desk, _, hremote, by simp [atDesk, hzero], h⟩
  · rw [hsent] at hremote
    exact ⟨seq', link, desk, _, hremote, by simp [atDesk, htimeout, hencode, exec_bind], h⟩
  rw [hsent] at hremote
  cases hrunning : desk.running with
  | false =>
    -- nobody is there to answer
    have hleft : link.deliver call.now (StdUdpSocket.carrier.wrap seq frame) = link := by
      simp [Link.deliver, h.running, hrunning]
    simp only [hleft, h.inbox] at hremote
    exact ⟨seq', link, desk, _, hremote, by simp [atDesk, htimeout, hencode, exec_bind, hrunning], h⟩
  | true =>
    obtain ⟨hresult, hoffline⟩ := dispatch_offline stream h.server call.now call.msg.onWire
    rcases hlink : exec (UdpRcServer.dispatch_request stream call.now DISCOVERY_TIME_OUT call.msg.onWire) link.server
      with ⟨result, u⟩
    rcases hdesk : exec (UdpRcServer.dispatch_request stream call.now DISCOVERY_TIME_OUT call.msg.onWire) desk.server
      with ⟨result', u'⟩
    rw [hlink, hdesk] at hresult hoffline
    obtain rfl : result = result' := hresult
    obtain ⟨hserver, hdeliver⟩ := deliver_spec seq hframe hfits (h.running.trans hrunning) hlink
    have hatDesk := atDesk_spec htimeout hencode hrunning hdesk
    cases hresponse : responseFor call.msg.onWire result with
    | none =>
      rw [hresponse] at hdeliver hatDesk
      obtain ⟨hstopped, hinbox⟩ := hdeliver
      simp only [hinbox, h.inbox] at hremote
      exact ⟨seq', _, _, _, hremote, hatDesk, ⟨hserver.trans hoffline, hstopped, hinbox.trans h.inbox⟩⟩
    | some m =>
      rw [hresponse] at hdeliver hatDesk
      obtain ⟨hbus, hstays, out, header, hshort, hread, hinbox⟩ := hdeliver
      have haccept : (StdUdpSocket.carrier.unwrap (StdUdpSocket.carrier.wrap header out) >>= accept_frame call.msg) =
          .ok m.onWire :=
        bind_ok_iff.2 ⟨out, StdUdpSocket.carrier.unwrap_wrap header out hshort, accept_frame_ok.2 ⟨hread, hbus⟩⟩
      simp only [hinbox, h.inbox, List.nil_append, haccept] at hremote
      exact ⟨seq', _, _, _, hremote, hatDesk, ⟨hserver.trans hoffline, hstays.trans hrunning.symm, rfl⟩⟩

/-! ## Runs -/

section
variable {σ : Type} (serve : RemoteCall → Stateful RcpError σ AcfAbbMessage)

/-- What the calls of a run return, and what they leave. -/
def runCalls : List RemoteCall → σ → List (Except RcpError AcfAbbMessage) × σ
  | [], s => ([], s)
  | call :: calls, s =>
    let (result, s) := exec (serve call) s
    let (results, s) := runCalls calls s
    (result :: results, s)

end

theorem remote_run (calls : List RemoteCall) (seq : UInt32) {link : Link M} {desk : Desk M} (h : Mirrors link desk) :
    (runCalls (remotely stream) calls (seq, link)).1 = (runCalls (atDesk stream) calls desk).1 ∧
      Mirrors (runCalls (remotely stream) calls (seq, link)).2.2 (runCalls (atDesk stream) calls desk).2 := by
  induction calls generalizing seq link desk with
  | nil => exact ⟨rfl, h⟩
  | cons call calls ih =>
    obtain ⟨seq', link', desk', result, hremote, hdesk, hmirrors⟩ := remote_step stream call seq h
    obtain ⟨hresults, hleft⟩ := ih seq' hmirrors
    simp only [runCalls, hremote, hdesk]
    exact ⟨congrArg (result :: ·) hresults, hleft⟩

/-- Over the wire a run of calls returns what it returns at the desk, call by call, and leaves the server as it is
left there. -/
theorem remote_refines_desk (stream : StreamId) (server : UdpRcServer M Unit) (served seq : UInt32) (running : Bool)
    (calls : List RemoteCall) :
    (runCalls (remotely stream) calls (seq, ⟨server, served, running, []⟩)).1 =
        (runCalls (atDesk stream) calls ⟨server, running⟩).1 ∧
      Mirrors (runCalls (remotely stream) calls (seq, ⟨server, served, running, []⟩)).2.2
        (runCalls (atDesk stream) calls ⟨server, running⟩).2 :=
  remote_run calls seq ⟨rfl, rfl, rfl⟩

/-! ## Discovery -/

variable (stream) in
/-- The registers of a server can be read under any stream, and at any time. -/
theorem discover_atDesk {desk : Desk M} (hrunning : desk.running = true) {call : RemoteCall} {transaction_num : UInt8}
    (hmsg : call.msg = build_discovery_request transaction_num) (htimeout : call.timeout ≠ 0) :
    ∃ response, exec (atDesk stream call) desk = (.ok response, desk) ∧
      GeneralRegisters.decode response.payload = .ok desk.server.server.general := by
  have hrequest : is_discovery_request call.msg.onWire = true := by
    rw [hmsg]
    rfl
  have hdispatch := UdpRcServer.dispatch_spec stream call.now DISCOVERY_TIME_OUT desk.server call.msg.onWire
  rw [if_pos hrequest] at hdispatch
  have hencode : ∃ payload, encode_acf_abb call.msg = .ok payload := by
    have hfits : FitsLength (ACF_ABB_HEADER_LEN + DISCOVERY_REGISTER_ADDRESS_LEN) := by decide
    have hdefault : ({} : ByteMessageInfo).FieldsFit := by constructor <;> decide
    rw [hmsg]
    exact ⟨_, encode_acf_abb_ok.2 ⟨hfits, ⟨hdefault.1, hdefault.2, hdefault.3⟩, rfl⟩⟩
  obtain ⟨payload, hencode⟩ := hencode
  have hspec := atDesk_spec htimeout hencode hrunning hdispatch
  have hfits : FitsLength (ACF_ABB_HEADER_LEN + desk.server.server.general.encode.length) := by
    rw [GeneralRegisters.encode_length]
    decide
  simp only [responseFor, Option.filter, decide_eq_true hfits, if_true] at hspec
  exact ⟨_, hspec, GeneralRegisters.decode_encode_alone _⟩

namespace DiscoveryCache
variable (cache : DiscoveryCache) {id : StreamId} (hid : is_discovery_broadcast_stream_id id = false)
  (general : GeneralRegisters) (now : Instant)

include hid in
theorem lookup_remembered (other : StreamId) :
    (exec (remember id general now) cache).2.lookup other =
      if other = id then some (.from_general_registers general now) else cache.lookup other := by
  rw [remember_spec, hid, lookup, lookup]
  by_cases h : other = id
  · subst h
    simp [AList.lookup_insert]
  · simp [AList.lookup_insert_ne h, h]

end DiscoveryCache

theorem matches_remembered {general general' : GeneralRegisters} {now : Instant} :
    (DiscoveryCacheEntry.from_general_registers general now).matches general' = true ↔
      DiscoveryCacheEntry.from_general_registers general' now = .from_general_registers general now := by
  simp only [DiscoveryCacheEntry.matches, DiscoveryCacheEntry.from_general_registers, Bool.and_eq_true, beq_iff_eq,
    and_assoc, DiscoveryCacheEntry.mk.injEq, and_true]
  constructor
  · rintro ⟨hmagic, hversion, hvendor, hdevice, hcount⟩
    exact ⟨hmagic.symm, hversion.symm, hvendor.symm, hdevice.symm, hcount.symm⟩
  · rintro ⟨hmagic, hversion, hvendor, hdevice, hcount⟩
    exact ⟨hmagic.symm, hversion.symm, hvendor.symm, hdevice.symm, hcount.symm⟩

/-- What a client has of a server whose registers it has read and remembered. -/
structure Discovered (cache : DiscoveryCache) (id : StreamId) (general : GeneralRegisters) (now : Instant) : Prop where
  entry : cache.lookup id = some (.from_general_registers general now)
  /-- It is taken for the same server as long as it identifies itself alike. -/
  identity : ∀ entry general', cache.lookup id = some entry →
    (entry.matches general' = true ↔ DiscoveryCacheEntry.from_general_registers general' now = entry)
  /-- And known until it is too old. -/
  known : ∀ later max_age, cache.is_known id later max_age = true ↔ later - now < max_age

/-- After any run of calls over the wire that has not stopped the server, a discovery over the wire, under whatever
stream, changes nothing and finds the registers as the run has left them, which a cache then has. -/
theorem discovery_over_wire (stream stream' : StreamId) (server : UdpRcServer M Unit) (seq : UInt32)
    (calls : List RemoteCall) (call : RemoteCall) (transaction_num : UInt8) (cache : DiscoveryCache) (id : StreamId) :
    let desk := (runCalls (atDesk stream) calls ⟨server, true⟩).2
    let link := (runCalls (remotely stream) calls (seq, ⟨server, 0, true, []⟩)).2
    desk.running = true → call.msg = build_discovery_request transaction_num → call.timeout ≠ 0 →
    is_discovery_broadcast_stream_id id = false →
    ∃ response general seq' link', exec (remotely stream' call) link = (.ok response, seq', link') ∧
      Mirrors link' desk ∧ general = desk.server.server.general ∧
      GeneralRegisters.decode response.payload = .ok general ∧
      Discovered (exec (DiscoveryCache.remember id general call.now) cache).2 id general call.now := by
  intro desk link hrunning hmsg htimeout hid
  have hmirrors : Mirrors link.2 desk := (remote_refines_desk stream server 0 seq true calls).2
  obtain ⟨seq', link', desk', result, hremote, hdesk, hleft⟩ :=
    remote_step stream' call link.1 hmirrors
  obtain ⟨response, hdiscover, hdecode⟩ := discover_atDesk stream' hrunning hmsg htimeout
  rw [hdiscover] at hdesk
  cases hdesk
  have hlookup := DiscoveryCache.lookup_remembered cache hid desk.server.server.general call.now id
  rw [if_pos rfl] at hlookup
  refine ⟨response, _, seq', link', hremote, hleft, rfl, hdecode, hlookup, ?_, ?_⟩
  · intro entry general' hentry
    rw [hlookup] at hentry
    cases hentry
    exact matches_remembered
  · intro later max_age
    rw [DiscoveryCache.lookup] at hlookup
    simp [DiscoveryCache.is_known, hlookup, DiscoveryCacheEntry.is_stale, DiscoveryCacheEntry.from_general_registers]

/-- The root client writes a register image over the wire, and the server is discovered under the broadcast stream
with the vendor it names. -/
theorem discovery_over_wire_written :
    let root : StreamId := ⟨#v[2, 0, 0, 0, 0, 1], 1⟩
    let written : GeneralRegisters := { svr_oa_tc18_magic_nr := 0x4F415443, svr_vendor_id := 0x1234 }
    let server : UdpRcServer Heap Unit :=
      .new ⟨#v[2, 0, 0, 0, 0, 9], 9⟩ ((RcServer.new {} []).set_root_client (some root))
    let write : RemoteCall := ⟨{ info := { op := true }, payload := written.encode }, 0, 1, 5⟩
    ∃ response, (exec (remotely DISCOVERY_BROADCAST_STREAM_ID ⟨build_discovery_request 7, 0, 1, 6⟩)
        (runCalls (remotely root) [write] (0, ⟨server, 0, true, []⟩)).2).1 = .ok response ∧
      GeneralRegisters.decode response.payload = .ok written := by
  intro root written server write
  obtain ⟨response, general, seq', link', hremote, -, hgeneral, hdecode, -⟩ :=
    discovery_over_wire root DISCOVERY_BROADCAST_STREAM_ID server 0 [write] ⟨build_discovery_request 7, 0, 1, 6⟩ 7 .new
      ⟨#v[2, 0, 0, 0, 0, 9], 9⟩ (by decide +kernel) rfl (by decide) (by decide)
  have hwritten : (runCalls (atDesk root) [write] ⟨server, true⟩).2.server.server.general = written := by decide +kernel
  refine ⟨response, by rw [hremote], ?_⟩
  rw [hdecode, hgeneral, hwritten]

end RustRcp
