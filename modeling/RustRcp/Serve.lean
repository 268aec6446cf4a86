import RustRcp.Udp
import RustRcp.ServerBatch
/-!
# Serving datagrams

A datagram the server can answer is answered to its sender (`serve_one_ok`), any
other fails and sends nothing (`serve_one_error`). The loop goes on as it should
exactly as long as it meets no datagram of the second kind (`loop_survives_iff`).
-/
open Stateful

namespace RustRcp

/-- The requests of a datagram, with the stream they come under. -/
def Arrival.requests {Peer : Type} (arrival : Arrival Peer) : Except RcpError (StreamId × List AcfAbbMessage) := do
  let (frame, _peer_addr) ← StdUdpSocket.recv_from arrival
  let (hdr, acf_bytes) ← decode_ntscf_frame frame
  return (StreamId.from_u64 hdr.stream_id, ← decode_acf_abb_messages acf_bytes)

namespace UdpRcServer
variable {M Peer : Type}

/-! ## One request -/

section Request
variable (stream : StreamId) (now : Instant) (timeout : Duration)

/-- A configure request under `stream` gets the discovery stream. -/
def granted (claim : Option DiscoveryClaim) : Bool :=
  !is_discovery_broadcast_stream_id stream && claim_permits claim stream now timeout

/-- What a request changes that later answers depend on: the claim, and the endpoints' memory. -/
def standing (self : UdpRcServer M Peer) : Option DiscoveryClaim × M := (self.discovery_claim, self.server.memory)

/-- The claim and the memory after a request. -/
def touched (self : UdpRcServer M Peer) (standing : Option DiscoveryClaim × M) (request : AcfAbbMessage) :
    Option DiscoveryClaim × M :=
  if is_discovery_request request then standing
  else if is_discovery_configure_request request then
    (if granted stream now timeout standing.1 then some { claimant := stream, claimed_at := now } else standing.1,
      standing.2)
  else if is_discovery_broadcast_stream_id stream then standing
  else (standing.1, self.server.touched stream standing.2 request)

/-- Octets of the answer to a request that meets this claim and this memory. -/
def replyOctets (self : UdpRcServer M Peer) (standing : Option DiscoveryClaim × M) (request : AcfAbbMessage) :
    Option Nat :=
  if is_discovery_request request then some (encodedLength GeneralRegisters.ENCODED_LEN)
  else if is_discovery_configure_request request then
    some (encodedLength (if granted stream now timeout standing.1 then 0 else 1))
  else if is_discovery_broadcast_stream_id stream then some (encodedLength 1)
  else self.server.replyOctets stream standing.2 request

/-- The error of a configure request that is not granted. -/
def refusal : RcpError := if is_discovery_broadcast_stream_id stream then .InvalidParameter else .UnauthorizedAccess

theorem refusal_coded : (refusal stream).tc18_wire_code.isSome = true := by
  unfold refusal
  split <;> rfl

theorem claim_spec (self : UdpRcServer M Peer) :
    exec (claim_discovery_stream stream now timeout) self =
      if granted stream now timeout self.discovery_claim then
        (.ok (), { self with discovery_claim := some { claimant := stream, claimed_at := now } })
      else (.error (refusal stream), self) := by
  unfold claim_discovery_stream granted refusal check_discovery_access try_claim_discovery_stream
  by_cases hbroadcast : is_discovery_broadcast_stream_id stream = true
  · simp [exec_bind, hbroadcast]
  · by_cases hpermits : claim_permits self.discovery_claim stream now timeout = true
    · simp [exec_bind, hbroadcast, hpermits]
    · simp [exec_bind, hbroadcast, hpermits]

theorem discovery_response (request : ByteMessageInfo) (state : RcServerState) (general : GeneralRegisters) :
    build_discovery_response request state general =
      .ok { info := build_response_info request {}, payload := general.encode } := by
  cases state <;> rfl

theorem dispatch_spec (self : UdpRcServer M Peer) (request : AcfAbbMessage) :
    exec (dispatch_request stream now timeout request) self =
      if is_discovery_request request then
        (.ok { info := build_response_info request.info {}, payload := self.server.general.encode }, self)
      else if is_discovery_configure_request request then
        if granted stream now timeout self.discovery_claim then
          (.ok { info := build_response_info request.info {}, payload := [] },
            { self with discovery_claim := some { claimant := stream, claimed_at := now } })
        else (.error (refusal stream), self)
      else if is_discovery_broadcast_stream_id stream then (.error .InvalidParameter, self)
      else
        (request.response <$> self.server.reply stream request,
          { self with server := self.server.settled stream request }) := by
  unfold dispatch_request
  by_cases hread : is_discovery_request request = true
  · simp [exec_bind, hread, check_discovery_access, discovery_response]
  · by_cases hconf : is_discovery_configure_request request = true
    · by_cases hgranted : granted stream now timeout self.discovery_claim = true
      · simp [hread, hconf, claim_spec, hgranted]
      · simp [hread, hconf, claim_spec, hgranted]
    · by_cases hbroadcast : is_discovery_broadcast_stream_id stream = true
      · simp [hread, hconf, hbroadcast]
      · simp [hread, hconf, hbroadcast, RcServer.handle_abb_spec]

/-- The parts of the server no request changes. -/
structure Steady (u t : UdpRcServer M Peer) : Prop where
  service : RcServer.SameService u.server t.server
  local_stream : t.local_stream = u.local_stream
  socket : t.socket = u.socket

theorem steady_refl (u : UdpRcServer M Peer) : Steady u u := ⟨RcServer.sameService_refl _, rfl, rfl⟩

theorem Steady.trans {u t v : UdpRcServer M Peer} (h : Steady u t) (h' : Steady t v) : Steady u v where
  service := ⟨h'.service.1.trans h.service.1, h'.service.2.trans h.service.2, h'.service.3.trans h.service.3⟩
  local_stream := h'.2.trans h.2
  socket := h'.3.trans h.3

theorem Steady.touched {stream : StreamId} {now : Instant} {timeout : Duration} {u t : UdpRcServer M Peer}
    (h : Steady u t) :
    t.touched stream now timeout = u.touched stream now timeout := by
  funext standing request
  simp only [UdpRcServer.touched, h.service.touched]

theorem Steady.replyOctets {stream : StreamId} {now : Instant} {timeout : Duration} {u t : UdpRcServer M Peer}
    (h : Steady u t) :
    t.replyOctets stream now timeout = u.replyOctets stream now timeout := by
  funext standing request
  simp only [UdpRcServer.replyOctets, h.service.replyOctets]

/-- One request, seen by the claim and the memory. -/
theorem dispatched_standing (u : UdpRcServer M Peer) (request : AcfAbbMessage) :
    Steady u (dispatched (dispatch_request stream now timeout) u request) ∧
      (dispatched (dispatch_request stream now timeout) u request).standing =
        u.touched stream now timeout u.standing request := by
  rw [dispatched, dispatch_spec]
  unfold UdpRcServer.touched standing
  -- a grant changes the claim, and only what is passed on to the server its memory
  split_ifs with hread hconf hgranted hbroadcast
  · exact ⟨steady_refl u, rfl⟩
  · exact ⟨⟨RcServer.sameService_refl _, rfl, rfl⟩, rfl⟩
  · exact ⟨steady_refl u, rfl⟩
  · exact ⟨steady_refl u, rfl⟩
  · exact ⟨⟨⟨rfl, rfl, rfl⟩, rfl, rfl⟩, rfl⟩

theorem octets_dispatch_request (u : UdpRcServer M Peer) (request : AcfAbbMessage) :
    octets (dispatch_request stream now timeout) u request = u.replyOctets stream now timeout u.standing request := by
  have hread : FitsLength (ACF_ABB_HEADER_LEN + GeneralRegisters.ENCODED_LEN) := by decide
  have hdone : FitsLength (ACF_ABB_HEADER_LEN + ([] : List UInt8).length) := by decide
  rw [octets, dispatch_spec]
  unfold UdpRcServer.replyOctets standing
  split_ifs with hread' hconf hgranted hbroadcast
  · simp only [ok_map, answerOctets, GeneralRegisters.encode_length]
    exact if_pos hread
  · exact if_pos hdone
  · exact if_pos (refusal_coded stream)
  · rfl
  · rw [← RcServer.octets_handle_abb, octets, RcServer.handle_abb_spec]

theorem fieldsKept_dispatch_request :
    FieldsKept (dispatch_request stream now timeout : AcfAbbMessage → Stateful RcpError (UdpRcServer M Peer) _) := by
  intro u request m hf hm
  have hinfo : (build_response_info request.info {}).FieldsFit := by
    have hdefault : ({} : ByteMessageInfo).FieldsFit := by constructor <;> decide
    exact ⟨hf.byte_bus_id, hdefault.sub_opcode, hdefault.read_size_segment⟩
  rw [dispatch_spec] at hm
  split_ifs at hm
  · cases hm
    exact hinfo
  · cases hm
    exact hinfo
  · have hserver : (exec (RcServer.handle_abb stream request) u.server).1 = .ok m := by
      rw [RcServer.handle_abb_spec]
      exact hm
    exact RcServer.fieldsKept_handle_abb stream u.server request m hf hserver

/-- To a batch the server is the claim and the endpoints' memory. -/
theorem summed_dispatch_request (u : UdpRcServer M Peer) :
    Summed (dispatch_request stream now timeout) (Steady u) standing (u.touched stream now timeout)
      (u.replyOctets stream now timeout) where
  step t r ht := by
    obtain ⟨hsteady, hstanding⟩ := dispatched_standing stream now timeout t r
    rw [hstanding, ht.touched]
    exact ⟨ht.trans hsteady, rfl⟩
  size t r ht := by rw [octets_dispatch_request, ht.replyOctets]
  kept := fieldsKept_dispatch_request stream now timeout

theorem steady_batch (u : UdpRcServer M Peer) (rs : List AcfAbbMessage) :
    Steady u (rs.foldl (dispatched (dispatch_request stream now timeout)) u) :=
  foldl_rel _ steady_refl Steady.trans rs (fun t r _ => (dispatched_standing stream now timeout t r).1) u

end Request

/-! ## One datagram -/

variable {u : UdpRcServer M Peer} {arrival : Arrival Peer} {sequence_num : UInt8} {timeout : Duration}

/-- The datagram has requests, and the server has an answer to each in the state it meets, that
together fit a frame. -/
def Answers (u : UdpRcServer M Peer) (arrival : Arrival Peer) (timeout : Duration) : Prop :=
  ∃ stream rs, arrival.requests = .ok (stream, rs) ∧
    Answerable (u.touched stream arrival.now timeout) (u.replyOctets stream arrival.now timeout) u.standing rs

theorem requests_ok {stream : StreamId} {rs : List AcfAbbMessage} (h : arrival.requests = .ok (stream, rs)) :
    rs ≠ [] ∧ ∀ r ∈ rs, r.info.FieldsFit := by
  obtain ⟨⟨frame, peer⟩, -, h⟩ := bind_ok_iff.1 h
  obtain ⟨⟨hdr, acf⟩, -, h⟩ := bind_ok_iff.1 h
  obtain ⟨rs', hrs, h⟩ := bind_ok_iff.1 h
  cases h
  exact ⟨(decode_messages_pieces hrs).1, decode_messages_fit hrs⟩

/-- A datagram is its requests, or fails without reaching the server. -/
theorem serve_one_eq (u : UdpRcServer M Peer) (arrival : Arrival Peer) (sequence_num : UInt8) (timeout : Duration) :
    exec (serve_one arrival sequence_num timeout) u = match arrival.requests with
      | .error e => (.error e, u)
      | .ok (stream, rs) => match exec (collect (answer (dispatch_request stream arrival.now timeout)) rs []) u with
        | (.error e, t) => (.error e, t)
        | (.ok bytes, t) => match encode_ntscf_frame t.local_stream sequence_num bytes with
          | .error e => (.error e, t)
          | .ok out => (.ok (), { t with socket := t.socket.send_to out arrival.peer }) := by
  unfold serve_one Arrival.requests
  rw [exec_bind, exec_ofExcept]
  cases hrecv : StdUdpSocket.recv_from arrival with
  | error e => rfl
  | ok p =>
    obtain ⟨frame, peer⟩ := p
    -- the answer goes to whoever sent the datagram
    have hpeer : peer = arrival.peer := by
      obtain ⟨⟨seq, avtpdu⟩, -, h⟩ := bind_ok_iff.1 hrecv
      cases h
      rfl
    subst hpeer
    simp only [exec_bind, exec_ofExcept]
    cases hframe : decode_ntscf_frame frame with
    | error e => simp only [bind, Except.bind, hframe]
    | ok q =>
      cases hrs : decode_acf_abb_messages q.2 with
      | error e => simp [bind, Except.bind, hframe, hrs]
      | ok rs =>
        simp only [hrs, exec_get, exec_modify, bind, Except.bind, hframe, pure, Except.pure]
        rcases exec (collect (answer (dispatch_request (.from_u64 q.1.stream_id) arrival.now timeout)) rs []) u
          with ⟨_ | bytes, t⟩
        · rfl
        · cases hout : encode_ntscf_frame t.local_stream sequence_num bytes <;> simp only [hout]

/-- A response names the endpoint of its request. -/
def Addressed (request response : AcfAbbMessage) : Prop := response.info.byte_bus_id = request.info.byte_bus_id

theorem answer_addressed {stream : StreamId} {now : Instant} {request m : AcfAbbMessage}
    (h : AnswerTo request (exec (dispatch_request stream now timeout request) u).1 m) : Addressed request m.onWire := by
  rcases h with h | ⟨e, -, hm⟩
  · rw [dispatch_spec] at h
    split_ifs at h
    · cases h
      rfl
    · cases h
      rfl
    · have hserver : (exec (RcServer.handle_abb stream request) u.server).1 = .ok m := by
        rw [RcServer.handle_abb_spec]
        exact h
      exact (RcServer.answer_echoes (.inl hserver)).1
  · simp only [Addressed, AcfAbbMessage.onWire, wireInfo, (error_response_fields hm).1]

/-- A datagram the server has answers to is answered to its sender, in order, in one frame. -/
theorem serve_one_ok (h : u.Answers arrival timeout) (sequence_num : UInt8) :
    ∃ u' out hdr acf stream requests responses, exec (serve_one arrival sequence_num timeout) u = (.ok (), u') ∧
      u'.socket = u.socket.send_to out arrival.peer ∧ arrival.requests = .ok (stream, requests) ∧
      decode_ntscf_frame out = .ok (hdr, acf) ∧ decode_acf_abb_messages acf = .ok responses ∧
      List.Forall₂ Addressed requests responses := by
  obtain ⟨stream, rs, hrs, hgood⟩ := h
  obtain ⟨hne, hfit⟩ := requests_ok hrs
  obtain ⟨bytes, msgs, hrun, hlen, hdec, hans⟩ :=
    (summed_dispatch_request stream arrival.now timeout u).batch_ok (steady_refl u) hne hfit hgood
  have haddressed : List.Forall₂ Addressed rs (msgs.map AcfAbbMessage.onWire) :=
    answers_in_order (fun t r m hm => answer_addressed hm) hans
  have hsteady := steady_batch stream arrival.now timeout u rs
  have hexec : exec (serve_one arrival sequence_num timeout) u =
      (.ok (), { rs.foldl (dispatched (dispatch_request stream arrival.now timeout)) u with
        socket := u.socket.send_to
          (ntscf_header_octets (frame_header u.local_stream sequence_num bytes) ++ bytes) arrival.peer }) := by
    simp only [serve_one_eq, hrs, hrun, hsteady.local_stream, hsteady.socket, encode_ntscf_frame_ok hlen]
  exact ⟨_, _, _, _, stream, rs, _, hexec, rfl, hrs, decode_ntscf_frame_encoded (frame_header_fits hlen) _, hdec,
    haddressed⟩

/-- Any other datagram fails, and nothing is sent. -/
theorem serve_one_error (h : ¬ u.Answers arrival timeout) (sequence_num : UInt8) :
    ∃ e u', exec (serve_one arrival sequence_num timeout) u = (.error e, u') ∧ u'.socket = u.socket := by
  rw [serve_one_eq]
  cases hrs : arrival.requests with
  | error e => exact ⟨e, u, rfl, rfl⟩
  | ok p =>
    obtain ⟨stream, rs⟩ := p
    obtain ⟨-, hfit⟩ := requests_ok hrs
    have hbad : ¬ Answerable (u.touched stream arrival.now timeout) (u.replyOctets stream arrival.now timeout)
        u.standing rs := fun hgood => h ⟨stream, rs, hrs, hgood⟩
    obtain ⟨result, hrun, hlong⟩ :=
      (summed_dispatch_request stream arrival.now timeout u).batch_error (steady_refl u) hfit hbad
    simp only [hrun]
    cases result with
    -- some request has no answer, or the answers do not fit a frame
    | error e => exact ⟨e, _, rfl, (steady_batch stream arrival.now timeout u _).socket⟩
    | ok bytes =>
      simp only [encode_ntscf_frame_error (hlong bytes rfl)]
      exact ⟨_, _, rfl, (steady_batch stream arrival.now timeout u _).socket⟩

end UdpRcServer

/-! ## The loop -/

section Loop
variable {M Peer : Type} (max_requests : Option UInt32)

/-- The datagrams taken up before the limit, each with the state it meets. -/
def taken : UInt32 → UdpRcServer M Peer → List (Arrival Peer) → List (UdpRcServer M Peer × Arrival Peer)
  | _, _, [] => []
  | served, server, arrival :: rest =>
    if reached max_requests served then []
    else
      let next := (exec (UdpRcServer.serve_one arrival served.toUInt8 DISCOVERY_TIME_OUT) server).2
      (server, arrival) :: taken (served + 1) next rest

/-- The loop for which a datagram it cannot answer is as if it had never arrived. -/
def unshaken : UInt32 → UdpRcServer M Peer → List (Arrival Peer) → UdpRcServer M Peer
  | _, server, [] => server
  | served, server, arrival :: rest =>
    if reached max_requests served then server
    else match exec (UdpRcServer.serve_one arrival served.toUInt8 DISCOVERY_TIME_OUT) server with
      | (.ok _, next) => unshaken (served + 1) next rest
      | (.error _, _) => unshaken served server rest

/-- A run no datagram ended, whose answers are those of the loop that is not shaken by any. -/
structure Survives (run : LoopEnd × UdpRcServer M Peer) (ideal : UdpRcServer M Peer) : Prop where
  stays : ∀ e, run.1 ≠ .exited e
  sends : run.2.socket.sent = ideal.socket.sent

/-- The loop survives exactly the datagrams of which it takes up none that it cannot answer. -/
theorem loop_survives_iff (served : UInt32) (server : UdpRcServer M Peer) (arrivals : List (Arrival Peer)) :
    Survives (serve_loop max_requests served server arrivals) (unshaken max_requests served server arrivals) ↔
      ∀ p ∈ taken max_requests served server arrivals, p.1.Answers p.2 DISCOVERY_TIME_OUT := by
  induction arrivals generalizing served server with
  | nil =>
    refine iff_of_true ⟨fun e => ?_, rfl⟩ ?_
    · unfold serve_loop
      split <;> nofun
    · simp [taken]
  | cons arrival rest ih =>
    by_cases hreached : reached max_requests served = true
    · refine iff_of_true ⟨fun e => ?_, ?_⟩ ?_
      · simp [serve_loop, hreached]
      · simp [serve_loop, unshaken, hreached]
      · simp [taken, hreached]
    · by_cases hanswers : server.Answers arrival DISCOVERY_TIME_OUT
      · -- the datagram is answered, and the rest of the run decides
        obtain ⟨next, -, -, -, -, -, -, hexec, -⟩ := UdpRcServer.serve_one_ok hanswers served.toUInt8
        have hloop : serve_loop max_requests served server (arrival :: rest) =
            serve_loop max_requests (served + 1) next rest := by
          simp [serve_loop, hreached, hexec]
        have hunshaken : unshaken max_requests served server (arrival :: rest) =
            unshaken max_requests (served + 1) next rest := by
          simp [unshaken, hreached, hexec]
        have htaken : taken max_requests served server (arrival :: rest) =
            (server, arrival) :: taken max_requests (served + 1) next rest := by
          simp [taken, hreached, hexec]
        rw [hloop, hunshaken, htaken, List.forall_mem_cons, and_iff_right hanswers]
        exact ih (served + 1) next
      · -- the datagram ends the loop
        obtain ⟨e, next, hexec, -⟩ := UdpRcServer.serve_one_error hanswers served.toUInt8
        refine iff_of_false (fun h => h.stays e ?_) fun h => hanswers (h (server, arrival) ?_)
        · simp [serve_loop, hreached, hexec]
        · simp [taken, hreached]

/-- A datagram without room for a sequence number ends the server before a read that follows it. -/
theorem short_datagram_ends_server :
    ¬ ∀ (max_requests : Option UInt32) (local_stream : StreamId) (arrivals : List (Arrival Nat)),
      Survives (cmd_serve max_requests local_stream arrivals)
        (unshaken max_requests 0 (.new local_stream (.new {} [])) arrivals) := by
  intro h
  have hend := h none ⟨#v[2, 0, 0, 0, 0, 9], 9⟩
    [{ datagram := [0, 0, 0], peer := 1, now := 0 },
      { datagram := [0, 0, 0, 0, 0x82, 0x80, 8, 0, 2, 0, 0, 0, 0, 1, 0, 1, 0x1C, 2, 0, 0, 0, 2, 0, 0], peer := 2,
        now := 5 }]
  exact absurd hend.stays (by simp only [not_forall, not_not]; exact ⟨.ShortFrame, by decide +kernel⟩)

end Loop

end RustRcp
