import RustRcp.ServerFrame
import RustRcp.Response
/-!
# Two ways to the server

A request reaches the server in a datagram or in a frame that is handed to it. Where
no request of a frame is about discovery the two do the same (`serve_paths_agree`).
Where one is, a register write of the root client can be acknowledged without being
carried out (`write_takes_effect_iff`).
-/
open Bytes Cursor Stateful

namespace RustRcp

namespace UdpRcServer
variable {M Peer : Type}

/-! ## Serving what a socket hands over -/

/-- `serve_one` once its socket has handed over a frame. -/
def serve_received (frame : List UInt8) (peer_addr : Peer) (now : Instant) (sequence_num : UInt8)
    (discovery_timeout : Duration) : Stateful RcpError (UdpRcServer M Peer) Unit := do
  let (hdr, acf_bytes) ← MonadExcept.ofExcept (decode_ntscf_frame frame)
  let requester_stream := StreamId.from_u64 hdr.stream_id
  let requests ← MonadExcept.ofExcept (decode_acf_abb_messages acf_bytes)
  let response_bytes ← collect (answer (dispatch_request requester_stream now discovery_timeout)) requests []
  let self ← get
  let response_frame ← MonadExcept.ofExcept (encode_ntscf_frame self.local_stream sequence_num response_bytes)
  modify fun self => { self with socket := self.socket.send_to response_frame peer_addr }

theorem serve_one_received {arrival : Arrival Peer} {frame : List UInt8} {peer : Peer}
    (h : StdUdpSocket.recv_from arrival = .ok (frame, peer)) (sequence_num : UInt8) (timeout : Duration)
    (u : UdpRcServer M Peer) :
    exec (serve_one arrival sequence_num timeout) u =
      exec (serve_received frame peer arrival.now sequence_num timeout) u := by
  unfold serve_one
  rw [exec_bind, exec_ofExcept, h]
  rfl

/-- Neither a discovery read nor a configure request. -/
def Ordinary (request : AcfAbbMessage) : Prop :=
  is_discovery_request request = false ∧ is_discovery_configure_request request = false

section Batch
variable {stream : StreamId} {now : Instant} {timeout : Duration}

theorem dispatch_ordinary (hstream : is_discovery_broadcast_stream_id stream = false) {request : AcfAbbMessage}
    (h : Ordinary request) (u : UdpRcServer M Peer) :
    exec (answer (dispatch_request stream now timeout) request) u =
      exec (within UdpRcServer.server (fun self server => { self with server })
        (answer (RcServer.handle_abb stream) request)) u := by
  rw [exec_within, exec_answer, exec_answer, dispatch_spec, RcServer.handle_abb_spec]
  simp only [h.1, h.2, hstream, Bool.false_eq_true, if_false]

/-- A batch without discovery is a batch of the server's own. -/
theorem collect_ordinary (hstream : is_discovery_broadcast_stream_id stream = false) {rs : List AcfAbbMessage}
    (h : ∀ r ∈ rs, Ordinary r) (u : UdpRcServer M Peer) :
    exec (collect (answer (dispatch_request stream now timeout)) rs []) u =
      ((exec (collect (answer (RcServer.handle_abb stream)) rs []) u.server).1,
        { u with server := (exec (collect (answer (RcServer.handle_abb stream)) rs []) u.server).2 }) :=
  exec_collect_within UdpRcServer.server (fun self server => { self with server })
    (fun _ => rfl) (fun _ _ => rfl) (fun _ _ _ => rfl) (fun t r hr => dispatch_ordinary hstream (h r hr) t) [] u

end Batch

/-- A frame goes out under every header or under none. -/
theorem frames_alike (stream stream' : StreamId) (seq seq' : UInt8) (payload : List UInt8) :
    (∃ e, encode_ntscf_frame stream seq payload = .error e ∧ encode_ntscf_frame stream' seq' payload = .error e) ∨
    ∃ out out' hdr, encode_ntscf_frame stream seq payload = .ok out ∧
      encode_ntscf_frame stream' seq' payload = .ok out' ∧ decode_ntscf_frame out = .ok (hdr, payload) ∧
      decode_ntscf_frame out' =
        .ok ({ hdr with sequence_num := seq', stream_id := stream'.to_u64 }, payload) := by
  by_cases hfit : payload.length ≤ NTSCF_DATA_LENGTH_MAX.toNat
  · exact .inr ⟨_, _, _, encode_ntscf_frame_ok hfit, encode_ntscf_frame_ok hfit,
      decode_ntscf_frame_encoded (frame_header_fits hfit) _, decode_ntscf_frame_encoded (frame_header_fits hfit) _⟩
  · exact .inl ⟨.InvalidSize, encode_ntscf_frame_error (Nat.lt_of_not_le hfit),
      encode_ntscf_frame_error (Nat.lt_of_not_le hfit)⟩

/-- The same outcome, registers and memory; on success two frames that differ in their headers'
stream and number alone. -/
structure Agree (u : UdpRcServer M Peer) (peer : Peer) (sequence_num : UInt8)
    (served : Except RcpError Unit × UdpRcServer M Peer) (handled : Except RcpError (List UInt8) × RcServer M) :
    Prop where
  errors : ∀ e, served.1 = .error e ↔ handled.1 = .error e
  general : served.2.server.general = handled.2.general
  memory : served.2.server.memory = handled.2.memory
  silent : ∀ e, served.1 = .error e → served.2.socket = u.socket
  frames : ∀ out, handled.1 = .ok out → ∃ out' hdr payload, served.2.socket = u.socket.send_to out' peer ∧
    decode_ntscf_frame out = .ok (hdr, payload) ∧
    decode_ntscf_frame out' =
      .ok ({ hdr with sequence_num := sequence_num, stream_id := u.local_stream.to_u64 }, payload)

theorem agree_failed (u : UdpRcServer M Peer) (peer : Peer) (sequence_num : UInt8) (e : RcpError) (t : RcServer M)
    (next : UInt32) :
    Agree u peer sequence_num (.error e, { u with server := t }) (.error e, { t with sequence_num := next }) where
  errors e' := by rw [Except.error.injEq, Except.error.injEq]
  general := rfl
  memory := rfl
  silent _ _ := rfl
  frames := nofun

/-- Without discovery a datagram and a frame are served alike. -/
theorem serve_paths_agree (u : UdpRcServer M Peer) (frame acf : List UInt8) (hdr : NtscfHeader) (peer : Peer)
    (now : Instant) (sequence_num : UInt8) (timeout : Duration) (hframe : decode_ntscf_frame frame = .ok (hdr, acf))
    (hstream : is_discovery_broadcast_stream_id (.from_u64 hdr.stream_id) = false)
    (hordinary : ∀ rs, decode_acf_abb_messages acf = .ok rs → ∀ r ∈ rs, Ordinary r) :
    Agree u peer sequence_num (exec (serve_received frame peer now sequence_num timeout) u)
        (exec (RcServer.handle_ntscf_frame (.from_u64 hdr.stream_id) frame) u.server) ∧
      ∀ arrival : Arrival Peer, arrival.now = now → StdUdpSocket.recv_from arrival = .ok (frame, peer) →
        exec (serve_one arrival sequence_num timeout) u =
          exec (serve_received frame peer now sequence_num timeout) u := by
  refine ⟨?_, fun arrival hnow hrecv => hnow ▸ serve_one_received hrecv sequence_num timeout u⟩
  rw [RcServer.handle_frame_eq, requestsOf_decoded hframe]
  unfold serve_received
  simp only [exec_bind, exec_ofExcept, hframe]
  cases hrs : decode_acf_abb_messages acf with
  | error e => exact agree_failed u peer sequence_num e u.server u.server.sequence_num
  | ok rs =>
    simp only [collect_ordinary hstream (hordinary rs hrs), RcServer.answer_requests, exec_bind]
    rcases exec (collect (answer (RcServer.handle_abb (.from_u64 hdr.stream_id))) rs []) u.server with ⟨e | bytes, t⟩
    · exact agree_failed u peer sequence_num e t t.sequence_num
    · simp only [exec_get, exec_modify, exec_ofExcept]
      rcases frames_alike (.from_u64 hdr.stream_id) u.local_stream t.sequence_num.toUInt8 sequence_num bytes
        with ⟨e, herr, herr'⟩ | ⟨out, out', hdr', hout, hout', hdec, hdec'⟩
      · simp only [herr, herr']
        exact agree_failed u peer sequence_num e t (t.sequence_num + 1)
      · simp only [hout, hout']
        refine ⟨fun e => iff_of_false (by simp) (by simp), rfl, rfl, fun e h => by simp at h, ?_⟩
        intro o ho
        cases ho
        exact ⟨out', hdr', bytes, rfl, hdec, hdec'⟩

/-- A write to an endpoint, a read from one that is not there and a read of what was written, handed over and as
a datagram. -/
theorem serve_paths_agree_mixed :
    let server : RcServer Heap := (exec (RcServer.register_endpoint ⟨#v[2, 0, 0, 0, 0, 1], 1⟩ 5 (MockEndpoint 0))
      (.new {} [[1, 2, 3]])).2
    let frame : List UInt8 := [0x82, 0x80, 28, 0, 2, 0, 0, 0, 0, 1, 0, 1, 0x1C, 3, 0xC0, 5, 0, 1, 0x80, 0, 7, 0, 0, 0,
      0x1C, 2, 0, 6, 0, 2, 0, 4, 0x1C, 2, 0, 5, 0, 3, 0, 4]
    Agree (.new ⟨#v[2, 0, 0, 0, 0, 9], 9⟩ server : UdpRcServer Heap Nat) 4 0
      (exec (serve_received frame 4 5 0 DISCOVERY_TIME_OUT) (.new ⟨#v[2, 0, 0, 0, 0, 9], 9⟩ server))
      (exec (RcServer.handle_ntscf_frame (.from_u64 0x0200000000010001) frame) server) := by
  intro server frame
  refine (serve_paths_agree _ _ (frame.drop NTSCF_HEADER_LEN)
    { ntscf_data_length := 28, stream_id := 0x0200000000010001 } _ _ _ _ (by decide +kernel) (by decide +kernel) ?_).1
  intro rs hrs
  have hthree : decode_acf_abb_messages (frame.drop NTSCF_HEADER_LEN) = .ok
      [{ info := { acf_msg_type := 0x0E, acf_msg_length := 3, pad := 3, byte_bus_id := 5, transaction_num := 1,
                   op := true }
         payload := [7] },
        { info := { acf_msg_type := 0x0E, acf_msg_length := 2, byte_bus_id := 6, transaction_num := 2,
                    read_size_segment := ⟨4⟩ } },
        { info := { acf_msg_type := 0x0E, acf_msg_length := 2, byte_bus_id := 5, transaction_num := 3,
                    read_size_segment := ⟨4⟩ } }] := by decide +kernel
  rw [hthree] at hrs
  cases hrs
  simp only [List.forall_mem_cons]
  exact ⟨⟨by decide, by decide⟩, ⟨by decide, by decide⟩, ⟨by decide, by decide⟩, nofun⟩

/-! ## Register writes -/

section Write
variable {stream : StreamId} {now : Instant} {timeout : Duration}

/-- A register image is taken for a configure request when the upper half of its magic number is zero. -/
theorem configure_image_iff {request : AcfAbbMessage} {g : GeneralRegisters}
    (hbus : request.info.byte_bus_id = EP0_BYTE_BUS_ID) (hop : request.info.op = true)
    (hg : GeneralRegisters.decode request.payload = .ok g) :
    is_discovery_configure_request request = true ↔ g.svr_oa_tc18_magic_nr < 0x10000 := by
  have hlen : 65 ≤ request.payload.length := (GeneralRegisters.decode_ok_iff _).1 ⟨g, hg⟩
  have haddress : decode_register_address request.payload = some (UInt16.ofNat (ofBe (request.payload.take 2))) :=
    if_neg (Nat.not_lt.2 (by rw [DISCOVERY_REGISTER_ADDRESS_LEN]; omega))
  -- the address is the first half of the magic number
  have hsplit : ofBe (request.payload.take 4) =
      ofBe (request.payload.take 2) * 65536 + ofBe ((request.payload.drop 2).take 2) := by
    have hrest : ((request.payload.drop 2).take 2).length = 2 := by
      rw [List.length_take, List.length_drop]
      omega
    have hsquare : 256 ^ 2 = 65536 := rfl
    rw [show 4 = 2 + 2 from rfl, List.take_add, ofBe_append, hrest, hsquare]
  have hhigh := ofBe_lt (request.payload.take 2)
  have hlow := ofBe_lt ((request.payload.drop 2).take 2)
  rw [List.length_take, Nat.min_eq_left (by omega)] at hhigh
  rw [List.length_take, List.length_drop, Nat.min_eq_left (by omega)] at hlow
  have hmagic : g.svr_oa_tc18_magic_nr.toNat = ofBe (request.payload.take 4) := by
    rw [GeneralRegisters.decode_magic hg, UInt32.toNat_ofNat']
    omega
  have hshape : is_discovery_configure_request request = true ↔
      UInt16.ofNat (ofBe (request.payload.take 2)) = 0 := by
    simp [is_discovery_configure_request, route_byte_bus_id, is_ep0_address, access_kind, hbus, hop, haddress,
      DISCOVERY_REGISTER_ADDRESS]
  rw [hshape, ← UInt16.toNat_inj, UInt16.toNat_ofNat', UInt32.lt_iff_toNat_lt, hmagic, hsplit]
  change _ % 65536 = 0 ↔ _ < 65536
  omega

theorem not_discovery_of_write {request : AcfAbbMessage} (hop : request.info.op = true) :
    is_discovery_request request = false := by
  rw [Bool.eq_false_iff]
  intro hread
  rw [discovery_request_op hread] at hop
  cases hop

/-- A write the root client gets acknowledged is carried out unless the image passes for a
configure request, is granted as one, and is not what the registers hold already. -/
theorem write_takes_effect_iff (u : UdpRcServer M Peer) (request : AcfAbbMessage) (g : GeneralRegisters)
    (hbus : request.info.byte_bus_id = EP0_BYTE_BUS_ID) (hop : request.info.op = true)
    (hroot : u.server.root_client = some stream) (hg : GeneralRegisters.decode request.payload = .ok g) :
    (∀ m, (exec (dispatch_request stream now timeout request) u).1 = .ok m →
      (exec (dispatch_request stream now timeout request) u).2.server.general = g) ↔
      ¬ (g.svr_oa_tc18_magic_nr < 0x10000 ∧ granted stream now timeout u.discovery_claim = true ∧
        u.server.general ≠ g) := by
  have hread := not_discovery_of_write hop
  rw [dispatch_spec, ← configure_image_iff hbus hop hg]
  simp only [hread, Bool.false_eq_true, if_false]
  by_cases hconf : is_discovery_configure_request request = true
  · by_cases hgranted : granted stream now timeout u.discovery_claim = true
    · -- acknowledged, and the registers are left alone
      simp only [hconf, hgranted, if_true, true_and, not_not]
      exact ⟨fun h => h _ rfl, fun h _ _ => h⟩
    · rw [if_pos hconf, if_neg hgranted]
      refine iff_of_true (fun m hm => ?_) fun h => hgranted h.2.1
      cases hm
  · rw [if_neg hconf]
    refine iff_of_true ?_ fun h => hconf h.1
    split_ifs with hbroadcast
    · intro m hm
      cases hm
    · rintro m -
      simp [RcServer.settled, RcServer.stored, hbus, hop, hroot, hg, Except.toOption]

/-- The root client's image with a magic number, on a fresh server. -/
theorem write_takes_effect_iff_numbered :
    (exec (dispatch_request ⟨#v[2, 0, 0, 0, 0, 1], 1⟩ 0 DISCOVERY_TIME_OUT
        { info := { op := true }, payload := GeneralRegisters.encode { svr_oa_tc18_magic_nr := 0x4F415443 } })
      (.new ⟨#v[2, 0, 0, 0, 0, 9], 9⟩ ((RcServer.new {} []).set_root_client (some ⟨#v[2, 0, 0, 0, 0, 1], 1⟩)) :
        UdpRcServer Heap Nat)).2.server.general = { svr_oa_tc18_magic_nr := 0x4F415443 } := by
  refine (write_takes_effect_iff _ _ _ rfl rfl rfl ?_).2 ?_ { info := { op := true, rsp := true } } ?_
  · exact GeneralRegisters.decode_encode_alone _
  · exact fun h => absurd h.1 (by decide)
  · decide +kernel

/-- An image without a magic number: acknowledged, and the vendor it names is not stored. -/
theorem acknowledged_write_dropped :
    ¬ ∀ (u : UdpRcServer Heap Nat) (stream : StreamId) (now : Instant) (timeout : Duration) (request : AcfAbbMessage)
        (g : GeneralRegisters), request.info.byte_bus_id = EP0_BYTE_BUS_ID → request.info.op = true →
      u.server.root_client = some stream → GeneralRegisters.decode request.payload = .ok g →
      ∀ m, (exec (dispatch_request stream now timeout request) u).1 = .ok m →
        (exec (dispatch_request stream now timeout request) u).2.server.general = g := by
  intro h
  let root : StreamId := ⟨#v[2, 0, 0, 0, 0, 1], 1⟩
  have hbad := h (.new ⟨#v[2, 0, 0, 0, 0, 9], 9⟩ ((RcServer.new {} []).set_root_client (some root)))
    root 0 DISCOVERY_TIME_OUT
    { info := { op := true }, payload := GeneralRegisters.encode { svr_vendor_id := 0x1234 } }
    { svr_vendor_id := 0x1234 } rfl rfl rfl (GeneralRegisters.decode_encode_alone _)
    { info := { rsp := true }, payload := [] } (by decide +kernel)
  exact absurd hbad (by decide +kernel)

end Write

end UdpRcServer

end RustRcp
