import RustRcp.Adapt
import RustRcp.ServerFrame
/-!
# The adapter and the wire

A message's request can be handed to the server by the adapter, or encoded and sent to
it in a frame. `relay_wire_agree` says that the two agree on every request the encoder
accepts, and which requests of messages it does not accept: those for a `byte_bus_id`
that no frame can name, and those without a size to read.
-/
open Stateful

namespace RustRcp

variable {M : Type}

/-- The way of a request over the wire: a frame under its stream, and the response in the frame that comes back. -/
def over_wire (stream_id : StreamId) (request : AcfAbbMessage) (sequence_num : UInt8) :
    Stateful RcpError (RcServer M) AcfAbbMessage := do
  let payload ← MonadExcept.ofExcept (encode_acf_abb request)
  let frame ← MonadExcept.ofExcept (encode_ntscf_frame stream_id sequence_num payload)
  let out ← RcServer.handle_ntscf_frame stream_id frame
  let (_hdr, acf) ← MonadExcept.ofExcept (decode_ntscf_frame out)
  MonadExcept.ofExcept (decode_acf_abb acf)

/-! ## Requests on the wire -/

/-- A message that fits the length field fits a frame. -/
theorem encoded_fits {msg : AcfAbbMessage} {b : List UInt8} (h : encode_acf_abb msg = .ok b) :
    b.length ≤ NTSCF_DATA_LENGTH_MAX.toNat := by
  have hfit := (encode_acf_abb_ok.1 h).1
  have hmul := quadlets_mul (ACF_ABB_HEADER_LEN + msg.payload.length)
  have hquadlets : quadlets (ACF_ABB_HEADER_LEN + msg.payload.length) ≤ 511 := hfit
  have hmax : NTSCF_DATA_LENGTH_MAX.toNat = 2047 := rfl
  have hquadlet : QUADLET_LEN = 4 := rfl
  rw [encoded_length h, encodedLength, hmax, ← hmul, hquadlet]
  omega

/-- A request in a frame of its own is what the server finds in it. -/
theorem request_in_frame {request : AcfAbbMessage} {b : List UInt8} (h : encode_acf_abb request = .ok b)
    (stream_id : StreamId) (sequence_num : UInt8) :
    ∃ frame, encode_ntscf_frame stream_id sequence_num b = .ok frame ∧ requestsOf frame = .ok [request.onWire] := by
  have hframe := @encode_ntscf_frame_ok stream_id sequence_num _ (encoded_fits h)
  have hdecode := (decode_of_encode_ntscf_frame hframe).1
  have hmessages := decode_messages_encoded (List.cons_ne_nil request []) (.cons h .nil)
  rw [List.flatten_cons, List.flatten_nil, List.append_nil] at hmessages
  exact ⟨_, hframe, (requestsOf_decoded hdecode).trans hmessages⟩

/-- What comes back over the wire is the answer as the server encodes it, decoded. -/
theorem over_wire_spec (s : RcServer M) (stream_id : StreamId) {request : AcfAbbMessage} {b : List UInt8}
    (h : encode_acf_abb request = .ok b) (sequence_num : UInt8) :
    exec (over_wire stream_id request sequence_num) s =
      match answered request.onWire (request.onWire.response <$> s.reply stream_id request) with
      | .error e => (.error e, s.settled stream_id request)
      | .ok o => (decode_acf_abb o, { s.settled stream_id request with sequence_num := s.sequence_num + 1 }) := by
  obtain ⟨frame, hframe, hrequests⟩ := request_in_frame h stream_id sequence_num
  have hhandle := RcServer.single_request_spec s stream_id hrequests
  have hreply : s.reply stream_id request.onWire = s.reply stream_id request := rfl
  have hsettled : s.settled stream_id request.onWire = s.settled stream_id request := rfl
  rw [hreply, hsettled] at hhandle
  unfold over_wire
  rw [h, exec_bind_ok (exec_ofExcept _ s), hframe, exec_bind_ok (exec_ofExcept _ s)]
  cases hanswer : answered request.onWire (request.onWire.response <$> s.reply stream_id request) with
  | error e =>
    rw [hanswer] at hhandle
    exact exec_bind_error hhandle
  | ok o =>
    obtain ⟨m, hm, -⟩ := answered_ok hanswer
    have hout := @encode_ntscf_frame_ok stream_id s.sequence_num.toUInt8 _ (encoded_fits hm)
    simp only [hanswer, hout] at hhandle
    rw [exec_bind_ok hhandle, (decode_of_encode_ntscf_frame hout).1, exec_bind_ok (exec_ofExcept _ _), exec_ofExcept]

/-! ## Two ways to the server -/

/-- What the adapter's call and the way over the wire have in common, where `served` is the server's
answer to the request itself: the server's state but for its count of responses; the reply; and the
error that is behind a refusal, the server's own, which comes back over the wire as itself or as a
response with its code. -/
structure RelayAgrees (stream_id : StreamId) (served : Except RcpError AcfAbbMessage)
    (relay : Except RelayError Message × RcpAdapter M) (wire : Except RcpError AcfAbbMessage × RcServer M) :
    Prop where
  state : ∃ sequence_num, wire.2 = { relay.2.server with sequence_num }
  reply : ∀ m, relay.1 = .ok m → ∃ response, wire.1 = .ok response ∧ response.info.err = false ∧
    ∀ now, (to_message stream_id response now).id = m.id ∧ (to_message stream_id response now).payload = m.payload ∧
      (to_message stream_id response now).metadata = m.metadata
  refusal : ∀ e, relay.1 = .error e → ∃ cause, served = .error cause ∧ map_err cause = e ∧ (wire.1 = .error cause ∨
    ∃ response code, wire.1 = .ok response ∧ response.info.err = true ∧ cause.tc18_wire_code = some code ∧
      response.payload = [code])

/-- A call of an open adapter before its deadline. -/
theorem call_spec (s : RcServer M) {m : Message} {stream_id : StreamId} {request : AcfAbbMessage}
    (h : from_message m = .ok (stream_id, request)) (now : Nat) :
    exec (RcpAdapter.call false m now) { server := s } =
      (((fun payload => to_message stream_id (request.response payload) now) <$> s.reply stream_id request).mapError
        map_err, { server := s.settled stream_id request }) := by
  unfold RcpAdapter.call
  simp only [exec_bind, exec_get, Bool.false_eq_true, if_false, h, exec_ofExcept, Except.mapError, exec_mapError,
    exec_within, RcServer.handle_abb_spec]
  cases s.reply stream_id request <;> rfl

/-- The fields a message sets fit the wire when its bus and its size do. -/
theorem from_message_fits {m : Message} {stream_id : StreamId} {request : AcfAbbMessage}
    (h : from_message m = .ok (stream_id, request)) :
    request.info.err = false ∧ (request.info.FieldsFit ↔ request.info.byte_bus_id ≤ BYTE_MESSAGE_INFO_11BIT_MAX ∧
      request.info.read_size_segment.raw ≤ READ_SIZE_SEGMENT_12BIT_MAX) := by
  obtain ⟨⟨stream, bus⟩, -, h⟩ := bind_ok_iff.1 h
  obtain ⟨op, -, h⟩ := bind_ok_iff.1 h
  obtain ⟨read_size, -, h⟩ := bind_ok_iff.1 h
  cases h
  have hopcode : (0 : UInt8) ≤ EVT_SUB_OPCODE_MAX := by decide
  exact ⟨rfl, fun hfit => ⟨hfit.byte_bus_id, hfit.read_size_segment⟩, fun hwidth => ⟨hwidth.1, hopcode, hwidth.2⟩⟩

/-- The error of a request that is refused goes back to its sender, as itself or as a response with its code. -/
theorem refusal_over_wire {request : AcfAbbMessage} (hfit : request.info.FieldsFit) (e : RcpError) :
    answered request (.error e) = .error e ∨
      ∃ o response code, answered request (.error e) = .ok o ∧ decode_acf_abb o = .ok response ∧
        response.info.err = true ∧ e.tc18_wire_code = some code ∧ response.payload = [code] := by
  rw [answered]
  cases hbuild : build_error_response request.info e with
  | none => exact .inl rfl
  | some response =>
    obtain ⟨hinfo, hlen⟩ := error_response_fields hbuild
    have hfits : response.info.FieldsFit := by
      rw [hinfo]
      exact ⟨hfit.byte_bus_id, hfit.sub_opcode, hfit.read_size_segment⟩
    have henc := encode_acf_abb_ok.2 ⟨by rw [hlen]; decide, hfits, rfl⟩
    obtain ⟨code, hcode, hresponse⟩ : ∃ code, e.tc18_wire_code = some code ∧ response.payload = [code] := by
      obtain ⟨code, hcode, h⟩ := Option.bind_eq_some_iff.1 hbuild
      cases h
      exact ⟨code, hcode, rfl⟩
    refine .inr ⟨_, _, code, henc, decode_acf_abb_encoded henc, ?_, hcode, hresponse⟩
    simp only [AcfAbbMessage.onWire, wireInfo, hinfo]

/-- The adapter and the wire agree on a message whose `byte_bus_id` and size fit their fields, and no
other message can be put on the wire. -/
theorem relay_wire_agree (s : RcServer M) {m : Message} {stream_id : StreamId} {request : AcfAbbMessage}
    (hm : from_message m = .ok (stream_id, request)) (hfit : FitsLength (ACF_ABB_HEADER_LEN + request.payload.length))
    (hreply : ∀ response, (exec (RcServer.handle_abb stream_id request) s).1 = .ok response →
      FitsLength (ACF_ABB_HEADER_LEN + response.payload.length)) (sequence_num : UInt8) (now : Nat) :
    if request.info.byte_bus_id ≤ BYTE_MESSAGE_INFO_11BIT_MAX ∧
        request.info.read_size_segment.raw ≤ READ_SIZE_SEGMENT_12BIT_MAX then
      RelayAgrees stream_id (exec (RcServer.handle_abb stream_id request) s).1
        (exec (RcpAdapter.call false m now) { server := s }) (exec (over_wire stream_id request sequence_num) s)
    else exec (over_wire stream_id request sequence_num) s = (.error .InvalidSize, s) := by
  obtain ⟨herr, hwidth⟩ := from_message_fits hm
  split_ifs with hwidths
  · have hfields := hwidth.2 hwidths
    rw [RcServer.handle_abb_spec] at hreply
    rw [over_wire_spec s stream_id (encode_acf_abb_ok.2 ⟨hfit, hfields, rfl⟩), call_spec s hm,
      RcServer.handle_abb_spec]
    cases hpayload : s.reply stream_id request with
    | ok payload =>
      have hresponse : FitsLength (ACF_ABB_HEADER_LEN + payload.length) :=
        hreply (request.response payload) (by rw [hpayload]; rfl)
      have hfields' : (request.onWire.response payload).info.FieldsFit :=
        ⟨hfields.byte_bus_id, hfields.sub_opcode, hfields.read_size_segment⟩
      have henc := encode_acf_abb_ok.2 ⟨hresponse, hfields', rfl⟩
      have hanswer : answered request.onWire (request.onWire.response <$> .ok payload) = .ok _ := henc
      rw [hanswer]
      refine ⟨⟨s.sequence_num + 1, rfl⟩, ?_, nofun⟩
      rintro reply ⟨⟩
      exact ⟨_, decode_acf_abb_encoded henc, herr, fun _ => ⟨rfl, rfl, rfl⟩⟩
    | error e =>
      -- the adapter maps the error, the wire carries it or its code
      rw [error_map, error_map, error_map]
      have hfields' : request.onWire.info.FieldsFit :=
        ⟨hfields.byte_bus_id, hfields.sub_opcode, hfields.read_size_segment⟩
      rcases refusal_over_wire hfields' e with hrefused | ⟨o, response, code, hanswer, hdecode, hresponse⟩
      · rw [hrefused]
        refine ⟨⟨s.sequence_num, rfl⟩, nofun, ?_⟩
        rintro _ ⟨⟩
        exact ⟨e, rfl, rfl, .inl rfl⟩
      · rw [hanswer]
        refine ⟨⟨s.sequence_num + 1, rfl⟩, nofun, ?_⟩
        rintro _ ⟨⟩
        exact ⟨e, rfl, rfl, .inr ⟨response, code, hdecode, hresponse⟩⟩
  · unfold over_wire
    rw [encode_acf_abb_error fun hboth => hwidths (hwidth.1 hboth.2)]
    rfl

/-- A read of up to four bytes from an endpoint that holds three, and one from an endpoint that is not there. -/
theorem relay_wire_agree_read :
    let stream : StreamId := ⟨#v[2, 0, 0, 0, 0, 1], 1⟩
    let server := (exec (RcServer.register_endpoint stream 5 (MockEndpoint 0)) (RcServer.new {} [[1, 2, 3]])).2
    let metadata := fun key : String => if key = "rcp.read_size" then some "4" else none
    let held : AcfAbbMessage := { info := { byte_bus_id := 5, read_size_segment := ⟨4⟩ } }
    let missing : AcfAbbMessage := { info := { byte_bus_id := 6, read_size_segment := ⟨4⟩ } }
    RelayAgrees stream (.ok (held.response [1, 2, 3]))
        (exec (RcpAdapter.call false { id := "0200000000010001.5", metadata } 0) { server })
        (exec (over_wire stream held 0) server) ∧
      RelayAgrees stream (.error .EpNotFound)
        (exec (RcpAdapter.call false { id := "0200000000010001.6", metadata } 0) { server })
        (exec (over_wire stream missing 0) server) := by
  intro stream server metadata held missing
  constructor
  · have hreply : (exec (RcServer.handle_abb stream held) server).1 = .ok (held.response [1, 2, 3]) := by decide +kernel
    have h := @relay_wire_agree _ server { id := "0200000000010001.5", metadata } stream held (by decide +kernel)
      (by decide) (fun response hresponse => by
        rw [hreply] at hresponse
        cases hresponse
        decide) 0 0
    rw [if_pos ⟨by decide, by decide⟩, hreply] at h
    exact h
  · have hreply : (exec (RcServer.handle_abb stream missing) server).1 = .error .EpNotFound := by decide +kernel
    have h := @relay_wire_agree _ server { id := "0200000000010001.6", metadata } stream missing (by decide +kernel)
      (by decide) (fun response hresponse => by
        rw [hreply] at hresponse
        cases hresponse) 0 0
    rw [if_pos ⟨by decide, by decide⟩, hreply] at h
    exact h

/-- A message without a size is accepted, and its request is not. -/
theorem accepted_not_encoded :
    from_message { id := "0200000000010001.5" } =
        .ok (⟨#v[2, 0, 0, 0, 0, 1], 1⟩, { info := { byte_bus_id := 5, read_size_segment := ⟨0xFFFF⟩ } }) ∧
      encode_acf_abb { info := { byte_bus_id := 5, read_size_segment := ⟨0xFFFF⟩ } } = .error .InvalidSize :=
  ⟨by decide +kernel, by decide +kernel⟩

end RustRcp
