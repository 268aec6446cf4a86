import RustRcp.ServerBatch
/-!
# A frame at the server

Which frames the server answers whole (`frame_answered_iff`), when a frame that
fails leaves nothing behind (`failed_frame_unchanged_iff`), and which bytes a
frame's requests are read from (`frame_reads_all_bytes`).
-/
open Stateful

namespace RustRcp

/-- The requests of a frame. -/
def requestsOf (frame : List UInt8) : Except RcpError (List AcfAbbMessage) := do
  let (_hdr, acf) ← decode_ntscf_frame frame
  decode_acf_abb_messages acf

theorem requestsOf_decoded {frame acf : List UInt8} {hdr : NtscfHeader}
    (h : decode_ntscf_frame frame = .ok (hdr, acf)) :
    requestsOf frame = decode_acf_abb_messages acf := by
  unfold requestsOf
  rw [h]
  rfl

theorem requestsOf_ok {frame : List UInt8} {rs : List AcfAbbMessage} (h : requestsOf frame = .ok rs) :
    rs ≠ [] ∧ ∀ r ∈ rs, r.info.FieldsFit := by
  obtain ⟨⟨hdr, acf⟩, -, hrs⟩ := bind_ok_iff.1 h
  exact ⟨(decode_messages_pieces hrs).1, decode_messages_fit hrs⟩

namespace RcServer
variable {M : Type}

/-- A frame is its requests, or is refused without executing anything. -/
theorem handle_frame_eq (s : RcServer M) (stream : StreamId) (frame : List UInt8) :
    exec (handle_ntscf_frame stream frame) s = match requestsOf frame with
      | .ok rs => exec (answer_requests stream rs) s
      | .error e => (.error e, s) := by
  unfold handle_ntscf_frame
  rw [exec_bind, exec_ofExcept]
  cases hframe : decode_ntscf_frame frame with
  | error e => simp only [requestsOf, hframe, bind, Except.bind]
  | ok p =>
    obtain ⟨hdr, acf⟩ := p
    rw [requestsOf_decoded hframe]
    simp only [exec_bind, exec_ofExcept]
    cases decode_acf_abb_messages acf <;> rfl

/-- A frame of one request is answered with that request's answer. -/
theorem single_request_spec (s : RcServer M) (stream : StreamId) {frame : List UInt8} {r : AcfAbbMessage}
    (h : requestsOf frame = .ok [r]) : exec (handle_ntscf_frame stream frame) s =
      match answered r (r.response <$> s.reply stream r) with
      | .error e => (.error e, s.settled stream r)
      | .ok o => (encode_ntscf_frame stream s.sequence_num.toUInt8 o,
          { s.settled stream r with sequence_num := s.sequence_num + 1 }) := by
  rw [handle_frame_eq, h]
  simp only [answer_requests, exec_bind, exec_collect_cons, exec_answer, handle_abb_spec]
  cases answered r (r.response <$> s.reply stream r) with
  | error e => rfl
  | ok o =>
    simp only [collect, List.foldlM_nil, exec_pure, exec_get, exec_modify, exec_ofExcept, List.nil_append]
    rfl

/-- A frame of one request touches what the request touches. -/
theorem single_request_memory (s : RcServer M) (stream : StreamId) {frame : List UInt8} {r : AcfAbbMessage}
    (h : requestsOf frame = .ok [r]) :
    (exec (handle_ntscf_frame stream frame) s).2.memory = s.touched stream s.memory r := by
  rw [single_request_spec s stream h]
  cases answered r (r.response <$> s.reply stream r) <;> rfl

/-! ## Answers -/

/-- The frame comes back with one response per request, in order. -/
def AnswersEach (s : RcServer M) (stream : StreamId) (frame : List UInt8) (requests : List AcfAbbMessage) : Prop :=
  ∃ out hdr acf responses, (exec (handle_ntscf_frame stream frame) s).1 = .ok out ∧
    decode_ntscf_frame out = .ok (hdr, acf) ∧ decode_acf_abb_messages acf = .ok responses ∧
    List.Forall₂ Echoes requests responses

/-- A frame's requests are all answered exactly when each has an answer and the answers fit one frame. -/
theorem frame_answered_iff (s : RcServer M) (stream : StreamId) (frame : List UInt8) (requests : List AcfAbbMessage)
    (h : requestsOf frame = .ok requests) :
    s.AnswersEach stream frame requests ↔ s.Answerable stream requests := by
  obtain ⟨hne, hfit⟩ := requestsOf_ok h
  have hexec := handle_frame_eq s stream frame
  rw [h] at hexec
  unfold AnswersEach
  rw [hexec]
  constructor
  · rintro ⟨out, hdr, acf, responses, hout, -⟩
    by_contra hbad
    obtain ⟨e, he, -⟩ := answer_requests_error hfit hbad
    rw [he] at hout
    cases hout
  · intro hgood
    exact answer_requests_ok hne hfit hgood

/-- A stranger's register write, a read from endpoint 5 that is not there, and a read of the registers: all
three are answered. -/
theorem frame_answered_iff_refused :
    (new {} [] : RcServer Heap).AnswersEach ⟨#v[2, 0, 0, 0, 0, 1], 1⟩
      [0x82, 0x80, 28, 0, 2, 0, 0, 0, 0, 1, 0, 1, 0x1C, 3, 0xC0, 0, 0, 1, 0x80, 0, 0xAA, 0, 0, 0,
        0x1C, 2, 0, 5, 0, 2, 0, 0, 0x1C, 2, 0, 0, 0, 3, 0, 0]
      [{ info := { acf_msg_type := 0x0E, acf_msg_length := 3, pad := 3, transaction_num := 1, op := true }
         payload := [0xAA] },
        { info := { acf_msg_type := 0x0E, acf_msg_length := 2, byte_bus_id := 5, transaction_num := 2 } },
        { info := { acf_msg_type := 0x0E, acf_msg_length := 2, transaction_num := 3 } }] :=
  (frame_answered_iff _ _ _ _ (by decide +kernel)).2 ⟨by decide +kernel, by decide +kernel⟩

/-- A request fits a frame by itself. -/
def SendableAlone (stream : StreamId) (request : AcfAbbMessage) : Prop :=
  (encode_acf_abb request >>= encode_ntscf_frame stream 0).isOk = true

/-- The root client's short register image comes first: the read behind it gets no response. -/
theorem short_image_silences_batch :
    ¬ ∀ (s : RcServer Heap) (stream : StreamId) (frame : List UInt8) (requests : List AcfAbbMessage), s.Reachable →
      requestsOf frame = .ok requests → (∀ r ∈ requests, SendableAlone stream r) →
        s.AnswersEach stream frame requests := by
  intro h
  have hbad := h ((new {} []).set_root_client (some ⟨#v[2, 0, 0, 0, 0, 1], 1⟩)) ⟨#v[2, 0, 0, 0, 0, 1], 1⟩
    [0x82, 0x80, 20, 0, 2, 0, 0, 0, 0, 1, 0, 1,
      0x1C, 3, 0xC0, 0, 0, 1, 0x80, 0, 0xAA, 0, 0, 0, 0x1C, 2, 0, 0, 0, 2, 0, 0]
    [{ info := { acf_msg_type := 0x0E, acf_msg_length := 3, pad := 3, transaction_num := 1, op := true },
        payload := [0xAA] },
      { info := { acf_msg_type := 0x0E, acf_msg_length := 2, transaction_num := 2 } }]
    ⟨{}, [], [.root (some ⟨#v[2, 0, 0, 0, 0, 1], 1⟩)], rfl⟩ (by decide +kernel)
    (by unfold SendableAlone; decide +kernel)
  obtain ⟨out, hdr, acf, responses, hout, -⟩ := hbad
  have herr : (exec (handle_ntscf_frame ⟨#v[2, 0, 0, 0, 0, 1], 1⟩
    [0x82, 0x80, 20, 0, 2, 0, 0, 0, 0, 1, 0, 1,
      0x1C, 3, 0xC0, 0, 0, 1, 0x80, 0, 0xAA, 0, 0, 0, 0x1C, 2, 0, 0, 0, 2, 0, 0])
    ((new {} [] : RcServer Heap).set_root_client (some ⟨#v[2, 0, 0, 0, 0, 1], 1⟩))).1 = .error .ShortFrame := by
    decide +kernel
  rw [herr] at hout
  cases hout

/-! ## Failures -/

/-- Registers, endpoints and their memory are as they were. -/
structure Unchanged (s t : RcServer M) : Prop where
  general : t.general = s.general
  memory : t.memory = s.memory
  endpoints : t.endpoints = s.endpoints
  endpoint_impls : t.endpoint_impls = s.endpoint_impls

/-- The last register image these requests store, if any, is the present one. -/
def RestoresImage (s : RcServer M) (stream : StreamId) (requests : List AcfAbbMessage) : Prop :=
  ∀ g, (requests.filterMap (s.stored stream)).getLast? = some g → g = s.general

/-- A request no endpoint changes anything for: it is for the registers or for nobody, or it is a
read and the endpoint's reads change nothing. -/
def Idle (s : RcServer M) (stream : StreamId) (request : AcfAbbMessage) : Prop :=
  request.info.byte_bus_id = EP0_BYTE_BUS_ID ∨
    ∀ endpoint, s.endpointFor stream request.info.byte_bus_id = some endpoint →
      request.info.op = false ∧ ∀ read_size memory, (exec (endpoint.read read_size) memory).2 = memory

/-- What a request writes to the mock endpoint whose buffer is cell `buf`. -/
def written (s : RcServer M) (mocks : EndpointId → Option Nat) (stream : StreamId) (buf : Nat)
    (request : AcfAbbMessage) : Option (List UInt8) :=
  if request.info.byte_bus_id ≠ EP0_BYTE_BUS_ID ∧ request.info.op = true ∧
      (s.endpoints.lookup stream request.info.byte_bus_id).bind mocks = some buf then
    some request.payload
  else none

/-- The last write among these requests to each buffer, if any, is of the bytes it holds. -/
def RestoresBuffers (s : RcServer Heap) (mocks : EndpointId → Option Nat) (stream : StreamId)
    (requests : List AcfAbbMessage) : Prop :=
  ∀ buf payload held, (requests.filterMap (s.written mocks stream buf)).getLast? = some payload →
    s.memory[buf]? = some held → payload = held

theorem touched_idle {s : RcServer M} {stream : StreamId} {request : AcfAbbMessage} (h : s.Idle stream request)
    (memory : M) : s.touched stream memory request = memory := by
  unfold touched
  by_cases hep0 : request.info.byte_bus_id = EP0_BYTE_BUS_ID
  · rw [if_pos hep0]
  · rw [if_neg hep0]
    cases hfor : s.endpointFor stream request.info.byte_bus_id with
    | none => rfl
    | some endpoint =>
      obtain ⟨hread, hkeeps⟩ := (h.resolve_left hep0) endpoint hfor
      simp only [Endpoint.call, hread, Bool.false_eq_true, if_false, hkeeps]

theorem idle_memory {s : RcServer M} {stream : StreamId} {rs : List AcfAbbMessage} (h : ∀ r ∈ rs, s.Idle stream r)
    (memory : M) : rs.foldl (s.touched stream) memory = memory := by
  induction rs with
  | nil => rfl
  | cons r rs ih =>
    obtain ⟨hr, hrs⟩ := List.forall_mem_cons.1 h
    rw [List.foldl_cons, touched_idle hr, ih hrs]

section Mocks
variable {s : RcServer Heap} {mocks : EndpointId → Option Nat} {stream : StreamId}
  (hmocks : ∀ id, s.endpoint_impls id = (mocks id).map MockEndpoint)
include hmocks

theorem mock_for (byte_bus_id : UInt16) :
    s.endpointFor stream byte_bus_id = ((s.endpoints.lookup stream byte_bus_id).bind mocks).map MockEndpoint := by
  rw [endpointFor, funext hmocks]
  cases s.endpoints.lookup stream byte_bus_id <;> rfl

/-- A request leaves in each buffer what it writes there, or what was there. -/
theorem touched_buffer (heap : Heap) (r : AcfAbbMessage) (buf : Nat) :
    (s.touched stream heap r)[buf]? = heap[buf]?.map (s.written mocks stream buf r).getD := by
  have hsame : ∀ o : Option (List UInt8), o = o.map (none : Option (List UInt8)).getD := by
    intro o
    cases o <;> rfl
  unfold touched written
  rw [mock_for hmocks]
  by_cases hep0 : r.info.byte_bus_id = EP0_BYTE_BUS_ID
  · simpa [hep0] using hsame _
  · cases hcell : (s.endpoints.lookup stream r.info.byte_bus_id).bind mocks with
    | none => simpa [hep0] using hsame _
    | some cell =>
      cases hop : r.info.op with
      | false => simpa [hep0, hop, Endpoint.call, MockEndpoint] using hsame _
      | true =>
        by_cases hbuf : cell = buf
        · subst hbuf
          cases hheld : heap[cell]? <;> simp [hep0, hop, Endpoint.call, MockEndpoint, List.getElem?_set_self', hheld]
        · simpa [hep0, hop, Endpoint.call, MockEndpoint, hbuf, List.getElem?_set_ne] using hsame _

/-- After requests each buffer holds the last write to it. -/
theorem batch_buffer (rs : List AcfAbbMessage) (heap : Heap) (buf : Nat) :
    (rs.foldl (s.touched stream) heap)[buf]? =
      heap[buf]?.map ((rs.filterMap (s.written mocks stream buf)).getLast?).getD := by
  induction rs generalizing heap with
  | nil => cases h : heap[buf]? <;> simp [h]
  | cons r rs ih =>
    rw [List.foldl_cons, ih, touched_buffer hmocks, List.filterMap_cons]
    cases s.written mocks stream buf r <;> cases heap[buf]? <;> simp [List.getLast?_cons]

theorem restores_buffers_iff (rs : List AcfAbbMessage) :
    rs.foldl (s.touched stream) s.memory = s.memory ↔ s.RestoresBuffers mocks stream rs := by
  rw [List.ext_getElem?_iff]
  simp only [batch_buffer hmocks]
  refine forall_congr' fun buf => ?_
  cases hheld : s.memory[buf]? with
  | none => simp
  | some held => cases (rs.filterMap (s.written mocks stream buf)).getLast? <;> simp

end Mocks

/-- What holds of the server as it is, and of what requests leave of it exactly when `Q` holds of
them, is kept by a frame that fails exactly when `Q` holds of the requests it gets to. -/
theorem failure_iff {s : RcServer M} {stream : StreamId} {P : RcServer M → Prop} {Q : List AcfAbbMessage → Prop}
    (hself : P s) (hleft : ∀ rs sequence_num, P
      { s with
        general := (rs.filterMap (s.stored stream)).getLast?.getD s.general
        memory := rs.foldl (s.touched stream) s.memory
        sequence_num } ↔ Q rs) (frame : List UInt8) :
    ((∃ e, (exec (handle_ntscf_frame stream frame) s).1 = .error e) →
        P (exec (handle_ntscf_frame stream frame) s).2) ↔
      ∀ requests, requestsOf frame = .ok requests →
        s.Answerable stream requests ∨ Q (s.executedOf stream requests) := by
  have hexec := handle_frame_eq s stream frame
  cases hreq : requestsOf frame with
  | error e =>
    rw [hreq] at hexec
    rw [hexec]
    exact iff_of_true (fun _ => hself) nofun
  | ok rs =>
    rw [hreq] at hexec
    obtain ⟨hne, hfit⟩ := requestsOf_ok hreq
    simp only [hexec, Except.ok.injEq, forall_eq']
    by_cases hgood : s.Answerable stream rs
    · obtain ⟨out, hdr, acf, responses, hout, -⟩ := answer_requests_ok hne hfit hgood
      refine iff_of_true ?_ (.inl hgood)
      rintro ⟨e, he⟩
      rw [hout] at he
      cases he
    · -- what the requests it got to have stored and touched is all that can differ
      obtain ⟨e, he, sequence_num, hstate⟩ := answer_requests_error hfit hgood
      rw [hstate, batch_state, hleft]
      exact ⟨fun h => .inr (h ⟨e, he⟩), fun h _ => h.resolve_left hgood⟩

theorem restores_image_iff (s : RcServer M) (stream : StreamId) (rs : List AcfAbbMessage) :
    (rs.filterMap (s.stored stream)).getLast?.getD s.general = s.general ↔ s.RestoresImage stream rs := by
  unfold RestoresImage
  cases (rs.filterMap (s.stored stream)).getLast? <;> simp

/-- What a frame that fails leaves, whatever the endpoints are: the registers as they were exactly
when the requests cannot be read, the frame does not fail, or the last image stored is the present
one; the tables always; the endpoints' memory if the requests it gets to are idle. -/
structure FailureRuled (s : RcServer M) (stream : StreamId) (frame : List UInt8) : Prop where
  registers : ((∃ e, (exec (handle_ntscf_frame stream frame) s).1 = .error e) →
      (exec (handle_ntscf_frame stream frame) s).2.general = s.general) ↔
    ∀ requests, requestsOf frame = .ok requests →
      s.Answerable stream requests ∨ s.RestoresImage stream (s.executedOf stream requests)
  tables : (∃ e, (exec (handle_ntscf_frame stream frame) s).1 = .error e) →
    (exec (handle_ntscf_frame stream frame) s).2.endpoints = s.endpoints ∧
      (exec (handle_ntscf_frame stream frame) s).2.endpoint_impls = s.endpoint_impls
  memory : (∀ requests, requestsOf frame = .ok requests → ∀ r ∈ s.executedOf stream requests, s.Idle stream r) →
    (∃ e, (exec (handle_ntscf_frame stream frame) s).1 = .error e) →
      (exec (handle_ntscf_frame stream frame) s).2.memory = s.memory

theorem failure_ruled (s : RcServer M) (stream : StreamId) (frame : List UInt8) : s.FailureRuled stream frame where
  registers := failure_iff (P := fun t => t.general = s.general) (Q := s.RestoresImage stream) rfl
    (fun rs _ => restores_image_iff s stream rs) frame
  tables := (failure_iff (P := fun t => t.endpoints = s.endpoints ∧ t.endpoint_impls = s.endpoint_impls)
    (Q := fun _ => True) ⟨rfl, rfl⟩ (fun _ _ => iff_of_true ⟨rfl, rfl⟩ trivial) frame).2 fun _ _ => .inr trivial
  memory hidle := (failure_iff (P := fun t => t.memory = s.memory)
    (Q := fun rs => rs.foldl (s.touched stream) s.memory = s.memory) rfl (fun _ _ => Iff.rfl) frame).2
    fun requests hrequests => .inr (idle_memory (hidle requests hrequests) s.memory)

/-- A frame that fails leaves a server with mock endpoints unchanged exactly when it has no requests
that can be read, when it does not fail, or when the last image and the last write to each buffer
among the requests it gets to are of what is there. -/
theorem failed_frame_unchanged_iff (s : RcServer M) (stream : StreamId) (frame : List UInt8) :
    s.FailureRuled stream frame ∧
    ∀ (t : RcServer Heap) (mocks : EndpointId → Option Nat),
      (∀ id, t.endpoint_impls id = (mocks id).map MockEndpoint) →
      (((∃ e, (exec (handle_ntscf_frame stream frame) t).1 = .error e) →
          t.Unchanged (exec (handle_ntscf_frame stream frame) t).2) ↔
        ∀ requests, requestsOf frame = .ok requests → t.Answerable stream requests ∨
          t.RestoresImage stream (t.executedOf stream requests) ∧
            t.RestoresBuffers mocks stream (t.executedOf stream requests)) := by
  refine ⟨failure_ruled s stream frame, fun t mocks hmocks => ?_⟩
  -- a batch leaves the last image and the last write to each buffer
  refine failure_iff (P := t.Unchanged)
    (Q := fun rs => t.RestoresImage stream rs ∧ t.RestoresBuffers mocks stream rs)
    ⟨rfl, rfl, rfl, rfl⟩ (fun rs sequence_num => ?_) frame
  rw [← restores_image_iff, ← restores_buffers_iff hmocks]
  exact ⟨fun h => ⟨h.general, h.memory⟩, fun h => ⟨h.1, h.2, rfl, rfl⟩⟩

/-- The root client writes to endpoint 5 the byte it holds, and then a short register image: the frame is
refused, and nothing has changed. -/
theorem failed_frame_unchanged_iff_rewrite :
    RcServer.Unchanged
      (exec (register_endpoint ⟨#v[2, 0, 0, 0, 0, 1], 1⟩ 5 (MockEndpoint 0))
        ((new {} [[7]]).set_root_client (some ⟨#v[2, 0, 0, 0, 0, 1], 1⟩))).2
      (exec (handle_ntscf_frame ⟨#v[2, 0, 0, 0, 0, 1], 1⟩
        [0x82, 0x80, 24, 0, 2, 0, 0, 0, 0, 1, 0, 1, 0x1C, 3, 0xC0, 5, 0, 1, 0x80, 0, 7, 0, 0, 0,
          0x1C, 3, 0xC0, 0, 0, 2, 0x80, 0, 0xAA, 0, 0, 0])
        (exec (register_endpoint ⟨#v[2, 0, 0, 0, 0, 1], 1⟩ 5 (MockEndpoint 0))
          ((new {} [[7]]).set_root_client (some ⟨#v[2, 0, 0, 0, 0, 1], 1⟩))).2).2 := by
  have hmocks : ∀ id, (exec (register_endpoint ⟨#v[2, 0, 0, 0, 0, 1], 1⟩ 5 (MockEndpoint 0))
      ((new {} [[7]]).set_root_client (some ⟨#v[2, 0, 0, 0, 0, 1], 1⟩))).2.endpoint_impls id =
        (if id = 0 then some 0 else none : Option Nat).map MockEndpoint := by
    intro id
    by_cases hid : id = 0
    · subst hid
      rfl
    · simp only [hid, if_false, Option.map_none]
      exact Function.update_of_ne hid _ _
  refine ((failed_frame_unchanged_iff (new {} [] : RcServer Heap) _ _).2 _ _ hmocks).2
    (fun requests hrequests => .inr ?_) ⟨.ShortFrame, by decide +kernel⟩
  have hboth : requestsOf [0x82, 0x80, 24, 0, 2, 0, 0, 0, 0, 1, 0, 1, 0x1C, 3, 0xC0, 5, 0, 1, 0x80, 0, 7, 0, 0, 0,
      0x1C, 3, 0xC0, 0, 0, 2, 0x80, 0, 0xAA, 0, 0, 0] = .ok [
        { info := { acf_msg_type := 0x0E, acf_msg_length := 3, pad := 3, byte_bus_id := 5, transaction_num := 1,
                    op := true }
          payload := [7] },
        { info := { acf_msg_type := 0x0E, acf_msg_length := 3, pad := 3, transaction_num := 2, op := true }
          payload := [0xAA] }] := by decide +kernel
  rw [hboth] at hrequests
  cases hrequests
  rw [← restores_image_iff, ← restores_buffers_iff hmocks]
  decide +kernel

/-- A whole register image, then a short one: the first is stored though the frame fails. -/
theorem failed_frame_changes_registers :
    ¬ ∀ (s : RcServer Heap) (stream : StreamId) (frame : List UInt8), s.Reachable →
      (∃ e, (exec (handle_ntscf_frame stream frame) s).1 = .error e) →
        s.Unchanged (exec (handle_ntscf_frame stream frame) s).2 := by
  intro h
  have hbad := h ((new {} []).set_root_client (some ⟨#v[2, 0, 0, 0, 0, 1], 1⟩)) ⟨#v[2, 0, 0, 0, 0, 1], 1⟩
    ([0x82, 0x80, 88, 0, 2, 0, 0, 0, 0, 1, 0, 1, 0x1C, 19, 0xC0, 0, 0, 1, 0x80, 0, 0xAA] ++ List.replicate 67 0 ++
      [0x1C, 3, 0xC0, 0, 0, 2, 0x80, 0, 0xAA, 0, 0, 0])
    ⟨{}, [], [.root (some ⟨#v[2, 0, 0, 0, 0, 1], 1⟩)], rfl⟩ ⟨.ShortFrame, by decide +kernel⟩
  exact absurd hbad.general (by decide +kernel)

/-! ## Extent -/

/-- The requests of a frame are read from all the bytes after its header, whatever length the
header declares: the frame is answered as these requests are, appended messages are executed too,
other appended bytes refuse the frame, and a cut frame is the requests that the bytes kept after
the header spell out, or is refused. -/
theorem frame_reads_all_bytes (s : RcServer M) (stream : StreamId) (frame acf : List UInt8) (hdr : NtscfHeader)
    (requests : List AcfAbbMessage) (hframe : decode_ntscf_frame frame = .ok (hdr, acf))
    (hrs : decode_acf_abb_messages acf = .ok requests) :
    (∀ frame' hdr', decode_ntscf_frame frame' = .ok (hdr', acf) →
      exec (handle_ntscf_frame stream frame') s = exec (answer_requests stream requests) s) ∧
    (∀ t more, decode_acf_abb_messages t = .ok more →
      exec (handle_ntscf_frame stream (frame ++ t)) s = exec (answer_requests stream (requests ++ more)) s) ∧
    (∀ t e, t ≠ [] → decode_acf_abb_messages t = .error e →
      exec (handle_ntscf_frame stream (frame ++ t)) s = (.error e, s)) ∧
    ∀ n, n < frame.length → match decode_acf_abb_messages ((frame.take n).drop NTSCF_HEADER_LEN) with
      | .ok before => (∃ rest, rest ≠ [] ∧ requests = before ++ rest) ∧
          exec (handle_ntscf_frame stream (frame.take n)) s = exec (answer_requests stream before) s
      | .error _ => ∃ e, exec (handle_ntscf_frame stream (frame.take n)) s = (.error e, s) := by
  refine ⟨?_, ?_, ?_, ?_⟩
  · intro frame' hdr' hframe'
    rw [handle_frame_eq, requestsOf_decoded hframe', hrs]
  · -- the reader goes on behind the last message
    intro t more ht
    have hne : t ≠ [] := (decode_messages_ok.1 ht).1
    rw [handle_frame_eq, requestsOf_decoded (decode_ntscf_frame_append hframe t), decode_messages_append hrs hne, ht]
    rfl
  · intro t e hne ht
    rw [handle_frame_eq, requestsOf_decoded (decode_ntscf_frame_append hframe t), decode_messages_append hrs hne, ht]
    rfl
  · intro n hn
    rw [handle_frame_eq]
    rcases Nat.lt_or_ge n NTSCF_HEADER_LEN with hshort | hlong
    · -- no whole header is left, and no byte behind it
      have hnone : (frame.take n).drop NTSCF_HEADER_LEN = [] :=
        List.drop_eq_nil_of_le ((List.length_take_le n frame).trans hshort.le)
      have hrefused : ∃ e, requestsOf (frame.take n) = .error e := by
        cases hcut : requestsOf (frame.take n) with
        | error e => exact ⟨e, rfl⟩
        | ok before =>
          obtain ⟨⟨hdr', kept⟩, hkept, -⟩ := bind_ok_iff.1 hcut
          have hlen := decode_ntscf_header_length (decode_ntscf_frame_ok.1 hkept).1
          rw [List.length_take] at hlen
          omega
      obtain ⟨e, he⟩ := hrefused
      rw [hnone, he]
      exact ⟨e, rfl⟩
    · have hkept : decode_ntscf_frame (frame.take n) = .ok (hdr, (frame.take n).drop NTSCF_HEADER_LEN) := by
        refine decode_ntscf_frame_ok.2 ⟨?_, rfl⟩
        rw [← decode_ntscf_header_append (by rw [List.length_take]; omega) (frame.drop n), List.take_append_drop]
        exact (decode_ntscf_frame_ok.1 hframe).1
      have hwhole := decode_ntscf_frame_append hkept (frame.drop n)
      rw [List.take_append_drop, hframe] at hwhole
      obtain ⟨-, rfl⟩ := Prod.mk.inj (Except.ok.inj hwhole)
      rw [requestsOf_decoded hkept]
      cases hbefore : decode_acf_abb_messages ((frame.take n).drop NTSCF_HEADER_LEN) with
      | error e => exact ⟨e, rfl⟩
      | ok before =>
        -- what was cut off follows the messages that were kept
        have hoff : frame.drop n ≠ [] := by
          rw [Ne, List.drop_eq_nil_iff]
          omega
        rw [decode_messages_append hbefore hoff] at hrs
        cases hmore : decode_acf_abb_messages (frame.drop n) with
        | error e => rw [hmore] at hrs; cases hrs
        | ok rest =>
          rw [hmore] at hrs
          cases hrs
          exact ⟨⟨rest, (decode_messages_pieces hmore).1, rfl⟩, rfl⟩

/-- A read with a second one appended, and the two of them cut between the messages. -/
theorem frame_reads_all_bytes_two :
    exec (handle_ntscf_frame ⟨#v[2, 0, 0, 0, 0, 1], 1⟩
        ([0x82, 0x80, 8, 0, 2, 0, 0, 0, 0, 1, 0, 1, 0x1C, 2, 0, 0, 0, 1, 0, 0] ++ [0x1C, 2, 0, 0, 0, 2, 0, 0]))
        (new {} [] : RcServer Heap) =
      exec (answer_requests ⟨#v[2, 0, 0, 0, 0, 1], 1⟩
        ([{ info := { acf_msg_type := 0x0E, acf_msg_length := 2, transaction_num := 1 } }] ++
          [{ info := { acf_msg_type := 0x0E, acf_msg_length := 2, transaction_num := 2 } }])) (new {} []) ∧
    exec (handle_ntscf_frame ⟨#v[2, 0, 0, 0, 0, 1], 1⟩
        ([0x82, 0x80, 16, 0, 2, 0, 0, 0, 0, 1, 0, 1, 0x1C, 2, 0, 0, 0, 1, 0, 0, 0x1C, 2, 0, 0, 0, 2, 0, 0].take 20))
        (new {} [] : RcServer Heap) =
      exec (answer_requests ⟨#v[2, 0, 0, 0, 0, 1], 1⟩
        [{ info := { acf_msg_type := 0x0E, acf_msg_length := 2, transaction_num := 1 } }]) (new {} []) := by
  constructor
  · exact (frame_reads_all_bytes (new {} []) ⟨#v[2, 0, 0, 0, 0, 1], 1⟩
      [0x82, 0x80, 8, 0, 2, 0, 0, 0, 0, 1, 0, 1, 0x1C, 2, 0, 0, 0, 1, 0, 0] [0x1C, 2, 0, 0, 0, 1, 0, 0]
      { ntscf_data_length := 8, stream_id := 0x0200000000010001 } _ (by decide +kernel) (by decide +kernel)).2.1 _ _
      (by decide +kernel)
  · have hcut := (frame_reads_all_bytes (new {} [] : RcServer Heap) ⟨#v[2, 0, 0, 0, 0, 1], 1⟩
      [0x82, 0x80, 16, 0, 2, 0, 0, 0, 0, 1, 0, 1, 0x1C, 2, 0, 0, 0, 1, 0, 0, 0x1C, 2, 0, 0, 0, 2, 0, 0]
      [0x1C, 2, 0, 0, 0, 1, 0, 0, 0x1C, 2, 0, 0, 0, 2, 0, 0]
      { ntscf_data_length := 16, stream_id := 0x0200000000010001 }
      [{ info := { acf_msg_type := 0x0E, acf_msg_length := 2, transaction_num := 1 } },
        { info := { acf_msg_type := 0x0E, acf_msg_length := 2, transaction_num := 2 } }]
      (by decide +kernel) (by decide +kernel)).2.2.2 20 (by decide)
    have hkept : decode_acf_abb_messages (([0x82, 0x80, 16, 0, 2, 0, 0, 0, 0, 1, 0, 1, 0x1C, 2, 0, 0, 0, 1, 0, 0,
        0x1C, 2, 0, 0, 0, 2, 0, 0].take 20).drop NTSCF_HEADER_LEN) =
          .ok [{ info := { acf_msg_type := 0x0E, acf_msg_length := 2, transaction_num := 1 } }] := by decide +kernel
    rw [hkept] at hcut
    exact hcut.2

/-- A second read behind the declared eight octets is answered too. -/
theorem appended_request_executed :
    ¬ ∀ (s : RcServer Heap) (stream : StreamId) (frame acf : List UInt8) (hdr : NtscfHeader), s.Reachable →
      decode_ntscf_frame frame = .ok (hdr, acf) →
      (∀ t, hdr.ntscf_data_length.toNat ≤ acf.length →
        exec (handle_ntscf_frame stream (frame ++ t)) s = exec (handle_ntscf_frame stream frame) s) ∧
      (acf.length < hdr.ntscf_data_length.toNat →
        ∃ e, exec (handle_ntscf_frame stream frame) s = (.error e, s)) := by
  intro h
  obtain ⟨happend, -⟩ := h (new {} []) ⟨#v[2, 0, 0, 0, 0, 1], 1⟩
    [0x82, 0x80, 8, 0, 2, 0, 0, 0, 0, 1, 0, 1, 0x1C, 2, 0, 0, 0, 1, 0, 0] [0x1C, 2, 0, 0, 0, 1, 0, 0]
    { ntscf_data_length := 8, stream_id := 0x0200000000010001 } ⟨{}, [], [], rfl⟩ (by decide +kernel)
  have hsame := congrArg Prod.fst (happend [0x1C, 2, 0, 0, 0, 2, 0, 0] (by decide))
  revert hsame
  decide +kernel

end RcServer

end RustRcp
