import RustRcp.Batch
/-!
# Batches at the server

`replyOctets` is the length of the server's answer to a request. Of what a request
changes, later answers of its batch depend only on the endpoints' memory
(`summed_handle_abb`), so that is all a batch's fate depends on.
-/
open Stateful

namespace RustRcp

namespace RcServer
variable {M : Type}

/-! ## The states a batch meets -/

/-- Octets of the answer to a request that meets the endpoints' memory in this state. -/
def replyOctets (s : RcServer M) (stream : StreamId) (memory : M) (request : AcfAbbMessage) : Option Nat :=
  if request.info.byte_bus_id = EP0_BYTE_BUS_ID then
    if request.info.op then
      if s.root_client = some stream then
        if GeneralRegisters.ENCODED_LEN ≤ request.payload.length then some (encodedLength 0) else none
      else some (encodedLength 1)
    else some (encodedLength GeneralRegisters.ENCODED_LEN)
  else match s.endpointFor stream request.info.byte_bus_id with
    | none => some (encodedLength 1)
    | some endpoint => answerOctets (exec (endpoint.call request) memory).1

theorem octets_handle_abb (s : RcServer M) (stream : StreamId) (request : AcfAbbMessage) :
    octets (handle_abb stream) s request = s.replyOctets stream s.memory request := by
  have hpayload : AcfAbbMessage.payload <$> (exec (handle_abb stream request) s).1 = s.reply stream request := by
    rw [handle_abb_spec]
    cases s.reply stream request <;> rfl
  rw [octets, hpayload]
  unfold reply replyOctets
  -- only a root client's short image has no answer at endpoint zero
  by_cases hep0 : request.info.byte_bus_id = EP0_BYTE_BUS_ID
  · by_cases hop : request.info.op = true
    · by_cases hroot : s.root_client = some stream
      · by_cases hlen : GeneralRegisters.ENCODED_LEN ≤ request.payload.length
        · obtain ⟨g, hg⟩ := (GeneralRegisters.decode_ok_iff _).2 hlen
          simp only [hep0, hop, hroot, hlen, hg, if_true, ok_map]
          rfl
        · simp only [hep0, hop, hroot, hlen, GeneralRegisters.decode_short (Nat.lt_of_not_le hlen), if_true, if_false,
            error_map]
          rfl
      · simp only [hep0, hop, hroot, if_true, if_false]
        rfl
    · have hfit : FitsLength (ACF_ABB_HEADER_LEN + GeneralRegisters.ENCODED_LEN) := by decide
      simp only [hep0, hop, if_true, Bool.false_eq_true, if_false, answerOctets, GeneralRegisters.encode_length]
      exact if_pos hfit
  · simp only [hep0, if_false]
    cases s.endpointFor stream request.info.byte_bus_id with
    | none => rfl
    | some endpoint => rfl

/-- The parts of the server no request of a batch changes. -/
structure SameService (s t : RcServer M) : Prop where
  root_client : t.root_client = s.root_client
  endpoints : t.endpoints = s.endpoints
  endpoint_impls : t.endpoint_impls = s.endpoint_impls

theorem dispatched_handle_abb (s : RcServer M) (stream : StreamId) (request : AcfAbbMessage) :
    dispatched (handle_abb stream) s request = s.settled stream request := by
  rw [dispatched, handle_abb_spec]

variable {s t : RcServer M} {stream : StreamId}

theorem SameService.endpointFor (h : SameService s t) (byte_bus_id : UInt16) :
    t.endpointFor stream byte_bus_id = s.endpointFor stream byte_bus_id := by
  rw [RcServer.endpointFor, h.endpoints, h.endpoint_impls, ← RcServer.endpointFor]

theorem SameService.touched (h : SameService s t) : t.touched stream = s.touched stream := by
  funext memory request
  simp only [RcServer.touched, h.endpointFor]

theorem SameService.replyOctets (h : SameService s t) : t.replyOctets stream = s.replyOctets stream := by
  funext memory request
  simp only [RcServer.replyOctets, h.endpointFor, h.root_client]

theorem SameService.stored (h : SameService s t) : t.stored stream = s.stored stream := by
  funext request
  simp only [RcServer.stored, h.root_client]

/-- One request, seen by the endpoints' memory. -/
theorem SameService.step (h : SameService s t) (request : AcfAbbMessage) :
    SameService s (dispatched (handle_abb stream) t request) ∧
      (dispatched (handle_abb stream) t request).memory = s.touched stream t.memory request := by
  rw [dispatched_handle_abb, ← h.touched]
  exact ⟨⟨h.1, h.2, h.3⟩, rfl⟩

theorem sameService_refl (s : RcServer M) : SameService s s := ⟨rfl, rfl, rfl⟩

theorem fieldsKept_handle_abb (stream : StreamId) : FieldsKept (handle_abb (M := M) stream) := by
  intro s request m hf hm
  rw [handle_abb_spec] at hm
  cases hreply : s.reply stream request with
  | error e => rw [hreply] at hm; cases hm
  | ok payload =>
    rw [hreply] at hm
    cases hm
    exact ⟨hf.1, hf.2, hf.3⟩

/-- To a batch the server is the endpoints' memory. -/
theorem summed_handle_abb (s : RcServer M) (stream : StreamId) :
    Summed (handle_abb stream) (SameService s) RcServer.memory (s.touched stream) (s.replyOctets stream) where
  step _ r ht := ht.step r
  size t r ht := by rw [octets_handle_abb, ht.replyOctets]
  kept := fieldsKept_handle_abb stream

/-- The requests a batch gets to: all of them up to and including the first without an answer. -/
def executedOf (s : RcServer M) (stream : StreamId) (requests : List AcfAbbMessage) : List AcfAbbMessage :=
  executed (s.touched stream) (fun memory r => (s.replyOctets stream memory r).isSome = true) s.memory requests

/-- After requests the registers are the last image stored, and the memory what the endpoints made of it. -/
theorem batch_state (s : RcServer M) (stream : StreamId) (rs : List AcfAbbMessage) :
    rs.foldl (dispatched (handle_abb stream)) s =
      { s with
        general := (rs.filterMap (s.stored stream)).getLast?.getD s.general
        memory := rs.foldl (s.touched stream) s.memory } := by
  induction rs generalizing s with
  | nil => rfl
  | cons r rs ih =>
    have hsame : SameService s (s.settled stream r) := ⟨rfl, rfl, rfl⟩
    rw [List.foldl_cons, dispatched_handle_abb, ih, hsame.stored, hsame.touched, List.filterMap_cons]
    cases hr : s.stored stream r with
    | none => simp [settled, hr]
    | some g => simp [settled, hr, List.getLast?_cons]

/-! ## Answering a frame -/

/-- Every request of a batch has an answer in the state it meets, and the answers together fit a frame. -/
abbrev Answerable (s : RcServer M) (stream : StreamId) (requests : List AcfAbbMessage) : Prop :=
  RustRcp.Answerable (s.touched stream) (s.replyOctets stream) s.memory requests

/-- A response names the endpoint and the transaction of its request. -/
def Echoes (request response : AcfAbbMessage) : Prop :=
  response.info.byte_bus_id = request.info.byte_bus_id ∧
    response.info.transaction_num = request.info.transaction_num

theorem answer_echoes {s : RcServer M} {stream : StreamId} {request m : AcfAbbMessage}
    (h : AnswerTo request (exec (handle_abb stream request) s).1 m) : Echoes request m.onWire := by
  rcases h with h | ⟨e, -, hm⟩
  · simp only [Echoes, AcfAbbMessage.onWire, wireInfo, handle_abb_info s stream h]
    exact ⟨trivial, trivial⟩
  · have hinfo := (error_response_fields hm).1
    simp only [Echoes, AcfAbbMessage.onWire, wireInfo, hinfo]
    exact ⟨trivial, trivial⟩

/-- A batch that is answerable is answered in order, in one frame. -/
theorem answer_requests_ok {s : RcServer M} {stream : StreamId} {rs : List AcfAbbMessage} (hne : rs ≠ [])
    (hrs : ∀ r ∈ rs, r.info.FieldsFit) (h : s.Answerable stream rs) :
    ∃ out hdr acf responses, (exec (answer_requests stream rs) s).1 = .ok out ∧
      decode_ntscf_frame out = .ok (hdr, acf) ∧ decode_acf_abb_messages acf = .ok responses ∧
      List.Forall₂ Echoes rs responses := by
  obtain ⟨bytes, msgs, hrun, hfit, hdec, hans⟩ :=
    (s.summed_handle_abb stream).batch_ok s.sameService_refl hne hrs h
  have hechoes : List.Forall₂ Echoes rs (msgs.map AcfAbbMessage.onWire) :=
    answers_in_order (fun t r m hm => answer_echoes hm) hans
  have hexec : (exec (answer_requests stream rs) s).1 = .ok (ntscf_header_octets (frame_header stream
      (rs.foldl (dispatched (handle_abb stream)) s).sequence_num.toUInt8 bytes) ++ bytes) := by
    unfold answer_requests
    rw [exec_bind_ok hrun]
    simp only [exec_bind, exec_get, exec_modify, exec_ofExcept, encode_ntscf_frame_ok hfit]
  exact ⟨_, _, _, _, hexec, decode_ntscf_frame_encoded (frame_header_fits hfit) _, hdec, hechoes⟩

/-- A batch that is not answerable fails, and the requests it got to stay done. -/
theorem answer_requests_error {s : RcServer M} {stream : StreamId} {rs : List AcfAbbMessage}
    (hrs : ∀ r ∈ rs, r.info.FieldsFit) (h : ¬ s.Answerable stream rs) :
    ∃ e, (exec (answer_requests stream rs) s).1 = .error e ∧ ∃ sequence_num, (exec (answer_requests stream rs) s).2 =
      { (s.executedOf stream rs).foldl (dispatched (handle_abb stream)) s with sequence_num } := by
  obtain ⟨result, hrun, hlong⟩ := (s.summed_handle_abb stream).batch_error s.sameService_refl hrs h
  unfold answer_requests
  cases result with
  | error e =>
    rw [exec_bind_error hrun]
    exact ⟨e, rfl, _, rfl⟩
  | ok bytes =>
    rw [exec_bind_ok hrun]
    simp only [exec_bind, exec_get, exec_modify, exec_ofExcept, encode_ntscf_frame_error (hlong bytes rfl)]
    exact ⟨_, rfl, _, rfl⟩

end RcServer

end RustRcp
