import RustRcp.Mock
import RustRcp.AcfCodec
/-!
# What a request does to the server

`handle_abb_spec` sums up `handle_abb`: what it answers, which register image it
stores and which endpoint it touches. Root client and endpoint table stay, so what
a later request of a batch meets depends only on the endpoints' memory.
-/
open Stateful

namespace RustRcp

/-- What a request asks of the endpoint it is for. -/
def Endpoint.call {M : Type} (endpoint : Endpoint M) (request : AcfAbbMessage) :
    Stateful RcpError M (List UInt8) :=
  if request.info.op then do
    endpoint.write request.payload
    return []
  else endpoint.read request.info.read_size_segment.as_read_size

/-- What a request does to the buffer in a cell. -/
theorem mock_call (buf : Nat) (request : AcfAbbMessage) (heap : Heap) :
    exec ((MockEndpoint buf).call request) heap =
      if request.info.op then (.ok [], heap.set buf request.payload)
      else (.ok ((heap.getD buf []).take (min request.info.read_size_segment.as_read_size.toNat
        (heap.getD buf []).length)), heap) := by
  unfold Endpoint.call MockEndpoint
  by_cases hop : request.info.op = true
  · simp [hop]
  · simp [hop]

/-- The response that gives `payload` back to a request. -/
def AcfAbbMessage.response (request : AcfAbbMessage) (payload : List UInt8) : AcfAbbMessage :=
  { info := { request.info with rsp := true }, payload }

namespace RcServer
variable {M : Type} (s : RcServer M) (stream : StreamId)

/-- The implementation that answers for an endpoint. -/
def endpointFor (byte_bus_id : UInt16) : Option (Endpoint M) :=
  (s.endpoints.lookup stream byte_bus_id).bind s.endpoint_impls

/-- The payload a request is answered with. -/
def reply (request : AcfAbbMessage) : Except RcpError (List UInt8) :=
  if request.info.byte_bus_id = EP0_BYTE_BUS_ID then
    if request.info.op then
      if s.root_client = some stream then (fun _ => []) <$> GeneralRegisters.decode request.payload
      else .error .UnauthorizedAccess
    else .ok s.general.encode
  else match s.endpointFor stream request.info.byte_bus_id with
    | none => .error .EpNotFound
    | some endpoint => (exec (endpoint.call request) s.memory).1

/-- The register image a request stores: a complete one from the root client. -/
def stored (request : AcfAbbMessage) : Option GeneralRegisters :=
  if request.info.byte_bus_id = EP0_BYTE_BUS_ID ∧ request.info.op = true ∧ s.root_client = some stream then
    (GeneralRegisters.decode request.payload).toOption
  else none

/-- The endpoints' memory after a request. -/
def touched (memory : M) (request : AcfAbbMessage) : M :=
  if request.info.byte_bus_id = EP0_BYTE_BUS_ID then memory
  else match s.endpointFor stream request.info.byte_bus_id with
    | none => memory
    | some endpoint => (exec (endpoint.call request) memory).2

/-- The server after a request. -/
def settled (request : AcfAbbMessage) : RcServer M :=
  { s with
    general := (s.stored stream request).getD s.general
    memory := s.touched stream s.memory request }

theorem ep0_payload_spec {request : AcfAbbMessage} (h : request.info.byte_bus_id = EP0_BYTE_BUS_ID) :
    exec (ep0_payload stream request) s = (s.reply stream request, s.settled stream request) := by
  by_cases hop : request.info.op = true
  · by_cases hroot : s.root_client = some stream
    · cases hdec : GeneralRegisters.decode request.payload with
      | error e =>
        simp [ep0_payload, exec_bind, general_access, reply, settled, stored, touched, h, hop, hroot, hdec,
          Except.toOption]
        rw [← hroot]
      | ok g =>
        simp [ep0_payload, exec_bind, general_access, reply, settled, stored, touched, h, hop, hroot, hdec,
          Except.toOption]
    · simp [ep0_payload, exec_bind, general_access, reply, settled, stored, touched, h, hop, hroot]
  · simp [ep0_payload, exec_bind, general_access, reply, settled, stored, touched, h, hop]

theorem endpoint_payload_spec {request : AcfAbbMessage} (h : request.info.byte_bus_id ≠ EP0_BYTE_BUS_ID) :
    exec (endpoint_payload stream request) s = (s.reply stream request, s.settled stream request) := by
  unfold endpoint_payload
  simp only [exec_bind, exec_get, reply, settled, stored, touched, endpointFor, h, false_and, if_false,
    Option.getD_none]
  cases hid : s.endpoints.lookup stream request.info.byte_bus_id with
  | none => simp
  | some id =>
    cases himpl : s.endpoint_impls id with
    | none => simp [himpl]
    | some endpoint =>
      by_cases hop : request.info.op = true
      · cases hrun : exec (endpoint.write request.payload) s.memory with
        | mk r m =>
          cases r <;> simp [himpl, hop, on_memory, Endpoint.call, hrun]
      · simp [himpl, hop, on_memory, Endpoint.call]

/-- What `handle_abb` answers and what it leaves behind. -/
theorem handle_abb_spec (request : AcfAbbMessage) :
    exec (handle_abb stream request) s =
      (request.response <$> s.reply stream request, s.settled stream request) := by
  have hpayload : exec (response_payload stream request) s = (s.reply stream request, s.settled stream request) := by
    unfold response_payload route_byte_bus_id is_ep0_address
    -- endpoint zero is the registers, any other number a device
    by_cases h : request.info.byte_bus_id = EP0_BYTE_BUS_ID
    · simp only [h, beq_self_eq_true, if_true]
      exact ep0_payload_spec s stream h
    · simp only [beq_eq_false_iff_ne.2 h, Bool.false_eq_true, if_false]
      exact endpoint_payload_spec s stream h
  -- the response info is the request's own, so the echo check cannot fail
  unfold handle_abb
  rw [exec_bind, hpayload]
  cases s.reply stream request <;>
    simp [verify_echo_back, build_response_info, AcfAbbMessage.response]

/-- A response has its request's header. -/
theorem handle_abb_info {request m : AcfAbbMessage} (h : (exec (handle_abb stream request) s).1 = .ok m) :
    m.info = { request.info with rsp := true } := by
  rw [handle_abb_spec] at h
  cases hreply : s.reply stream request with
  | error e =>
    rw [hreply] at h
    cases h
  | ok payload =>
    rw [hreply] at h
    cases h
    rfl

/-- Requests for an address are calls of one implementation. -/
def ServedBy (s : RcServer M) (stream_id : StreamId) (byte_bus_id : UInt16) (endpoint : Endpoint M) : Prop :=
  ∀ request, request.info.byte_bus_id = byte_bus_id →
    exec (handle_abb stream_id request) s =
      (request.response <$> (exec (endpoint.call request) s.memory).1,
        { s with memory := (exec (endpoint.call request) s.memory).2 })

variable {s stream}

theorem served_by {bus : UInt16} {endpoint : Endpoint M} (hep : bus ≠ EP0_BYTE_BUS_ID)
    (h : s.endpointFor stream bus = some endpoint) : ServedBy s stream bus endpoint := by
  rintro request rfl
  rw [handle_abb_spec]
  simp only [reply, settled, stored, touched, h, hep, false_and, if_false, Option.getD_none]

/-- The registers are served by no implementation: one that refuses every call is not asked. -/
theorem not_served_by_ep0 (s : RcServer M) (stream : StreamId) :
    ¬ ServedBy s stream EP0_BYTE_BUS_ID { read := fun _ => throw .EpError, write := fun _ => throw .EpError } := by
  intro h
  have hread := congrArg Prod.fst (h { info := { byte_bus_id := EP0_BYTE_BUS_ID } } rfl)
  rw [handle_abb_spec] at hread
  cases hread

end RcServer

end RustRcp
