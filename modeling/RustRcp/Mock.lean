import RustRcp.Access
import RustRcp.Regmap
import RustRcp.Lib.Stateful
/-!
# The RC server

Registers, root client and endpoints, and what a request does to them
(`src/mock.rs`). Endpoints act on a memory `M` they share, as objects behind `Arc`
do; `MockEndpoint` keeps its buffer in one cell of a heap of buffers.
-/
open Stateful

namespace RustRcp

/-! ## Endpoints -/

/-- An implementation of the trait: what a read and a write do to the memory. -/
structure Endpoint (M : Type) where
  read : UInt16 → Stateful RcpError M (List UInt8)
  write : List UInt8 → Stateful RcpError M Unit

/-- Buffers behind their mutexes. -/
abbrev Heap := List (List UInt8)

/-- The mock endpoint whose buffer is cell `buf`. -/
def MockEndpoint (buf : Nat) : Endpoint Heap where
  read read_size := do
    let held := (← get).getD buf []
    let n := min read_size.toNat held.length
    return held.take n
  write payload := modify fun heap => heap.set buf payload

/-- What the trait can be asked. -/
inductive Access where
  | read (read_size : UInt16)
  | write (payload : List UInt8)
  deriving DecidableEq

def Access.is_write : Access → Bool
  | .read _ => false
  | .write _ => true

/-- Ask it. A write that succeeds has no bytes to answer with. -/
def Endpoint.perform {M : Type} (endpoint : Endpoint M) : Access → Stateful RcpError M (List UInt8)
  | .read read_size => endpoint.read read_size
  | .write payload => do
    endpoint.write payload
    return []

/-- A mock endpoint answers with the front of its buffer, or takes a new one. It never fails. -/
theorem mock_perform (buf : Nat) (access : Access) (heap : Heap) :
    exec ((MockEndpoint buf).perform access) heap =
      match access with
      | .read read_size => (.ok ((heap.getD buf []).take (min read_size.toNat (heap.getD buf []).length)), heap)
      | .write payload => (.ok [], heap.set buf payload) := by
  cases access <;> simp [Endpoint.perform, MockEndpoint]

/-! ## The server -/

structure RcServer (M : Type) where
  state : RcServerState := .INITIAL
  general : GeneralRegisters
  root_client : Option StreamId := none
  endpoints : EndpointTable := {}
  endpoint_impls : EndpointId → Option (Endpoint M) := fun _ => none
  next_endpoint_id : UInt32 := 0
  sequence_num : UInt32 := 0
  /-- What the endpoint implementations keep. -/
  memory : M

namespace RcServer
variable {M : Type}

def new (general : GeneralRegisters) (memory : M) : RcServer M := { general, memory }

def try_transition (target : RcServerState) (is_consistent : Bool) : Stateful RcpError (RcServer M) Unit := do
  let self ← get
  let new_state ← MonadExcept.ofExcept (self.state.try_transition target is_consistent)
  set { self with state := new_state }

def set_root_client (self : RcServer M) (stream : Option StreamId) : RcServer M := { self with root_client := stream }

def register_endpoint (stream_id : StreamId) (byte_bus_id : UInt16) (endpoint : Endpoint M) :
    Stateful RcpError (RcServer M) EndpointId := do
  let id := (← get).next_endpoint_id
  let endpoints ← MonadExcept.ofExcept ((← get).endpoints.register stream_id byte_bus_id id)
  modify fun self => { self with endpoints }
  modify fun self => { self with next_endpoint_id := self.next_endpoint_id + 1 }
  modify fun self => { self with endpoint_impls := Function.update self.endpoint_impls id (some endpoint) }
  return id

/-- Run an endpoint's method on the memory. -/
def on_memory {α : Type} (x : Stateful RcpError M α) : Stateful RcpError (RcServer M) α :=
  within RcServer.memory (fun self memory => { self with memory }) x

/-- The `Ep0` arm of the match in `handle_abb`. -/
def ep0_payload (stream_id : StreamId) (request : AcfAbbMessage) : Stateful RcpError (RcServer M) (List UInt8) := do
  let self ← get
  MonadExcept.ofExcept (check_ep0_access_for_stream self.state .General request.info stream_id self.root_client)
  if request.info.op then
    let decoded ← MonadExcept.ofExcept (GeneralRegisters.decode request.payload)
    modify fun self => { self with general := decoded }
    return []
  else
    let self ← get
    return self.general.encode

/-- The `DeviceEndpoint` arm. -/
def endpoint_payload (stream_id : StreamId) (request : AcfAbbMessage) :
    Stateful RcpError (RcServer M) (List UInt8) := do
  let self ← get
  let endpoint_id ← MonadExcept.ofExcept
    (ok_or (self.endpoints.lookup stream_id request.info.byte_bus_id) .EpNotFound)
  let endpoint ← MonadExcept.ofExcept (ok_or (self.endpoint_impls endpoint_id) .EpNotFound)
  if request.info.op then
    on_memory (endpoint.write request.payload)
    return []
  else
    on_memory (endpoint.read request.info.read_size_segment.as_read_size)

def response_payload (stream_id : StreamId) (request : AcfAbbMessage) :
    Stateful RcpError (RcServer M) (List UInt8) :=
  match route_byte_bus_id request.info.byte_bus_id with
  | .Ep0 => ep0_payload stream_id request
  | .DeviceEndpoint => endpoint_payload stream_id request

def handle_abb (stream_id : StreamId) (request : AcfAbbMessage) : Stateful RcpError (RcServer M) AcfAbbMessage := do
  let payload ← response_payload stream_id request
  let response_info := build_response_info request.info request.info
  MonadExcept.ofExcept (verify_echo_back request.info response_info)
  return { info := response_info, payload }

end RcServer

/-! ## Batches -/

/-- One turn of the loop over a frame's requests: the encoded response, which is an error
response where `dispatch` fails with an error that has a code. -/
def answer {S : Type} (dispatch : AcfAbbMessage → Stateful RcpError S AcfAbbMessage) (request : AcfAbbMessage) :
    Stateful RcpError S (List UInt8) := do
  let response ← tryCatch (dispatch request) fun e =>
    MonadExcept.ofExcept (ok_or (build_error_response request.info e) e)
  MonadExcept.ofExcept (encode_acf_abb response)

namespace RcServer
variable {M : Type}

/-- `handle_ntscf_frame` once it has the frame's requests. -/
def answer_requests (stream_id : StreamId) (requests : List AcfAbbMessage) :
    Stateful RcpError (RcServer M) (List UInt8) := do
  let response_bytes ← collect (answer (handle_abb stream_id)) requests []
  let seq := (← get).sequence_num.toUInt8
  modify fun self => { self with sequence_num := self.sequence_num + 1 }
  MonadExcept.ofExcept (encode_ntscf_frame stream_id seq response_bytes)

def handle_ntscf_frame (stream_id : StreamId) (frame : List UInt8) :
    Stateful RcpError (RcServer M) (List UInt8) := do
  let (_hdr, acf_bytes) ← MonadExcept.ofExcept (decode_ntscf_frame frame)
  let requests ← MonadExcept.ofExcept (decode_acf_abb_messages acf_bytes)
  answer_requests stream_id requests

/-! ## Runs -/

/-- A call on the server, or a change of the endpoints' memory from outside it. -/
inductive Call (M : Type) where
  | register (stream_id : StreamId) (byte_bus_id : UInt16) (endpoint : Endpoint M)
  | root (stream : Option StreamId)
  | transition (target : RcServerState) (is_consistent : Bool)
  | abb (stream_id : StreamId) (request : AcfAbbMessage)
  | frame (stream_id : StreamId) (frame : List UInt8)
  | outside (memory : M)

def step (self : RcServer M) : Call M → RcServer M
  | .register stream_id byte_bus_id endpoint => (exec (register_endpoint stream_id byte_bus_id endpoint) self).2
  | .root stream => self.set_root_client stream
  | .transition target is_consistent => (exec (try_transition target is_consistent) self).2
  | .abb stream_id request => (exec (handle_abb stream_id request) self).2
  | .frame stream_id frame => (exec (handle_ntscf_frame stream_id frame) self).2
  | .outside memory => { self with memory }

/-- A state some run of calls on a fresh server reaches. -/
def Reachable (s : RcServer M) : Prop :=
  ∃ general memory, ∃ calls : List (Call M), s = calls.foldl step (new general memory)

end RcServer

end RustRcp
