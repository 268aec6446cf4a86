import RustRcp.Server
import RustRcp.Lib.Guarded
/-!
# The root client and the requests under way

`handle_abb` side by side with `set_root_client` and `try_transition` (`src/mock.rs`).
The root client is read under one lock and the registers are replaced under another, so
a client that is no longer root may still write (`root_client_revocation`).
-/
open Stateful Guarded Threads

namespace RustRcp.RootClient

variable {M : Type}

/-! ## Steps -/

inductive Call where
  | abb (stream_id : StreamId) (request : AcfAbbMessage)
  | set_root_client (stream : Option StreamId)
  | try_transition (target : RcServerState) (is_consistent : Bool)

/-- How far a call has come, with what it has read. -/
inductive Phase (M : Type) where
  | idle
  | state_read (state : RcServerState)
  | root_read (state : RcServerState) (root_client : Option StreamId)
  | granted
  | looked_up (endpoint_id : EndpointId)
  | resolved (endpoint : Endpoint M)
  | answered (result : Except RcpError AcfAbbMessage)
  | done (result : Except RcpError Unit)

/-- The last lines of `handle_abb`. -/
def respond (request : AcfAbbMessage) (payload : List UInt8) : Except RcpError AcfAbbMessage := do
  let response_info := build_response_info request.info request.info
  verify_echo_back request.info response_info
  return { info := response_info, payload }

/-- The steps of `handle_abb`, each under one lock or under none. -/
def abb_move (stream_id : StreamId) (request : AcfAbbMessage) (self : RcServer M) :
    Phase M → Option (RcServer M × Phase M)
  | .idle =>
    match route_byte_bus_id request.info.byte_bus_id with
    | .Ep0 => some (self, .state_read self.state)
    | .DeviceEndpoint =>
      match self.endpoints.lookup stream_id request.info.byte_bus_id with
      | none => some (self, .answered (.error .EpNotFound))
      | some endpoint_id => some (self, .looked_up endpoint_id)
  | .state_read state => some (self, .root_read state self.root_client)
  | .root_read state root_client =>
    match check_ep0_access_for_stream state .General request.info stream_id root_client with
    | .error e => some (self, .answered (.error e))
    | .ok () => some (self, .granted)
  | .granted =>
    if request.info.op then
      match GeneralRegisters.decode request.payload with
      | .error e => some (self, .answered (.error e))
      | .ok decoded => some ({ self with general := decoded }, .answered (respond request []))
    else some (self, .answered (respond request self.general.encode))
  | .looked_up endpoint_id =>
    match self.endpoint_impls endpoint_id with
    | none => some (self, .answered (.error .EpNotFound))
    | some endpoint => some (self, .resolved endpoint)
  | .resolved endpoint =>
    let (result, memory) := exec (endpoint.call request) self.memory
    some ({ self with memory }, .answered (result >>= respond request))
  | .answered _ | .done _ => none

variable {ι : Type} (calls : ι → Call)

/-- The other two hold their lock from beginning to end. -/
def move : Move ι (RcServer M) (Phase M) := fun i self phase =>
  match calls i, phase with
  | .abb stream_id request, phase => abb_move stream_id request self phase
  | .set_root_client stream, .idle => some (self.set_root_client stream, .done (.ok ()))
  | .try_transition target is_consistent, .idle =>
    let (result, self) := exec (RcServer.try_transition target is_consistent) self
    some (self, .done result)
  | _, _ => none

/-- The root clients set, the writes that find themselves root, and the general registers replaced. -/
def seen : ι → RcServer M → Phase M → Option (Event ι (Option StreamId)) := fun i self phase =>
  match calls i, phase with
  | .abb stream_id request, .state_read _ =>
    if request.info.op = true ∧ self.root_client = some stream_id then some (.check i) else none
  | .abb _ request, .granted =>
    if request.info.op = true ∧ (GeneralRegisters.decode request.payload).isOk then some (.act i) else none
  | .set_root_client stream, .idle => some (.set stream)
  | _, _ => none

variable {calls} {s s' : RcServer M} {i : ι} {phase phase' : Phase M}

theorem transition_keeps (s : RcServer M) (target : RcServerState) (is_consistent : Bool) :
    (exec (RcServer.try_transition target is_consistent) s).2.general = s.general ∧
      (exec (RcServer.try_transition target is_consistent) s).2.root_client = s.root_client := by
  rw [RcServer.try_transition, exec_bind, exec_get]
  cases htry : s.state.try_transition target is_consistent <;> simp [exec_bind, htry]

/-- A request's step replaces the registers, changes what the endpoints keep, or leaves the server alone. -/
theorem abb_move_cases {stream : StreamId} {request : AcfAbbMessage}
    (h : abb_move stream request s phase = some (s', phase')) :
    (∃ decoded, phase = .granted ∧ request.info.op = true ∧ GeneralRegisters.decode request.payload = .ok decoded ∧
        s' = { s with general := decoded }) ∨
      (∃ memory, s' = { s with memory }) ∨ s' = s := by
  cases phase with
  | granted =>
    simp only [abb_move] at h
    split at h
    · next hop =>
      split at h
      · cases h
        exact .inr (.inr rfl)
      · next decoded hdecode =>
        cases h
        exact .inl ⟨decoded, rfl, hop, hdecode, rfl⟩
    · cases h
      exact .inr (.inr rfl)
  | resolved endpoint =>
    cases h
    exact .inr (.inl ⟨_, rfl⟩)
  | idle | root_read | looked_up =>
    right
    right
    simp only [abb_move] at h
    split at h <;> first | (split at h <;> cases h <;> rfl) | (cases h; rfl)
  | state_read =>
    cases h
    exact .inr (.inr rfl)
  | answered | done => cases h

/-- Nothing but a step that is seen as one replaces the general registers. -/
theorem general_kept (h : move calls i s phase = some (s', phase')) (hseen : seen calls i s phase ≠ some (.act i)) :
    s'.general = s.general := by
  cases hcall : calls i with
  | abb stream request =>
    simp only [move, hcall] at h
    simp only [seen, hcall] at hseen
    obtain ⟨decoded, rfl, hop, hdecode, -⟩ | ⟨memory, rfl⟩ | rfl := abb_move_cases h
    · simp [hop, hdecode, Except.isOk, Except.toBool] at hseen
    · rfl
    · rfl
  | set_root_client stream =>
    cases phase <;> simp only [move, hcall, Option.some.injEq, Prod.mk.injEq, reduceCtorEq] at h
    rw [← h.1]
    rfl
  | try_transition target is_consistent =>
    cases phase <;> simp only [move, hcall, Option.some.injEq, Prod.mk.injEq, reduceCtorEq] at h
    rw [← h.1]
    exact (transition_keeps s target is_consistent).1

theorem abb_root {stream : StreamId} {request : AcfAbbMessage}
    (h : abb_move stream request s phase = some (s', phase')) : s'.root_client = s.root_client := by
  obtain ⟨decoded, -, -, -, rfl⟩ | ⟨memory, rfl⟩ | rfl := abb_move_cases h <;> rfl

/-! ## Replaced root clients -/

variable (calls) in
/-- The root client is the stream a request comes from. -/
def Designates (root_client : Option StreamId) (i : ι) : Prop :=
  ∀ stream_id request, calls i = .abb stream_id request → root_client = some stream_id

variable (calls) in
/-- The call is a write that has found itself root and has not replaced the registers yet. -/
def Ready (i : ι) (phase : Phase M) : Prop :=
  match calls i, phase with
  | .abb stream_id request, .root_read _ root_client => request.info.op = true ∧ root_client = some stream_id
  | .abb _ request, .granted => request.info.op = true
  | _, _ => False

/-- A write goes on only when the root client it has read is its own stream. -/
theorem ready_of_granted {stream : StreamId} {request : AcfAbbMessage} (hcall : calls i = .abb stream request)
    {state : RcServerState} {root : Option StreamId} (hop : request.info.op = true)
    (h : check_ep0_access_for_stream state .General request.info stream root = .ok ()) :
    Ready calls i (.root_read state root : Phase M) := by
  rw [general_access] at h
  by_cases hroot : root = some stream
  · simp [Ready, hcall, hop, hroot]
  · simp [hop, hroot] at h

/-- A step of a request checks its stream for a write, makes the write that was granted, or does neither. -/
theorem step_of_abb_move {stream : StreamId} {request : AcfAbbMessage} (hcall : calls i = .abb stream request)
    (h : move calls i s phase = some (s', phase')) :
    Step (Designates calls) i s.root_client (Ready calls i phase) (Ready calls i phase')
      (seen calls i s phase).toList s'.root_client := by
  simp only [move, hcall] at h
  rw [abb_root h]
  cases phase with
  | state_read state =>
    cases h
    by_cases hwrite : request.info.op = true ∧ s.root_client = some stream
    · have hseen : seen calls i s (.state_read state) = some (.check i) := by simp [seen, hcall, hwrite]
      rw [hseen]
      refine .check fun stream' request' hcall' => ?_
      cases hcall.symm.trans hcall'
      exact hwrite.2
    · have hseen : seen calls i s (.state_read state) = none := by simp [seen, hcall, hwrite]
      rw [hseen]
      exact .idle fun hready => absurd (by simpa [Ready, hcall] using hready) hwrite
  | root_read state root =>
    have hseen : seen calls i s (.root_read state root) = none := by simp [seen, hcall]
    rw [hseen]
    simp only [abb_move] at h
    split at h
    · cases h
      exact .idle (by simp [Ready, hcall])
    · next hgranted =>
      cases h
      exact .idle fun hop => ready_of_granted hcall (by simpa [Ready, hcall] using hop) hgranted
  | granted =>
    simp only [abb_move] at h
    by_cases hop : request.info.op = true
    · rw [if_pos hop] at h
      cases hdecode : GeneralRegisters.decode request.payload with
      | error e =>
        have hseen : seen calls i s .granted = none := by simp [seen, hcall, hdecode, Except.isOk, Except.toBool]
        rw [hdecode] at h
        cases h
        rw [hseen]
        exact .idle (by simp [Ready, hcall])
      | ok decoded =>
        have hseen : seen calls i s .granted = some (.act i) := by
          simp [seen, hcall, hop, hdecode, Except.isOk, Except.toBool]
        rw [hdecode] at h
        cases h
        rw [hseen]
        exact .act (by simpa [Ready, hcall] using hop) (by simp [Ready, hcall])
    · have hseen : seen calls i s .granted = none := by simp [seen, hcall, hop]
      rw [if_neg hop] at h
      cases h
      rw [hseen]
      exact .idle (by simp [Ready, hcall])
  | idle | looked_up =>
    -- no register is involved
    have hnext : ¬ Ready calls i phase' := by
      simp only [abb_move] at h
      split at h <;> first | (split at h <;> cases h <;> simp [Ready, hcall]) | (cases h; simp [Ready, hcall])
    simp only [seen, hcall, Option.toList]
    exact .idle fun hready => absurd hready hnext
  | resolved endpoint =>
    cases h
    simp only [seen, hcall, Option.toList]
    exact .idle (by simp [Ready, hcall])
  | answered | done => cases h

theorem step_of_move (h : move calls i s phase = some (s', phase')) :
    Step (Designates calls) i s.root_client (Ready calls i phase) (Ready calls i phase')
      (seen calls i s phase).toList s'.root_client := by
  cases hcall : calls i with
  | abb stream request =>
    exact step_of_abb_move hcall h
  | set_root_client stream =>
    cases phase with
    | idle =>
      simp only [move, hcall, Option.some.injEq, Prod.mk.injEq] at h
      obtain ⟨rfl, rfl⟩ := h
      have hseen : seen calls i s .idle = some (.set stream) := by simp [seen, hcall]
      rw [hseen]
      exact .set stream (by simp [Ready, hcall])
    | _ => simp [move, hcall] at h
  | try_transition target is_consistent =>
    cases phase with
    | idle =>
      have hseen : seen calls i s .idle = none := by simp [seen, hcall]
      have hnext : s'.root_client = s.root_client ∧ ¬ Ready calls i phase' := by
        simp only [move, hcall, Option.some.injEq, Prod.mk.injEq] at h
        obtain ⟨rfl, rfl⟩ := h
        exact ⟨(transition_keeps s target is_consistent).2, by simp [Ready, hcall]⟩
      rw [hseen, hnext.1]
      exact .idle fun hready => absurd hready hnext.2
    | _ => simp [move, hcall] at h

theorem seen_of_stop (h : move calls i s phase = none) : seen calls i s phase = none := by
  cases hcall : calls i with
  | abb stream request =>
    simp only [move, hcall] at h
    cases phase with
    | state_read state => cases h
    | granted =>
      simp only [abb_move] at h
      split at h
      · split at h <;> cases h
      · cases h
    | _ => simp [seen, hcall]
  | set_root_client stream => cases phase <;> simp [move, seen, hcall] at h ⊢
  | try_transition target is_consistent => simp [seen, hcall]

variable [DecidableEq ι]

theorem respond_ok (request : AcfAbbMessage) (payload : List UInt8) :
    respond request payload = .ok (request.response payload) := by
  simp [respond, verify_echo_back, build_response_info, AcfAbbMessage.response]

/-- A request that is left alone is handled as `handle_abb` does. -/
theorem turns_alone {race : Race ι (RcServer M) (Phase M)} {stream : StreamId} {request : AcfAbbMessage}
    (hcall : calls i = .abb stream request) (hidle : race.phase i = .idle) :
    run (move calls) race (List.replicate 4 i) =
      ⟨(exec (RcServer.handle_abb stream request) race.shared).2,
        Function.update race.phase i (.answered (exec (RcServer.handle_abb stream request) race.shared).1)⟩ := by
  rw [run_replicate (race.shared, .idle) hidle, RcServer.handle_abb_spec]
  by_cases hep : request.info.byte_bus_id = EP0_BYTE_BUS_ID
  · have hroute : route_byte_bus_id EP0_BYTE_BUS_ID = .Ep0 := rfl
    by_cases hop : request.info.op = true
    · by_cases hroot : race.shared.root_client = some stream
      · cases hdecode : GeneralRegisters.decode request.payload with
        | error e =>
          simp [alone, move, hcall, abb_move, hroute, general_access, RcServer.reply, RcServer.settled,
            RcServer.stored, RcServer.touched, hep, hop, hroot, hdecode, Except.toOption]
          rw [← hroot]
        | ok decoded =>
          simp [alone, move, hcall, abb_move, hroute, general_access, respond_ok, RcServer.reply, RcServer.settled,
            RcServer.stored, RcServer.touched, hep, hop, hroot, hdecode, Except.toOption]
      · simp [alone, move, hcall, abb_move, hroute, general_access, RcServer.reply, RcServer.settled, RcServer.stored,
          RcServer.touched, hep, hop, hroot]
    · simp [alone, move, hcall, abb_move, hroute, general_access, respond_ok, RcServer.reply,
        RcServer.settled, RcServer.stored, RcServer.touched, hep, hop]
  · have hroute : route_byte_bus_id request.info.byte_bus_id = .DeviceEndpoint := by
      simp [route_byte_bus_id, is_ep0_address, hep]
    cases hid : race.shared.endpoints.lookup stream request.info.byte_bus_id with
    | none =>
      simp [alone, move, hcall, abb_move, hroute, RcServer.reply, RcServer.settled, RcServer.stored,
        RcServer.touched, RcServer.endpointFor, hep, hid]
    | some id =>
      cases himpl : race.shared.endpoint_impls id with
      | none =>
        simp [alone, move, hcall, abb_move, hroute, RcServer.reply, RcServer.settled, RcServer.stored,
          RcServer.touched, RcServer.endpointFor, hep, hid, himpl]
      | some endpoint =>
        cases hcalled : (exec (endpoint.call request) race.shared.memory).1 <;>
          simp [alone, move, hcall, abb_move, hroute, respond_ok, RcServer.reply, RcServer.settled,
            RcServer.stored, RcServer.touched, RcServer.endpointFor, hep, hid, himpl, hcalled, bind, Except.bind]

variable (calls) in
/-- What a schedule shows. -/
def log (s : RcServer M) (schedule : List ι) : List (Event ι (Option StreamId)) :=
  trace (move calls) (seen calls) (fresh s .idle) schedule

variable (calls s) in
theorem follows_schedule (schedule : List ι) :
    let race := run (move calls) (fresh s .idle) schedule
    Follows (Designates calls) s.root_client (log calls s schedule) race.shared.root_client
      fun i => Ready calls i (race.phase i) := by
  have hidle : ∀ i, ¬ Ready calls i ((fresh s .idle : Race ι (RcServer M) (Phase M)).phase i) := by
    intro i
    cases hcall : calls i <;> simp [Ready, fresh, hcall]
  exact follows_run RcServer.root_client (Ready calls) (fun _ => True)
    (fun i t phase t' phase' _ h => ⟨trivial, step_of_move h⟩) (fun i t phase => seen_of_stop) trivial hidle schedule

/-- From when a root client is set until the next one is, only its writes replace the general registers:
exactly when no other client becomes root between a write's look at the root client and its replacement. -/
theorem root_client_revocation (calls : ι → Call) (s : RcServer M) (schedule : List ι) :
    Binding (Designates calls) (log calls s schedule) ↔ Undisturbed (Designates calls) (log calls s schedule) :=
  (follows_schedule calls s schedule).binding_iff

/-- A client writes the registers after there is no root client any more. -/
theorem late_root_write :
    let stream : StreamId := ⟨#v[2, 0, 0, 0, 0, 1], 1⟩
    let request : AcfAbbMessage :=
      { info := { byte_bus_id := 0, op := true }, payload := ({ svr_version := 7 } : GeneralRegisters).encode }
    let calls : Bool → Call := fun i => if i then .set_root_client none else .abb stream request
    let s : RcServer Heap := (RcServer.new {} []).set_root_client (some stream)
    let schedule := [false, false, true, false, false]
    let race := run (move calls) (fresh s .idle) schedule
    race.shared.root_client = none ∧ race.shared.general = { svr_version := 7 } ∧
      ¬ Binding (Designates calls) (log calls s schedule) := by
  intro stream request calls s schedule race
  refine ⟨rfl, by decide +kernel, fun h => ?_⟩
  have hlog : log calls s schedule = [.check false, .set none, .act false] := by decide +kernel
  cases h [.check false] none [] false [] hlog nofun stream request rfl

end RustRcp.RootClient
