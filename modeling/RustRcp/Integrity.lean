import RustRcp.Endpoints
import RustRcp.Paths
/-!
# What frames can change

A frame changes the general registers only as a write of the root client, and never
the root client, the lifecycle or the endpoint table. It leaves the endpoints of
other streams alone as long as no id stands for endpoints of two streams, and under
the broadcast stream it leaves everything alone (`frames_keep_to_themselves`).
-/
open Stateful

namespace RustRcp

open RcServer

/-! ## One batch -/

/-- No id stands for endpoints of two streams. -/
def SeparateIds {M : Type} (s : RcServer M) : Prop :=
  ∀ stream stream' bus bus' id, s.endpoints.lookup stream bus = some id →
    s.endpoints.lookup stream' bus' = some id → stream = stream'

/-- What the requests `rs` of `stream` can do to a server with the registrations `regs`. -/
structure Touches (regs : List Registration) (stream : StreamId) (rs : List AcfAbbMessage) (s t : RcServer Heap) :
    Prop where
  root_client : t.root_client = s.root_client
  state : t.state = s.state
  endpoints : t.endpoints = s.endpoints
  endpoint_impls : t.endpoint_impls = s.endpoint_impls
  next_endpoint_id : t.next_endpoint_id = s.next_endpoint_id
  general : t.general = s.general ∨ s.root_client = some stream ∧ ∃ r ∈ rs, r.info.op = true ∧
    r.info.byte_bus_id = EP0_BYTE_BUS_ID ∧ GeneralRegisters.decode r.payload = .ok t.general
  keeps : Keeps s regs → Keeps t regs
  others : Keeps s regs → SeparateIds s → ∀ reg ∈ regs, reg.stream_id ≠ stream →
    t.memory[reg.cell]? = s.memory[reg.cell]?

section Touches
variable {regs : List Registration} {stream : StreamId} {rs : List AcfAbbMessage} {s t u : RcServer Heap}

theorem touches_refl (s : RcServer Heap) : Touches regs stream rs s s where
  root_client := rfl
  state := rfl
  endpoints := rfl
  endpoint_impls := rfl
  next_endpoint_id := rfl
  general := .inl rfl
  keeps := id
  others _ _ _ _ _ := rfl

theorem Touches.trans (h : Touches regs stream rs s t) (h' : Touches regs stream rs t u) :
    Touches regs stream rs s u where
  root_client := h'.root_client.trans h.root_client
  state := h'.state.trans h.state
  endpoints := h'.endpoints.trans h.endpoints
  endpoint_impls := h'.endpoint_impls.trans h.endpoint_impls
  next_endpoint_id := h'.next_endpoint_id.trans h.next_endpoint_id
  general := by
    rcases h'.general with hsame | ⟨hroot, hwrite⟩
    · rw [hsame]
      exact h.general
    · rw [h.root_client] at hroot
      exact .inr ⟨hroot, hwrite⟩
  keeps hk := h'.keeps (h.keeps hk)
  others hk hsep reg hreg hne := by
    have hsep' : SeparateIds t := by
      unfold SeparateIds
      rw [h.endpoints]
      exact hsep
    rw [h'.others (h.keeps hk) hsep' reg hreg hne, h.others hk hsep reg hreg hne]

/-- A request of its own stream's. -/
theorem touches_settled {request : AcfAbbMessage} (hr : request ∈ rs) (s : RcServer Heap) :
    Touches regs stream rs s (s.settled stream request) where
  root_client := rfl
  state := rfl
  endpoints := rfl
  endpoint_impls := rfl
  next_endpoint_id := rfl
  general := by
    unfold settled stored
    split_ifs with hwrite
    · obtain ⟨hbus, hop, hroot⟩ := hwrite
      cases hdec : GeneralRegisters.decode request.payload with
      | error e => exact .inl rfl
      | ok g => exact .inr ⟨hroot, request, hr, hop, hbus, hdec⟩
    · exact .inl rfl
  keeps hk := hk.settled stream request
  others hk hsep reg hreg hne := by
    obtain ⟨j, hj⟩ := List.getElem?_of_mem hreg
    rcases hk.touched stream request s.memory with heq | ⟨i, r, hi, -, hid, heq⟩
    · simp only [settled, heq]
    · -- the cell that is written belongs to a registration of this stream
      have hstream : stream = r.stream_id := hsep _ _ _ _ _ hid (hk.named i r hi)
      have hij : i ≠ j := by
        rintro rfl
        rw [hi] at hj
        cases hj
        exact hne hstream.symm
      simp only [settled, heq, List.getElem?_set_ne (hk.cells hi hj hij)]

theorem touches_counter (s : RcServer Heap) (sequence_num : UInt32) :
    Touches regs stream rs s { s with sequence_num } where
  root_client := rfl
  state := rfl
  endpoints := rfl
  endpoint_impls := rfl
  next_endpoint_id := rfl
  general := .inl rfl
  keeps hk := { hk with }
  others _ _ _ _ _ := rfl

/-- What a frame that is handed over does. -/
theorem frame_touches (s : RcServer Heap) (frame : List UInt8) :
    Touches regs stream ((requestsOf frame).toOption.getD []) s (exec (handle_ntscf_frame stream frame) s).2 := by
  rw [handle_frame_eq]
  cases requestsOf frame with
  | error e => exact touches_refl s
  | ok rs =>
    have hbatch : Touches regs stream rs s (exec (collect (answer (handle_abb stream)) rs []) s).2 := by
      refine exec_collect_rel touches_refl Touches.trans (fun t r hr => ?_) [] s
      rw [exec_answer, handle_abb_spec]
      exact touches_settled hr t
    simp only [answer_requests, exec_bind, Except.toOption, Option.getD_some]
    generalize exec (collect (answer (handle_abb stream)) rs []) s = run at hbatch ⊢
    rcases run with ⟨e | bytes, t⟩
    · exact hbatch
    · simp only [exec_get, exec_modify, exec_ofExcept]
      exact hbatch.trans (touches_counter t (t.sequence_num + 1))

end Touches

namespace UdpRcServer
variable {Peer : Type} {regs : List Registration}

/-- What the requests `rs` of `stream` can do to the server behind a socket. -/
structure Reaches (regs : List Registration) (stream : StreamId) (rs : List AcfAbbMessage)
    (u t : UdpRcServer Heap Peer) : Prop where
  server : Touches regs stream rs u.server t.server
  broadcast : is_discovery_broadcast_stream_id stream = true →
    t.server = u.server ∧ t.discovery_claim = u.discovery_claim

theorem reaches_refl {stream : StreamId} {rs : List AcfAbbMessage} (u : UdpRcServer Heap Peer) :
    Reaches regs stream rs u u := ⟨touches_refl _, fun _ => ⟨rfl, rfl⟩⟩

theorem Reaches.trans {stream : StreamId} {rs : List AcfAbbMessage} {u t v : UdpRcServer Heap Peer}
    (h : Reaches regs stream rs u t) (h' : Reaches regs stream rs t v) : Reaches regs stream rs u v where
  server := h.server.trans h'.server
  broadcast hb := ⟨(h'.broadcast hb).1.trans (h.broadcast hb).1, (h'.broadcast hb).2.trans (h.broadcast hb).2⟩

theorem reaches_dispatched {stream : StreamId} {rs : List AcfAbbMessage} {request : AcfAbbMessage}
    (hr : request ∈ rs) (now : Instant) (timeout : Duration) (u : UdpRcServer Heap Peer) :
    Reaches regs stream rs u (exec (dispatch_request stream now timeout request) u).2 := by
  rw [dispatch_spec]
  split_ifs with hread hconf hgranted hbroadcast
  · exact reaches_refl u
  · -- a grant is never the broadcast stream's
    refine ⟨touches_refl _, fun hb => ?_⟩
    rw [granted, hb] at hgranted
    cases hgranted
  · exact reaches_refl u
  · exact reaches_refl u
  · exact ⟨touches_settled hr u.server, fun hb => absurd hb hbroadcast⟩

/-- What a frame from a socket does. -/
theorem received_reaches (u : UdpRcServer Heap Peer) {frame acf : List UInt8} {hdr : NtscfHeader}
    (hframe : decode_ntscf_frame frame = .ok (hdr, acf)) (peer : Peer) (now : Instant) (sequence_num : UInt8)
    (timeout : Duration) :
    Reaches regs (.from_u64 hdr.stream_id) ((requestsOf frame).toOption.getD []) u
      (exec (serve_received frame peer now sequence_num timeout) u).2 := by
  rw [requestsOf_decoded hframe]
  unfold serve_received
  simp only [exec_bind, exec_ofExcept, hframe]
  cases decode_acf_abb_messages acf with
  | error e => exact reaches_refl u
  | ok rs =>
    have hbatch : Reaches regs (.from_u64 hdr.stream_id) rs u
        (exec (collect (answer (dispatch_request (.from_u64 hdr.stream_id) now timeout)) rs []) u).2 := by
      refine exec_collect_rel reaches_refl Reaches.trans (fun t r hr => ?_) [] u
      rw [exec_answer]
      exact reaches_dispatched hr now timeout t
    simp only [Except.toOption, Option.getD_some, exec_get, exec_modify]
    generalize exec (collect (answer (dispatch_request (.from_u64 hdr.stream_id) now timeout)) rs []) u = run
      at hbatch ⊢
    rcases run with ⟨e | bytes, t⟩
    · exact hbatch
    · simp only
      cases encode_ntscf_frame t.local_stream sequence_num bytes with
      | error e => exact hbatch
      | ok out => exact ⟨hbatch.server, hbatch.broadcast⟩

end UdpRcServer

/-! ## Runs -/

/-- What happens to a server and the UDP server around it. A socket of any kind hands over frames
(`received`), and the operating system's does so datagram by datagram. -/
inductive Move (Peer : Type) where
  | root (stream : Option StreamId)
  | transition (target : RcServerState) (is_consistent : Bool)
  | frame (stream_id : StreamId) (frame : List UInt8)
  | datagram (arrival : Arrival Peer) (sequence_num : UInt8) (discovery_timeout : Duration)
  | received (frame : List UInt8) (peer_addr : Peer) (now : Instant) (sequence_num : UInt8)
      (discovery_timeout : Duration)

namespace Move
variable {Peer : Type}

/-- The frame that comes in. -/
def carried : Move Peer → Option (List UInt8)
  | .frame _ bytes => some bytes
  | .datagram arrival _ _ => (StdUdpSocket.recv_from arrival).toOption.map Prod.fst
  | .received bytes _ _ _ _ => some bytes
  | _ => none

/-- The stream it comes under: as told, or as its header says. -/
def requester : Move Peer → Option StreamId
  | .frame stream_id _ => some stream_id
  | m => m.carried.bind fun frame => (decode_ntscf_frame frame).toOption.map fun p => .from_u64 p.1.stream_id

def requests (m : Move Peer) : List AcfAbbMessage :=
  (m.carried.bind fun frame => (requestsOf frame).toOption).getD []

/-- It comes through a socket. -/
def OverSocket : Move Peer → Prop
  | .datagram .. => True
  | .received .. => True
  | _ => False

/-- The root client after it. -/
def rootAfter (root : Option StreamId) : Move Peer → Option StreamId
  | .root stream => stream
  | _ => root

end Move

/-- The root client most recently set. -/
def lastRoot {Peer : Type} (moves : List (Move Peer)) : Option StreamId := moves.foldl Move.rootAfter none

namespace UdpRcServer
variable {Peer : Type} {regs : List Registration}

def moved (u : UdpRcServer Heap Peer) : Move Peer → UdpRcServer Heap Peer
  | .root stream => { u with server := u.server.set_root_client stream }
  | .transition target is_consistent => { u with server := (exec (try_transition target is_consistent) u.server).2 }
  | .frame stream_id frame => { u with server := (exec (handle_ntscf_frame stream_id frame) u.server).2 }
  | .datagram arrival sequence_num timeout => (exec (serve_one arrival sequence_num timeout) u).2
  | .received frame peer now sequence_num timeout => (exec (serve_received frame peer now sequence_num timeout) u).2

variable (regs) in
/-- A frame from a socket has a requester, or is refused. -/
theorem received_cases (u : UdpRcServer Heap Peer) (frame : List UInt8) (peer : Peer) (now : Instant)
    (sequence_num : UInt8) (timeout : Duration) :
    ((decode_ntscf_frame frame).toOption = none ∧
      (exec (serve_received frame peer now sequence_num timeout) u).2 = u) ∨
    ∃ hdr acf, decode_ntscf_frame frame = .ok (hdr, acf) ∧
      Reaches regs (.from_u64 hdr.stream_id) ((requestsOf frame).toOption.getD []) u
        (exec (serve_received frame peer now sequence_num timeout) u).2 := by
  cases hframe : decode_ntscf_frame frame with
  | error e =>
    refine .inl ⟨rfl, ?_⟩
    unfold serve_received
    simp only [exec_bind, exec_ofExcept, hframe]
  | ok p => exact .inr ⟨p.1, p.2, rfl, received_reaches u hframe peer now sequence_num timeout⟩

variable (regs) in
/-- A move is a change of root client or lifecycle, a frame of some requester, or nothing. -/
theorem moved_cases (u : UdpRcServer Heap Peer) (m : Move Peer) :
    (∃ stream, m = .root stream ∧ moved u m = { u with server := { u.server with root_client := stream } }) ∨
    (∃ target is_consistent state, m = .transition target is_consistent ∧
      moved u m = { u with server := { u.server with state } }) ∨
    (∃ stream, m.requester = some stream ∧ Touches regs stream m.requests u.server (moved u m).server ∧
      (m.OverSocket → is_discovery_broadcast_stream_id stream = true →
        (moved u m).server = u.server ∧ (moved u m).discovery_claim = u.discovery_claim)) ∨
    (m.requester = none ∧ moved u m = u) := by
  cases m with
  | root stream => exact .inl ⟨stream, rfl, rfl⟩
  | transition target is_consistent =>
    refine .inr (.inl ⟨target, is_consistent, (exec (try_transition target is_consistent) u.server).2.state, rfl, ?_⟩)
    unfold moved try_transition
    simp only [exec_bind, exec_get, exec_ofExcept]
    cases u.server.state.try_transition target is_consistent <;> rfl
  | frame stream frame => exact .inr (.inr (.inl ⟨stream, rfl, frame_touches u.server frame, nofun⟩))
  | datagram arrival sequence_num timeout =>
    refine .inr (.inr ?_)
    cases hrecv : StdUdpSocket.recv_from arrival with
    | error e =>
      refine .inr ⟨?_, ?_⟩
      · simp [Move.requester, Move.carried, hrecv, Except.toOption]
      · rw [moved, serve_one, exec_bind, exec_ofExcept, hrecv]
    | ok p =>
      obtain ⟨frame, peer⟩ := p
      rw [moved, serve_one_received hrecv]
      rcases received_cases regs u frame peer arrival.now sequence_num timeout
        with ⟨hnone, hsame⟩ | ⟨hdr, acf, hframe, hreach⟩
      · refine .inr ⟨?_, hsame⟩
        simp [Move.requester, Move.carried, hrecv, Except.toOption] at hnone ⊢
        exact hnone
      · refine .inl ⟨.from_u64 hdr.stream_id, ?_, ?_, fun _ => hreach.broadcast⟩
        · simp [Move.requester, Move.carried, hrecv, hframe, Except.toOption]
        · simpa [Move.requests, Move.carried, hrecv, Except.toOption] using hreach.server
  | received frame peer now sequence_num timeout =>
    refine .inr (.inr ?_)
    rw [moved]
    rcases received_cases regs u frame peer now sequence_num timeout
      with ⟨hnone, hsame⟩ | ⟨hdr, acf, hframe, hreach⟩
    · refine .inr ⟨?_, hsame⟩
      simp [Move.requester, Move.carried, hnone]
    · refine .inl ⟨.from_u64 hdr.stream_id, ?_, ?_, fun _ => hreach.broadcast⟩
      · simp [Move.requester, Move.carried, hframe, Except.toOption]
      · simpa [Move.requests, Move.carried] using hreach.server

/-- What every move keeps, when `root` is the root client most recently set. -/
structure Integrity (root : Option StreamId) (m : Move Peer) (u t : UdpRcServer Heap Peer) : Prop where
  general : t.server.general ≠ u.server.general → ∃ stream, m.requester = some stream ∧ root = some stream ∧
    ∃ r ∈ m.requests, r.info.op = true ∧ r.info.byte_bus_id = EP0_BYTE_BUS_ID ∧
      GeneralRegisters.decode r.payload = .ok t.server.general
  root_client : (∀ stream, m ≠ .root stream) → t.server.root_client = u.server.root_client
  state : (∀ target is_consistent, m ≠ .transition target is_consistent) → t.server.state = u.server.state
  endpoints : t.server.endpoints = u.server.endpoints
  endpoint_impls : t.server.endpoint_impls = u.server.endpoint_impls
  next_endpoint_id : t.server.next_endpoint_id = u.server.next_endpoint_id
  broadcast : m.OverSocket → m.requester = some DISCOVERY_BROADCAST_STREAM_ID →
    t.server = u.server ∧ t.discovery_claim = u.discovery_claim

theorem moved_integrity (u : UdpRcServer Heap Peer) (m : Move Peer) :
    Integrity u.server.root_client m u (moved u m) := by
  rcases moved_cases [] u m with ⟨stream, rfl, hmoved⟩ | ⟨target, c, state, rfl, hmoved⟩ |
    ⟨stream, hstream, htouches, hbroadcast⟩ | ⟨-, hmoved⟩
  · rw [hmoved]
    exact ⟨fun h => absurd rfl h, fun h => absurd rfl (h stream), fun _ => rfl, rfl, rfl, rfl, nofun⟩
  · rw [hmoved]
    exact ⟨fun h => absurd rfl h, fun _ => rfl, fun h => absurd rfl (h target c), rfl, rfl, rfl, nofun⟩
  · refine ⟨fun h => ?_, fun _ => htouches.root_client, fun _ => htouches.state, htouches.endpoints,
      htouches.endpoint_impls, htouches.next_endpoint_id, fun hsocket hrequester => ?_⟩
    · obtain ⟨hroot, hwrite⟩ := htouches.general.resolve_left h
      exact ⟨stream, hstream, hroot, hwrite⟩
    · rw [hstream] at hrequester
      cases hrequester
      exact hbroadcast hsocket (by decide)
  · rw [hmoved]
    exact ⟨fun h => absurd rfl h, fun _ => rfl, fun _ => rfl, rfl, rfl, rfl, fun _ _ => ⟨rfl, rfl⟩⟩

/-- The other streams' endpoints after a move. -/
theorem moved_others {u : UdpRcServer Heap Peer} (hk : Keeps u.server regs) (m : Move Peer) :
    Keeps (moved u m).server regs ∧ (SeparateIds u.server → ∀ reg ∈ regs, m.requester ≠ some reg.stream_id →
      (moved u m).server.memory[reg.cell]? = u.server.memory[reg.cell]?) := by
  rcases moved_cases regs u m with ⟨stream, rfl, hmoved⟩ | ⟨target, c, state, rfl, hmoved⟩ |
    ⟨stream, hstream, htouches, -⟩ | ⟨-, hmoved⟩
  · rw [hmoved]
    exact ⟨{ hk with }, fun _ _ _ _ => rfl⟩
  · rw [hmoved]
    exact ⟨{ hk with }, fun _ _ _ _ => rfl⟩
  · refine ⟨htouches.keeps hk, fun hsep reg hreg hne => htouches.others hk hsep reg hreg ?_⟩
    rintro rfl
    exact hne hstream
  · rw [hmoved]
    exact ⟨hk, fun _ _ _ _ => rfl⟩

/-- What a run of moves has kept. -/
theorem moves_keep {u : UdpRcServer Heap Peer} (hk : Keeps u.server regs) (moves : List (Move Peer)) :
    Keeps (moves.foldl moved u).server regs ∧ (moves.foldl moved u).server.endpoints = u.server.endpoints ∧
      (moves.foldl moved u).server.root_client = moves.foldl Move.rootAfter u.server.root_client := by
  induction moves generalizing u with
  | nil => exact ⟨hk, rfl, rfl⟩
  | cons m rest ih =>
    obtain ⟨hkeeps, hendpoints, hroot⟩ := ih (moved_others hk m).1
    have hintegrity := moved_integrity u m
    have hfirst : (moved u m).server.root_client = m.rootAfter u.server.root_client := by
      cases m with
      | root stream => rfl
      | _ => exact hintegrity.root_client nofun
    rw [hfirst] at hroot
    exact ⟨hkeeps, hendpoints.trans hintegrity.endpoints, hroot⟩

/-- Registrations and requests set no root client. -/
theorem apply_root (s : RcServer Heap) (ops : List Op) : (ops.foldl apply s).root_client = s.root_client := by
  induction ops generalizing s with
  | nil => rfl
  | cons op rest ih =>
    rw [List.foldl_cons, ih]
    cases op with
    | register stream bus initial =>
      rw [apply]
      rcases register_mock_spec s stream bus initial with ⟨e, -, hexec⟩ | ⟨endpoints, -, hexec⟩ <;> rw [hexec]
    | abb stream request => rw [apply, handle_abb_spec, settled]

/-- In every run, from a server whose endpoints were registered one at a time. A frame leaves other
streams' endpoints alone when no id stands for endpoints of two streams. -/
theorem frames_keep_to_themselves (general : GeneralRegisters) (ops : List Op) (local_stream : StreamId)
    (moves : List (Move Peer)) (m : Move Peer) :
    let u : UdpRcServer Heap Peer := moves.foldl moved (.new local_stream (ops.foldl apply (.new general [])))
    u.server.root_client = lastRoot moves ∧ Integrity (lastRoot moves) m u (moved u m) ∧
      (SeparateIds (ops.foldl apply (.new general [])) → ∀ reg ∈ registrations (.new general []) ops,
        m.requester ≠ some reg.stream_id →
          (moved u m).server.memory[reg.cell]? = u.server.memory[reg.cell]?) := by
  obtain ⟨hkeeps, hendpoints, hroot⟩ :=
    moves_keep (u := (.new local_stream (ops.foldl apply (.new general [])) : UdpRcServer Heap Peer))
      (keeps_run_new general ops) moves
  have hlast : (moves.foldl moved (.new local_stream (ops.foldl apply (.new general [])) :
      UdpRcServer Heap Peer)).server.root_client = lastRoot moves := by
    rw [hroot]
    exact congrArg (fun root => moves.foldl Move.rootAfter root) (apply_root _ ops)
  refine ⟨hlast, hlast ▸ moved_integrity _ m, fun hsep => (moved_others hkeeps m).2 ?_⟩
  unfold SeparateIds
  rw [hendpoints]
  exact hsep

/-- Up to 2^32 registrations no two endpoints have one id. -/
theorem separate_of_few {general : GeneralRegisters} {ops : List Op}
    (hfew : (registrations (.new general []) ops).length ≤ 2 ^ 32) :
    SeparateIds (ops.foldl apply (.new general [])) := by
  have hkeeps := keeps_run_new general ops
  intro stream stream' bus bus' id hid hid'
  exact (hkeeps.ids_distinct hfew hid hid').1

/-- A stream's write to its endpoint leaves another stream's endpoint alone. -/
theorem frames_keep_to_themselves_two :
    let u : UdpRcServer Heap Nat := ([] : List (Move Nat)).foldl moved (.new ⟨#v[2, 0, 0, 0, 0, 9], 9⟩
      (([.register ⟨#v[2, 0, 0, 0, 0, 1], 1⟩ 1 [], .register ⟨#v[2, 0, 0, 0, 0, 2], 2⟩ 1 [5]] : List Op).foldl apply
        (.new {} [])))
    (moved u (.frame ⟨#v[2, 0, 0, 0, 0, 1], 1⟩ [0x82, 0x80, 12, 0, 2, 0, 0, 0, 0, 1, 0, 1,
      0x1C, 3, 0xC0, 1, 0, 1, 0x80, 0, 7, 0, 0, 0])).server.memory[1]? = u.server.memory[1]? :=
  (frames_keep_to_themselves {} _ _ [] (.frame ⟨#v[2, 0, 0, 0, 0, 1], 1⟩ [0x82, 0x80, 12, 0, 2, 0, 0, 0, 0, 1, 0, 1,
      0x1C, 3, 0xC0, 1, 0, 1, 0x80, 0, 7, 0, 0, 0])).2.2 (separate_of_few (by decide +kernel))
    ⟨⟨#v[2, 0, 0, 0, 0, 2], 2⟩, 1, 1⟩ (by decide +kernel) (by decide)

/-! ## The counter comes round -/

/-- The stream of number `i`. -/
def streamOf (i : Nat) : StreamId := .from_u64 (UInt64.ofNat i)

theorem streamOf_inj {i j : Nat} (hi : i < 2 ^ 64) (hj : j < 2 ^ 64) (h : streamOf i = streamOf j) : i = j := by
  have hnat := congrArg UInt64.toNat (from_u64_inj h)
  simp only [UInt64.toNat_ofNat'] at hnat
  omega

/-- One endpoint for each of the first `n` streams. -/
def crowd (n : Nat) : List Op := (List.range n).map fun i => .register (streamOf i) 1 []

theorem crowd_registered (n : Nat) (hn : n ≤ 2 ^ 64) :
    registrations (.new {} []) (crowd n) = (List.range n).map (fun i => ⟨streamOf i, 1, i⟩) ∧
      ((crowd n).foldl apply (.new {} [])).memory = List.replicate n [] := by
  induction n with
  | zero => exact ⟨rfl, rfl⟩
  | succ n ih =>
    obtain ⟨hregs, hmemory⟩ := ih (by omega)
    have hkeeps := keeps_run_new {} (crowd n)
    rw [hregs] at hkeeps
    have hsplit : crowd (n + 1) = crowd n ++ [.register (streamOf n) 1 []] := by
      rw [crowd, List.range_succ, List.map_append]
      rfl
    -- no stream before it has its number
    have hfree : ((crowd n).foldl apply (.new {} [])).endpoints.lookup (streamOf n) 1 = none := by
      rw [Option.eq_none_iff_forall_ne_some]
      intro id hid
      obtain ⟨i, r, hi, hstream, -⟩ := hkeeps.listed (streamOf n) 1 id hid
      obtain ⟨hlt, rfl⟩ := List.getElem?_eq_some_iff.1 hi
      simp only [List.length_map, List.length_range] at hlt
      simp only [List.getElem_map, List.getElem_range] at hstream
      exact Nat.ne_of_lt hlt (streamOf_inj (by omega) (by omega) hstream)
    have hisOk : (exec (register_mock (streamOf n) 1 []) ((crowd n).foldl apply (.new {} []))).1.isOk = true := by
      rcases register_mock_spec ((crowd n).foldl apply (.new {} [])) (streamOf n) 1 []
        with ⟨e, herr, -⟩ | ⟨_, -, hexec⟩
      · obtain ⟨endpoints, hreg⟩ := EndpointTable.register_ok_iff.2 ⟨by decide, hfree⟩
        rw [hreg] at herr
        cases herr
      · rw [hexec]
        rfl
    constructor
    · rw [hsplit, registrations_append, hregs, registrations, if_pos hisOk, hmemory, List.range_succ, List.map_append,
        List.length_replicate]
      rfl
    · rw [hsplit, List.foldl_append, List.foldl_cons, List.foldl_nil, register_memory, hmemory,
        List.replicate_succ']

/-- The endpoint registered last has taken the id of the first, which answers for both. -/
theorem crowd_shares (n : Nat) (hn : n = 2 ^ 32 + 1) :
    ((crowd n).foldl apply (.new {} [])).endpointFor (streamOf 0) 1 = some (MockEndpoint (2 ^ 32)) := by
  have hkeeps := keeps_run_new {} (crowd n)
  rw [(crowd_registered n (by omega)).1] at hkeeps
  have hfirst : ((List.range n).map (fun i => (⟨streamOf i, 1, i⟩ : Registration)))[0]? = some ⟨streamOf 0, 1, 0⟩ := by
    rw [List.getElem?_map, List.getElem?_range (by omega)]
    rfl
  have hlast : ((List.range n).map (fun i => (⟨streamOf i, 1, i⟩ : Registration)))[2 ^ 32]? =
      some ⟨streamOf (2 ^ 32), 1, 2 ^ 32⟩ := by
    rw [List.getElem?_map, List.getElem?_range (by omega)]
    rfl
  have hid : idOf (2 ^ 32) = idOf 0 := by decide
  have himpl := hkeeps.latest (2 ^ 32) _ hlast fun j hj hlt => by
    simp only [List.length_map, List.length_range] at hlt
    omega
  rw [endpointFor, hkeeps.named 0 _ hfirst, Option.bind_some, ← hid, himpl]

/-- With 2^32 + 1 endpoints the first stream's write goes to the last stream's endpoint. -/
theorem wrapped_counter_crosses_streams :
    ¬ ∀ (general : GeneralRegisters) (ops : List Op) (local_stream : StreamId) (moves : List (Move Nat)) (m : Move Nat),
      let u : UdpRcServer Heap Nat := moves.foldl moved (.new local_stream (ops.foldl apply (.new general [])))
      u.server.root_client = lastRoot moves ∧ Integrity (lastRoot moves) m u (moved u m) ∧
        ∀ reg ∈ registrations (.new general []) ops, m.requester ≠ some reg.stream_id →
          (moved u m).server.memory[reg.cell]? = u.server.memory[reg.cell]? := by
  intro h
  obtain ⟨n, hn⟩ : ∃ n, n = 2 ^ 32 + 1 := ⟨_, rfl⟩
  obtain ⟨hregs, hmemory⟩ := crowd_registered n (by omega)
  have hframe : requestsOf [0x82, 0x80, 12, 0, 0, 0, 0, 0, 0, 0, 0, 0, 0x1C, 3, 0xC0, 1, 0, 1, 0x80, 0, 7, 0, 0, 0] =
      .ok [{ info := { acf_msg_type := 0x0E, acf_msg_length := 3, pad := 3, byte_bus_id := 1, transaction_num := 1,
                       op := true }, payload := [7] }] := by decide +kernel
  have hsame := (h {} (crowd n) ⟨#v[2, 0, 0, 0, 0, 9], 9⟩ [] (.frame (streamOf 0)
    [0x82, 0x80, 12, 0, 0, 0, 0, 0, 0, 0, 0, 0, 0x1C, 3, 0xC0, 1, 0, 1, 0x80, 0, 7, 0, 0, 0])).2.2
    ⟨streamOf (2 ^ 32), 1, 2 ^ 32⟩ ?_ ?_
  · -- the cell of the last stream's endpoint holds what the first stream wrote
    simp only [List.foldl_nil, moved, UdpRcServer.new, single_request_memory _ _ hframe, hmemory] at hsame
    rw [RcServer.touched, if_neg (by decide), crowd_shares n hn] at hsame
    simp only [mock_call, if_true] at hsame
    rw [List.getElem?_set_self (by rw [List.length_replicate]; omega),
      List.getElem?_replicate_of_lt (by omega)] at hsame
    cases hsame
  · rw [hregs]
    exact List.mem_map.2 ⟨2 ^ 32, List.mem_range.2 (by omega), rfl⟩
  · simp only [Move.requester, ne_eq, Option.some.injEq]
    intro heq
    exact absurd (streamOf_inj (by omega) (by omega) heq) (by decide)

end UdpRcServer

end RustRcp
