import RustRcp.Server
/-!
# Endpoints and who reaches them

Mock endpoints are registered, each with a buffer of its own, and requests come in
between. `Keeps` says how the address table, the implementations and the counter
hang together after any such run: the `i`-th registration has id `i` modulo the
counter's range, and an id answers with the implementation it was given last. As
long as the counter has not come round, every endpoint is its own
(`endpoint_isolation`).
-/
open Stateful

namespace RustRcp

namespace RcServer

/-- `register_endpoint` with a new `MockEndpoint` that holds `initial`. -/
def register_mock (stream_id : StreamId) (byte_bus_id : UInt16) (initial : List UInt8) :
    Stateful RcpError (RcServer Heap) EndpointId := do
  let buf := (← get).memory.length
  modify fun self => { self with memory := self.memory ++ [initial] }
  register_endpoint stream_id byte_bus_id (MockEndpoint buf)

theorem register_spec {M : Type} (s : RcServer M) (stream : StreamId) (bus : UInt16) (endpoint : Endpoint M) :
    exec (register_endpoint stream bus endpoint) s =
      match s.endpoints.register stream bus s.next_endpoint_id with
      | .error e => (.error e, s)
      | .ok endpoints => (.ok s.next_endpoint_id,
          { s with
            endpoints
            next_endpoint_id := s.next_endpoint_id + 1
            endpoint_impls := Function.update s.endpoint_impls s.next_endpoint_id (some endpoint) }) := by
  unfold register_endpoint
  simp only [exec_bind, exec_get, exec_ofExcept]
  cases s.endpoints.register stream bus s.next_endpoint_id <;> rfl

/-! ## The ledger -/

/-- An endpoint that was registered: its address, and the cell its buffer is in. -/
structure Registration where
  stream_id : StreamId
  byte_bus_id : UInt16
  cell : Nat
  deriving DecidableEq

/-- The id of the `i`-th registration. -/
def idOf (i : Nat) : EndpointId := UInt32.ofNat i

theorem idOf_inj {i j : Nat} (hi : i < 2 ^ 32) (hj : j < 2 ^ 32) (h : idOf i = idOf j) : i = j := by
  have hnat := congrArg UInt32.toNat h
  simp only [idOf, UInt32.toNat_ofNat'] at hnat
  omega

theorem registered_iff {regs : List Registration} {new r : Registration} {i : Nat} :
    (regs ++ [new])[i]? = some r ↔ regs[i]? = some r ∨ i = regs.length ∧ r = new := by
  rcases Nat.lt_trichotomy i regs.length with hlt | rfl | hgt
  · rw [List.getElem?_append_left hlt]
    exact (or_iff_left fun h => hlt.ne h.1).symm
  · simp [eq_comm]
  · have hnone : regs[i]? = none := List.getElem?_eq_none hgt.le
    rw [List.getElem?_append_right hgt.le, hnone]
    simp [hgt.ne', Nat.sub_ne_zero_of_lt hgt]

/-- The server is as the registrations `regs` have left it. -/
structure Keeps (s : RcServer Heap) (regs : List Registration) : Prop where
  counter : s.next_endpoint_id = idOf regs.length
  named : ∀ i r, regs[i]? = some r → s.endpoints.lookup r.stream_id r.byte_bus_id = some (idOf i)
  listed : ∀ stream bus id, s.endpoints.lookup stream bus = some id →
    ∃ i r, regs[i]? = some r ∧ r.stream_id = stream ∧ r.byte_bus_id = bus ∧ idOf i = id
  latest : ∀ i r, regs[i]? = some r → (∀ j, i < j → j < regs.length → idOf j ≠ idOf i) →
    s.endpoint_impls (idOf i) = some (MockEndpoint r.cell)
  implemented : ∀ id endpoint, s.endpoint_impls id = some endpoint →
    ∃ i r, regs[i]? = some r ∧ idOf i = id ∧ endpoint = MockEndpoint r.cell
  fresh : regs.Pairwise fun r r' => r.cell < r'.cell
  held : ∀ r ∈ regs, r.cell < s.memory.length

theorem keeps_new (general : GeneralRegisters) : Keeps (new general []) [] where
  counter := rfl
  named := nofun
  listed _ _ _ h := nomatch h
  latest := nofun
  implemented _ _ h := nomatch h
  fresh := .nil
  held := nofun

variable {s : RcServer Heap} {regs : List Registration}

/-- Two registrations have two cells. -/
theorem Keeps.cells (h : Keeps s regs) {i j : Nat} {r r' : Registration} (hi : regs[i]? = some r)
    (hj : regs[j]? = some r') (hne : i ≠ j) : r.cell ≠ r'.cell := by
  obtain ⟨hi', rfl⟩ := List.getElem?_eq_some_iff.1 hi
  obtain ⟨hj', rfl⟩ := List.getElem?_eq_some_iff.1 hj
  have hpair := List.pairwise_iff_getElem.1 h.fresh
  rcases Nat.lt_or_gt_of_ne hne with hlt | hlt
  · exact Nat.ne_of_lt (hpair i j hi' hj' hlt)
  · exact Nat.ne_of_gt (hpair j i hj' hi' hlt)

/-- More memory, and everything else as it was. -/
theorem Keeps.memory (h : Keeps s regs) {memory : Heap} (hle : s.memory.length ≤ memory.length)
    (general : GeneralRegisters) : Keeps { s with general, memory } regs :=
  { h with held := fun r hr => Nat.lt_of_lt_of_le (h.held r hr) hle }

theorem Keeps.register (h : Keeps s regs) {stream : StreamId} {bus : UInt16} {endpoints : EndpointTable}
    (hreg : s.endpoints.register stream bus s.next_endpoint_id = .ok endpoints) (initial : List UInt8) :
    Keeps { s with
        endpoints
        next_endpoint_id := s.next_endpoint_id + 1
        endpoint_impls :=
          Function.update s.endpoint_impls s.next_endpoint_id (some (MockEndpoint s.memory.length))
        memory := s.memory ++ [initial] }
      (regs ++ [⟨stream, bus, s.memory.length⟩]) := by
  have hfree : s.endpoints.lookup stream bus = none := (EndpointTable.register_ok_iff.1 ⟨_, hreg⟩).2
  have hlookup := EndpointTable.lookup_register hreg
  constructor
  · simp only [h.counter, idOf, List.length_append, List.length_singleton, UInt32.ofNat_add]
    rfl
  · intro i r hi
    rcases registered_iff.1 hi with hi | ⟨rfl, rfl⟩
    · -- an address that is registered is not the new one
      have hnamed := h.named i r hi
      rw [hlookup, if_neg, hnamed]
      rintro ⟨hstream, hbus⟩
      rw [hstream, hbus, hfree] at hnamed
      cases hnamed
    · rw [hlookup, if_pos ⟨rfl, rfl⟩, h.counter]
  · intro stream' bus' id hid
    rw [hlookup] at hid
    split_ifs at hid with heq
    · cases hid
      exact ⟨_, _, registered_iff.2 (.inr ⟨rfl, rfl⟩), heq.1.symm, heq.2.symm, h.counter.symm⟩
    · obtain ⟨i, r, hi, hr⟩ := h.listed stream' bus' id hid
      exact ⟨i, r, registered_iff.2 (.inl hi), hr⟩
  · intro i r hi hlast
    rcases registered_iff.1 hi with hi | ⟨rfl, rfl⟩
    · -- the new registration is a later one, so it has another id
      have hlt := (List.getElem?_eq_some_iff.1 hi).1
      have hne : idOf i ≠ s.next_endpoint_id := by
        rw [h.counter]
        exact (hlast regs.length hlt (by simp)).symm
      simp only [Function.update_of_ne hne]
      exact h.latest i r hi fun j hij hj => hlast j hij (by simp; omega)
    · simp only [← h.counter, Function.update_self]
  · intro id endpoint hid
    by_cases heq : id = s.next_endpoint_id
    · subst heq
      simp only [Function.update_self] at hid
      cases hid
      exact ⟨_, _, registered_iff.2 (.inr ⟨rfl, rfl⟩), h.counter.symm, rfl⟩
    · simp only [Function.update_of_ne heq] at hid
      obtain ⟨i, r, hi, hr⟩ := h.implemented id endpoint hid
      exact ⟨i, r, registered_iff.2 (.inl hi), hr⟩
  · refine List.pairwise_append.2 ⟨h.fresh, List.pairwise_singleton _ _, ?_⟩
    intro r hr r' hr'
    cases List.mem_singleton.1 hr'
    exact h.held r hr
  · intro r hr
    rw [List.length_append, List.length_singleton]
    rcases List.mem_append.1 hr with hr | hr
    · exact Nat.lt_succ_of_lt (h.held r hr)
    · cases List.mem_singleton.1 hr
      exact Nat.lt_succ_self _

/-! ## Requests -/

/-- A request leaves the memory alone, or is a write to the cell of a registration with its address's id. -/
theorem Keeps.touched (h : Keeps s regs) (stream : StreamId) (request : AcfAbbMessage) (memory : Heap) :
    s.touched stream memory request = memory ∨ ∃ i r, regs[i]? = some r ∧ request.info.op = true ∧
      s.endpoints.lookup stream request.info.byte_bus_id = some (idOf i) ∧
      s.touched stream memory request = memory.set r.cell request.payload := by
  unfold RcServer.touched endpointFor
  split_ifs with hbus
  · exact .inl rfl
  · cases hid : s.endpoints.lookup stream request.info.byte_bus_id with
    | none => exact .inl rfl
    | some id =>
      cases himpl : s.endpoint_impls id with
      | none => exact .inl (by simp [himpl])
      | some endpoint =>
        obtain ⟨i, r, hi, rfl, rfl⟩ := h.implemented id endpoint himpl
        simp only [Option.bind_some, himpl, mock_call]
        by_cases hop : request.info.op = true
        · exact .inr ⟨i, r, hi, hop, rfl, by rw [if_pos hop]⟩
        · exact .inl (by rw [if_neg hop])

theorem Keeps.touched_length (h : Keeps s regs) (stream : StreamId) (request : AcfAbbMessage) (memory : Heap) :
    (s.touched stream memory request).length = memory.length := by
  rcases h.touched stream request memory with heq | ⟨i, r, -, -, -, heq⟩
  · rw [heq]
  · rw [heq, List.length_set]

theorem Keeps.settled (h : Keeps s regs) (stream : StreamId) (request : AcfAbbMessage) :
    Keeps (s.settled stream request) regs :=
  h.memory (h.touched_length stream request s.memory).ge _

section Few
variable (h : Keeps s regs) (hfew : regs.length ≤ 2 ^ 32) {i : Nat} {r : Registration} (hi : regs[i]? = some r)
include h hfew

/-- No two addresses have one id. -/
theorem Keeps.ids_distinct {stream stream' : StreamId} {bus bus' : UInt16} {id : EndpointId}
    (hid : s.endpoints.lookup stream bus = some id) (hid' : s.endpoints.lookup stream' bus' = some id) :
    stream = stream' ∧ bus = bus' := by
  obtain ⟨i, r, hi, rfl, rfl, rfl⟩ := h.listed stream bus id hid
  obtain ⟨j, r', hj, rfl, rfl, hij⟩ := h.listed stream' bus' _ hid'
  have hlt := (List.getElem?_eq_some_iff.1 hi).1
  have hlt' := (List.getElem?_eq_some_iff.1 hj).1
  obtain rfl := idOf_inj (by omega) (by omega) hij
  rw [hi] at hj
  cases hj
  exact ⟨rfl, rfl⟩

include hi

/-- An address is served by the implementation it was registered with. -/
theorem Keeps.serves : s.endpointFor r.stream_id r.byte_bus_id = some (MockEndpoint r.cell) := by
  have hlast : s.endpoint_impls (idOf i) = some (MockEndpoint r.cell) := by
    refine h.latest i r hi fun j hij hj hid => ?_
    exact Nat.ne_of_gt hij (idOf_inj (by omega) (by omega) hid)
  rw [endpointFor, h.named i r hi, Option.bind_some, hlast]

/-- Its cell takes what is written to its address, and nothing else. -/
theorem Keeps.held_after (hep : r.byte_bus_id ≠ EP0_BYTE_BUS_ID) (stream : StreamId) (request : AcfAbbMessage)
    {memory : Heap} {held : List UInt8} (hheld : memory[r.cell]? = some held) :
    (s.touched stream memory request)[r.cell]? =
      some (if stream = r.stream_id ∧ request.info.byte_bus_id = r.byte_bus_id ∧ request.info.op = true then
        request.payload else held) := by
  split_ifs with hwrite
  · obtain ⟨rfl, hbus, hop⟩ := hwrite
    have hlen : r.cell < memory.length := (List.getElem?_eq_some_iff.1 hheld).1
    rw [RcServer.touched, hbus, if_neg hep, h.serves hfew hi]
    simp only [mock_call, hop, if_true, List.getElem?_set_self hlen]
  · rcases h.touched stream request memory with heq | ⟨j, r', hj, hop, hid, heq⟩
    · rw [heq, hheld]
    · -- the write is to another registration's address
      have hne : i ≠ j := by
        rintro rfl
        obtain ⟨hstream, hbus⟩ := h.ids_distinct hfew hid (h.named i r hi)
        exact hwrite ⟨hstream, hbus, hop⟩
      rw [heq, List.getElem?_set_ne (h.cells hi hj hne).symm, hheld]

end Few

/-! ## Runs -/

/-- A registration with a new mock endpoint, or a request. -/
inductive Op where
  | register (stream_id : StreamId) (byte_bus_id : UInt16) (initial : List UInt8)
  | abb (stream_id : StreamId) (request : AcfAbbMessage)

def apply (s : RcServer Heap) : Op → RcServer Heap
  | .register stream_id byte_bus_id initial => (exec (register_mock stream_id byte_bus_id initial) s).2
  | .abb stream_id request => (exec (handle_abb stream_id request) s).2

/-- The registrations of a run that succeed. -/
def registrations : RcServer Heap → List Op → List Registration
  | _, [] => []
  | s, .register stream_id byte_bus_id initial :: rest =>
    let later := registrations (s.apply (.register stream_id byte_bus_id initial)) rest
    if (exec (register_mock stream_id byte_bus_id initial) s).1.isOk then
      ⟨stream_id, byte_bus_id, s.memory.length⟩ :: later
    else later
  | s, .abb stream_id request :: rest => registrations (s.apply (.abb stream_id request)) rest

/-- What was written last under an address, when it held `held` before these calls. -/
def lastWritten (stream_id : StreamId) (byte_bus_id : UInt16) (held : List UInt8) : List Op → List UInt8
  | [] => held
  | .register .. :: rest => lastWritten stream_id byte_bus_id held rest
  | .abb stream request :: rest =>
    lastWritten stream_id byte_bus_id
      (if stream = stream_id ∧ request.info.byte_bus_id = byte_bus_id ∧ request.info.op = true then request.payload
        else held) rest

/-- A registration that fails leaves a buffer nobody has, and nothing else. -/
theorem register_mock_spec (s : RcServer Heap) (stream : StreamId) (bus : UInt16) (initial : List UInt8) :
    (∃ e, s.endpoints.register stream bus s.next_endpoint_id = .error e ∧
      exec (register_mock stream bus initial) s = (.error e, { s with memory := s.memory ++ [initial] })) ∨
    ∃ endpoints, s.endpoints.register stream bus s.next_endpoint_id = .ok endpoints ∧
      exec (register_mock stream bus initial) s = (.ok s.next_endpoint_id,
        { s with
          endpoints
          next_endpoint_id := s.next_endpoint_id + 1
          endpoint_impls :=
            Function.update s.endpoint_impls s.next_endpoint_id (some (MockEndpoint s.memory.length))
          memory := s.memory ++ [initial] }) := by
  unfold register_mock
  simp only [exec_bind, exec_get, exec_modify, register_spec]
  cases hreg : s.endpoints.register stream bus s.next_endpoint_id with
  | error e => exact .inl ⟨e, rfl, rfl⟩
  | ok endpoints => exact .inr ⟨endpoints, rfl, rfl⟩

theorem keeps_register_mock (h : Keeps s regs) (stream : StreamId) (bus : UInt16) (initial : List UInt8) :
    Keeps (s.apply (.register stream bus initial))
      (if (exec (register_mock stream bus initial) s).1.isOk then regs ++ [⟨stream, bus, s.memory.length⟩]
        else regs) := by
  rw [apply]
  rcases register_mock_spec s stream bus initial with ⟨e, -, hexec⟩ | ⟨endpoints, hreg, hexec⟩
  · rw [hexec]
    exact h.memory (by simp) s.general
  · rw [hexec]
    exact h.register hreg initial

theorem register_memory (s : RcServer Heap) (stream : StreamId) (bus : UInt16) (initial : List UInt8) :
    (s.apply (.register stream bus initial)).memory = s.memory ++ [initial] := by
  rw [apply]
  rcases register_mock_spec s stream bus initial with ⟨e, -, hexec⟩ | ⟨endpoints, -, hexec⟩ <;> rw [hexec]

theorem registrations_append (s : RcServer Heap) (ops ops' : List Op) :
    registrations s (ops ++ ops') = registrations s ops ++ registrations (ops.foldl apply s) ops' := by
  induction ops generalizing s with
  | nil => rfl
  | cons op rest ih =>
    cases op with
    | register stream bus initial =>
      rw [List.cons_append, registrations, registrations, List.foldl_cons, ih]
      split_ifs <;> rfl
    | abb stream request => rw [List.cons_append, registrations, registrations, List.foldl_cons, ih]

theorem keeps_run (ops : List Op) (h : Keeps s regs) :
    Keeps (ops.foldl apply s) (regs ++ registrations s ops) := by
  induction ops generalizing s regs with
  | nil => rwa [registrations, List.append_nil]
  | cons op rest ih =>
    cases op with
    | register stream bus initial =>
      have hnext := keeps_register_mock h stream bus initial
      have hrest := ih hnext
      rw [registrations, List.foldl_cons]
      by_cases hok : (exec (register_mock stream bus initial) s).1.isOk = true
      · rw [if_pos hok] at hrest ⊢
        rwa [List.append_assoc] at hrest
      · rw [if_neg hok] at hrest ⊢
        exact hrest
    | abb stream request =>
      have hnext : Keeps (s.apply (.abb stream request)) regs := by
        rw [apply, handle_abb_spec]
        exact h.settled stream request
      exact ih hnext

/-- A fresh server keeps the registrations of its run. -/
theorem keeps_run_new (general : GeneralRegisters) (ops : List Op) :
    Keeps (ops.foldl apply (new general [])) (registrations (new general []) ops) := by
  simpa only [List.nil_append] using keeps_run ops (keeps_new general)

/-- Once a registration's cell holds `held`, it holds what was written last under its address. -/
theorem run_holds {i : Nat} {r : Registration} (h : Keeps s regs) (hi : regs[i]? = some r)
    (hep : r.byte_bus_id ≠ EP0_BYTE_BUS_ID) (ops : List Op) (hfew : (regs ++ registrations s ops).length ≤ 2 ^ 32)
    {held : List UInt8} (hheld : s.memory[r.cell]? = some held) :
    (ops.foldl apply s).memory[r.cell]? = some (lastWritten r.stream_id r.byte_bus_id held ops) := by
  induction ops generalizing s regs held with
  | nil => exact hheld
  | cons op rest ih =>
    have hlen : r.cell < s.memory.length := (List.getElem?_eq_some_iff.1 hheld).1
    cases op with
    | register stream bus initial =>
      have hnext := keeps_register_mock h stream bus initial
      rw [List.foldl_cons, lastWritten]
      rw [registrations] at hfew
      refine ih hnext ?_ ?_ ?_
      · split_ifs
        · exact registered_iff.2 (.inl hi)
        · exact hi
      · split_ifs at hfew ⊢
        · rwa [List.append_assoc]
        · exact hfew
      · rw [register_memory, List.getElem?_append_left hlen, hheld]
    | abb stream request =>
      have hstate : s.apply (.abb stream request) = s.settled stream request := by rw [apply, handle_abb_spec]
      have hregs : regs.length ≤ 2 ^ 32 := by
        rw [List.length_append] at hfew
        omega
      rw [registrations, hstate] at hfew
      rw [List.foldl_cons, hstate, lastWritten]
      exact ih (h.settled stream request) hi hfew (h.held_after hregs hi hep stream request hheld)

/-! ## Isolation -/

/-- What a run of registrations and requests leaves on a server that began as `start`. -/
structure Isolated (start : RcServer Heap) (ops : List Op) (s : RcServer Heap) : Prop where
  distinct : ∀ stream stream' bus bus' id, s.endpoints.lookup stream bus = some id →
    s.endpoints.lookup stream' bus' = some id → stream = stream' ∧ bus = bus'
  failed : ∀ stream bus initial e, (exec (register_mock stream bus initial) s).1 = .error e →
    s.apply (.register stream bus initial) = { s with memory := s.memory ++ [initial] }
  served : ∀ before stream bus initial after id, ops = before ++ .register stream bus initial :: after →
    (exec (register_mock stream bus initial) (before.foldl apply start)).1 = .ok id → bus ≠ EP0_BYTE_BUS_ID →
    s.endpoints.lookup stream bus = some id ∧
      ServedBy s stream bus (MockEndpoint (before.foldl apply start).memory.length)
  read : ∀ before stream bus initial after id, ops = before ++ .register stream bus initial :: after →
    (exec (register_mock stream bus initial) (before.foldl apply start)).1 = .ok id → bus ≠ EP0_BYTE_BUS_ID →
    ∀ request, request.info.byte_bus_id = bus → request.info.op = false →
      exec (handle_abb stream request) s =
        (.ok (request.response ((lastWritten stream bus initial after).take
          (min request.info.read_size_segment.as_read_size.toNat (lastWritten stream bus initial after).length))), s)

/-- Where a registration of a run stands in the ledger, and what its cell holds in the end. -/
theorem registration_placed {general : GeneralRegisters} {ops before after : List Op} {stream : StreamId}
    {bus : UInt16} {initial : List UInt8} {id : EndpointId}
    (hops : ops = before ++ .register stream bus initial :: after)
    (hfew : (registrations (new general []) ops).length ≤ 2 ^ 32)
    (hok : (exec (register_mock stream bus initial) (before.foldl apply (new general []))).1 = .ok id)
    (hep : bus ≠ EP0_BYTE_BUS_ID) :
    ∃ i, idOf i = id ∧
      (registrations (new general []) ops)[i]? =
        some ⟨stream, bus, (before.foldl apply (new general [])).memory.length⟩ ∧
      (ops.foldl apply (new general [])).memory[(before.foldl apply (new general [])).memory.length]? =
        some (lastWritten stream bus initial after) := by
  subst hops
  have hbefore := keeps_run_new general before
  have hreg := keeps_register_mock hbefore stream bus initial
  have hisOk : (exec (register_mock stream bus initial) (before.foldl apply (new general []))).1.isOk = true := by
    rw [hok]
    rfl
  rw [registrations_append, registrations, if_pos hisOk] at hfew ⊢
  rw [if_pos hisOk] at hreg
  -- it is the first of the later registrations
  refine ⟨(registrations (new general []) before).length, ?_, ?_, ?_⟩
  · rcases register_mock_spec (before.foldl apply (new general [])) stream bus initial
      with ⟨e, -, hexec⟩ | ⟨endpoints, -, hexec⟩
    · rw [hexec] at hok
      cases hok
    · rw [hexec] at hok
      cases hok
      exact hbefore.counter.symm
  · rw [List.getElem?_append_right le_rfl, Nat.sub_self]
    rfl
  · rw [List.foldl_append, List.foldl_cons]
    refine run_holds (r := ⟨stream, bus, (before.foldl apply (new general [])).memory.length⟩) hreg
      List.getElem?_concat_length hep after ?_ ?_
    · rw [List.append_assoc]
      exact hfew
    · rw [register_memory]
      exact List.getElem?_concat_length

/-- With fewer than 2^32 registrations every endpoint is its own for ever. -/
theorem endpoint_isolation (general : GeneralRegisters) (ops : List Op)
    (hfew : (registrations (new general []) ops).length < 2 ^ 32) :
    Isolated (new general []) ops (ops.foldl apply (new general [])) := by
  have hkeeps := keeps_run_new general ops
  constructor
  · intro stream stream' bus bus' id hid hid'
    exact hkeeps.ids_distinct hfew.le hid hid'
  · intro stream bus initial e herr
    rw [apply]
    rcases register_mock_spec (ops.foldl apply (new general [])) stream bus initial with ⟨e', -, hexec⟩ | ⟨_, -, hexec⟩
    · rw [hexec]
    · rw [hexec] at herr
      cases herr
  · intro before stream bus initial after id hops hok hep
    obtain ⟨i, rfl, hi, -⟩ := registration_placed hops hfew.le hok hep
    exact ⟨hkeeps.named i _ hi, served_by hep (hkeeps.serves hfew.le hi)⟩
  · intro before stream bus initial after id hops hok hep request hbus hop
    obtain ⟨i, -, hi, hheld⟩ := registration_placed hops hfew.le hok hep
    rw [served_by hep (hkeeps.serves hfew.le hi) request hbus, mock_call]
    simp [hop, List.getD_eq_getElem?_getD, hheld]

/-- One endpoint, its address asked for again, and a write. -/
theorem endpoint_isolation_one :
    Isolated (new {} [])
      [.register ⟨#v[2, 0, 0, 0, 0, 1], 1⟩ 5 [1, 2, 3], .register ⟨#v[2, 0, 0, 0, 0, 1], 1⟩ 5 [4],
        .abb ⟨#v[2, 0, 0, 0, 0, 1], 1⟩ { info := { byte_bus_id := 5, op := true }, payload := [7] }]
      (([.register ⟨#v[2, 0, 0, 0, 0, 1], 1⟩ 5 [1, 2, 3], .register ⟨#v[2, 0, 0, 0, 0, 1], 1⟩ 5 [4],
        .abb ⟨#v[2, 0, 0, 0, 0, 1], 1⟩ { info := { byte_bus_id := 5, op := true }, payload := [7] }] : List Op).foldl
          apply (new {} [])) :=
  endpoint_isolation {} _ (by decide +kernel)

end RcServer

end RustRcp
