import RustRcp.Acf
import RustRcp.Avtp
/-!
# Who may reach what

The server's lifecycle and what it locks (`src/lifecycle.rs`), the endpoint
number zero that stands for the registers (`src/ep0.rs`), and the table of the
others (`src/addressing.rs`).
-/

namespace RustRcp

/-! ## Lifecycle -/

inductive RcServerState where
  | HwUnconfigured
  | HwConfigured
  | RcpConfigured
  deriving DecidableEq, Repr

def RcServerState.INITIAL : RcServerState := .HwUnconfigured

inductive RegisterCategory where
  | General
  | HwConfig
  | RcpConfig
  deriving DecidableEq, Repr

def is_register_reachable : RcServerState → RegisterCategory → Bool
  | _, .General => true
  | _, .HwConfig => true
  | .HwUnconfigured, .RcpConfig => false
  | .HwConfigured, .RcpConfig => true
  | .RcpConfigured, .RcpConfig => true

def check_register_reachable (state : RcServerState) (category : RegisterCategory) : Except RcpError Unit :=
  if is_register_reachable state category then .ok () else .error .UnauthorizedAccess

inductive LockPolicy where
  | W
  | WStar
  deriving DecidableEq, Repr

def lock_policy : RegisterCategory → Option LockPolicy
  | .General => some .W
  | .HwConfig => some .WStar
  | .RcpConfig => some .W

def is_register_writable (state : RcServerState) (category : RegisterCategory) : Bool :=
  if !is_register_reachable state category then false
  else match lock_policy category with
    | none => false
    | some .W => true
    | some .WStar => state != .RcpConfigured

def check_register_writable (state : RcServerState) (category : RegisterCategory) : Except RcpError Unit :=
  if !is_register_reachable state category then .error .UnauthorizedAccess
  else if is_register_writable state category then .ok ()
  else .error .LockedMemAccess

/-- `is_consistent` is what the caller's check answers, where it is asked. -/
def RcServerState.try_transition (self target : RcServerState) (is_consistent : Bool) :
    Except RcpError RcServerState :=
  match self, target with
  | .HwUnconfigured, .HwConfigured => if is_consistent then .ok target else .error .InvalidParameter
  | .HwConfigured, .RcpConfigured => if is_consistent then .ok target else .error .InvalidParameter
  | .HwConfigured, .HwUnconfigured => .ok target
  | _, _ => .error .RequestRejected

/-! ## Endpoint zero -/

def EP0_BYTE_BUS_ID : UInt16 := 0

def is_ep0_address (byte_bus_id : UInt16) : Bool := byte_bus_id == EP0_BYTE_BUS_ID

inductive RequestRoute where
  | Ep0
  | DeviceEndpoint
  deriving DecidableEq, Repr

def route_byte_bus_id (byte_bus_id : UInt16) : RequestRoute :=
  if is_ep0_address byte_bus_id then .Ep0 else .DeviceEndpoint

inductive Ep0AccessKind where
  | Read
  | Write
  deriving DecidableEq, Repr

def access_kind (info : ByteMessageInfo) : Ep0AccessKind := if info.op then .Write else .Read

def check_ep0_access (state : RcServerState) (category : RegisterCategory) (info : ByteMessageInfo) :
    Except RcpError Unit :=
  match access_kind info with
  | .Read => check_register_reachable state category
  | .Write => check_register_writable state category

def is_root_client (root_client : Option StreamId) (stream : StreamId) : Bool := root_client == some stream

def check_ep0_access_for_stream (state : RcServerState) (category : RegisterCategory) (info : ByteMessageInfo)
    (requesting_stream : StreamId) (root_client : Option StreamId) : Except RcpError Unit :=
  match access_kind info with
  | .Read => check_ep0_access state category info
  | .Write =>
    if is_root_client root_client requesting_stream then check_ep0_access state category info
    else .error .UnauthorizedAccess

/-- The general registers are open to every read, and to the root client's writes. -/
theorem general_access (state : RcServerState) (info : ByteMessageInfo) (stream : StreamId) (root : Option StreamId) :
    check_ep0_access_for_stream state .General info stream root =
      if info.op = true ∧ root ≠ some stream then .error .UnauthorizedAccess else .ok () := by
  have hread : check_register_reachable state .General = .ok () := by cases state <;> rfl
  have hwrite : check_register_writable state .General = .ok () := by cases state <;> rfl
  unfold check_ep0_access_for_stream check_ep0_access access_kind is_root_client
  by_cases hop : info.op = true
  · by_cases hroot : root = some stream
    · simp [hop, hroot, hwrite]
    · simp [hop, hroot]
  · simp [hop, hread]

/-! ## Endpoint table -/

abbrev EndpointId := UInt32

/-- The nested hash map as the partial function it stands for. -/
structure EndpointTable where
  streams : StreamId → Option (UInt16 → Option EndpointId) := fun _ => none

namespace EndpointTable

def register (self : EndpointTable) (stream_id : StreamId) (byte_bus_id : UInt16) (endpoint : EndpointId) :
    Except RcpError EndpointTable :=
  if byte_bus_id > BYTE_MESSAGE_INFO_11BIT_MAX then .error .InvalidSize
  else
    let bus_table := (self.streams stream_id).getD fun _ => none
    if (bus_table byte_bus_id).isSome then .error .EpError
    else
      let bus_table := Function.update bus_table byte_bus_id (some endpoint)
      .ok { streams := Function.update self.streams stream_id (some bus_table) }

def lookup (self : EndpointTable) (stream_id : StreamId) (byte_bus_id : UInt16) : Option EndpointId := do
  let bus_table ← self.streams stream_id
  bus_table byte_bus_id

variable {self table : EndpointTable} {stream_id : StreamId} {byte_bus_id : UInt16} {endpoint : EndpointId}

/-- An address is registered exactly when its number fits and it is free. -/
theorem register_ok_iff :
    (∃ table, self.register stream_id byte_bus_id endpoint = .ok table) ↔
      byte_bus_id ≤ BYTE_MESSAGE_INFO_11BIT_MAX ∧ self.lookup stream_id byte_bus_id = none := by
  have hfree : ((self.streams stream_id).getD fun _ => none) byte_bus_id = self.lookup stream_id byte_bus_id := by
    cases h : self.streams stream_id <;> simp [lookup, h]
  unfold register
  simp only [guard_ok_iff, hfree, UInt16.not_lt, gt_iff_lt, Bool.not_eq_true, Option.isSome_eq_false_iff,
    Option.isNone_iff_eq_none]
  constructor
  · rintro ⟨table, hbus, hnone, -⟩
    exact ⟨hbus, hnone⟩
  · rintro ⟨hbus, hnone⟩
    exact ⟨_, hbus, hnone, rfl⟩

theorem lookup_register (h : self.register stream_id byte_bus_id endpoint = .ok table) (stream : StreamId)
    (bus : UInt16) : table.lookup stream bus =
      if stream = stream_id ∧ bus = byte_bus_id then some endpoint else self.lookup stream bus := by
  obtain ⟨-, h⟩ := guard_ok_iff.1 h
  obtain ⟨-, h⟩ := guard_ok_iff.1 h
  cases h
  unfold lookup
  by_cases hstream : stream = stream_id
  · subst hstream
    by_cases hbus : bus = byte_bus_id
    · simp [hbus]
    · cases self.streams stream <;> simp [hbus]
  · simp [hstream]

end EndpointTable

end RustRcp
