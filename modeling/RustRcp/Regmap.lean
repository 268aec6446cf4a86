import RustRcp.Error
import RustRcp.Lib.Cursor
/-!
# The general register block

Endpoint types, `GeneralRegisters` and its fixed-size image (`src/regmap.rs`).
-/
open Bytes Cursor

namespace RustRcp

/-! ## Endpoint types -/

inductive EndpointType where
  | Wakeup
  | Gpio
  | Spi
  | I2c
  | Uart
  | Lin
  | PwmOut
  | PwmIn
  | Adc
  | Dac
  | Can
  | Iseled
  | Mdio
  deriving DecidableEq, Repr

def EndpointType.to_u8 : EndpointType → UInt8
  | .Wakeup => 0x01
  | .Gpio => 0x02
  | .Spi => 0x03
  | .I2c => 0x04
  | .Uart => 0x05
  | .Lin => 0x06
  | .PwmOut => 0x07
  | .PwmIn => 0x08
  | .Adc => 0x09
  | .Dac => 0x0A
  | .Can => 0x0B
  | .Iseled => 0x0C
  | .Mdio => 0x0D

/-! ## General registers -/

/-- Where a table lies and how many rows it has room for. -/
structure TableDescriptor where
  ptr : UInt16 := 0
  capacity : UInt16 := 0
  deriving DecidableEq, Repr

namespace TableDescriptor

def ENCODED_LEN : Nat := 4

def encode (d : TableDescriptor) : List UInt8 := be 2 d.ptr.toNat ++ be 2 d.capacity.toNat

def decode (bytes : List UInt8) : Except RcpError TableDescriptor :=
  if bytes.length < ENCODED_LEN then .error .ShortFrame
  else .ok {
    ptr := UInt16.ofNat (ofBe (bytes.take 2))
    capacity := UInt16.ofNat (ofBe ((bytes.drop 2).take 2)) }

end TableDescriptor

structure GeneralRegisters where
  svr_oa_tc18_magic_nr : UInt32 := 0
  svr_version : UInt32 := 0
  svr_vendor_id : UInt16 := 0
  svr_device_id : UInt16 := 0
  svr_ep_count : UInt16 := 0
  svr_req_stream_max : UInt8 := 0
  svr_responder_streams_max : UInt8 := 0
  svr_responder_mem_size : UInt16 := 0
  svr_req_mem_size : UInt16 := 0
  svr_sequencers_max : UInt8 := 0
  svr_configuration_lock : UInt8 := 0
  svr_implemented_options : UInt8 := 0
  svr_io_pin_count : UInt16 := 0
  svr_hw_cfg : TableDescriptor := {}
  svr_request_stream_cfg : TableDescriptor := {}
  svr_response_stream_cfg : TableDescriptor := {}
  svr_ep_generic_cfg : TableDescriptor := {}
  svr_ep_bytebus_id_map : TableDescriptor := {}
  svr_ep_functional_cfg_ptr : UInt16 := 0
  svr_sequencer_state_ptr : UInt16 := 0
  svr_network_interface_cfg : TableDescriptor := {}
  svr_physical_layer_cfg : TableDescriptor := {}
  svr_time_synch_cfg : TableDescriptor := {}
  svr_security_cfg : TableDescriptor := {}
  deriving DecidableEq, Repr

namespace GeneralRegisters

def ENCODED_LEN : Nat := 65

def encode (g : GeneralRegisters) : List UInt8 :=
  be 4 g.svr_oa_tc18_magic_nr.toNat ++ (be 4 g.svr_version.toNat ++ (be 2 g.svr_vendor_id.toNat ++
  (be 2 g.svr_device_id.toNat ++ (be 2 g.svr_ep_count.toNat ++ (be 1 g.svr_req_stream_max.toNat ++
  (be 1 g.svr_responder_streams_max.toNat ++ (be 2 g.svr_responder_mem_size.toNat ++ (be 2 g.svr_req_mem_size.toNat ++
  (be 1 g.svr_sequencers_max.toNat ++ (be 1 g.svr_configuration_lock.toNat ++
  (be 1 g.svr_implemented_options.toNat ++ (be 2 g.svr_io_pin_count.toNat ++ (g.svr_hw_cfg.encode ++
  (g.svr_request_stream_cfg.encode ++ (g.svr_response_stream_cfg.encode ++ (g.svr_ep_generic_cfg.encode ++
  (g.svr_ep_bytebus_id_map.encode ++ (be 2 g.svr_ep_functional_cfg_ptr.toNat ++
  (be 2 g.svr_sequencer_state_ptr.toNat ++ (g.svr_network_interface_cfg.encode ++ (g.svr_physical_layer_cfg.encode ++
  (g.svr_time_synch_cfg.encode ++ g.svr_security_cfg.encode))))))))))))))))))))))

def take_u8 : Cursor RcpError UInt8 := UInt8.ofNat <$> word 1
def take_u16 : Cursor RcpError UInt16 := UInt16.ofNat <$> word 2
def take_u32 : Cursor RcpError UInt32 := UInt32.ofNat <$> word 4
def take_descriptor : Cursor RcpError TableDescriptor := fun b => do
  let d ← TableDescriptor.decode b
  return (d, b.drop TableDescriptor.ENCODED_LEN)

/-- The fields in the order the image has them. -/
def take_fields : Cursor RcpError GeneralRegisters := do
  let svr_oa_tc18_magic_nr ← take_u32
  let svr_version ← take_u32
  let svr_vendor_id ← take_u16
  let svr_device_id ← take_u16
  let svr_ep_count ← take_u16
  let svr_req_stream_max ← take_u8
  let svr_responder_streams_max ← take_u8
  let svr_responder_mem_size ← take_u16
  let svr_req_mem_size ← take_u16
  let svr_sequencers_max ← take_u8
  let svr_configuration_lock ← take_u8
  let svr_implemented_options ← take_u8
  let svr_io_pin_count ← take_u16
  let svr_hw_cfg ← take_descriptor
  let svr_request_stream_cfg ← take_descriptor
  let svr_response_stream_cfg ← take_descriptor
  let svr_ep_generic_cfg ← take_descriptor
  let svr_ep_bytebus_id_map ← take_descriptor
  let svr_ep_functional_cfg_ptr ← take_u16
  let svr_sequencer_state_ptr ← take_u16
  let svr_network_interface_cfg ← take_descriptor
  let svr_physical_layer_cfg ← take_descriptor
  let svr_time_synch_cfg ← take_descriptor
  let svr_security_cfg ← take_descriptor
  return {
    svr_oa_tc18_magic_nr, svr_version, svr_vendor_id, svr_device_id, svr_ep_count, svr_req_stream_max,
    svr_responder_streams_max, svr_responder_mem_size, svr_req_mem_size, svr_sequencers_max, svr_configuration_lock,
    svr_implemented_options, svr_io_pin_count, svr_hw_cfg, svr_request_stream_cfg, svr_response_stream_cfg,
    svr_ep_generic_cfg, svr_ep_bytebus_id_map, svr_ep_functional_cfg_ptr, svr_sequencer_state_ptr,
    svr_network_interface_cfg, svr_physical_layer_cfg, svr_time_synch_cfg, svr_security_cfg }

def decode (bytes : List UInt8) : Except RcpError GeneralRegisters :=
  if bytes.length < ENCODED_LEN then .error .ShortFrame else do
  let (g, _rest) ← take_fields bytes
  return g

/-! ## The image -/

@[simp] theorem encode_length (g : GeneralRegisters) : g.encode.length = ENCODED_LEN := by
  simp [encode, TableDescriptor.encode, ENCODED_LEN]

theorem takes_descriptor : Takes take_descriptor TableDescriptor.ENCODED_LEN := by
  intro b hb
  refine ⟨_, bind_ok_iff.2 ⟨_, if_neg (Nat.not_lt.2 hb), rfl⟩⟩

theorem takes_u8 : Takes take_u8 1 := (takes_word 1).map _
theorem takes_u16 : Takes take_u16 2 := (takes_word 2).map _
theorem takes_u32 : Takes take_u32 4 := (takes_word 4).map _

theorem takes_fields : Takes take_fields ENCODED_LEN := by
  have h8 := takes_u8
  have h16 := takes_u16
  have h32 := takes_u32
  have hd : Takes take_descriptor 4 := takes_descriptor
  unfold take_fields
  exact h32.bind fun _ => h32.bind fun _ => h16.bind fun _ => h16.bind fun _ => h16.bind fun _ => h8.bind fun _ =>
    h8.bind fun _ => h16.bind fun _ => h16.bind fun _ => h8.bind fun _ => h8.bind fun _ => h8.bind fun _ =>
    h16.bind fun _ => hd.bind fun _ => hd.bind fun _ => hd.bind fun _ => hd.bind fun _ => hd.bind fun _ =>
    h16.bind fun _ => h16.bind fun _ => hd.bind fun _ => hd.bind fun _ => hd.bind fun _ => hd.bind fun _ =>
    takes_pure _

/-- An image decodes when it is long enough, and else fails with `ShortFrame`. -/
theorem decode_ok_iff (bytes : List UInt8) :
    (∃ g, decode bytes = .ok g) ↔ ENCODED_LEN ≤ bytes.length := by
  unfold decode
  constructor
  · rintro ⟨g, h⟩
    exact Nat.le_of_not_lt (guard_ok_iff.1 h).1
  · intro h
    obtain ⟨g, hg⟩ := takes_fields bytes h
    exact ⟨g, guard_ok_iff.2 ⟨Nat.not_lt.2 h, bind_ok_iff.2 ⟨_, hg, rfl⟩⟩⟩

theorem decode_short {bytes : List UInt8} (h : bytes.length < ENCODED_LEN) : decode bytes = .error .ShortFrame :=
  if_pos h

theorem reads_descriptor (d : TableDescriptor) : Reads take_descriptor d.encode d := by
  have hptr : d.ptr.toNat < 256 ^ 2 := d.ptr.toNat_lt
  have hcap : d.capacity.toNat < 256 ^ 2 := d.capacity.toNat_lt
  have hlen : d.encode.length = TableDescriptor.ENCODED_LEN := by
    rw [TableDescriptor.encode, List.length_append, be_length, be_length, TableDescriptor.ENCODED_LEN]
  intro t
  have hdec : TableDescriptor.decode (d.encode ++ t) = .ok d := by
    refine guard_ok_iff.2 ⟨by rw [List.length_append, hlen]; omega, ?_⟩
    rw [TableDescriptor.encode, List.append_assoc, List.take_left' (be_length 2 _), List.drop_left' (be_length 2 _),
      List.take_left' (be_length 2 _), ofBe_be_of_lt hptr, ofBe_be_of_lt hcap, UInt16.ofNat_toNat, UInt16.ofNat_toNat]
  exact bind_ok_iff.2 ⟨d, hdec, by rw [List.drop_left' hlen]; rfl⟩

theorem reads_u8 (v : UInt8) : Reads take_u8 (be 1 v.toNat) v := by
  have h := (reads_word (ε := RcpError) (n := 1) v.toNat_lt).map UInt8.ofNat
  rwa [UInt8.ofNat_toNat] at h

theorem reads_u16 (v : UInt16) : Reads take_u16 (be 2 v.toNat) v := by
  have h := (reads_word (ε := RcpError) (n := 2) v.toNat_lt).map UInt16.ofNat
  rwa [UInt16.ofNat_toNat] at h

theorem reads_u32 (v : UInt32) : Reads take_u32 (be 4 v.toNat) v := by
  have h := (reads_word (ε := RcpError) (n := 4) v.toNat_lt).map UInt32.ofNat
  rwa [UInt32.ofNat_toNat] at h

theorem reads_fields (g : GeneralRegisters) : Reads take_fields g.encode g := by
  have h8 := reads_u8
  have h16 := reads_u16
  have h32 := reads_u32
  have hd := reads_descriptor
  unfold take_fields
  rw [← List.append_nil g.encode, encode]
  simp only [List.append_assoc]
  exact (h32 _).bind <| (h32 _).bind <| (h16 _).bind <| (h16 _).bind <| (h16 _).bind <| (h8 _).bind <| (h8 _).bind <|
    (h16 _).bind <| (h16 _).bind <| (h8 _).bind <| (h8 _).bind <| (h8 _).bind <| (h16 _).bind <| (hd _).bind <|
    (hd _).bind <| (hd _).bind <| (hd _).bind <| (hd _).bind <| (h16 _).bind <| (h16 _).bind <| (hd _).bind <|
    (hd _).bind <| (hd _).bind <| (hd _).bind <| reads_pure _

/-- An image holds its registers, whatever follows it. -/
theorem decode_encode (g : GeneralRegisters) (t : List UInt8) : decode (g.encode ++ t) = .ok g := by
  refine guard_ok_iff.2 ⟨by rw [List.length_append, encode_length]; omega, ?_⟩
  exact bind_ok_iff.2 ⟨_, reads_fields g t, rfl⟩

theorem decode_encode_alone (g : GeneralRegisters) : decode g.encode = .ok g := by
  simpa only [List.append_nil] using decode_encode g []

theorem relates_u8 : Relates take_u8 1 fun v x => be 1 v.toNat = x :=
  relates_word fun _ hv => UInt8.toNat_ofNat_of_lt' hv

theorem relates_u16 : Relates take_u16 2 fun v x => be 2 v.toNat = x :=
  relates_word fun _ hv => UInt16.toNat_ofNat_of_lt' hv

theorem relates_u32 : Relates take_u32 4 fun v x => be 4 v.toNat = x :=
  relates_word fun _ hv => UInt32.toNat_ofNat_of_lt' hv

theorem relates_descriptor : Relates take_descriptor TableDescriptor.ENCODED_LEN fun d x => d.encode = x := by
  rintro b d t hb hc
  obtain ⟨d', hdec, hd⟩ := bind_ok_iff.1 hc
  cases hd
  obtain ⟨-, hdec⟩ := guard_ok_iff.1 hdec
  cases hdec
  have hfour : TableDescriptor.ENCODED_LEN = 2 + 2 := rfl
  rw [hfour] at hb ⊢
  refine ⟨rfl, ?_⟩
  show TableDescriptor.encode _ = _
  rw [TableDescriptor.encode, UInt16.toNat_ofNat_of_lt' (ofBe_take_lt 2 _),
    UInt16.toNat_ofNat_of_lt' (ofBe_take_lt 2 _),
    be_ofBe_take (by omega), be_ofBe_take (by rw [List.length_drop]; omega), ← List.take_add]

theorem relates_fields : Relates take_fields ENCODED_LEN fun g x => g.encode = x := by
  have h8 := relates_u8
  have h16 := relates_u16
  have h32 := relates_u32
  have hd : Relates take_descriptor 4 fun d x => d.encode = x := relates_descriptor
  unfold take_fields
  exact h32.bind fun _ => h32.bind fun _ => h16.bind fun _ => h16.bind fun _ => h16.bind fun _ => h8.bind fun _ =>
    h8.bind fun _ => h16.bind fun _ => h16.bind fun _ => h8.bind fun _ => h8.bind fun _ => h8.bind fun _ =>
    h16.bind fun _ => hd.bind fun _ => hd.bind fun _ => hd.bind fun _ => hd.bind fun _ => hd.bind fun _ =>
    h16.bind fun _ => h16.bind fun _ => hd.bind fun _ => hd.bind fun _ => hd.bind fun _ => hd.bind fun _ =>
    relates_pure (by simp only [List.append_nil]; rfl)

/-- An image is its registers written again, but for what follows it. -/
theorem encode_decode {bytes : List UInt8} {g : GeneralRegisters} (h : decode bytes = .ok g) :
    g.encode = bytes.take ENCODED_LEN := by
  obtain ⟨hlen, h⟩ := guard_ok_iff.1 h
  obtain ⟨⟨g', rest⟩, hfields, hg⟩ := bind_ok_iff.1 h
  cases hg
  exact (relates_fields bytes g rest (Nat.le_of_not_lt hlen) hfields).2

/-- The magic number is the image's first four octets. -/
theorem decode_magic {bytes : List UInt8} {g : GeneralRegisters} (h : decode bytes = .ok g) :
    g.svr_oa_tc18_magic_nr = UInt32.ofNat (ofBe (bytes.take 4)) := by
  obtain ⟨⟨g', rest⟩, hfields, hg⟩ := bind_ok_iff.1 (guard_ok_iff.1 h).2
  cases hg
  have hfirst : take_u32 bytes = .ok (UInt32.ofNat (ofBe (bytes.take 4)), bytes.drop 4) := rfl
  -- the fields after it leave it alone
  refine yields_first (R := fun magic g => g.svr_oa_tc18_magic_nr = magic) (fun magic => ?_) hfirst hfields
  iterate 23 refine yields_bind fun _ => ?_
  exact yields_pure rfl

end GeneralRegisters

end RustRcp
