import RustRcp.Error
import RustRcp.Lib.Reader
import RustRcp.Lib.Bytes
/-!
# ACF messages

The `byte_message_info` header and the two messages that carry it, ACF_ABB and
ACF_GBB, with their encoders and decoders (`src/acf.rs`). `Reader` supplies the
loop that splits a payload into messages.
-/
open Bytes

namespace RustRcp

/-! ## `byte_message_info` -/

def ACF_MSG_TYPE_7BIT_MAX : UInt8 := 0x7F
def ACF_MSG_LENGTH_9BIT_MAX : UInt16 := 0x01FF
def PAD_2BIT_MAX : UInt8 := 0x03
def BYTE_MESSAGE_INFO_11BIT_MAX : UInt16 := 0x07FF
def EVT_SUB_OPCODE_MAX : UInt8 := 0x07
def READ_SIZE_SEGMENT_12BIT_MAX : UInt16 := 0x0FFF
def BYTE_MESSAGE_INFO_LEN : Nat := 8

/-- The `evt` nibble: the acknowledge flag and the sub-opcode. -/
structure Evt where
  ack : Bool := false
  sub_opcode : UInt8 := 0
  deriving DecidableEq, Repr

def Evt.raw_nibble (e : Evt) : UInt8 := (e.ack.toUInt8 <<< 3) ||| (e.sub_opcode &&& 0x7)

/-- The 12-bit field that is a read size or a segment number. -/
structure ReadSizeOrSegment where
  raw : UInt16 := 0
  deriving DecidableEq, Repr

def ReadSizeOrSegment.as_read_size (r : ReadSizeOrSegment) : UInt16 := r.raw
def ReadSizeOrSegment.as_segment_num (r : ReadSizeOrSegment) : UInt16 := r.raw

/-- The header of both messages. `acf_msg_length` counts quadlets of the whole
message, `pad` the octets that round it up to a quadlet. -/
structure ByteMessageInfo where
  acf_msg_type : UInt8 := 0
  acf_msg_length : UInt16 := 0
  pad : UInt8 := 0
  mtv : Bool := false
  byte_bus_id : UInt16 := 0
  evt : Evt := {}
  hs : Bool := false
  cs : Bool := false
  transaction_num : UInt8 := 0
  op : Bool := false
  rsp : Bool := false
  err : Bool := false
  ms : Bool := false
  read_size_segment : ReadSizeOrSegment := {}
  deriving DecidableEq, Repr

/-- Every field fits the bits the wire has for it. -/
structure ByteMessageInfo.InWidth (info : ByteMessageInfo) : Prop where
  acf_msg_type : info.acf_msg_type ≤ ACF_MSG_TYPE_7BIT_MAX
  acf_msg_length : info.acf_msg_length ≤ ACF_MSG_LENGTH_9BIT_MAX
  pad : info.pad ≤ PAD_2BIT_MAX
  byte_bus_id : info.byte_bus_id ≤ BYTE_MESSAGE_INFO_11BIT_MAX
  sub_opcode : info.evt.sub_opcode ≤ EVT_SUB_OPCODE_MAX
  read_size_segment : info.read_size_segment.raw ≤ READ_SIZE_SEGMENT_12BIT_MAX

/-- The eight octets of a header whose fields fit. -/
def info_octets (info : ByteMessageInfo) : List UInt8 :=
  [ (info.acf_msg_type <<< 1) ||| ((info.acf_msg_length >>> 8) &&& 0x1).toUInt8,
    (info.acf_msg_length &&& 0xFF).toUInt8,
    (info.pad <<< 6) ||| (info.mtv.toUInt8 <<< 5) ||| ((info.byte_bus_id >>> 8) &&& 0x7).toUInt8,
    (info.byte_bus_id &&& 0xFF).toUInt8,
    (info.evt.raw_nibble <<< 4) ||| (info.hs.toUInt8 <<< 1) ||| info.cs.toUInt8,
    info.transaction_num,
    (info.op.toUInt8 <<< 7) ||| (info.rsp.toUInt8 <<< 6) ||| (info.err.toUInt8 <<< 5) ||| (info.ms.toUInt8 <<< 4) |||
      ((info.read_size_segment.raw >>> 8) &&& 0xF).toUInt8,
    (info.read_size_segment.raw &&& 0xFF).toUInt8 ]

def encode_byte_message_info (info : ByteMessageInfo) : Except RcpError (List UInt8) :=
  if info.acf_msg_type > ACF_MSG_TYPE_7BIT_MAX
      ∨ info.acf_msg_length > ACF_MSG_LENGTH_9BIT_MAX
      ∨ info.pad > PAD_2BIT_MAX
      ∨ info.byte_bus_id > BYTE_MESSAGE_INFO_11BIT_MAX
      ∨ info.evt.sub_opcode > EVT_SUB_OPCODE_MAX
      ∨ info.read_size_segment.raw > READ_SIZE_SEGMENT_12BIT_MAX then
    .error .InvalidSize
  else .ok (info_octets info)

def decode_byte_message_info : List UInt8 → Except RcpError ByteMessageInfo
  | b0 :: b1 :: b2 :: b3 :: b4 :: b5 :: b6 :: b7 :: _ =>
    let evt_bits := b4 >>> 4
    .ok {
      acf_msg_type := b0 >>> 1
      acf_msg_length := ((b0 &&& 0x1).toUInt16 <<< 8) ||| b1.toUInt16
      pad := b2 >>> 6
      mtv := (b2 >>> 5) &&& 0x1 != 0
      byte_bus_id := ((b2 &&& 0x7).toUInt16 <<< 8) ||| b3.toUInt16
      evt := { ack := (evt_bits >>> 3) &&& 0x1 != 0, sub_opcode := evt_bits &&& 0x7 }
      hs := (b4 >>> 1) &&& 0x1 != 0
      cs := b4 &&& 0x1 != 0
      transaction_num := b5
      op := (b6 >>> 7) &&& 0x1 != 0
      rsp := (b6 >>> 6) &&& 0x1 != 0
      err := (b6 >>> 5) &&& 0x1 != 0
      ms := (b6 >>> 4) &&& 0x1 != 0
      read_size_segment := ⟨((b6 &&& 0xF).toUInt16 <<< 8) ||| b7.toUInt16⟩ }
  | _ => .error .ShortFrame

/-! ## Response kinds -/

def EVT_RESPONSE_ACKNOWLEDGE : UInt8 := 0x0F

/-- What a response says about its request. -/
inductive ResponseKind where
  | Acknowledge
  | Write
  | Read
  | Error
  deriving DecidableEq, Repr

def ResponseKind.as_str : ResponseKind → String
  | .Acknowledge => "acknowledge"
  | .Write => "write"
  | .Read => "read"
  | .Error => "error"

/-- The acknowledge marker comes before the error flag, and that before the direction. -/
def ByteMessageInfo.response_kind (self : ByteMessageInfo) : ResponseKind :=
  if self.evt.raw_nibble = EVT_RESPONSE_ACKNOWLEDGE then .Acknowledge
  else if self.err then .Error
  else if self.op then .Write
  else .Read

/-! ## Message lengths -/

def ACF_ABB_MSG_TYPE : UInt8 := 0x0E
def ACF_GBB_MSG_TYPE : UInt8 := 0x0D
def ACF_ABB_HEADER_LEN : Nat := BYTE_MESSAGE_INFO_LEN
def ACF_GBB_HEADER_LEN : Nat := BYTE_MESSAGE_INFO_LEN + 8
def QUADLET_LEN : Nat := 4

def quadlets_and_pad_for_message (header_len payload_len : Nat) : Except RcpError (UInt16 × UInt8) :=
  let total := header_len + payload_len
  let remainder := total % QUADLET_LEN
  let pad := if remainder = 0 then 0 else QUADLET_LEN - remainder
  let quadlets := (total + pad) / QUADLET_LEN
  if quadlets ≤ ACF_MSG_LENGTH_9BIT_MAX.toNat then .ok (UInt16.ofNat quadlets, UInt8.ofNat pad)
  else .error .InvalidSize

/-- The payload of the message at the front of `b`, and how many bytes the message takes. -/
def take_message_bytes (b : List UInt8) (header_len : Nat) (info : ByteMessageInfo) :
    Except RcpError (List UInt8 × Nat) := do
  let total_octets := info.acf_msg_length.toNat * QUADLET_LEN
  let region_len ← ok_or (checked_sub total_octets header_len) .InvalidSize
  let payload_len ← ok_or (checked_sub region_len info.pad.toNat) .InvalidSize
  let consumed := header_len + region_len
  if b.length < consumed then
    .error .ShortFrame
  else
    .ok ((b.drop header_len).take payload_len, consumed)

theorem take_message_bytes_ok {b payload : List UInt8} {header_len k : Nat} {info : ByteMessageInfo} :
    take_message_bytes b header_len info = .ok (payload, k) ↔
      k = info.acf_msg_length.toNat * QUADLET_LEN ∧ header_len + info.pad.toNat ≤ k ∧ k ≤ b.length ∧
        payload = (b.drop header_len).take (k - header_len - info.pad.toNat) := by
  simp only [take_message_bytes, checked_sub]
  by_cases h1 : header_len ≤ info.acf_msg_length.toNat * QUADLET_LEN
  · by_cases h2 : info.pad.toNat ≤ info.acf_msg_length.toNat * QUADLET_LEN - header_len
    · by_cases h3 : b.length < header_len + (info.acf_msg_length.toNat * QUADLET_LEN - header_len)
      · simp only [if_pos h1, if_pos h2, if_pos h3, ok_or_some, bind, Except.bind, reduceCtorEq, false_iff]
        omega
      · simp only [if_pos h1, if_pos h2, if_neg h3, ok_or_some, bind, Except.bind, Except.ok.injEq, Prod.mk.injEq]
        constructor
        · rintro ⟨rfl, rfl⟩
          have hk : header_len + (info.acf_msg_length.toNat * QUADLET_LEN - header_len) =
            info.acf_msg_length.toNat * QUADLET_LEN := by omega
          exact ⟨hk, by omega, by omega, by rw [hk]⟩
        · rintro ⟨rfl, -, -, rfl⟩
          exact ⟨rfl, by omega⟩
    · -- the pad reaches into the header
      simp only [if_pos h1, if_neg h2, ok_or_some, ok_or_none, bind, Except.bind, reduceCtorEq, false_iff]
      omega
  · -- the declared length is shorter than the header
    simp only [if_neg h1, ok_or_none, bind, Except.bind, reduceCtorEq, false_iff]
    omega

/-- The error for a message of another type, with a hint where it is the sibling's. -/
def wrong_discriminant_error (context : String) (expected got sibling_value : UInt8) (sibling_name : String) :
    RcpError :=
  let hint :=
    if got = sibling_value then
      " (that's " ++ sibling_name ++ "'s discriminant, not decodable by this function)"
    else ""
  .Other (context ++ ": expected acf_msg_type 0x" ++ hex_02X expected ++ ", got 0x" ++ hex_02X got ++ hint)

/-! ## ACF_ABB -/

structure AcfAbbMessage where
  info : ByteMessageInfo := {}
  payload : List UInt8 := []
  deriving DecidableEq, Repr

def encode_acf_abb (msg : AcfAbbMessage) : Except RcpError (List UInt8) := do
  let (acf_msg_length, pad) ← quadlets_and_pad_for_message ACF_ABB_HEADER_LEN msg.payload.length
  let info := { msg.info with acf_msg_type := ACF_ABB_MSG_TYPE, acf_msg_length, pad }
  let info_bytes ← encode_byte_message_info info
  return info_bytes ++ msg.payload ++ List.replicate pad.toNat 0

/-- The ACF_ABB message at the front of `b` and the bytes it takes: what
`decode_acf_abb` and each turn of `decode_acf_abb_messages` both do. -/
def acf_abb_at (b : List UInt8) : Except RcpError (AcfAbbMessage × Nat) :=
  if b.length < ACF_ABB_HEADER_LEN then .error .ShortFrame else do
  let info ← decode_byte_message_info (b.take ACF_ABB_HEADER_LEN)
  if info.acf_msg_type ≠ ACF_ABB_MSG_TYPE then
    .error (wrong_discriminant_error "acf_abb" ACF_ABB_MSG_TYPE info.acf_msg_type ACF_GBB_MSG_TYPE "ACF_GBB")
  else do
  let (payload, consumed) ← take_message_bytes b ACF_ABB_HEADER_LEN info
  return ({ info, payload }, consumed)

def decode_acf_abb (b : List UInt8) : Except RcpError AcfAbbMessage := do
  let (msg, _consumed) ← acf_abb_at b
  return msg

theorem decode_info_take (b : List UInt8) :
    decode_byte_message_info (b.take BYTE_MESSAGE_INFO_LEN) = decode_byte_message_info b := by
  rcases b with _ | ⟨b0, _ | ⟨b1, _ | ⟨b2, _ | ⟨b3, _ | ⟨b4, _ | ⟨b5, _ | ⟨b6, _ | ⟨b7, t⟩⟩⟩⟩⟩⟩⟩⟩ <;> rfl

theorem acf_abb_at_ok {b : List UInt8} {msg : AcfAbbMessage} {k : Nat} :
    acf_abb_at b = .ok (msg, k) ↔
      decode_byte_message_info b = .ok msg.info ∧ msg.info.acf_msg_type = ACF_ABB_MSG_TYPE ∧
        take_message_bytes b ACF_ABB_HEADER_LEN msg.info = .ok (msg.payload, k) := by
  unfold acf_abb_at
  rw [ACF_ABB_HEADER_LEN, decode_info_take, guard_ok_iff]
  constructor
  · rintro ⟨-, h⟩
    obtain ⟨info, hinfo, h⟩ := bind_ok_iff.1 h
    obtain ⟨htype, h⟩ := guard_ok_iff.1 h
    obtain ⟨⟨payload, consumed⟩, htake, h⟩ := bind_ok_iff.1 h
    cases h
    exact ⟨hinfo, not_not.1 htype, htake⟩
  · rintro ⟨hinfo, htype, htake⟩
    obtain ⟨-, hle, hlen, -⟩ := take_message_bytes_ok.1 htake
    refine ⟨by omega, bind_ok_iff.2 ⟨_, hinfo, guard_ok_iff.2 ⟨not_not.2 htype, ?_⟩⟩⟩
    exact bind_ok_iff.2 ⟨_, htake, rfl⟩

/-- The messages a payload consists of, each starting where the one before it ends. -/
def abb_reader : Reader UInt8 RcpError AcfAbbMessage where
  read := acf_abb_at
  pos := by
    intro b msg k h
    obtain ⟨-, -, hk, hle, -⟩ := acf_abb_at_ok.1 h |>.imp_right (And.imp_right take_message_bytes_ok.1)
    simp only [ACF_ABB_HEADER_LEN, BYTE_MESSAGE_INFO_LEN] at hle
    omega

def decode_acf_abb_messages (b : List UInt8) : Except RcpError (List AcfAbbMessage) :=
  if b.isEmpty then .error .ShortFrame
  else abb_reader.loop b 0 []

/-! ## ACF_GBB -/

structure AcfGbbMessage where
  info : ByteMessageInfo := {}
  message_timestamp : UInt64 := 0
  payload : List UInt8 := []
  deriving DecidableEq, Repr

def encode_acf_gbb (msg : AcfGbbMessage) : Except RcpError (List UInt8) := do
  let (acf_msg_length, pad) ← quadlets_and_pad_for_message ACF_GBB_HEADER_LEN msg.payload.length
  let info := { msg.info with acf_msg_type := ACF_GBB_MSG_TYPE, acf_msg_length, pad }
  let info_bytes ← encode_byte_message_info info
  return info_bytes ++ be 8 msg.message_timestamp.toNat ++ msg.payload ++ List.replicate pad.toNat 0

def decode_acf_gbb (b : List UInt8) : Except RcpError AcfGbbMessage :=
  if b.length < ACF_GBB_HEADER_LEN then .error .ShortFrame else do
  let info ← decode_byte_message_info (b.take BYTE_MESSAGE_INFO_LEN)
  if info.acf_msg_type ≠ ACF_GBB_MSG_TYPE then
    .error (wrong_discriminant_error "acf_gbb" ACF_GBB_MSG_TYPE info.acf_msg_type ACF_ABB_MSG_TYPE "ACF_ABB")
  else do
  let ts_bytes := (b.take ACF_GBB_HEADER_LEN).drop BYTE_MESSAGE_INFO_LEN
  let message_timestamp := UInt64.ofNat (ofBe ts_bytes)
  let (payload, _consumed) ← take_message_bytes b ACF_GBB_HEADER_LEN info
  return { info, message_timestamp, payload }

theorem decode_acf_gbb_ok {b : List UInt8} {msg : AcfGbbMessage} :
    decode_acf_gbb b = .ok msg ↔
      decode_byte_message_info b = .ok msg.info ∧ msg.info.acf_msg_type = ACF_GBB_MSG_TYPE ∧
        msg.message_timestamp = UInt64.ofNat (ofBe ((b.take ACF_GBB_HEADER_LEN).drop BYTE_MESSAGE_INFO_LEN)) ∧
        ∃ k, take_message_bytes b ACF_GBB_HEADER_LEN msg.info = .ok (msg.payload, k) := by
  unfold decode_acf_gbb
  rw [decode_info_take, guard_ok_iff]
  constructor
  · rintro ⟨-, h⟩
    obtain ⟨info, hinfo, h⟩ := bind_ok_iff.1 h
    obtain ⟨htype, h⟩ := guard_ok_iff.1 h
    obtain ⟨⟨payload, consumed⟩, htake, h⟩ := bind_ok_iff.1 h
    cases h
    exact ⟨hinfo, not_not.1 htype, rfl, _, htake⟩
  · rintro ⟨hinfo, htype, hts, k, htake⟩
    obtain ⟨-, hle, hlen, -⟩ := take_message_bytes_ok.1 htake
    refine ⟨by omega, bind_ok_iff.2 ⟨_, hinfo, guard_ok_iff.2 ⟨not_not.2 htype, ?_⟩⟩⟩
    refine bind_ok_iff.2 ⟨_, htake, ?_⟩
    rw [← hts]
    rfl

/-! ## Responses -/

def build_response_info (request response : ByteMessageInfo) : ByteMessageInfo :=
  { response with byte_bus_id := request.byte_bus_id, rsp := true }

def verify_echo_back (request response : ByteMessageInfo) : Except RcpError Unit :=
  if response.byte_bus_id ≠ request.byte_bus_id then .error .EpError else .ok ()

/-- The response that carries an error's code, for an error that has one. -/
def build_error_response (request : ByteMessageInfo) (error : RcpError) : Option AcfAbbMessage := do
  let code ← error.tc18_wire_code
  return { info := { build_response_info request request with err := true }, payload := [code] }

end RustRcp
