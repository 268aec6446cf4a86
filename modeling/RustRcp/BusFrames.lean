import RustRcp.Error
import RustRcp.Lib.Bytes
import RustRcp.Lib.Codec
/-!
# Bus frames

CAN and LIN frames as they are put on a bus (`src/can.rs`, `src/lin.rs`). The encoders check
nothing. The decoders accept the frames that the format allows, each in one encoding, and
no others (`bus_frames_exact`).
-/
open Bytes Codec

namespace RustRcp

def CLASSICAL_CAN_MAX_DATA : Nat := 8
def CAN_FD_MAX_PAYLOAD : Nat := 64
def CAN_XL_MAX_PAYLOAD : Nat := 2048
def CAN_XL_SUB_HEADER_LEN : Nat := 6
def CAN_STANDARD_ID_MAX : UInt32 := 0x7FF
def CAN_EXTENDED_ID_MAX : UInt32 := 0x1FFFFFFF
def LIN_MAX_DATA : Nat := 8

/-! ## Formats -/

inductive FrameFormat where
  | Cbff
  | Ceff
  | Fbff
  | Feff
  | XlClassical
  | XlNew
  deriving DecidableEq, Repr

namespace FrameFormat

def to_u8 : FrameFormat → UInt8
  | Cbff => 0
  | Ceff => 1
  | Fbff => 2
  | Feff => 3
  | XlClassical => 4
  | XlNew => 5

def from_u8 (raw : UInt8) : Except RcpError FrameFormat :=
  match raw with
  | 0 => .ok Cbff
  | 1 => .ok Ceff
  | 2 => .ok Fbff
  | 3 => .ok Feff
  | 4 => .ok XlClassical
  | 5 => .ok XlNew
  | _ => .error .InvalidParameter

def is_classical : FrameFormat → Bool
  | Cbff | Ceff => true
  | _ => false

def is_fd : FrameFormat → Bool
  | Fbff | Feff => true
  | _ => false

def is_xl : FrameFormat → Bool
  | XlClassical | XlNew => true
  | _ => false

def is_extended_id : FrameFormat → Bool
  | Ceff | Feff => true
  | _ => false

def max_data_len (self : FrameFormat) : Option Nat :=
  if self.is_classical then some CLASSICAL_CAN_MAX_DATA
  else if self.is_fd then some CAN_FD_MAX_PAYLOAD
  else none

theorem from_u8_eq_ok {raw : UInt8} {format : FrameFormat} : from_u8 raw = .ok format ↔ format.to_u8 = raw := by
  constructor
  · intro h
    unfold from_u8 at h
    split at h <;> cases h <;> rfl
  · rintro rfl
    cases format <;> rfl

theorem to_u8_inj {format format' : FrameFormat} (h : format.to_u8 = format'.to_u8) : format = format' :=
  Except.ok.inj ((from_u8_eq_ok.2 rfl).symm.trans (from_u8_eq_ok.2 h.symm))

end FrameFormat

/-! ## Classical and FD frames -/

structure CanDataFrame where
  format : FrameFormat
  id : UInt32
  data : List UInt8
  deriving DecidableEq, Repr

namespace CanDataFrame

def encode (self : CanDataFrame) : List UInt8 := self.format.to_u8 :: (be 4 self.id.toNat ++ self.data)

def decode : List UInt8 → Except RcpError CanDataFrame
  | tag :: b1 :: b2 :: b3 :: b4 :: data => do
    let format ← FrameFormat.from_u8 tag
    if format.is_xl then .error .InvalidParameter else
    let id := UInt32.ofNat (ofBe [b1, b2, b3, b4])
    let id_max := if format.is_extended_id then CAN_EXTENDED_ID_MAX else CAN_STANDARD_ID_MAX
    if id > id_max then .error .InvalidParameter else
    let max_len := format.max_data_len.getD CLASSICAL_CAN_MAX_DATA
    if data.length > max_len then .error .PayloadTooLarge else
    .ok { format, id, data }
  | _ => .error .ShortFrame

/-- The format is not one of the XL formats, and the id and the data are within its limits. -/
structure Valid (frame : CanDataFrame) : Prop where
  format : frame.format.is_xl = false
  id : frame.id.toNat < 2 ^ (if frame.format.is_extended_id then 29 else 11)
  data : frame.data.length ≤ if frame.format.is_classical then 8 else 64

theorem id_le_iff {self : CanDataFrame} :
    self.id ≤ (if self.format.is_extended_id then CAN_EXTENDED_ID_MAX else CAN_STANDARD_ID_MAX) ↔
      self.id.toNat < 2 ^ (if self.format.is_extended_id then 29 else 11) := by
  have hext : CAN_EXTENDED_ID_MAX.toNat = 2 ^ 29 - 1 := rfl
  have hstd : CAN_STANDARD_ID_MAX.toNat = 2 ^ 11 - 1 := rfl
  rw [UInt32.le_iff_toNat_le]
  split_ifs <;> omega

theorem max_data_len_eq {format : FrameFormat} (h : format.is_xl = false) :
    format.max_data_len.getD CLASSICAL_CAN_MAX_DATA = if format.is_classical then 8 else 64 := by
  cases format <;> first | rfl | cases h

theorem encode_inj {self other : CanDataFrame} (h : self.encode = other.encode) : self = other := by
  obtain ⟨hformat, hrest⟩ := List.cons.inj h
  obtain ⟨hid, hdata⟩ := List.append_inj hrest (by rw [be_length, be_length])
  have hvalue := congrArg ofBe hid
  rw [ofBe_be_of_lt self.id.toNat_lt, ofBe_be_of_lt other.id.toNat_lt, UInt32.toNat_inj] at hvalue
  cases self
  cases other
  cases FrameFormat.to_u8_inj hformat
  cases hvalue
  cases hdata
  rfl

theorem decode_ok_iff (b : List UInt8) (self : CanDataFrame) :
    decode b = .ok self ↔ self.Valid ∧ self.encode = b := by
  unfold decode
  split
  next tag b1 b2 b3 b4 data =>
    have hlt : ofBe [b1, b2, b3, b4] < 256 ^ 4 := ofBe_lt [b1, b2, b3, b4]
    have hoctets : be 4 (ofBe [b1, b2, b3, b4]) = [b1, b2, b3, b4] := be_ofBe [b1, b2, b3, b4]
    simp only [bind_ok_iff, guard_ok_iff, FrameFormat.from_u8_eq_ok, Bool.not_eq_true, gt_iff_lt, UInt32.not_lt, not_lt]
    constructor
    · rintro ⟨format, rfl, hformat, hid, hdata, hself⟩
      obtain rfl := Except.ok.inj hself
      refine ⟨⟨hformat, id_le_iff.1 hid, by rwa [← max_data_len_eq hformat]⟩, ?_⟩
      rw [encode, UInt32.toNat_ofNat_of_lt' hlt, hoctets]
      rfl
    · rintro ⟨hvalid, hencode⟩
      obtain ⟨hformat, hrest⟩ := List.cons.inj hencode
      have happend : be 4 self.id.toNat ++ self.data = [b1, b2, b3, b4] ++ data := hrest
      obtain ⟨hid, hdata⟩ := List.append_inj happend (be_length 4 _)
      rw [← hid, ofBe_be_of_lt self.id.toNat_lt, UInt32.ofNat_toNat, ← hdata]
      refine ⟨self.format, hformat, hvalid.format, id_le_iff.2 hvalid.id, ?_, rfl⟩
      rw [max_data_len_eq hvalid.format]
      exact hvalid.data
  next hshort =>
    -- an encoding has five octets at least
    exact iff_of_false nofun fun h => hshort _ _ _ _ _ _ h.2.symm

theorem exact : Exact Valid encode decode := exact_of_iff (fun _ _ => encode_inj) decode_ok_iff

end CanDataFrame

/-! ## XL frames -/

structure CanXlSubHeader where
  raw : Vector UInt8 6
  deriving DecidableEq, Repr

namespace CanXlSubHeader

def encode (self : CanXlSubHeader) : List UInt8 := self.raw.toList

def decode : List UInt8 → Except RcpError CanXlSubHeader
  | b0 :: b1 :: b2 :: b3 :: b4 :: b5 :: _ => .ok ⟨#v[b0, b1, b2, b3, b4, b5]⟩
  | _ => .error .ShortFrame

theorem decode_eq_ok {b : List UInt8} {self : CanXlSubHeader} :
    decode b = .ok self ↔ ∃ rest, self.encode ++ rest = b := by
  obtain ⟨⟨⟨l⟩, hlen⟩⟩ := self
  match l, hlen with
  | [c0, c1, c2, c3, c4, c5], _ =>
    constructor
    · intro h
      unfold decode at h
      split at h
      · cases h
        exact ⟨_, rfl⟩
      · cases h
    · rintro ⟨rest, rfl⟩
      rfl

theorem encode_length (self : CanXlSubHeader) : self.encode.length = CAN_XL_SUB_HEADER_LEN := Vector.length_toList ..

end CanXlSubHeader

structure CanXlFrame where
  format : FrameFormat
  sub_header : CanXlSubHeader
  payload : List UInt8
  deriving DecidableEq, Repr

namespace CanXlFrame

def encode (self : CanXlFrame) : List UInt8 := self.format.to_u8 :: (self.sub_header.encode ++ self.payload)

def decode (b : List UInt8) : Except RcpError CanXlFrame :=
  if b.length < 1 + CAN_XL_SUB_HEADER_LEN then .error .ShortFrame
  else match b with
    | tag :: rest => do
      let format ← FrameFormat.from_u8 tag
      if !format.is_xl then .error .InvalidParameter else
      let sub_header ← CanXlSubHeader.decode rest
      let payload := rest.drop CAN_XL_SUB_HEADER_LEN
      if payload.length > CAN_XL_MAX_PAYLOAD then .error .PayloadTooLarge else
      .ok { format, sub_header, payload }
    | [] => .error .ShortFrame

/-- The format is one of the XL formats, and the payload is within its limit. -/
structure Valid (frame : CanXlFrame) : Prop where
  format : frame.format.is_xl = true
  payload : frame.payload.length ≤ 2048

theorem encode_inj {self other : CanXlFrame} (h : self.encode = other.encode) : self = other := by
  obtain ⟨hformat, hrest⟩ := List.cons.inj h
  obtain ⟨hsub, hpayload⟩ := List.append_inj hrest (by rw [CanXlSubHeader.encode_length, CanXlSubHeader.encode_length])
  have hself := CanXlSubHeader.decode_eq_ok.2 ⟨[], List.append_nil self.sub_header.encode⟩
  have hother := CanXlSubHeader.decode_eq_ok.2 ⟨[], List.append_nil other.sub_header.encode⟩
  rw [hsub, hother] at hself
  cases self
  cases other
  cases FrameFormat.to_u8_inj hformat
  cases hself
  cases hpayload
  rfl

theorem decode_ok_iff (b : List UInt8) (self : CanXlFrame) : decode b = .ok self ↔ self.Valid ∧ self.encode = b := by
  have hlen := self.sub_header.encode_length
  unfold decode
  rw [guard_ok_iff]
  cases b with
  | nil => exact iff_of_false (fun h => nomatch h.2) fun h => nomatch h.2
  | cons tag rest =>
    simp only [bind_ok_iff, guard_ok_iff, FrameFormat.from_u8_eq_ok, CanXlSubHeader.decode_eq_ok, Bool.not_eq_true',
      Bool.not_eq_false, gt_iff_lt, not_lt]
    constructor
    · rintro ⟨-, format, rfl, hformat, sub_header, ⟨payload, rfl⟩, hpayload, hself⟩
      obtain rfl := Except.ok.inj hself
      rw [List.drop_left' sub_header.encode_length] at hpayload ⊢
      exact ⟨⟨hformat, hpayload⟩, rfl⟩
    · rintro ⟨hvalid, hencode⟩
      obtain ⟨hformat, rfl⟩ := List.cons.inj hencode
      rw [List.drop_left' hlen]
      refine ⟨?_, self.format, hformat, hvalid.format, self.sub_header, ⟨_, rfl⟩, hvalid.payload, rfl⟩
      rw [List.length_cons, List.length_append, hlen]
      omega

theorem exact : Exact Valid encode decode := exact_of_iff (fun _ _ => encode_inj) decode_ok_iff

end CanXlFrame

/-! ## LIN transfers -/

structure LinFrameTransfer where
  pid : UInt8 := 0
  data : List UInt8 := []
  deriving DecidableEq, Repr

namespace LinFrameTransfer

def encode (self : LinFrameTransfer) : List UInt8 := self.pid :: self.data

def decode : List UInt8 → Except RcpError LinFrameTransfer
  | [] => .error .ShortFrame
  | pid :: data =>
    if data.length > LIN_MAX_DATA then .error .PayloadTooLarge
    else .ok { pid, data }

/-- The data is within its limit. -/
def Valid (frame : LinFrameTransfer) : Prop := frame.data.length ≤ 8

theorem encode_inj {self other : LinFrameTransfer} (h : self.encode = other.encode) : self = other := by
  cases self
  cases other
  cases h
  rfl

theorem decode_ok_iff (b : List UInt8) (self : LinFrameTransfer) :
    decode b = .ok self ↔ self.Valid ∧ self.encode = b := by
  cases b with
  | nil => exact iff_of_false nofun fun h => nomatch h.2
  | cons pid data =>
    rw [decode, guard_ok_iff, gt_iff_lt, not_lt]
    constructor
    · rintro ⟨hdata, hself⟩
      cases hself
      exact ⟨hdata, rfl⟩
    · rintro ⟨hvalid, hencode⟩
      cases hencode
      exact ⟨hvalid, rfl⟩

theorem exact : Exact Valid encode decode := exact_of_iff (fun _ _ => encode_inj) decode_ok_iff

end LinFrameTransfer

/-! ## All of them -/

/-- Each of the three codecs is exact, and no octets are both a data frame and an XL frame. -/
theorem bus_frames_exact :
    Exact CanDataFrame.Valid CanDataFrame.encode CanDataFrame.decode ∧
    Exact CanXlFrame.Valid CanXlFrame.encode CanXlFrame.decode ∧
    Exact LinFrameTransfer.Valid LinFrameTransfer.encode LinFrameTransfer.decode ∧
    ∀ b frame xl_frame, CanDataFrame.decode b = .ok frame → CanXlFrame.decode b ≠ .ok xl_frame := by
  refine ⟨CanDataFrame.exact, CanXlFrame.exact, LinFrameTransfer.exact, fun b frame xl_frame hframe hxl => ?_⟩
  obtain ⟨hvalid, rfl⟩ := CanDataFrame.exact.ok_iff.1 hframe
  obtain ⟨hxl_valid, hencode⟩ := CanXlFrame.exact.ok_iff.1 hxl
  -- the first octet is of one format
  have hformat := FrameFormat.to_u8_inj (List.cons.inj hencode).1
  have hxl_format := hxl_valid.format
  rw [hformat, hvalid.format] at hxl_format
  cases hxl_format

end RustRcp
