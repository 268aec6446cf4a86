import RustRcp.Acf
/-!
# The `byte_message_info` header reads back

Fields that fit their widths survive encoding and decoding, and encoding what
any eight octets decode to gives those octets back with the reserved bits clear.
The octets are settled one at a time, over all values of the fields they hold.
-/
open Bytes

namespace RustRcp

/-! ## Octets that hold several fields -/

theorem octet0_fields : ∀ type : UInt8, type.toNat < 128 → ∀ len : UInt8, len.toNat < 2 →
    (((type <<< 1) ||| len) >>> 1 = type) ∧ ((type <<< 1) ||| len) &&& 0x1 = len := by
  refine forall_lt 128 fun i => forall_lt 2 fun j => ?_
  revert i j
  decide +kernel

theorem octet2_fields (mtv : Bool) : ∀ pad : UInt8, pad.toNat < 4 → ∀ bus : UInt8, bus.toNat < 8 →
    let o := (pad <<< 6) ||| (mtv.toUInt8 <<< 5) ||| bus
    o >>> 6 = pad ∧ ((o >>> 5) &&& 0x1 != 0) = mtv ∧ o &&& 0x7 = bus := by
  refine forall_lt 4 fun i => forall_lt 8 fun j => ?_
  revert mtv i j
  decide +kernel

theorem octet4_fields (ack hs cs : Bool) : ∀ sub : UInt8, sub.toNat < 8 →
    let o := (((ack.toUInt8 <<< 3) ||| (sub &&& 0x7)) <<< 4) ||| (hs.toUInt8 <<< 1) ||| cs.toUInt8
    (((o >>> 4) >>> 3) &&& 0x1 != 0) = ack ∧ (o >>> 4) &&& 0x7 = sub ∧ ((o >>> 1) &&& 0x1 != 0) = hs ∧
      (o &&& 0x1 != 0) = cs := by
  refine forall_lt 8 fun i => ?_
  revert ack hs cs i
  decide +kernel

theorem octet6_fields (op rsp err ms : Bool) : ∀ seg : UInt8, seg.toNat < 16 →
    let o := (op.toUInt8 <<< 7) ||| (rsp.toUInt8 <<< 6) ||| (err.toUInt8 <<< 5) ||| (ms.toUInt8 <<< 4) ||| seg
    ((o >>> 7) &&& 0x1 != 0) = op ∧ ((o >>> 6) &&& 0x1 != 0) = rsp ∧ ((o >>> 5) &&& 0x1 != 0) = err ∧
      ((o >>> 4) &&& 0x1 != 0) = ms ∧ o &&& 0xF = seg := by
  refine forall_lt 16 fun i => ?_
  revert op rsp err ms i
  decide +kernel

/-- Each octet is what its fields say, except for the reserved bits of octets 2 and 4. -/
theorem octets_of_fields (b : UInt8) :
    ((b >>> 1) <<< 1) ||| (b &&& 0x1) = b ∧
    ((b >>> 6) <<< 6) ||| (((b >>> 5) &&& 0x1 != 0).toUInt8 <<< 5) ||| (b &&& 0x7) = b &&& 0xE7 ∧
    (((((b >>> 4) >>> 3) &&& 0x1 != 0).toUInt8 <<< 3 ||| (((b >>> 4) &&& 0x7) &&& 0x7)) <<< 4) |||
      (((b >>> 1) &&& 0x1 != 0).toUInt8 <<< 1) ||| (b &&& 0x1 != 0).toUInt8 = b &&& 0xF3 ∧
    ((((b >>> 7) &&& 0x1 != 0).toUInt8 <<< 7) ||| (((b >>> 6) &&& 0x1 != 0).toUInt8 <<< 6) |||
      (((b >>> 5) &&& 0x1 != 0).toUInt8 <<< 5) ||| (((b >>> 4) &&& 0x1 != 0).toUInt8 <<< 4) ||| (b &&& 0xF) = b) := by
  revert b
  refine forall_byte ?_
  decide +kernel

/-- The widths the parts of an octet leave for their fields. -/
theorem octet_widths (b : UInt8) :
    b >>> 1 ≤ 0x7F ∧ (b &&& 0x1).toNat < 2 ∧ b >>> 6 ≤ 0x03 ∧ (b &&& 0x7).toNat < 8 ∧
      (b >>> 4) &&& 0x7 ≤ 0x07 ∧ (b &&& 0xF).toNat < 16 := by
  revert b
  refine forall_byte ?_
  decide +kernel

/-! ## The header -/

theorem encode_info_ok_iff (info : ByteMessageInfo) :
    encode_byte_message_info info = .ok (info_octets info) ↔ info.InWidth := by
  unfold encode_byte_message_info
  constructor
  · intro h
    split at h
    · cases h
    · rename_i hw
      simp only [not_or, gt_iff_lt, UInt8.not_lt, UInt16.not_lt] at hw
      exact ⟨hw.1, hw.2.1, hw.2.2.1, hw.2.2.2.1, hw.2.2.2.2.1, hw.2.2.2.2.2⟩
  · intro h
    rw [if_neg]
    simp only [not_or, gt_iff_lt, UInt8.not_lt, UInt16.not_lt]
    exact ⟨h.1, h.2, h.3, h.4, h.5, h.6⟩

theorem encode_info_error {info : ByteMessageInfo} (h : ¬ info.InWidth) :
    encode_byte_message_info info = .error .InvalidSize := by
  unfold encode_byte_message_info
  split
  · rfl
  · rename_i hw
    exact absurd ((encode_info_ok_iff info).1 (by rw [encode_byte_message_info, if_neg hw])) h

@[simp] theorem info_octets_length (info : ByteMessageInfo) : (info_octets info).length = BYTE_MESSAGE_INFO_LEN := rfl

/-- Fields that fit are read back, whatever follows the header. -/
theorem decode_info_octets {info : ByteMessageInfo} (h : info.InWidth) (t : List UInt8) :
    decode_byte_message_info (info_octets info ++ t) = .ok info := by
  have hlen : ((info.acf_msg_length >>> 8) &&& 0x1).toUInt8.toNat < 2 := by
    rw [high_toNat _ 0x1 1 (by omega) rfl]; omega
  have hbus : ((info.byte_bus_id >>> 8) &&& 0x7).toUInt8.toNat < 8 := by
    rw [high_toNat _ 0x7 3 (by omega) rfl]; omega
  have hseg : ((info.read_size_segment.raw >>> 8) &&& 0xF).toUInt8.toNat < 16 := by
    rw [high_toNat _ 0xF 4 (by omega) rfl]; omega
  obtain ⟨htype, hlenw, hpad, hbusw, hsub, hsegw⟩ := h
  simp only [ACF_MSG_TYPE_7BIT_MAX, ACF_MSG_LENGTH_9BIT_MAX, PAD_2BIT_MAX, BYTE_MESSAGE_INFO_11BIT_MAX,
    EVT_SUB_OPCODE_MAX, READ_SIZE_SEGMENT_12BIT_MAX, UInt8.le_iff_toNat_le, UInt16.le_iff_toNat_le] at *
  have o0 := octet0_fields info.acf_msg_type (by simpa [Nat.lt_succ_iff] using htype) _ hlen
  have o2 := octet2_fields info.mtv info.pad (by simpa [Nat.lt_succ_iff] using hpad) _ hbus
  have o4 := octet4_fields info.evt.ack info.hs info.cs info.evt.sub_opcode (by simpa [Nat.lt_succ_iff] using hsub)
  have o6 := octet6_fields info.op info.rsp info.err info.ms _ hseg
  have l := join_split info.acf_msg_length 0x1 1 (by omega) rfl (by simpa [Nat.lt_succ_iff] using hlenw)
  have b := join_split info.byte_bus_id 0x7 3 (by omega) rfl (by simpa [Nat.lt_succ_iff] using hbusw)
  have r := join_split info.read_size_segment.raw 0xF 4 (by omega) rfl (by simpa [Nat.lt_succ_iff] using hsegw)
  simp only [info_octets, Evt.raw_nibble, List.cons_append, decode_byte_message_info, o0, o2, o4, o6, l, b, r]

/-- The reserved bits of a header, octet 2 bits 4:3 and octet 4 bits 3:2, cleared. -/
def clear_rsv : List UInt8 → List UInt8
  | b0 :: b1 :: b2 :: b3 :: b4 :: t => b0 :: b1 :: (b2 &&& 0xE7) :: b3 :: (b4 &&& 0xF3) :: t
  | b => b

/-- What eight octets decode to fits its widths and encodes to those octets, reserved bits aside. -/
theorem decode_info_ok {b : List UInt8} {info : ByteMessageInfo} (h : decode_byte_message_info b = .ok info) :
    info.InWidth ∧ info_octets info = clear_rsv (b.take BYTE_MESSAGE_INFO_LEN) ∧ BYTE_MESSAGE_INFO_LEN ≤ b.length := by
  unfold decode_byte_message_info at h
  split at h
  · rename_i b0 b1 b2 b3 b4 b5 b6 b7 t
    cases h
    obtain ⟨w0, l0, -⟩ := octet_widths b0
    obtain ⟨-, -, w2, l2, -⟩ := octet_widths b2
    obtain ⟨-, -, -, -, w4, -⟩ := octet_widths b4
    obtain ⟨-, -, -, -, -, l6⟩ := octet_widths b6
    -- the fields that span two octets are left, and the octets themselves
    refine ⟨⟨w0, ?_, w2, ?_, w4, ?_⟩, ?_, by simp [BYTE_MESSAGE_INFO_LEN]⟩
    · have := b1.toNat_lt
      simp only [UInt16.le_iff_toNat_le, join_toNat, ACF_MSG_LENGTH_9BIT_MAX, UInt16.reduceToNat]
      omega
    · have := b3.toNat_lt
      simp only [UInt16.le_iff_toNat_le, join_toNat, BYTE_MESSAGE_INFO_11BIT_MAX, UInt16.reduceToNat]
      omega
    · have := b7.toNat_lt
      simp only [UInt16.le_iff_toNat_le, join_toNat, READ_SIZE_SEGMENT_12BIT_MAX, UInt16.reduceToNat]
      omega
    · have o0 := (octets_of_fields b0).1
      have o2 := (octets_of_fields b2).2.1
      have o4 := (octets_of_fields b4).2.2.1
      have o6 := (octets_of_fields b6).2.2.2
      have j0 := high_join (b0 &&& 0x1) b1 0x1 1 (by omega) rfl l0
      have j2 := high_join (b2 &&& 0x7) b3 0x7 3 (by omega) rfl l2
      have j6 := high_join (b6 &&& 0xF) b7 0xF 4 (by omega) rfl l6
      simp only [info_octets, Evt.raw_nibble, j0, j2, j6, low_join, o0, o2, o4, o6, BYTE_MESSAGE_INFO_LEN,
        List.take_succ_cons, List.take_zero, clear_rsv]
  · cases h

end RustRcp
