import RustRcp.Error
import RustRcp.Lib.Bytes
/-!
# AVTPDU headers and frames

The NTSCF header, the stream id it names a sender by, and the frame that carries
an ACF payload behind it (`src/avtp.rs`).
-/
open Bytes

namespace RustRcp

def NTSCF_SUBTYPE : UInt8 := 0x82
def NTSCF_HEADER_LEN : Nat := 12
def NTSCF_DATA_LENGTH_MAX : UInt16 := 0x07FF
def TSCF_SUBTYPE : UInt8 := 0x05
def TSCF_HEADER_LEN : Nat := 24

/-! ## Headers -/

structure NtscfHeader where
  sequence_num : UInt8 := 0
  ntscf_data_length : UInt16 := 0
  stream_id : UInt64 := 0
  deriving DecidableEq, Repr

structure TscfHeader where
  sequence_num : UInt8 := 0
  avtp_timestamp : UInt32 := 0
  stream_data_length : UInt16 := 0
  stream_id : UInt64 := 0
  deriving DecidableEq, Repr

/-- A decoded header, tagged by its variant. -/
inductive HeaderVariant where
  | Ntscf (h : NtscfHeader)
  | Tscf (h : TscfHeader)
  deriving DecidableEq, Repr

def ntscf_header_octets (hdr : NtscfHeader) : List UInt8 :=
  [NTSCF_SUBTYPE, (0x80 : UInt8) ||| ((hdr.ntscf_data_length >>> 8).toUInt8 &&& 0x07),
    (hdr.ntscf_data_length &&& 0x00FF).toUInt8, hdr.sequence_num] ++ be 8 hdr.stream_id.toNat

def encode_ntscf_header (hdr : NtscfHeader) : Except RcpError (List UInt8) :=
  if hdr.ntscf_data_length > NTSCF_DATA_LENGTH_MAX then .error .InvalidSize
  else .ok (ntscf_header_octets hdr)

def decode_ntscf_header (b : List UInt8) : Except RcpError NtscfHeader :=
  if b.length < NTSCF_HEADER_LEN then .error .ShortFrame
  else match b with
    | b0 :: b1 :: b2 :: b3 :: rest =>
      if b0 ≠ NTSCF_SUBTYPE then
        .error (.Other ("ntscf: expected subtype 0x" ++ hex_02X NTSCF_SUBTYPE ++ ", got 0x" ++ hex_02X b0))
      else if (b1 >>> 7) &&& 0x1 ≠ 1 then
        .error (.Other "ntscf: sv bit must be 1 (stream_id always valid for NTSCF)")
      else .ok {
        sequence_num := b3
        ntscf_data_length := ((b1 &&& 0x07).toUInt16 <<< 8) ||| b2.toUInt16
        stream_id := UInt64.ofNat (ofBe (rest.take 8)) }
    | _ => .error .ShortFrame

def tscf_header_octets (hdr : TscfHeader) : List UInt8 :=
  [TSCF_SUBTYPE, (0x80 : UInt8) ||| (if hdr.avtp_timestamp ≠ 0 then 1 else 0), hdr.sequence_num, 0x00] ++
    (be 8 hdr.stream_id.toNat ++ (be 4 hdr.avtp_timestamp.toNat ++ (List.replicate 4 0 ++
    (be 2 hdr.stream_data_length.toNat ++ List.replicate 2 0))))

def encode_tscf_header (hdr : TscfHeader) : Except RcpError (List UInt8) := .ok (tscf_header_octets hdr)

def decode_tscf_header (b : List UInt8) : Except RcpError TscfHeader :=
  if b.length < TSCF_HEADER_LEN then .error .ShortFrame
  else match b with
    | b0 :: b1 :: b2 :: _b3 :: rest =>
      if b0 ≠ TSCF_SUBTYPE then
        .error (.Other ("tscf: expected subtype 0x" ++ hex_02X TSCF_SUBTYPE ++ ", got 0x" ++ hex_02X b0))
      else if (b1 >>> 7) &&& 0x1 ≠ 1 then
        .error (.Other "tscf: sv bit must be 1 (stream_id always valid for TSCF)")
      else .ok {
        sequence_num := b2
        avtp_timestamp := UInt32.ofNat (ofBe ((rest.drop 8).take 4))
        stream_data_length := UInt16.ofNat (ofBe ((rest.drop 16).take 2))
        stream_id := UInt64.ofNat (ofBe (rest.take 8)) }
    | _ => .error .ShortFrame

/-! ## Stream ids -/

/-- A sender: its MAC address and a suffix it assigns itself. -/
structure StreamId where
  sender_mac : Vector UInt8 6
  unique_id : UInt16
  deriving DecidableEq, Repr

def build_stream_id (sender_mac : Vector UInt8 6) (unique_id : UInt16) : UInt64 :=
  let mac_bits := (sender_mac[0].toUInt64 <<< 56) ||| (sender_mac[1].toUInt64 <<< 48) |||
    (sender_mac[2].toUInt64 <<< 40) ||| (sender_mac[3].toUInt64 <<< 32) ||| (sender_mac[4].toUInt64 <<< 24) |||
    (sender_mac[5].toUInt64 <<< 16)
  mac_bits ||| unique_id.toUInt64

def parse_stream_id (raw : UInt64) : Vector UInt8 6 × UInt16 :=
  (#v[(raw >>> 56).toUInt8, (raw >>> 48).toUInt8, (raw >>> 40).toUInt8, (raw >>> 32).toUInt8, (raw >>> 24).toUInt8,
    (raw >>> 16).toUInt8], raw.toUInt16)

def StreamId.to_u64 (s : StreamId) : UInt64 := build_stream_id s.sender_mac s.unique_id

def StreamId.from_u64 (raw : UInt64) : StreamId :=
  let (sender_mac, unique_id) := parse_stream_id raw
  { sender_mac, unique_id }

theorem from_u64_inj {a b : UInt64} (h : StreamId.from_u64 a = StreamId.from_u64 b) : a = b := by
  have ha := a.toNat_lt
  have hb := b.toNat_lt
  -- the fields are the octets of the raw id
  simp only [StreamId.from_u64, parse_stream_id, StreamId.mk.injEq, Vector.mk.injEq, Array.mk.injEq, List.cons.injEq,
    and_true, ← UInt8.toNat_inj, ← UInt16.toNat_inj, UInt64.toNat_toUInt8, UInt64.toNat_toUInt16,
    UInt64.toNat_shiftRight, Nat.shiftRight_eq_div_pow, UInt64.reduceToNat, Nat.reduceMod, Nat.reducePow] at h
  apply UInt64.toNat_inj.1
  omega

/-! ## Frames -/

def encode_ntscf_frame (stream_id : StreamId) (sequence_num : UInt8) (acf_payload : List UInt8) :
    Except RcpError (List UInt8) :=
  if acf_payload.length ≥ UInt16.size then .error .InvalidSize else do
  let ntscf_data_length := UInt16.ofNat acf_payload.length
  let hdr_bytes ← encode_ntscf_header { sequence_num, ntscf_data_length, stream_id := stream_id.to_u64 }
  return hdr_bytes ++ acf_payload

/-- The header and whatever bytes follow it. -/
def decode_ntscf_frame (b : List UInt8) : Except RcpError (NtscfHeader × List UInt8) := do
  let hdr ← decode_ntscf_header b
  return (hdr, b.drop NTSCF_HEADER_LEN)

theorem decode_ntscf_frame_ok {b acf : List UInt8} {hdr : NtscfHeader} :
    decode_ntscf_frame b = .ok (hdr, acf) ↔ decode_ntscf_header b = .ok hdr ∧ acf = b.drop NTSCF_HEADER_LEN := by
  unfold decode_ntscf_frame
  constructor
  · intro h
    obtain ⟨hdr', hhdr, h⟩ := bind_ok_iff.1 h
    cases h
    exact ⟨hhdr, rfl⟩
  · rintro ⟨hhdr, rfl⟩
    exact bind_ok_iff.2 ⟨_, hhdr, rfl⟩

/-- Only the first twelve bytes decide what a header is. -/
theorem decode_ntscf_header_append {b : List UInt8} (h : NTSCF_HEADER_LEN ≤ b.length) (t : List UInt8) :
    decode_ntscf_header (b ++ t) = decode_ntscf_header b := by
  have hboth : NTSCF_HEADER_LEN ≤ (b ++ t).length := by
    rw [List.length_append]
    omega
  unfold decode_ntscf_header
  rw [if_neg (Nat.not_lt.2 h), if_neg (Nat.not_lt.2 hboth)]
  rcases b with _ | ⟨b0, _ | ⟨b1, _ | ⟨b2, _ | ⟨b3, rest⟩⟩⟩⟩
  case cons.cons.cons.cons =>
    simp only [NTSCF_HEADER_LEN, List.length_cons] at h
    have htake : (rest ++ t).take 8 = rest.take 8 := List.take_append_of_le_length (by omega)
    simp only [List.cons_append, htake]
  all_goals simp [NTSCF_HEADER_LEN] at h

theorem decode_ntscf_header_length {b : List UInt8} {hdr : NtscfHeader} (h : decode_ntscf_header b = .ok hdr) :
    NTSCF_HEADER_LEN ≤ b.length := by
  unfold decode_ntscf_header at h
  exact Nat.le_of_not_lt (guard_ok_iff.1 h).1

theorem decode_ntscf_frame_append {b acf : List UInt8} {hdr : NtscfHeader} (h : decode_ntscf_frame b = .ok (hdr, acf))
    (t : List UInt8) : decode_ntscf_frame (b ++ t) = .ok (hdr, acf ++ t) := by
  obtain ⟨hhdr, rfl⟩ := decode_ntscf_frame_ok.1 h
  have hlen : NTSCF_HEADER_LEN ≤ b.length := decode_ntscf_header_length hhdr
  refine decode_ntscf_frame_ok.2 ⟨?_, (List.drop_append_of_le_length hlen).symm⟩
  rw [decode_ntscf_header_append hlen, hhdr]

/-- The header of a frame that carries `acf_payload`. -/
def frame_header (stream_id : StreamId) (sequence_num : UInt8) (acf_payload : List UInt8) : NtscfHeader :=
  { sequence_num, ntscf_data_length := UInt16.ofNat acf_payload.length, stream_id := stream_id.to_u64 }

theorem frame_header_length {stream_id : StreamId} {sequence_num : UInt8} {acf_payload : List UInt8}
    (h : acf_payload.length < UInt16.size) :
    (frame_header stream_id sequence_num acf_payload).ntscf_data_length.toNat = acf_payload.length := by
  simp only [frame_header, UInt16.toNat_ofNat']
  exact Nat.mod_eq_of_lt h

theorem frame_header_fits {stream_id : StreamId} {sequence_num : UInt8} {acf_payload : List UInt8}
    (h : acf_payload.length ≤ NTSCF_DATA_LENGTH_MAX.toNat) :
    (frame_header stream_id sequence_num acf_payload).ntscf_data_length ≤ NTSCF_DATA_LENGTH_MAX := by
  have hmax : NTSCF_DATA_LENGTH_MAX.toNat < UInt16.size := by decide
  rw [UInt16.le_iff_toNat_le, frame_header_length (by omega)]
  exact h

/-- A frame is encoded exactly when its payload's length fits the header's field. -/
theorem encode_ntscf_frame_ok {stream_id : StreamId} {sequence_num : UInt8} {acf_payload : List UInt8}
    (h : acf_payload.length ≤ NTSCF_DATA_LENGTH_MAX.toNat) :
    encode_ntscf_frame stream_id sequence_num acf_payload =
      .ok (ntscf_header_octets (frame_header stream_id sequence_num acf_payload) ++ acf_payload) := by
  have hmax : NTSCF_DATA_LENGTH_MAX.toNat < UInt16.size := by decide
  unfold encode_ntscf_frame
  rw [if_neg (by omega)]
  exact bind_ok_iff.2 ⟨_, if_neg (UInt16.not_lt.2 (frame_header_fits h)), rfl⟩

theorem encode_ntscf_frame_error {stream_id : StreamId} {sequence_num : UInt8} {acf_payload : List UInt8}
    (h : NTSCF_DATA_LENGTH_MAX.toNat < acf_payload.length) :
    encode_ntscf_frame stream_id sequence_num acf_payload = .error .InvalidSize := by
  unfold encode_ntscf_frame
  by_cases hbig : acf_payload.length ≥ UInt16.size
  · rw [if_pos hbig]
  · -- the length fits sixteen bits, and the header refuses it
    rw [if_neg hbig]
    have hlong : NTSCF_DATA_LENGTH_MAX < (frame_header stream_id sequence_num acf_payload).ntscf_data_length := by
      rw [UInt16.lt_iff_toNat_lt, frame_header_length (by omega)]
      exact h
    have herr : encode_ntscf_header (frame_header stream_id sequence_num acf_payload) = .error .InvalidSize :=
      if_pos hlong
    unfold frame_header at herr
    simp only [herr, bind, Except.bind]

/-- The octet that holds the top of the length: the `sv` bit and three bits. -/
theorem length_octet : ∀ hi : UInt8, hi.toNat < 8 →
    (((0x80 : UInt8) ||| (hi &&& 0x07)) >>> 7) &&& 0x1 = 1 ∧ ((0x80 : UInt8) ||| (hi &&& 0x07)) &&& 0x07 = hi := by
  refine forall_lt 8 ?_
  decide +kernel

/-- A frame whose length fits decodes to its header and payload. -/
theorem decode_ntscf_frame_encoded {hdr : NtscfHeader} (h : hdr.ntscf_data_length ≤ NTSCF_DATA_LENGTH_MAX)
    (acf : List UInt8) : decode_ntscf_frame (ntscf_header_octets hdr ++ acf) = .ok (hdr, acf) := by
  have hlen : (ntscf_header_octets hdr).length = NTSCF_HEADER_LEN := by simp [ntscf_header_octets, NTSCF_HEADER_LEN]
  have hfit : hdr.ntscf_data_length.toNat ≤ 2047 := UInt16.le_iff_toNat_le.1 h
  have hhi : (hdr.ntscf_data_length >>> 8).toUInt8.toNat = hdr.ntscf_data_length.toNat / 256 := by
    simp [Nat.shiftRight_eq_div_pow]
    omega
  obtain ⟨hsv, hfield⟩ := length_octet _ (by rw [hhi]; omega)
  have hjoin : (((hdr.ntscf_data_length >>> 8).toUInt8.toUInt16 <<< 8) |||
      (hdr.ntscf_data_length &&& 0x00FF).toUInt8.toUInt16) = hdr.ntscf_data_length := by
    apply UInt16.toNat_inj.mp
    rw [join_toNat, low_toNat, hhi]
    omega
  have hstream : UInt64.ofNat (ofBe ((be 8 hdr.stream_id.toNat ++ acf).take 8)) = hdr.stream_id := by
    have hlt : hdr.stream_id.toNat < 256 ^ 8 := hdr.stream_id.toNat_lt
    rw [List.take_left' (be_length 8 _), ofBe_be_of_lt hlt, UInt64.ofNat_toNat]
  refine decode_ntscf_frame_ok.2 ⟨?_, (List.drop_left' hlen).symm⟩
  unfold decode_ntscf_header
  rw [if_neg (by rw [List.length_append, hlen]; omega)]
  simp only [ntscf_header_octets, List.cons_append, List.nil_append, hsv, hfield, hjoin, hstream, ne_eq,
    not_true_eq_false, if_false]

/-- What went into a frame comes out of it. -/
theorem decode_of_encode_ntscf_frame {stream_id : StreamId} {sequence_num : UInt8} {acf b : List UInt8}
    (h : encode_ntscf_frame stream_id sequence_num acf = .ok b) :
    decode_ntscf_frame b = .ok (frame_header stream_id sequence_num acf, acf) ∧ b.length ≤ 2059 := by
  rcases Nat.lt_or_ge NTSCF_DATA_LENGTH_MAX.toNat acf.length with hlong | hfit
  · rw [encode_ntscf_frame_error hlong] at h
    cases h
  · rw [encode_ntscf_frame_ok hfit] at h
    cases h
    refine ⟨decode_ntscf_frame_encoded (frame_header_fits hfit) acf, ?_⟩
    have hmax : NTSCF_DATA_LENGTH_MAX.toNat = 2047 := rfl
    simp only [List.length_append, ntscf_header_octets, List.length_cons, List.length_nil, be_length]
    omega

end RustRcp
