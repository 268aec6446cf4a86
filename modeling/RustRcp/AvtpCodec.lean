import RustRcp.Udp
import Mathlib.Tactic.IntervalCases
/-!
# What framing keeps

Headers, stream ids and frames come back from their octets, and a header the
decoders accept comes back from its fields, but for the bits no field holds
(`src/avtp.rs`, Annex J of `src/udp.rs`).
-/
open Bytes

namespace RustRcp

/-! ## Headers from their fields -/

theorem decode_encode_ntscf_header {hdr : NtscfHeader} (h : hdr.ntscf_data_length ≤ NTSCF_DATA_LENGTH_MAX)
    (t : List UInt8) : ∃ bytes, encode_ntscf_header hdr = .ok bytes ∧ decode_ntscf_header (bytes ++ t) = .ok hdr :=
  ⟨_, if_neg (UInt16.not_lt.2 h), (decode_ntscf_frame_ok.1 (decode_ntscf_frame_encoded h t)).1⟩

/-- The `sv` bit is there whatever the `tv` bit is. -/
theorem sv_bit (tv : Prop) [Decidable tv] : (((0x80 : UInt8) ||| (if tv then 1 else 0)) >>> 7) &&& 0x1 = 1 := by
  split <;> decide

theorem decode_encode_tscf_header (hdr : TscfHeader) (t : List UInt8) :
    ∃ bytes, encode_tscf_header hdr = .ok bytes ∧ decode_tscf_header (bytes ++ t) = .ok hdr := by
  have hstream : hdr.stream_id.toNat < 256 ^ 8 := hdr.stream_id.toNat_lt
  have hts : hdr.avtp_timestamp.toNat < 256 ^ 4 := hdr.avtp_timestamp.toNat_lt
  have hlen : hdr.stream_data_length.toNat < 256 ^ 2 := hdr.stream_data_length.toNat_lt
  refine ⟨_, rfl, ?_⟩
  unfold decode_tscf_header
  rw [if_neg (by simp [tscf_header_octets, TSCF_HEADER_LEN]; omega)]
  simp only [tscf_header_octets, List.cons_append, List.nil_append, sv_bit, ne_eq, not_true_eq_false, if_false,
    List.append_assoc]
  -- each field lies where the decoder looks for it
  rw [List.take_left' (be_length 8 _), List.drop_left' (be_length 8 _), List.take_left' (be_length 4 _),
    show (16 : Nat) = 8 + 8 from rfl, ← List.drop_drop, List.drop_left' (be_length 8 _),
    show (8 : Nat) = 4 + 4 from rfl, ← List.drop_drop, List.drop_left' (be_length 4 _),
    List.drop_left' List.length_replicate, List.take_left' (be_length 2 _),
    ofBe_be_of_lt hstream, ofBe_be_of_lt hts, ofBe_be_of_lt hlen]
  simp only [UInt64.ofNat_toNat, UInt32.ofNat_toNat, UInt16.ofNat_toNat]

/-! ## Headers from their octets -/

/-- The bits of `bytes` a mask keeps. -/
def masked (mask bytes : List UInt8) : List UInt8 := List.zipWith (· &&& ·) mask bytes

/-- The bits of an NTSCF header that are neither version nor reserved. -/
def NTSCF_FIELDS : List UInt8 := [0xFF, 0x87, 0xFF, 0xFF] ++ List.replicate 8 0xFF

/-- The bits of a TSCF header that are neither version, reserved, `mr`, `tv` nor `tu`. -/
def TSCF_FIELDS : List UInt8 :=
  [0xFF, 0x80, 0xFF, 0x00] ++ (List.replicate 8 0xFF ++ (List.replicate 4 0xFF ++ (List.replicate 4 0x00 ++
    (List.replicate 2 0xFF ++ List.replicate 2 0x00))))

theorem masked_cons (m b : UInt8) (ms bs : List UInt8) : masked (m :: ms) (b :: bs) = (m &&& b) :: masked ms bs := rfl

theorem masked_append {m m' l l' : List UInt8} (h : m.length = l.length) :
    masked (m ++ m') (l ++ l') = masked m l ++ masked m' l' := List.zipWith_append h

/-- Nothing shows through a mask of zeros. -/
theorem masked_zero (n : Nat) (l : List UInt8) (h : l.length = n) :
    masked (List.replicate n 0) l = List.replicate n 0 := by
  subst h
  induction l with
  | nil => rfl
  | cons b l ih =>
    rw [List.length_cons, List.replicate_succ, masked, List.zipWith_cons_cons, UInt8.zero_and]
    exact congrArg (0 :: ·) ih

/-- The length field's octets come back, and so does the `sv` bit. -/
theorem length_octets {b1 : UInt8} (b2 : UInt8) (hsv : (b1 >>> 7) &&& 0x1 = 1) :
    let length := ((b1 &&& 0x07).toUInt16 <<< 8) ||| b2.toUInt16
    (0x87 : UInt8) &&& ((0x80 : UInt8) ||| ((length >>> 8).toUInt8 &&& 0x07)) = 0x87 &&& b1 ∧
      (length &&& 0x00FF).toUInt8 = b2 ∧ length ≤ NTSCF_DATA_LENGTH_MAX := by
  have hlow : ∀ b1 : UInt8, (b1 &&& 0x07).toNat < 8 := forall_byte (by decide +kernel)
  have hbits : ∀ b1 : UInt8, (b1 >>> 7) &&& 0x1 = 1 →
      (0x87 : UInt8) &&& ((0x80 : UInt8) ||| ((b1 &&& 0x07) &&& 0x07)) = 0x87 &&& b1 := forall_byte (by decide +kernel)
  have hb1 := hlow b1
  have hb2 := b2.toNat_lt
  refine ⟨?_, low_join _ _, ?_⟩
  · rw [top_join]
    exact hbits b1 hsv
  · rw [UInt16.le_iff_toNat_le, join_toNat, show NTSCF_DATA_LENGTH_MAX.toNat = 2047 from rfl]
    omega

/-- The `sv` bit comes back; the `tv` bit does not matter. -/
theorem sv_octet {b1 : UInt8} (hsv : (b1 >>> 7) &&& 0x1 = 1) (tv : Prop) [Decidable tv] :
    (0x80 : UInt8) &&& (0x80 ||| (if tv then 1 else 0)) = 0x80 &&& b1 := by
  have hbit : ∀ b1 : UInt8, (b1 >>> 7) &&& 0x1 = 1 → (0x80 : UInt8) &&& b1 = 0x80 := forall_byte (by decide +kernel)
  rw [hbit b1 hsv]
  split <;> decide

/-- The octets of a stream id come back. -/
theorem stream_octets {rest : List UInt8} (h : 8 ≤ rest.length) :
    be 8 (UInt64.ofNat (ofBe (rest.take 8))).toNat = rest.take 8 := by
  rw [UInt64.toNat_ofNat_of_lt' (ofBe_take_lt 8 rest), be_ofBe_take h]

theorem encode_decode_ntscf_header {b : List UInt8} {hdr : NtscfHeader} (h : decode_ntscf_header b = .ok hdr) :
    ∃ bytes, encode_ntscf_header hdr = .ok bytes ∧ bytes.length = NTSCF_HEADER_LEN ∧
      masked NTSCF_FIELDS bytes = masked NTSCF_FIELDS (b.take NTSCF_HEADER_LEN) := by
  unfold decode_ntscf_header at h
  obtain ⟨hlen, h⟩ := guard_ok_iff.1 h
  rcases b with _ | ⟨b0, _ | ⟨b1, _ | ⟨b2, _ | ⟨b3, rest⟩⟩⟩⟩
  case cons.cons.cons.cons =>
    simp only [NTSCF_HEADER_LEN, List.length_cons] at hlen
    obtain ⟨hsubtype, h⟩ := guard_ok_iff.1 h
    obtain ⟨hsv, h⟩ := guard_ok_iff.1 h
    cases h
    rw [not_not] at hsubtype hsv
    subst hsubtype
    obtain ⟨hocts, hlow, hfits⟩ := length_octets b2 hsv
    have hstream := stream_octets (show 8 ≤ rest.length by omega)
    refine ⟨_, if_neg (UInt16.not_lt.2 hfits), by simp [ntscf_header_octets, NTSCF_HEADER_LEN], ?_⟩
    simp only [ntscf_header_octets, NTSCF_FIELDS, NTSCF_HEADER_LEN, List.take_succ_cons, masked_cons, List.cons_append,
      List.nil_append, hstream, hocts, hlow]
  all_goals cases h

theorem encode_decode_tscf_header {b : List UInt8} {hdr : TscfHeader} (h : decode_tscf_header b = .ok hdr) :
    ∃ bytes, encode_tscf_header hdr = .ok bytes ∧ bytes.length = TSCF_HEADER_LEN ∧
      masked TSCF_FIELDS bytes = masked TSCF_FIELDS (b.take TSCF_HEADER_LEN) := by
  unfold decode_tscf_header at h
  obtain ⟨hlen, h⟩ := guard_ok_iff.1 h
  rcases b with _ | ⟨b0, _ | ⟨b1, _ | ⟨b2, _ | ⟨b3, rest⟩⟩⟩⟩
  case cons.cons.cons.cons =>
    simp only [TSCF_HEADER_LEN, List.length_cons] at hlen
    obtain ⟨hsubtype, h⟩ := guard_ok_iff.1 h
    obtain ⟨hsv, h⟩ := guard_ok_iff.1 h
    cases h
    rw [not_not] at hsubtype hsv
    subst hsubtype
    have hstream := stream_octets (show 8 ≤ rest.length by omega)
    have hts : be 4 (UInt32.ofNat (ofBe ((rest.drop 8).take 4))).toNat = (rest.drop 8).take 4 := by
      rw [UInt32.toNat_ofNat_of_lt' (ofBe_take_lt 4 _), be_ofBe_take (by rw [List.length_drop]; omega)]
    have hdata : be 2 (UInt16.ofNat (ofBe ((rest.drop 16).take 2))).toNat = (rest.drop 16).take 2 := by
      rw [UInt16.toNat_ofNat_of_lt' (ofBe_take_lt 2 _), be_ofBe_take (by rw [List.length_drop]; omega)]
    have hrest : rest.take 20 = rest.take 8 ++ ((rest.drop 8).take 4 ++ ((rest.drop 12).take 4 ++
        ((rest.drop 16).take 2 ++ (rest.drop 18).take 2))) := by
      rw [show (20 : Nat) = 8 + (4 + (4 + (2 + 2))) from rfl, List.take_add, List.take_add, List.take_add,
        List.take_add, List.drop_drop, List.drop_drop, List.drop_drop]
    refine ⟨_, rfl, by simp [tscf_header_octets, TSCF_HEADER_LEN], ?_⟩
    have hlens : (rest.take 8).length = 8 ∧ ((rest.drop 8).take 4).length = 4 ∧ ((rest.drop 12).take 4).length = 4 ∧
        ((rest.drop 16).take 2).length = 2 ∧ ((rest.drop 18).take 2).length = 2 := by
      simp only [List.length_take, List.length_drop]
      omega
    obtain ⟨h1, h2, h3, h4, h5⟩ := hlens
    simp only [tscf_header_octets, TSCF_FIELDS, TSCF_HEADER_LEN, List.take_succ_cons, List.cons_append,
      List.nil_append, masked_cons, sv_octet hsv, hstream, hts, hdata, hrest]
    -- the fields are the octets they were read from, and the masks hide what lies between them
    rw [masked_append (by rw [h1]; rfl), masked_append (by rw [h2]; rfl), masked_append rfl,
      masked_append (by rw [h4]; rfl),
      masked_append (by rw [h1]; rfl), masked_append (by rw [h2]; rfl), masked_append (by rw [h3]; rfl),
      masked_append (by rw [h4]; rfl), masked_zero 4 _ h3, masked_zero 2 _ h5, masked_zero 4 _ List.length_replicate,
      masked_zero 2 _ List.length_replicate, UInt8.zero_and, UInt8.zero_and]
  all_goals cases h

/-! ## Stream ids -/

theorem mac_octets (mac : Vector UInt8 6) : ∃ a b c d e f, mac = #v[a, b, c, d, e, f] := by
  refine ⟨mac[0], mac[1], mac[2], mac[3], mac[4], mac[5], Vector.ext fun i hi => ?_⟩
  interval_cases i <;> rfl

theorem build_stream_id_toNat (a b c d e f : UInt8) (unique_id : UInt16) :
    (build_stream_id #v[a, b, c, d, e, f] unique_id).toNat = a.toNat * 2 ^ 56 + b.toNat * 2 ^ 48 + c.toNat * 2 ^ 40 +
      d.toNat * 2 ^ 32 + e.toNat * 2 ^ 24 + f.toNat * 2 ^ 16 + unique_id.toNat := by
  have hb := b.toNat_lt
  have hc := c.toNat_lt
  have hd := d.toNat_lt
  have he := e.toNat_lt
  have hf := f.toNat_lt
  have hid := unique_id.toNat_lt
  have hshift (m : UInt8) (n : UInt64) (k : Nat) (hn : n.toNat = k) (hk : k ≤ 56) :
      (m.toUInt64 <<< n).toNat = m.toNat * 2 ^ k := by
    have hm := m.toNat_lt
    have hpow : 2 ^ k ≤ 2 ^ 56 := Nat.pow_le_pow_right (by decide) hk
    have hlt : m.toNat * 2 ^ k < 2 ^ 64 := by
      calc m.toNat * 2 ^ k ≤ 255 * 2 ^ 56 := Nat.mul_le_mul (by omega) hpow
        _ < 2 ^ 64 := by decide
    rw [UInt64.toNat_shiftLeft, hn, Nat.mod_eq_of_lt (show k < 64 by omega), UInt8.toNat_toUInt64, Nat.shiftLeft_eq,
      Nat.mod_eq_of_lt hlt]
  show (a.toUInt64 <<< 56 ||| b.toUInt64 <<< 48 ||| c.toUInt64 <<< 40 ||| d.toUInt64 <<< 32 ||| e.toUInt64 <<< 24 |||
    f.toUInt64 <<< 16 ||| unique_id.toUInt64).toNat = _
  simp only [UInt64.toNat_or, UInt16.toNat_toUInt64]
  rw [hshift _ 56 56 rfl (by decide), hshift _ 48 48 rfl (by decide), hshift _ 40 40 rfl (by decide),
    hshift _ 32 32 rfl (by decide), hshift _ 24 24 rfl (by decide), hshift _ 16 16 rfl (by decide)]
  -- no part reaches into the one above it
  refine or_eq_add (k := 16) ?_ (by omega) hid
  refine or_eq_add (k := 24) ?_ (by omega) (by omega)
  refine or_eq_add (k := 32) ?_ (by omega) (by omega)
  refine or_eq_add (k := 40) ?_ (by omega) (by omega)
  refine or_eq_add (k := 48) ?_ (by omega) (by omega)
  exact or_eq_add (k := 56) rfl (by omega) (by omega)

theorem parse_build_stream_id (mac : Vector UInt8 6) (unique_id : UInt16) :
    parse_stream_id (build_stream_id mac unique_id) = (mac, unique_id) := by
  obtain ⟨a, b, c, d, e, f, rfl⟩ := mac_octets mac
  have hraw := build_stream_id_toNat a b c d e f unique_id
  have hid := unique_id.toNat_lt
  have ha := a.toNat_lt
  have hb := b.toNat_lt
  have hc := c.toNat_lt
  have hd := d.toNat_lt
  have he := e.toNat_lt
  have hf := f.toNat_lt
  have hlow : (build_stream_id #v[a, b, c, d, e, f] unique_id).toUInt16 = unique_id := by
    apply UInt16.toNat_inj.1
    rw [UInt64.toNat_toUInt16, hraw]
    omega
  have hoctet (n : UInt64) (k : Nat) (hn : n.toNat % 64 = k) (m : UInt8)
      (h : (build_stream_id #v[a, b, c, d, e, f] unique_id).toNat / 2 ^ k % 256 = m.toNat) :
      (build_stream_id #v[a, b, c, d, e, f] unique_id >>> n).toUInt8 = m := by
    apply UInt8.toNat_inj.1
    rw [UInt64.toNat_toUInt8, UInt64.toNat_shiftRight, hn, Nat.shiftRight_eq_div_pow]
    exact h
  refine Prod.ext (Vector.ext fun i hi => ?_) hlow
  interval_cases i
  · exact hoctet 56 56 rfl a (by rw [hraw]; omega)
  · exact hoctet 48 48 rfl b (by rw [hraw]; omega)
  · exact hoctet 40 40 rfl c (by rw [hraw]; omega)
  · exact hoctet 32 32 rfl d (by rw [hraw]; omega)
  · exact hoctet 24 24 rfl e (by rw [hraw]; omega)
  · exact hoctet 16 16 rfl f (by rw [hraw]; omega)

theorem build_parse_stream_id (raw : UInt64) :
    build_stream_id (parse_stream_id raw).1 (parse_stream_id raw).2 = raw := by
  apply from_u64_inj
  simp only [StreamId.from_u64, parse_build_stream_id]

/-! ## Datagrams -/

theorem decode_encode_annex_j (seq : UInt32) (avtpdu : List UInt8) :
    decode_annex_j_udp_payload (encode_annex_j_udp_payload seq avtpdu) = .ok (seq, avtpdu) := by
  have hseq : seq.toNat < 256 ^ 4 := seq.toNat_lt
  refine guard_ok_iff.2 ⟨by simp [encode_annex_j_udp_payload], ?_⟩
  rw [encode_annex_j_udp_payload, List.take_left' (be_length 4 _), List.drop_left' (be_length 4 _),
    ofBe_be_of_lt hseq, UInt32.ofNat_toNat]

/-! ## The codec -/

/-- A frame is refused exactly when its payload does not fit the header's field. -/
theorem encode_ntscf_frame_error_iff (stream_id : StreamId) (sequence_num : UInt8) (acf : List UInt8) :
    (∃ e, encode_ntscf_frame stream_id sequence_num acf = .error e) ↔ 2047 < acf.length := by
  rcases Nat.lt_or_ge NTSCF_DATA_LENGTH_MAX.toNat acf.length with hlong | hfit
  · exact ⟨fun _ => hlong, fun _ => ⟨_, encode_ntscf_frame_error hlong⟩⟩
  · rw [encode_ntscf_frame_ok hfit]
    constructor
    · rintro ⟨e, he⟩
      cases he
    · exact fun h => absurd hfit (Nat.not_le.2 h)

/-- Header fields and payload of a frame. -/
theorem decode_encode_ntscf_frame {stream_id : StreamId} {sequence_num : UInt8} {acf b : List UInt8}
    (h : encode_ntscf_frame stream_id sequence_num acf = .ok b) :
    ∃ hdr, decode_ntscf_frame b = .ok (hdr, acf) ∧ hdr.sequence_num = sequence_num ∧
      StreamId.from_u64 hdr.stream_id = stream_id ∧ hdr.ntscf_data_length.toNat = acf.length := by
  have hmax : NTSCF_DATA_LENGTH_MAX.toNat < UInt16.size := by decide
  have hfit : ¬ 2047 < acf.length := fun hlong => by
    obtain ⟨e, he⟩ := (encode_ntscf_frame_error_iff stream_id sequence_num acf).2 hlong
    cases he.symm.trans h
  have hshort : acf.length < UInt16.size := Nat.lt_of_le_of_lt (Nat.le_of_not_lt hfit) hmax
  refine ⟨_, (decode_of_encode_ntscf_frame h).1, rfl, ?_, frame_header_length hshort⟩
  simp only [frame_header, StreamId.to_u64, StreamId.from_u64, parse_build_stream_id]

/-- What framing keeps, from fields to octets and from octets to fields. -/
structure FramingKept : Prop where
  ntscf : ∀ hdr : NtscfHeader, hdr.ntscf_data_length ≤ NTSCF_DATA_LENGTH_MAX → ∀ t,
    ∃ bytes, encode_ntscf_header hdr = .ok bytes ∧ decode_ntscf_header (bytes ++ t) = .ok hdr
  tscf : ∀ (hdr : TscfHeader) (t : List UInt8),
    ∃ bytes, encode_tscf_header hdr = .ok bytes ∧ decode_tscf_header (bytes ++ t) = .ok hdr
  parse_build : ∀ mac unique_id, parse_stream_id (build_stream_id mac unique_id) = (mac, unique_id)
  build_parse : ∀ raw, build_stream_id (parse_stream_id raw).1 (parse_stream_id raw).2 = raw
  refused : ∀ stream_id sequence_num (acf : List UInt8),
    (∃ e, encode_ntscf_frame stream_id sequence_num acf = .error e) ↔ 2047 < acf.length
  frame : ∀ stream_id sequence_num acf b, encode_ntscf_frame stream_id sequence_num acf = .ok b →
    ∃ hdr, decode_ntscf_frame b = .ok (hdr, acf) ∧ hdr.sequence_num = sequence_num ∧
      StreamId.from_u64 hdr.stream_id = stream_id ∧ hdr.ntscf_data_length.toNat = acf.length
  annex_j : ∀ seq avtpdu, decode_annex_j_udp_payload (encode_annex_j_udp_payload seq avtpdu) = .ok (seq, avtpdu)
  ntscf_octets : ∀ b hdr, decode_ntscf_header b = .ok hdr →
    ∃ bytes, encode_ntscf_header hdr = .ok bytes ∧ bytes.length = NTSCF_HEADER_LEN ∧
      masked NTSCF_FIELDS bytes = masked NTSCF_FIELDS (b.take NTSCF_HEADER_LEN)
  tscf_octets : ∀ b hdr, decode_tscf_header b = .ok hdr →
    ∃ bytes, encode_tscf_header hdr = .ok bytes ∧ bytes.length = TSCF_HEADER_LEN ∧
      masked TSCF_FIELDS bytes = masked TSCF_FIELDS (b.take TSCF_HEADER_LEN)

theorem framing_kept : FramingKept where
  ntscf _ h t := decode_encode_ntscf_header h t
  tscf := decode_encode_tscf_header
  parse_build := parse_build_stream_id
  build_parse := build_parse_stream_id
  refused := encode_ntscf_frame_error_iff
  frame _ _ _ _ h := decode_encode_ntscf_frame h
  annex_j := decode_encode_annex_j
  ntscf_octets _ _ h := encode_decode_ntscf_header h
  tscf_octets _ _ h := encode_decode_tscf_header h

end RustRcp
