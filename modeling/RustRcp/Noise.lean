import RustRcp.Coverage
import RustRcp.CrcDistance
/-!
# A protected message on a noisy line

What the receiver covers is what it was sent, reserved bits aside (`received_coverage`), so a
message in which up to five bits flip, and which keeps its length, is refused or is the
message that was sent (`few_flips_refused`), also where it turns from an ABB into a GBB message.
-/
open Bytes Stateful Crc

namespace RustRcp

/-! ## What the receiver covers -/

/-- The length and the pad of a decoded message leave its payload inside what it is decoded from. -/
theorem taken_bounds {b payload : List UInt8} {header_len k : Nat} {info : ByteMessageInfo}
    (hinfo : decode_byte_message_info b = .ok info) (h : take_message_bytes b header_len info = .ok (payload, k)) :
    payload = (b.drop header_len).take payload.length ∧ header_len + payload.length ≤ b.length ∧
      header_len + payload.length ≤ 2044 := by
  obtain ⟨hw, -, -⟩ := decode_info_ok hinfo
  obtain ⟨hk, hle, hlen, hpayload⟩ := take_message_bytes_ok.1 h
  have hsize : payload.length = k - header_len - info.pad.toNat := by
    rw [hpayload, List.length_take_of_le (by simp; omega)]
  have hmax : info.acf_msg_length.toNat ≤ 511 := UInt16.le_iff_toNat_le.1 hw.acf_msg_length
  refine ⟨by rw [hsize]; exact hpayload, by omega, ?_⟩
  rw [QUADLET_LEN] at hk
  omega

/-- A decoded message is where its lengths say, and its type is the decoder's. -/
theorem decoded_body {m m' : AcfCoverageMessage} {body : List UInt8} (h : m.decodeAs body = .ok m') :
    decode_byte_message_info body = .ok m'.info ∧
      m'.covered = { m'.info with
        acf_msg_length := saturating_add m'.info.acf_msg_length CRC32_COVERAGE_LENGTH_PREADJUST_QUADLETS } ∧
      m'.body = (body.drop BYTE_MESSAGE_INFO_LEN).take m'.body.length ∧
      BYTE_MESSAGE_INFO_LEN + m'.body.length ≤ body.length ∧ BYTE_MESSAGE_INFO_LEN + m'.body.length ≤ 2044 := by
  cases m with
  | Abb msg =>
    cases hmsg : decode_acf_abb body with
    | error e => simp only [AcfCoverageMessage.decodeAs, hmsg] at h; cases h
    | ok msg' =>
      simp only [AcfCoverageMessage.decodeAs, hmsg] at h
      cases h
      obtain ⟨k, hat⟩ := decode_acf_abb_ok.1 hmsg
      obtain ⟨hinfo, htype, htake⟩ := acf_abb_at_ok.1 hat
      refine ⟨hinfo, ?_, taken_bounds hinfo htake⟩
      rw [AcfCoverageMessage.covered, ← htype]
      rfl
  | Gbb msg =>
    cases hmsg : decode_acf_gbb body with
    | error e => simp only [AcfCoverageMessage.decodeAs, hmsg] at h; cases h
    | ok msg' =>
      simp only [AcfCoverageMessage.decodeAs, hmsg] at h
      cases h
      obtain ⟨hinfo, htype, hts, k, htake⟩ := decode_acf_gbb_ok.1 hmsg
      obtain ⟨hpayload, hle, hmax⟩ := taken_bounds hinfo htake
      have hlen : (AcfCoverageMessage.Gbb msg').body.length = 8 + msg'.payload.length := by
        rw [AcfCoverageMessage.body, List.length_append, be_length]
      rw [ACF_GBB_HEADER_LEN] at hle hmax
      refine ⟨hinfo, ?_, ?_, by rw [hlen]; omega, by rw [hlen]; omega⟩
      · rw [AcfCoverageMessage.covered, ← htype]
        rfl
      · rw [hlen, AcfCoverageMessage.body, hts, stamp_octets (by rw [ACF_GBB_HEADER_LEN]; omega), List.take_add,
          List.drop_drop, List.drop_take]
        exact congrArg _ hpayload

/-- The coverage a receiver builds holds the octets it received, with the reserved bits clear. -/
theorem received_coverage {header : HeaderVariant} {m m' : AcfCoverageMessage} {p body buf : List UInt8} {crc : UInt32}
    (hsplit : split_crc_trailer p = .ok (body, crc)) (hdec : m.decodeAs body = .ok m')
    (hbuf : build_crc32_coverage_buffer header m' = .ok buf) :
    buf = avtp_coverage header ++ clear_rsv (p.take (BYTE_MESSAGE_INFO_LEN + m'.body.length)) ∧
      crc = UInt32.ofNat (ofBe (p.drop (p.length - CRC_TRAILER_LEN))) ∧
      BYTE_MESSAGE_INFO_LEN + m'.body.length + CRC_TRAILER_LEN ≤ p.length ∧
      BYTE_MESSAGE_INFO_LEN + m'.body.length ≤ 2044 := by
  obtain ⟨hshort, hsplit⟩ := guard_ok_iff.1 hsplit
  obtain ⟨info, hinfo, hsplit⟩ := bind_ok_iff.1 hsplit
  obtain ⟨len, hlen, hsplit⟩ := bind_ok_iff.1 hsplit
  obtain ⟨new_header, hnew, hsplit⟩ := bind_ok_iff.1 hsplit
  cases hsplit
  obtain ⟨hw, hoctets, -⟩ := decode_info_ok hinfo
  obtain ⟨hdecoded, hcovered, hbody, hle, hmax⟩ := decoded_body hdec
  obtain ⟨hone, rfl⟩ : 1 ≤ info.acf_msg_length.toNat ∧ len = info.acf_msg_length - CRC_TRAILER_QUADLETS := by
    unfold checked_sub_u16 at hlen
    split_ifs at hlen with hone
    · exact ⟨UInt16.le_iff_toNat_le.1 hone, (Except.ok.inj hlen).symm⟩
    · cases hlen
  have hlower : (info.acf_msg_length - CRC_TRAILER_QUADLETS).toNat = info.acf_msg_length.toNat - 1 :=
    UInt16.toNat_sub_of_le _ _ (UInt16.le_iff_toNat_le.2 hone)
  have hlength := UInt16.le_iff_toNat_le.1 hw.acf_msg_length
  have hnext : saturating_add (info.acf_msg_length - CRC_TRAILER_QUADLETS) CRC32_COVERAGE_LENGTH_PREADJUST_QUADLETS =
      info.acf_msg_length := by
    have hlt := info.acf_msg_length.toNat_lt
    rw [← UInt16.toNat_inj, toNat_saturating_add_one, hlower]
    omega
  -- the header is encoded with the trailer's quadlet off, and covered with it on
  have hw' : ByteMessageInfo.InWidth { info with acf_msg_length := info.acf_msg_length - CRC_TRAILER_QUADLETS } :=
    ⟨hw.1, UInt16.le_iff_toNat_le.2 (by rw [hlower]; omega), hw.3, hw.4, hw.5, hw.6⟩
  obtain rfl := Except.ok.inj (hnew.symm.trans ((encode_info_ok_iff _).2 hw'))
  obtain hinfo' := Except.ok.inj ((decode_info_octets hw' _).symm.trans hdecoded)
  have hcover : m'.covered = info := by rw [hcovered, ← hinfo', hnext]
  rw [coverage_covered, hcover, (encode_info_ok_iff _).2 hw] at hbuf
  have hbuf' : avtp_coverage header ++ info_octets info ++ m'.body = buf := Except.ok.inj hbuf
  simp only [BYTE_MESSAGE_INFO_LEN, CRC_TRAILER_LEN, QUADLET_LEN] at hshort hoctets hbody hle hmax ⊢
  rw [List.length_append, info_octets_length, BYTE_MESSAGE_INFO_LEN, List.length_drop,
    List.length_take_of_le (Nat.sub_le _ _)] at hle
  have hrest : m'.body = (p.drop 8).take m'.body.length := by
    rw [List.drop_left' (show (info_octets _).length = 8 from rfl), List.drop_take, List.take_take,
      Nat.min_eq_left (by omega)] at hbody
    exact hbody
  have hclear :
      clear_rsv (p.take (8 + m'.body.length)) = clear_rsv (p.take 8) ++ (p.drop 8).take m'.body.length := by
    rw [clear_rsv_take, BYTE_MESSAGE_INFO_LEN, List.take_take, Nat.min_eq_left (Nat.le_add_right _ _), List.drop_take,
      Nat.add_sub_cancel_left]
  refine ⟨?_, trivial, by omega, hmax⟩
  rw [hclear, ← hrest, ← hbuf', hoctets, List.take_take, Nat.min_self, List.append_assoc]

/-! ## Flipped bits of octets -/

theorem avtp_coverage_length (header : HeaderVariant) : (avtp_coverage header).length = 12 := by
  cases header <;> simp [avtp_coverage, be_length]

theorem flipped_clear_rsv_le {sent received : List UInt8} (hlen : sent.length = received.length)
    (hheader : BYTE_MESSAGE_INFO_LEN ≤ sent.length) :
    flipped_bits (clear_rsv sent) (clear_rsv received) ≤ flipped_bits sent received := by
  have hmask (octet octet' mask : UInt8) : weight ((octet &&& mask).toBitVec ^^^ (octet' &&& mask).toBitVec) ≤
      weight (octet.toBitVec ^^^ octet'.toBitVec) := by
    have hbits : (octet &&& mask).toBitVec ^^^ (octet' &&& mask).toBitVec =
        (octet.toBitVec ^^^ octet'.toBitVec) &&& mask.toBitVec := by
      apply BitVec.eq_of_getLsbD_eq
      intro i hi
      simp [Bool.and_xor_distrib_right]
    rw [hbits]
    exact weight_and_le _ _
  rw [BYTE_MESSAGE_INFO_LEN] at hheader
  match sent, received, hlen, hheader with
  | b0 :: b1 :: b2 :: b3 :: b4 :: t, c0 :: c1 :: c2 :: c3 :: c4 :: t', _, _ =>
    simp only [clear_rsv, flipped_cons]
    have h2 := hmask b2 c2 0xE7
    have h4 := hmask b4 c4 0xF3
    omega

theorem flipped_parts_le {sent received : List UInt8} (hlen : sent.length = received.length) {n : Nat}
    (hn : n + CRC_TRAILER_LEN ≤ sent.length) :
    flipped_bits (sent.take n) (received.take n) + flipped_bits (sent.drop (sent.length - CRC_TRAILER_LEN))
      (received.drop (sent.length - CRC_TRAILER_LEN)) ≤ flipped_bits sent received := by
  have hcut (k : Nat) (a b : List UInt8) (hab : a.length = b.length) :
      flipped_bits (a.take k) (b.take k) + flipped_bits (a.drop k) (b.drop k) = flipped_bits a b := by
    rw [← flipped_append (by rw [List.length_take, List.length_take, hab]), List.take_append_drop,
      List.take_append_drop]
  have hfront := hcut n sent received hlen
  have hback := hcut (sent.length - CRC_TRAILER_LEN - n) (sent.drop n) (received.drop n) (by simp [hlen])
  rw [List.drop_drop, List.drop_drop, Nat.add_sub_cancel' (by omega)] at hback
  omega

/-- The bits of a CRC are those of its four octets. -/
theorem crc_octets_le (t t' : List UInt8) (ht : t.length = CRC_TRAILER_LEN) (ht' : t'.length = CRC_TRAILER_LEN) :
    weight (UInt32.ofNat (ofBe t) ^^^ UInt32.ofNat (ofBe t')).toBitVec ≤ flipped_bits t t' := by
  rw [CRC_TRAILER_LEN, QUADLET_LEN] at ht ht'
  obtain ⟨a, b, c, d, rfl⟩ := List.length_eq_four.1 ht
  obtain ⟨a', b', c', d', rfl⟩ := List.length_eq_four.1 ht'
  have hoctets (a b c d : UInt8) : (UInt32.ofNat (ofBe [a, b, c, d])).toBitVec =
      a.toBitVec ++ b.toBitVec ++ c.toBitVec ++ d.toBitVec := by
    have ha := a.toNat_lt
    have hb := b.toNat_lt
    have hc := c.toNat_lt
    have hd := d.toNat_lt
    apply BitVec.eq_of_toNat_eq
    simp only [BitVec.toNat_append, UInt8.toNat_toBitVec, UInt32.toNat_toBitVec, UInt32.toNat_ofNat', ofBe,
      List.length_cons, List.length_nil]
    rw [← Nat.shiftLeft_add_eq_or_of_lt (by omega), ← Nat.shiftLeft_add_eq_or_of_lt (by omega),
      ← Nat.shiftLeft_add_eq_or_of_lt (by omega)]
    simp only [Nat.shiftLeft_eq]
    omega
  rw [UInt32.toBitVec_xor, hoctets, hoctets, BitVec.xor_append, BitVec.xor_append, BitVec.xor_append]
  simp only [flipped_cons]
  have hd := weight_append_le ((a.toBitVec ^^^ a'.toBitVec) ++ (b.toBitVec ^^^ b'.toBitVec) ++
    (c.toBitVec ^^^ c'.toBitVec)) (d.toBitVec ^^^ d'.toBitVec)
  have hc := weight_append_le ((a.toBitVec ^^^ a'.toBitVec) ++ (b.toBitVec ^^^ b'.toBitVec))
    (c.toBitVec ^^^ c'.toBitVec)
  have hb := weight_append_le (a.toBitVec ^^^ a'.toBitVec) (b.toBitVec ^^^ b'.toBitVec)
  omega

/-! ## Few flipped bits -/

/-- What is covered, where it is. -/
theorem coverage_octets {header : HeaderVariant} {m : AcfCoverageMessage} {buf : List UInt8}
    (hbuf : build_crc32_coverage_buffer header m = .ok buf) :
    m.covered.InWidth ∧ avtp_coverage header ++ info_octets m.covered ++ m.body = buf := by
  rw [coverage_covered] at hbuf
  by_cases hw : m.covered.InWidth
  · rw [(encode_info_ok_iff _).2 hw] at hbuf
    exact ⟨hw, Except.ok.inj hbuf⟩
  · rw [encode_info_error hw] at hbuf
    cases hbuf

theorem coverage_length {header : HeaderVariant} {m : AcfCoverageMessage} {buf : List UInt8}
    (hbuf : build_crc32_coverage_buffer header m = .ok buf) : buf.length = 20 + m.body.length := by
  rw [← (coverage_octets hbuf).2, List.length_append, List.length_append, avtp_coverage_length, info_octets_length,
    BYTE_MESSAGE_INFO_LEN]

/-- A decoded message is what is covered of it. -/
theorem decoded_inj {header₁ header₂ : HeaderVariant} {kind₁ kind₂ m₁ m₂ : AcfCoverageMessage}
    {body₁ body₂ buf : List UInt8} (h₁ : kind₁.decodeAs body₁ = .ok m₁) (h₂ : kind₂.decodeAs body₂ = .ok m₂)
    (hbuf₁ : build_crc32_coverage_buffer header₁ m₁ = .ok buf)
    (hbuf₂ : build_crc32_coverage_buffer header₂ m₂ = .ok buf) :
    m₁ = m₂ ∧ avtp_coverage header₁ = avtp_coverage header₂ := by
  obtain ⟨hinfo₁, hcovered₁, -⟩ := decoded_body h₁
  obtain ⟨hinfo₂, hcovered₂, -⟩ := decoded_body h₂
  obtain ⟨hw₁, heq₁⟩ := coverage_octets hbuf₁
  obtain ⟨hw₂, heq₂⟩ := coverage_octets hbuf₂
  rw [← heq₂, List.append_assoc, List.append_assoc] at heq₁
  obtain ⟨havtp, hrest⟩ := List.append_inj heq₁ (by rw [avtp_coverage_length, avtp_coverage_length])
  obtain ⟨hoctets, hbody⟩ := List.append_inj hrest rfl
  have hcovered : m₁.covered = m₂.covered := by
    have hdec := decode_info_octets hw₁ []
    rw [hoctets, decode_info_octets hw₂ []] at hdec
    exact (Except.ok.inj hdec).symm
  have hlength : m₁.info.acf_msg_length = m₂.info.acf_msg_length := by
    refine (saturating_add_one_inj (decode_info_ok hinfo₂).1.acf_msg_length).1 ?_
    have hfields := congrArg ByteMessageInfo.acf_msg_length hcovered
    rwa [hcovered₁, hcovered₂] at hfields
  have hinfo : m₁.info = m₂.info := calc
    m₁.info = { m₁.covered with acf_msg_length := m₁.info.acf_msg_length } := by rw [hcovered₁]
    _ = { m₂.covered with acf_msg_length := m₂.info.acf_msg_length } := by rw [hcovered, hlength]
    _ = m₂.info := by rw [hcovered₂]
  refine ⟨?_, havtp⟩
  cases m₁ with
  | Abb a =>
    cases m₂ with
    | Abb b =>
      obtain ⟨info, payload⟩ := a
      obtain rfl : info = b.info := hinfo
      obtain rfl : payload = b.payload := hbody
      rfl
    | Gbb b =>
      have htype : ACF_ABB_MSG_TYPE = ACF_GBB_MSG_TYPE := congrArg ByteMessageInfo.acf_msg_type hcovered
      exact absurd htype (by decide)
  | Gbb a =>
    cases m₂ with
    | Abb b =>
      have htype : ACF_GBB_MSG_TYPE = ACF_ABB_MSG_TYPE := congrArg ByteMessageInfo.acf_msg_type hcovered
      exact absurd htype (by decide)
    | Gbb b =>
      obtain ⟨info, message_timestamp, payload⟩ := a
      obtain rfl : info = b.info := hinfo
      obtain ⟨hstamp, hpayload⟩ := List.append_inj hbody (by rw [be_length, be_length])
      obtain rfl : payload = b.payload := hpayload
      obtain rfl : message_timestamp = b.message_timestamp := by
        have hvalue := congrArg ofBe hstamp
        rw [ofBe_be_of_lt message_timestamp.toNat_lt, ofBe_be_of_lt b.message_timestamp.toNat_lt] at hvalue
        exact UInt64.toNat_inj.1 hvalue
      rfl

/-- A protected message, and the AVTP header it is sent under, that reach the receiver with at most five
bits flipped, its type's among them or not: where the message keeps its length, whichever kind the
receiver decodes it as, the check accepts it only as it was sent. -/
theorem few_flips_refused (header header' : HeaderVariant) (m : AcfCoverageMessage) (f : List UInt8)
    (hf : m.encode = .ok f) (buf : List UInt8) (hbuf : build_crc32_coverage_buffer header m.onWire = .ok buf)
    (p : List UInt8) (hp : exec (finalize_crc_trailer (crc32_tc18 buf)) f = (.ok (), p)) (received : List UInt8)
    (hlen : received.length = p.length)
    (hfew : flipped_bits (avtp_coverage header ++ p) (avtp_coverage header' ++ received) ≤ 5) (body : List UInt8)
    (crc : UInt32) (hsplit : split_crc_trailer received = .ok (body, crc)) (kind m' : AcfCoverageMessage)
    (hdec : kind.decodeAs body = .ok m') (hbody : m'.body.length = m.onWire.body.length) (buf' : List UInt8)
    (hbuf' : build_crc32_coverage_buffer header' m' = .ok buf') (rx_enforce_e2e : Bool) :
    check_rx_enforce_e2e buf' crc rx_enforce_e2e =
      if m' = m.onWire ∧ avtp_coverage header' = avtp_coverage header ∧ crc = crc32_tc18 buf then .ok ()
      else .error (.CrcError, e2e_failure_scope rx_enforce_e2e) := by
  have hwire := decodeAs_encoded hf
  obtain ⟨p₀, hp₀, hsent⟩ := split_finalized hf ((coverage_ok_iff hf header).1 ⟨buf, hbuf⟩) (crc32_tc18 buf)
  obtain rfl : p₀ = p := (Prod.mk.inj (hp₀.symm.trans hp)).2
  obtain ⟨hcover, hcrc, hroom, hmax⟩ := received_coverage hsent hwire hbuf
  obtain ⟨hcover', hcrc', -, -⟩ := received_coverage hsplit hdec hbuf'
  have hsize := coverage_length hbuf
  have hsize' := coverage_length hbuf'
  rw [hbody] at hcover' hsize'
  have hflips : flipped_bits buf buf' + weight (crc32_tc18 buf ^^^ crc).toBitVec ≤ 5 := by
    have havtp : (avtp_coverage header).length = (avtp_coverage header').length := by
      rw [avtp_coverage_length, avtp_coverage_length]
    have hparts := flipped_parts_le hlen.symm hroom
    have hclear : flipped_bits (clear_rsv (p₀.take (BYTE_MESSAGE_INFO_LEN + m.onWire.body.length)))
        (clear_rsv (received.take (BYTE_MESSAGE_INFO_LEN + m.onWire.body.length))) ≤ _ :=
      flipped_clear_rsv_le (by simp [hlen]) (by simp; omega)
    have hoctets := crc_octets_le (p₀.drop (p₀.length - CRC_TRAILER_LEN)) (received.drop (p₀.length - CRC_TRAILER_LEN))
      (by rw [List.length_drop]; omega) (by rw [List.length_drop, hlen]; omega)
    rw [hlen] at hcrc'
    rw [← hcrc, ← hcrc'] at hoctets
    have hbuffers : flipped_bits buf buf' ≤ flipped_bits (avtp_coverage header) (avtp_coverage header') +
        flipped_bits (p₀.take (BYTE_MESSAGE_INFO_LEN + m.onWire.body.length))
          (received.take (BYTE_MESSAGE_INFO_LEN + m.onWire.body.length)) := by
      rw [hcover, hcover', flipped_append havtp]
      exact Nat.add_le_add_left hclear _
    rw [flipped_append havtp] at hfew
    omega
  unfold check_rx_enforce_e2e
  by_cases hok : crc32_tc18 buf' = crc
  · obtain rfl : buf = buf' := by
      subst hok
      rw [BYTE_MESSAGE_INFO_LEN] at hmax
      exact crc_distance (by rw [hsize, hsize']) (by omega) hflips
    obtain ⟨hm, havtp⟩ := decoded_inj hdec hwire hbuf' hbuf
    exact (if_pos hok).trans (if_pos ⟨hm, havtp, hok.symm⟩).symm
  · refine (if_neg hok).trans (if_neg ?_).symm
    rintro ⟨rfl, havtp, rfl⟩
    refine hok (congrArg crc32_tc18 ?_)
    rw [coverage_covered] at hbuf hbuf'
    rw [havtp, hbuf] at hbuf'
    exact (Except.ok.inj hbuf').symm

/-- Two bits of the message type: what was sent as an ABB message is decoded as a GBB message. -/
theorem few_flips_refused_two :
    check_rx_enforce_e2e [0, 0, 0, 0, 0, 0, 0, 7, 0, 0, 0, 0, 0x1A, 5, 0, 0, 0, 0, 0, 0, 1, 2, 3, 4, 5, 6, 7, 8]
      0x9C6AD125 true = .error (.CrcError, .LatchStream) := by
  have hrefused := few_flips_refused (.Ntscf { stream_id := 7 }) (.Ntscf { stream_id := 7 })
    (.Abb { payload := [1, 2, 3, 4, 5, 6, 7, 8] }) [0x1C, 4, 0, 0, 0, 0, 0, 0, 1, 2, 3, 4, 5, 6, 7, 8]
    (by decide +kernel) [0, 0, 0, 0, 0, 0, 0, 7, 0, 0, 0, 0, 0x1C, 5, 0, 0, 0, 0, 0, 0, 1, 2, 3, 4, 5, 6, 7, 8]
    (by decide +kernel) [0x1C, 5, 0, 0, 0, 0, 0, 0, 1, 2, 3, 4, 5, 6, 7, 8, 0x9C, 0x6A, 0xD1, 0x25]
    (by decide +kernel) [0x1A, 5, 0, 0, 0, 0, 0, 0, 1, 2, 3, 4, 5, 6, 7, 8, 0x9C, 0x6A, 0xD1, 0x25] rfl
    (by decide +kernel) [0x1A, 4, 0, 0, 0, 0, 0, 0, 1, 2, 3, 4, 5, 6, 7, 8] 0x9C6AD125 (by decide +kernel) (.Gbb {})
    (.Gbb { info := { acf_msg_type := 0x0D, acf_msg_length := 4 }, message_timestamp := 0x0102030405060708 })
    (by decide +kernel) rfl [0, 0, 0, 0, 0, 0, 0, 7, 0, 0, 0, 0, 0x1A, 5, 0, 0, 0, 0, 0, 0, 1, 2, 3, 4, 5, 6, 7, 8]
    (by decide +kernel) true
  rw [hrefused]
  exact if_neg (by decide +kernel)

end RustRcp
