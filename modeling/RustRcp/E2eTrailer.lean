import RustRcp.E2e
/-!
# The trailer and the CRC it carries

`protect_verify`: what a sender protects, a receiver gets back and accepts, and
coverage and trailer have the same limit. `split_crc_trailer` takes the CRC from
the end of the bytes it is given, so `split_follows_message` holds only where
nothing follows the message.
-/
open Bytes Stateful

namespace RustRcp

/-! ## Both kinds of message -/

def AcfCoverageMessage.info : AcfCoverageMessage → ByteMessageInfo
  | .Abb msg => msg.info
  | .Gbb msg => msg.info

/-- The encoder of the message's own type. -/
def AcfCoverageMessage.encode : AcfCoverageMessage → Except RcpError (List UInt8)
  | .Abb msg => encode_acf_abb msg
  | .Gbb msg => encode_acf_gbb msg

/-- The decoder of the message's own type. -/
def AcfCoverageMessage.decodeAs (m : AcfCoverageMessage) (b : List UInt8) : Except RcpError AcfCoverageMessage :=
  match m with
  | .Abb _ => .Abb <$> decode_acf_abb b
  | .Gbb _ => .Gbb <$> decode_acf_gbb b

def AcfCoverageMessage.onWire : AcfCoverageMessage → AcfCoverageMessage
  | .Abb msg => .Abb msg.onWire
  | .Gbb msg => .Gbb msg.onWire

theorem decodeAs_encoded {m : AcfCoverageMessage} {f : List UInt8} (h : m.encode = .ok f) :
    m.decodeAs f = .ok m.onWire := by
  cases m with
  | Abb msg =>
    simp only [AcfCoverageMessage.decodeAs, decode_acf_abb_encoded h]
    rfl
  | Gbb msg =>
    have hdec := decode_acf_gbb_encoded h []
    rw [List.append_nil] at hdec
    simp only [AcfCoverageMessage.decodeAs, hdec]
    rfl

/-- An encoded message starts with its header, whose fields fit. -/
theorem encode_header {m : AcfCoverageMessage} {f : List UInt8} (h : m.encode = .ok f) :
    m.onWire.info.InWidth ∧ ∃ rest, f = info_octets m.onWire.info ++ rest := by
  cases m with
  | Abb msg =>
    obtain ⟨hfit, hf, rfl⟩ := encode_acf_abb_ok.1 h
    exact ⟨(wireInfo_inWidth hfit (by decide)).2 hf, _, List.append_assoc _ _ _⟩
  | Gbb msg =>
    obtain ⟨hfit, hf, rfl⟩ := encode_acf_gbb_ok.1 h
    refine ⟨(wireInfo_inWidth hfit (by decide)).2 hf, be 8 msg.message_timestamp.toNat ++ (msg.payload ++
      List.replicate (padTo (ACF_GBB_HEADER_LEN + msg.payload.length)) 0), ?_⟩
    rw [List.append_assoc, List.append_assoc]
    rfl

/-! ## Room for a trailer -/

/-- The length field has room for the trailer's quadlet. -/
def RoomForTrailer (info : ByteMessageInfo) : Prop :=
  info.acf_msg_length.toNat + CRC_TRAILER_QUADLETS.toNat ≤ ACF_MSG_LENGTH_9BIT_MAX.toNat

/-- The header of a message that has a trailer. -/
def ByteMessageInfo.trailed (info : ByteMessageInfo) : ByteMessageInfo :=
  { info with acf_msg_length := info.acf_msg_length + CRC_TRAILER_QUADLETS }

theorem trailed_toNat {info : ByteMessageInfo} (h : info.InWidth) :
    info.trailed.acf_msg_length.toNat = info.acf_msg_length.toNat + CRC_TRAILER_QUADLETS.toNat := by
  have hlen := UInt16.le_iff_toNat_le.1 h.acf_msg_length
  have hmax : ACF_MSG_LENGTH_9BIT_MAX.toNat = 511 := rfl
  have hone : CRC_TRAILER_QUADLETS.toNat = 1 := rfl
  simp only [ByteMessageInfo.trailed, UInt16.toNat_add]
  omega

theorem trailed_inWidth {info : ByteMessageInfo} (h : info.InWidth) : info.trailed.InWidth ↔ RoomForTrailer info := by
  have hlen := trailed_toNat h
  constructor
  · intro ht
    have hle := UInt16.le_iff_toNat_le.1 ht.acf_msg_length
    rwa [hlen] at hle
  · intro hroom
    exact ⟨h.1, UInt16.le_iff_toNat_le.2 (by rw [hlen]; exact hroom), h.3, h.4, h.5, h.6⟩

/-- On a length that fits, the saturating and the checked sum are the plain one. -/
theorem sums_trailed {info : ByteMessageInfo} (h : info.InWidth) :
    saturating_add info.acf_msg_length CRC32_COVERAGE_LENGTH_PREADJUST_QUADLETS = info.trailed.acf_msg_length ∧
      checked_add_u16 info.acf_msg_length CRC_TRAILER_QUADLETS = some info.trailed.acf_msg_length := by
  have hlen := UInt16.le_iff_toNat_le.1 h.acf_msg_length
  have hmax : ACF_MSG_LENGTH_9BIT_MAX.toNat = 511 := rfl
  have hone : CRC_TRAILER_QUADLETS.toNat = 1 := rfl
  have hfit : info.acf_msg_length.toNat + CRC_TRAILER_QUADLETS.toNat < UInt16.size := by
    have hsize : UInt16.size = 65536 := rfl
    omega
  exact ⟨if_pos hfit, if_pos hfit⟩

/-! ## Coverage -/

/-- The coverage of a decoded message is built around its header with the trailer counted. -/
theorem coverage_eq {m : AcfCoverageMessage} {f : List UInt8} (h : m.encode = .ok f) (header : HeaderVariant) :
    ∃ cover : List UInt8 → List UInt8,
      build_crc32_coverage_buffer header m.onWire = cover <$> encode_byte_message_info m.onWire.info.trailed := by
  have hsum := (sums_trailed (encode_header h).1).1
  cases m with
  | Abb msg =>
    have hinfo : { msg.onWire.info with
        acf_msg_type := ACF_ABB_MSG_TYPE
        acf_msg_length := saturating_add msg.onWire.info.acf_msg_length CRC32_COVERAGE_LENGTH_PREADJUST_QUADLETS } =
      msg.onWire.info.trailed := congrArg (fun q => { msg.onWire.info with acf_msg_length := q }) hsum
    refine ⟨fun octets => avtp_coverage header ++ octets ++ msg.payload, ?_⟩
    simp only [build_crc32_coverage_buffer, AcfCoverageMessage.onWire, AcfCoverageMessage.info, hinfo]
    rfl
  | Gbb msg =>
    have hinfo : { msg.onWire.info with
        acf_msg_type := ACF_GBB_MSG_TYPE
        acf_msg_length := saturating_add msg.onWire.info.acf_msg_length CRC32_COVERAGE_LENGTH_PREADJUST_QUADLETS } =
      msg.onWire.info.trailed := congrArg (fun q => { msg.onWire.info with acf_msg_length := q }) hsum
    refine ⟨fun octets => avtp_coverage header ++ octets ++ be 8 msg.message_timestamp.toNat ++ msg.payload, ?_⟩
    simp only [build_crc32_coverage_buffer, AcfCoverageMessage.onWire, AcfCoverageMessage.info, hinfo]
    rfl

/-- A decoded message is covered exactly when its length field has room for the trailer. -/
theorem coverage_ok_iff {m : AcfCoverageMessage} {f : List UInt8} (h : m.encode = .ok f) (header : HeaderVariant) :
    (∃ buf, build_crc32_coverage_buffer header m.onWire = .ok buf) ↔ RoomForTrailer m.onWire.info := by
  obtain ⟨cover, hcover⟩ := coverage_eq h header
  rw [hcover, ← trailed_inWidth (encode_header h).1]
  constructor
  · rintro ⟨buf, hbuf⟩
    by_contra hw
    rw [encode_info_error hw] at hbuf
    cases hbuf
  · intro hw
    exact ⟨_, congrArg _ ((encode_info_ok_iff _).2 hw)⟩

/-! ## The trailer on and off -/

/-- What `finalize_crc_trailer` does to a frame that starts with a header. -/
theorem finalize_octets {info : ByteMessageInfo} (h : info.InWidth) (rest : List UInt8) (crc : UInt32) :
    (RoomForTrailer info → exec (finalize_crc_trailer crc) (info_octets info ++ rest) =
      (.ok (), info_octets info.trailed ++ rest ++ be 4 crc.toNat)) ∧
    (¬ RoomForTrailer info → exec (finalize_crc_trailer crc) (info_octets info ++ rest) =
      (.error .InvalidSize, info_octets info ++ rest)) := by
  have hlen : ¬ (info_octets info ++ rest).length < BYTE_MESSAGE_INFO_LEN := by
    rw [List.length_append, info_octets_length]
    omega
  have hdec : decode_byte_message_info ((info_octets info ++ rest).take BYTE_MESSAGE_INFO_LEN) = .ok info := by
    rw [decode_info_take]
    exact decode_info_octets h rest
  have hdrop : (info_octets info ++ rest).drop BYTE_MESSAGE_INFO_LEN = rest := List.drop_left' rfl
  have hnext : (checked_add_u16 info.acf_msg_length CRC_TRAILER_QUADLETS).filter (· ≤ ACF_MSG_LENGTH_9BIT_MAX) =
      if info.trailed.acf_msg_length ≤ ACF_MSG_LENGTH_9BIT_MAX then some info.trailed.acf_msg_length else none := by
    rw [(sums_trailed h).2, Option.filter_some]
    simp only [decide_eq_true_eq]
  unfold finalize_crc_trailer
  constructor
  · intro hroom
    have hw := (trailed_inWidth h).2 hroom
    have henc : encode_byte_message_info { info with acf_msg_length := info.trailed.acf_msg_length } =
        .ok (info_octets info.trailed) := (encode_info_ok_iff _).2 hw
    rw [if_pos hw.acf_msg_length] at hnext
    simp only [exec_bind, exec_get, if_neg hlen, hdec, exec_ofExcept, hnext, ok_or_some, henc, exec_modify, hdrop]
  · intro hroom
    have hlong : ¬ info.trailed.acf_msg_length ≤ ACF_MSG_LENGTH_9BIT_MAX := by
      rw [UInt16.le_iff_toNat_le, trailed_toNat h]
      exact hroom
    rw [if_neg hlong] at hnext
    simp only [exec_bind, exec_get, if_neg hlen, hdec, exec_ofExcept, hnext, ok_or_none]

/-- The last four octets are taken for the CRC, wherever the message ends. -/
theorem split_trailed {info : ByteMessageInfo} (h : info.InWidth) (hroom : RoomForTrailer info) (rest t : List UInt8)
    (ht : t.length = CRC_TRAILER_LEN) :
    split_crc_trailer (info_octets info.trailed ++ rest ++ t) =
      .ok (info_octets info ++ rest, UInt32.ofNat (ofBe t)) := by
  have hw := (trailed_inWidth h).2 hroom
  have hlen : (info_octets info.trailed ++ rest ++ t).length =
      BYTE_MESSAGE_INFO_LEN + rest.length + CRC_TRAILER_LEN := by
    rw [List.length_append, List.length_append, info_octets_length, ht]
  have hdec : decode_byte_message_info ((info_octets info.trailed ++ rest ++ t).take BYTE_MESSAGE_INFO_LEN) =
      .ok info.trailed := by
    rw [decode_info_take, List.append_assoc]
    exact decode_info_octets hw _
  have hsub : checked_sub_u16 info.trailed.acf_msg_length CRC_TRAILER_QUADLETS = some info.acf_msg_length := by
    have hle : CRC_TRAILER_QUADLETS ≤ info.trailed.acf_msg_length := by
      rw [UInt16.le_iff_toNat_le, trailed_toNat h]
      omega
    rw [checked_sub_u16, if_pos hle, ByteMessageInfo.trailed, UInt16.add_sub_cancel]
  have hstart : (info_octets info.trailed ++ rest ++ t).length - CRC_TRAILER_LEN =
      (info_octets info.trailed ++ rest).length := by
    rw [hlen, List.length_append, info_octets_length]
    omega
  have hback : { info.trailed with acf_msg_length := info.acf_msg_length } = info := rfl
  unfold split_crc_trailer
  refine guard_ok_iff.2 ⟨by rw [hlen]; omega, ?_⟩
  refine bind_ok_iff.2 ⟨_, hdec, bind_ok_iff.2 ⟨_, by rw [hsub]; rfl, ?_⟩⟩
  refine bind_ok_iff.2 ⟨_, by rw [hback]; exact (encode_info_ok_iff _).2 h, ?_⟩
  simp only [hstart, List.drop_left, List.take_left]
  rw [List.drop_left' (info_octets_length _)]
  rfl

/-- A frame with room for its CRC splits into the frame and the CRC. -/
theorem split_finalized {m : AcfCoverageMessage} {f : List UInt8} (hf : m.encode = .ok f)
    (hroom : RoomForTrailer m.onWire.info) (crc : UInt32) :
    ∃ p, exec (finalize_crc_trailer crc) f = (.ok (), p) ∧ split_crc_trailer p = .ok (f, crc) := by
  obtain ⟨hw, rest, rfl⟩ := encode_header hf
  refine ⟨_, (finalize_octets hw rest crc).1 hroom, ?_⟩
  have hcrc : crc.toNat < 256 ^ 4 := crc.toNat_lt
  rw [split_trailed hw hroom rest _ (be_length 4 _), ofBe_be_of_lt hcrc, UInt32.ofNat_toNat]

/-! ## Protecting and verifying -/

/-- Coverage and trailer have room for the same messages, a refused frame is unchanged, and a
protected one splits into the frame and its CRC, which the check accepts. -/
theorem protect_verify (header : HeaderVariant) (m : AcfCoverageMessage) (f : List UInt8) (hf : m.encode = .ok f) :
    ∃ m', m.decodeAs f = .ok m' ∧
      ((∃ buf, build_crc32_coverage_buffer header m' = .ok buf) ↔ RoomForTrailer m'.info) ∧
      (∀ crc, (exec (finalize_crc_trailer crc) f).1 = .ok () ↔ RoomForTrailer m'.info) ∧
      (∀ crc e, (exec (finalize_crc_trailer crc) f).1 = .error e → (exec (finalize_crc_trailer crc) f).2 = f) ∧
      ∀ buf, build_crc32_coverage_buffer header m' = .ok buf → ∃ p body m'' rebuilt,
        exec (finalize_crc_trailer (crc32_tc18 buf)) f = (.ok (), p) ∧
        split_crc_trailer p = .ok (body, crc32_tc18 buf) ∧ body = f ∧ m.decodeAs body = .ok m'' ∧ m'' = m' ∧
        build_crc32_coverage_buffer header m'' = .ok rebuilt ∧
        ∀ rx_enforce_e2e, check_rx_enforce_e2e rebuilt (crc32_tc18 buf) rx_enforce_e2e = .ok () := by
  have hdec := decodeAs_encoded hf
  have hcover := coverage_ok_iff hf header
  obtain ⟨hw, rest, hrest⟩ := encode_header hf
  have hfin := fun crc => finalize_octets hw rest crc
  rw [← hrest] at hfin
  refine ⟨m.onWire, hdec, hcover, ?_, ?_, ?_⟩
  · intro crc
    by_cases hroom : RoomForTrailer m.onWire.info
    · rw [(hfin crc).1 hroom]
      exact iff_of_true rfl hroom
    · rw [(hfin crc).2 hroom]
      exact iff_of_false nofun hroom
  · intro crc e he
    by_cases hroom : RoomForTrailer m.onWire.info
    · rw [(hfin crc).1 hroom] at he
      cases he
    · rw [(hfin crc).2 hroom]
  · intro buf hbuf
    obtain ⟨p, hp, hsplit⟩ := split_finalized hf (hcover.1 ⟨buf, hbuf⟩) (crc32_tc18 buf)
    exact ⟨p, f, m.onWire, buf, hp, hsplit, rfl, hdec, rfl, hbuf, fun _ => if_pos rfl⟩

/-- One quadlet of payload under an NTSCF header: protected, split and covered again. -/
theorem protect_verify_quadlet :
    ∃ buf p, build_crc32_coverage_buffer (.Ntscf { stream_id := 7 })
        (.Abb { info := { acf_msg_type := 0x0E, acf_msg_length := 3 }, payload := [1, 2, 3, 4] }) = .ok buf ∧
      exec (finalize_crc_trailer (crc32_tc18 buf)) [0x1C, 3, 0, 0, 0, 0, 0, 0, 1, 2, 3, 4] = (.ok (), p) ∧
      split_crc_trailer p = .ok ([0x1C, 3, 0, 0, 0, 0, 0, 0, 1, 2, 3, 4], crc32_tc18 buf) := by
  obtain ⟨m', hdec, hcover, -, -, hback⟩ := protect_verify (.Ntscf { stream_id := 7 })
    (.Abb { payload := [1, 2, 3, 4] }) [0x1C, 3, 0, 0, 0, 0, 0, 0, 1, 2, 3, 4] (by decide +kernel)
  have hm : AcfCoverageMessage.Abb { info := { acf_msg_type := 0x0E, acf_msg_length := 3 }, payload := [1, 2, 3, 4] } =
      m' := Except.ok.inj (Eq.trans (by decide +kernel) hdec)
  subst hm
  obtain ⟨buf, hbuf⟩ := hcover.2 (by unfold RoomForTrailer; decide)
  obtain ⟨p, body, m'', rebuilt, hfin, hsplit, rfl, -⟩ := hback buf hbuf
  exact ⟨buf, p, hbuf, hfin, hsplit⟩

/-- Splitting a protected message with `s` after it fails, or gives what splitting it alone
gives, exactly when `s` is empty. -/
theorem split_follows_message (m : AcfCoverageMessage) (f p : List UInt8) (crc : UInt32) (hf : m.encode = .ok f)
    (hp : exec (finalize_crc_trailer crc) f = (.ok (), p)) (s : List UInt8) :
    ((∃ e, split_crc_trailer (p ++ s) = .error e) ∨ split_crc_trailer (p ++ s) = split_crc_trailer p) ↔ s = [] := by
  constructor
  · intro h
    obtain ⟨hw, rest, rfl⟩ := encode_header hf
    have hroom : RoomForTrailer m.onWire.info := by
      by_contra hroom
      rw [(finalize_octets hw rest crc).2 hroom] at hp
      cases hp
    rw [(finalize_octets hw rest crc).1 hroom] at hp
    cases hp
    -- the last four octets of what is there, whoever put them there
    obtain ⟨tail, htaileq⟩ : ∃ tail, tail = rest ++ be 4 crc.toNat ++ s := ⟨_, rfl⟩
    have htail : tail.length = rest.length + CRC_TRAILER_LEN + s.length := by
      rw [htaileq, List.length_append, List.length_append, be_length, CRC_TRAILER_LEN, QUADLET_LEN]
    have hcut : info_octets m.onWire.info.trailed ++ rest ++ be 4 crc.toNat ++ s =
        info_octets m.onWire.info.trailed ++ tail.take (tail.length - CRC_TRAILER_LEN) ++
          tail.drop (tail.length - CRC_TRAILER_LEN) := by
      rw [List.append_assoc _ (tail.take _), List.take_append_drop]
      rw [htaileq]
      simp only [List.append_assoc]
    have hsplit := split_trailed hw hroom (tail.take (tail.length - CRC_TRAILER_LEN))
      (tail.drop (tail.length - CRC_TRAILER_LEN)) (by rw [List.length_drop]; omega)
    have halone := split_trailed hw hroom rest (be 4 crc.toNat) (be_length 4 _)
    rw [hcut, hsplit, halone] at h
    rcases h with ⟨e, he⟩ | h
    · cases he
    · have hbody := congrArg List.length (Prod.mk.inj (Except.ok.inj h)).1
      rw [List.length_append, List.length_append, List.length_take_of_le (Nat.sub_le _ _), htail] at hbody
      exact List.length_eq_zero_iff.1 (by omega)
  · rintro rfl
    rw [List.append_nil]
    exact .inr rfl

theorem split_follows_message_quadlet :
    ((∃ e, split_crc_trailer ([0x1C, 4, 0, 0, 0, 0, 0, 0, 1, 2, 3, 4, 0xAA, 0xAA, 0xAA, 0xAA] ++ [0]) = .error e) ∨
      split_crc_trailer ([0x1C, 4, 0, 0, 0, 0, 0, 0, 1, 2, 3, 4, 0xAA, 0xAA, 0xAA, 0xAA] ++ [0]) =
        split_crc_trailer [0x1C, 4, 0, 0, 0, 0, 0, 0, 1, 2, 3, 4, 0xAA, 0xAA, 0xAA, 0xAA]) ↔ [(0 : UInt8)] = [] :=
  split_follows_message (.Abb { payload := [1, 2, 3, 4] }) [0x1C, 3, 0, 0, 0, 0, 0, 0, 1, 2, 3, 4] _ 0xAAAAAAAA
    (by decide +kernel) (by decide +kernel) [0]

/-- Two protected messages of one payload: the CRC found for the first is the second's. -/
theorem split_reads_past_message :
    ¬ ∀ (m : AcfCoverageMessage) (f p : List UInt8) (crc : UInt32) (s : List UInt8), m.encode = .ok f →
      exec (finalize_crc_trailer crc) f = (.ok (), p) →
        (∃ e, split_crc_trailer (p ++ s) = .error e) ∨ split_crc_trailer (p ++ s) = split_crc_trailer p := by
  intro h
  have hbad := h (.Abb { payload := [1, 2, 3, 4] }) [0x1C, 3, 0, 0, 0, 0, 0, 0, 1, 2, 3, 4]
    [0x1C, 4, 0, 0, 0, 0, 0, 0, 1, 2, 3, 4, 0xAA, 0xAA, 0xAA, 0xAA] 0xAAAAAAAA
    [0x1C, 4, 0, 0, 0, 0, 0, 0, 5, 6, 7, 8, 0xBB, 0xBB, 0xBB, 0xBB] (by decide +kernel) (by decide +kernel)
  have hboth : split_crc_trailer ([0x1C, 4, 0, 0, 0, 0, 0, 0, 1, 2, 3, 4, 0xAA, 0xAA, 0xAA, 0xAA] ++
      [0x1C, 4, 0, 0, 0, 0, 0, 0, 5, 6, 7, 8, 0xBB, 0xBB, 0xBB, 0xBB]) =
    .ok ([0x1C, 3, 0, 0, 0, 0, 0, 0, 1, 2, 3, 4, 0xAA, 0xAA, 0xAA, 0xAA, 0x1C, 4, 0, 0, 0, 0, 0, 0, 5, 6, 7, 8],
      0xBBBBBBBB) := by decide +kernel
  have halone : split_crc_trailer [0x1C, 4, 0, 0, 0, 0, 0, 0, 1, 2, 3, 4, 0xAA, 0xAA, 0xAA, 0xAA] =
    .ok ([0x1C, 3, 0, 0, 0, 0, 0, 0, 1, 2, 3, 4], 0xAAAAAAAA) := by decide +kernel
  rw [hboth, halone] at hbad
  rcases hbad with ⟨e, he⟩ | hbad
  · cases he
  · revert hbad
    decide

end RustRcp
