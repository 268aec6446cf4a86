import RustRcp.E2eTrailer
/-!
# What a coverage depends on

A sender covers the message it has in memory, a receiver the one it decoded. The encoders
derive the type, the length and the pad; `build_crc32_coverage_buffer` (`src/e2e.rs`) sets the
type itself, but takes the length and the pad as they stand, so the two agree where the sender
left there what its encoder derives (`coverage_agrees`).
-/
open Bytes

namespace RustRcp

/-! ## The covered header -/

/-- Headers are encoded alike only when they are equal, or both refused. -/
theorem encode_info_eq_iff (a b : ByteMessageInfo) :
    encode_byte_message_info a = encode_byte_message_info b ↔ a = b ∨ ¬ a.InWidth ∧ ¬ b.InWidth := by
  by_cases ha : a.InWidth <;> by_cases hb : b.InWidth
  · rw [(encode_info_ok_iff a).2 ha, (encode_info_ok_iff b).2 hb]
    constructor
    · intro h
      have hoctets := Except.ok.inj h
      have hdec := decode_info_octets ha []
      rw [hoctets, decode_info_octets hb []] at hdec
      exact .inl (Except.ok.inj hdec).symm
    · rintro (rfl | ⟨hna, -⟩)
      · rfl
      · exact absurd ha hna
  · rw [(encode_info_ok_iff a).2 ha, encode_info_error hb]
    refine iff_of_false nofun ?_
    rintro (rfl | ⟨hna, -⟩)
    · exact hb ha
    · exact hna ha
  · rw [encode_info_error ha, (encode_info_ok_iff b).2 hb]
    refine iff_of_false nofun ?_
    rintro (rfl | ⟨-, hnb⟩)
    · exact ha hb
    · exact hnb hb
  · rw [encode_info_error ha, encode_info_error hb]
    exact iff_of_true rfl (.inr ⟨ha, hb⟩)

/-- The header that is covered: the type is set, the trailer's quadlet counted. -/
def AcfCoverageMessage.covered : AcfCoverageMessage → ByteMessageInfo
  | .Abb msg => { msg.info with
      acf_msg_type := ACF_ABB_MSG_TYPE
      acf_msg_length := saturating_add msg.info.acf_msg_length CRC32_COVERAGE_LENGTH_PREADJUST_QUADLETS }
  | .Gbb msg => { msg.info with
      acf_msg_type := ACF_GBB_MSG_TYPE
      acf_msg_length := saturating_add msg.info.acf_msg_length CRC32_COVERAGE_LENGTH_PREADJUST_QUADLETS }

/-- What is covered after the header. -/
def AcfCoverageMessage.body : AcfCoverageMessage → List UInt8
  | .Abb msg => msg.payload
  | .Gbb msg => be 8 msg.message_timestamp.toNat ++ msg.payload

theorem coverage_covered (header : HeaderVariant) (m : AcfCoverageMessage) :
    build_crc32_coverage_buffer header m =
      (fun octets => avtp_coverage header ++ octets ++ m.body) <$> encode_byte_message_info m.covered := by
  cases m with
  | Abb msg => rfl
  | Gbb msg =>
    simp only [build_crc32_coverage_buffer, AcfCoverageMessage.covered, AcfCoverageMessage.body, ← List.append_assoc]
    rfl

/-- Messages with one body are covered alike when their covered headers are encoded alike. -/
theorem coverage_eq_iff (header : HeaderVariant) {m m' : AcfCoverageMessage} (hbody : m.body = m'.body) :
    build_crc32_coverage_buffer header m = build_crc32_coverage_buffer header m' ↔
      m.covered = m'.covered ∨ ¬ m.covered.InWidth ∧ ¬ m'.covered.InWidth := by
  rw [coverage_covered, coverage_covered, hbody, ← encode_info_eq_iff]
  refine ⟨fun h => ?_, fun h => by rw [h]⟩
  cases ha : encode_byte_message_info m.covered <;> cases hb : encode_byte_message_info m'.covered <;>
    simp_all [Functor.map, Except.map]

/-! ## Sender and receiver -/

theorem toNat_saturating_add_one (a : UInt16) :
    (saturating_add a CRC32_COVERAGE_LENGTH_PREADJUST_QUADLETS).toNat = min (a.toNat + 1) 65535 := by
  have hone : CRC32_COVERAGE_LENGTH_PREADJUST_QUADLETS.toNat = 1 := rfl
  have ha := a.toNat_lt
  rw [saturating_add, hone]
  split_ifs with hfit
  · rw [UInt16.toNat_add, hone]
    simp only [UInt16.size] at hfit
    omega
  · simp only [UInt16.size] at hfit
    show 65535 = _
    omega

/-- On a length that fits its field, the adjusted length tells the length. -/
theorem saturating_add_one_inj {a b : UInt16} (hb : b ≤ ACF_MSG_LENGTH_9BIT_MAX) :
    saturating_add a CRC32_COVERAGE_LENGTH_PREADJUST_QUADLETS =
      saturating_add b CRC32_COVERAGE_LENGTH_PREADJUST_QUADLETS ↔ a = b := by
  have hmax : b.toNat ≤ 511 := UInt16.le_iff_toNat_le.1 hb
  rw [← UInt16.toNat_inj, ← UInt16.toNat_inj, toNat_saturating_add_one, toNat_saturating_add_one]
  omega

theorem roomForTrailer_iff (info : ByteMessageInfo) :
    RoomForTrailer info ↔
      saturating_add info.acf_msg_length CRC32_COVERAGE_LENGTH_PREADJUST_QUADLETS ≤ ACF_MSG_LENGTH_9BIT_MAX := by
  have hmax : ACF_MSG_LENGTH_9BIT_MAX.toNat = 511 := rfl
  have hone : CRC_TRAILER_QUADLETS.toNat = 1 := rfl
  rw [UInt16.le_iff_toNat_le, toNat_saturating_add_one, RoomForTrailer, hmax, hone]
  omega

/-- A message its encoder takes is covered when there is room for the trailer and the pad fits its field. -/
theorem covered_inWidth {m : AcfCoverageMessage} (hfields : m.info.FieldsFit) :
    m.covered.InWidth ↔ RoomForTrailer m.info ∧ m.info.pad ≤ PAD_2BIT_MAX := by
  rw [roomForTrailer_iff]
  obtain ⟨hbus, hsub, hseg⟩ := hfields
  cases m with
  | Abb msg =>
    have htype : ACF_ABB_MSG_TYPE ≤ ACF_MSG_TYPE_7BIT_MAX := by decide
    exact ⟨fun h => ⟨h.acf_msg_length, h.pad⟩, fun h => ⟨htype, h.1, h.2, hbus, hsub, hseg⟩⟩
  | Gbb msg =>
    have htype : ACF_GBB_MSG_TYPE ≤ ACF_MSG_TYPE_7BIT_MAX := by decide
    exact ⟨fun h => ⟨h.acf_msg_length, h.pad⟩, fun h => ⟨htype, h.1, h.2, hbus, hsub, hseg⟩⟩

theorem encode_fieldsFit {m : AcfCoverageMessage} {f : List UInt8} (h : m.encode = .ok f) : m.info.FieldsFit := by
  cases m with
  | Abb msg => exact (encode_acf_abb_ok.1 h).2.1
  | Gbb msg => exact (encode_acf_gbb_ok.1 h).2.1

/-- Of the fields the encoder derives, only the length and the pad are covered as they stand. -/
theorem covered_eq_iff (m : AcfCoverageMessage) :
    m.covered = m.onWire.covered ↔
      saturating_add m.info.acf_msg_length CRC32_COVERAGE_LENGTH_PREADJUST_QUADLETS =
        saturating_add m.onWire.info.acf_msg_length CRC32_COVERAGE_LENGTH_PREADJUST_QUADLETS ∧
      m.info.pad = m.onWire.info.pad := by
  cases m with
  | Abb msg => simp [AcfCoverageMessage.covered, AcfCoverageMessage.onWire, AcfCoverageMessage.info,
      AcfAbbMessage.onWire, wireInfo]
  | Gbb msg => simp [AcfCoverageMessage.covered, AcfCoverageMessage.onWire, AcfCoverageMessage.info,
      AcfGbbMessage.onWire, wireInfo]

/-- A message and the one decoded from its encoding are covered alike when the length and the pad
are already the encoder's, or when both are refused. -/
theorem coverage_agrees (header : HeaderVariant) (m : AcfCoverageMessage) (f : List UInt8) (hf : m.encode = .ok f) :
    ∃ m', m.decodeAs f = .ok m' ∧
      (build_crc32_coverage_buffer header m = build_crc32_coverage_buffer header m' ↔
        (m.info.acf_msg_length = m'.info.acf_msg_length ∧ m.info.pad = m'.info.pad) ∨
          (¬ RoomForTrailer m'.info ∧ (¬ RoomForTrailer m.info ∨ PAD_2BIT_MAX < m.info.pad))) := by
  have hw := (encode_header hf).1
  have hbody : m.body = m.onWire.body := by cases m <;> rfl
  refine ⟨m.onWire, decodeAs_encoded hf, ?_⟩
  rw [coverage_eq_iff header hbody, covered_eq_iff, saturating_add_one_inj hw.acf_msg_length,
    covered_inWidth (encode_fieldsFit hf), covered_inWidth hw.fieldsFit, ← UInt8.not_le]
  have hpad := hw.pad
  tauto

/-- One quadlet of payload under an NTSCF header, its length and pad filled in and its type not. -/
theorem coverage_agrees_quadlet :
    build_crc32_coverage_buffer (.Ntscf { stream_id := 7 })
        (.Abb { info := { acf_msg_length := 3 }, payload := [1, 2, 3, 4] }) =
      build_crc32_coverage_buffer (.Ntscf { stream_id := 7 })
        (.Abb { info := { acf_msg_type := 0x0E, acf_msg_length := 3 }, payload := [1, 2, 3, 4] }) := by
  obtain ⟨m', hdec, hagree⟩ := coverage_agrees (.Ntscf { stream_id := 7 })
    (.Abb { info := { acf_msg_length := 3 }, payload := [1, 2, 3, 4] }) [0x1C, 3, 0, 0, 0, 0, 0, 0, 1, 2, 3, 4]
    (by decide +kernel)
  have hm : AcfCoverageMessage.Abb { info := { acf_msg_type := 0x0E, acf_msg_length := 3 }, payload := [1, 2, 3, 4] } =
      m' := Except.ok.inj (Eq.trans (by decide +kernel) hdec)
  subst hm
  exact hagree.2 (.inl ⟨rfl, rfl⟩)

/-- With the length left at zero the sender covers one quadlet, the receiver four. -/
theorem coverage_disagrees : ¬ ∀ (header : HeaderVariant) (m m' : AcfCoverageMessage) (f : List UInt8),
    m.encode = .ok f → m.decodeAs f = .ok m' →
      build_crc32_coverage_buffer header m = build_crc32_coverage_buffer header m' := by
  intro h
  have hcover := h (.Ntscf { stream_id := 7 }) (.Abb { payload := [1, 2, 3, 4] })
    (.Abb { info := { acf_msg_type := 0x0E, acf_msg_length := 3 }, payload := [1, 2, 3, 4] })
    [0x1C, 3, 0, 0, 0, 0, 0, 0, 1, 2, 3, 4] (by decide +kernel) (by decide +kernel)
  exact absurd hcover (by decide +kernel)

end RustRcp
