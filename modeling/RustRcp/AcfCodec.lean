import RustRcp.AcfInfo
/-!
# ACF messages read back

Both messages are a header, a payload and the pad octets that round them up to a
quadlet. `message_codec` says when each encoder accepts a message and that encoder
and decoder undo each other; `message_list_codec` says the same of a payload made
of ACF_ABB messages, where each message's own length says where the next begins.
-/
open Bytes

namespace RustRcp

/-! ## Lengths -/

/-- Octets that round `n` up to a whole quadlet. -/
def padTo (n : Nat) : Nat := (QUADLET_LEN - n % QUADLET_LEN) % QUADLET_LEN

/-- Quadlets of a message with `n` octets of header and payload. -/
def quadlets (n : Nat) : Nat := (n + padTo n) / QUADLET_LEN

/-- The padded message fits the 9-bit quadlet length. -/
def FitsLength (n : Nat) : Prop := quadlets n ≤ ACF_MSG_LENGTH_9BIT_MAX.toNat

theorem padTo_lt (n : Nat) : padTo n < QUADLET_LEN := Nat.mod_lt _ (by decide)

theorem quadlets_mul (n : Nat) : quadlets n * QUADLET_LEN = n + padTo n := by
  simp only [quadlets, padTo, QUADLET_LEN]
  omega

/-- The header an encoder writes: type, length and pad are its own. -/
def wireInfo (type : UInt8) (n : Nat) (info : ByteMessageInfo) : ByteMessageInfo :=
  { info with acf_msg_type := type, acf_msg_length := UInt16.ofNat (quadlets n), pad := UInt8.ofNat (padTo n) }

theorem remainder_pad (n : Nat) :
    (if n % QUADLET_LEN = 0 then 0 else QUADLET_LEN - n % QUADLET_LEN) = padTo n := by
  have hlt : n % QUADLET_LEN < QUADLET_LEN := Nat.mod_lt _ (by decide)
  by_cases h : n % QUADLET_LEN = 0
  · rw [if_pos h, padTo, h, Nat.sub_zero, Nat.mod_self]
  · rw [if_neg h, padTo]
    exact (Nat.mod_eq_of_lt (by omega)).symm

theorem quadlets_and_pad_ok {header_len payload_len : Nat} (h : FitsLength (header_len + payload_len)) :
    quadlets_and_pad_for_message header_len payload_len =
      .ok (UInt16.ofNat (quadlets (header_len + payload_len)), UInt8.ofNat (padTo (header_len + payload_len))) := by
  unfold quadlets_and_pad_for_message
  simp only [remainder_pad]
  exact if_pos h

theorem quadlets_and_pad_error {header_len payload_len : Nat} (h : ¬ FitsLength (header_len + payload_len)) :
    quadlets_and_pad_for_message header_len payload_len = .error .InvalidSize := by
  unfold quadlets_and_pad_for_message
  simp only [remainder_pad]
  exact if_neg h

theorem wireInfo_length {n : Nat} (h : FitsLength n) (type : UInt8) (info : ByteMessageInfo) :
    (wireInfo type n info).acf_msg_length.toNat * QUADLET_LEN = n + padTo n := by
  have hq := quadlets_mul n
  have hmax : ACF_MSG_LENGTH_9BIT_MAX.toNat = 511 := rfl
  unfold FitsLength at h
  rw [← hq]
  simp only [wireInfo, UInt16.toNat_ofNat']
  congr 1
  omega

theorem padTo_toNat (n : Nat) : (UInt8.ofNat (padTo n)).toNat = padTo n := by
  have h := padTo_lt n
  simp only [UInt8.toNat_ofNat', QUADLET_LEN] at h ⊢
  omega

theorem wireInfo_pad (n : Nat) (type : UInt8) (info : ByteMessageInfo) :
    (wireInfo type n info).pad.toNat = padTo n :=
  padTo_toNat n

/-- The fields a caller chooses fit their widths. -/
structure ByteMessageInfo.FieldsFit (info : ByteMessageInfo) : Prop where
  byte_bus_id : info.byte_bus_id ≤ BYTE_MESSAGE_INFO_11BIT_MAX
  sub_opcode : info.evt.sub_opcode ≤ EVT_SUB_OPCODE_MAX
  read_size_segment : info.read_size_segment.raw ≤ READ_SIZE_SEGMENT_12BIT_MAX

theorem ByteMessageInfo.InWidth.fieldsFit {info : ByteMessageInfo} (h : info.InWidth) : info.FieldsFit :=
  ⟨h.byte_bus_id, h.sub_opcode, h.read_size_segment⟩

theorem wireInfo_inWidth {n : Nat} (h : FitsLength n) {type : UInt8} (ht : type ≤ ACF_MSG_TYPE_7BIT_MAX)
    {info : ByteMessageInfo} : (wireInfo type n info).InWidth ↔ info.FieldsFit := by
  have hpad := wireInfo_pad n type info
  have hlt := padTo_lt n
  have hlen := wireInfo_length h type info
  have hq := quadlets_mul n
  unfold FitsLength at h
  constructor
  · intro hw
    exact ⟨hw.byte_bus_id, hw.sub_opcode, hw.read_size_segment⟩
  · intro hf
    refine ⟨ht, ?_, ?_, hf.byte_bus_id, hf.sub_opcode, hf.read_size_segment⟩
    · rw [UInt16.le_iff_toNat_le]
      simp only [QUADLET_LEN] at hlen hq
      omega
    · rw [UInt8.le_iff_toNat_le, hpad]
      exact Nat.le_of_lt_succ hlt

/-- The octets a message declares itself to take. -/
def ByteMessageInfo.extent (info : ByteMessageInfo) : Nat := info.acf_msg_length.toNat * QUADLET_LEN

/-- A header whose length and pad are those of `n` octets is the one an encoder writes for them. -/
theorem wireInfo_self {info : ByteMessageInfo} {n : Nat} (hw : info.InWidth)
    (hn : info.extent = n + info.pad.toNat) : FitsLength n ∧ wireInfo info.acf_msg_type n info = info := by
  have hlen := UInt16.le_iff_toNat_le.1 hw.acf_msg_length
  have hpad := UInt8.le_iff_toNat_le.1 hw.pad
  simp only [ByteMessageInfo.extent, QUADLET_LEN, ACF_MSG_LENGTH_9BIT_MAX, PAD_2BIT_MAX, UInt16.reduceToNat,
    UInt8.reduceToNat] at hn hlen hpad
  have hp : padTo n = info.pad.toNat := by
    simp only [padTo, QUADLET_LEN]
    omega
  have hq : quadlets n = info.acf_msg_length.toNat := by
    rw [quadlets, hp, QUADLET_LEN]
    omega
  refine ⟨by rw [FitsLength, hq]; exact hlen, ?_⟩
  simp only [wireInfo, hp, hq, UInt16.ofNat_toNat, UInt8.ofNat_toNat]

/-! ## Encoding -/

/-- What both encoders do around their own header. -/
theorem encode_ok_iff (frame : List UInt8 → List UInt8 → List UInt8) {header_len payload_len : Nat} {type : UInt8}
    {info : ByteMessageInfo} (ht : type ≤ ACF_MSG_TYPE_7BIT_MAX) {b : List UInt8} :
    (do let (acf_msg_length, pad) ← quadlets_and_pad_for_message header_len payload_len
        let info := { info with acf_msg_type := type, acf_msg_length, pad }
        let info_bytes ← encode_byte_message_info info
        return frame info_bytes (List.replicate pad.toNat 0)) = Except.ok b ↔
      FitsLength (header_len + payload_len) ∧ info.FieldsFit ∧
        b = frame (info_octets (wireInfo type (header_len + payload_len) info))
          (List.replicate (padTo (header_len + payload_len)) 0) := by
  have hpad := padTo_toNat (header_len + payload_len)
  constructor
  · intro h
    obtain ⟨⟨q, p⟩, hq, h⟩ := bind_ok_iff.1 h
    by_cases hfit : FitsLength (header_len + payload_len)
    · rw [quadlets_and_pad_ok hfit] at hq
      cases hq
      obtain ⟨octets, ho, h⟩ := bind_ok_iff.1 h
      by_cases hw : (wireInfo type (header_len + payload_len) info).InWidth
      · cases ((encode_info_ok_iff _).2 hw).symm.trans ho
        cases h
        exact ⟨hfit, (wireInfo_inWidth hfit ht).1 hw, by rw [hpad]⟩
      · cases (encode_info_error hw).symm.trans ho
    · rw [quadlets_and_pad_error hfit] at hq
      cases hq
  · rintro ⟨hfit, hf, rfl⟩
    have hinfo := (encode_info_ok_iff _).2 ((wireInfo_inWidth hfit ht).2 hf)
    refine bind_ok_iff.2 ⟨_, quadlets_and_pad_ok hfit, bind_ok_iff.2 ⟨_, hinfo, ?_⟩⟩
    simp only [hpad]
    rfl

theorem encode_acf_abb_ok {msg : AcfAbbMessage} {b : List UInt8} :
    encode_acf_abb msg = .ok b ↔
      FitsLength (ACF_ABB_HEADER_LEN + msg.payload.length) ∧ msg.info.FieldsFit ∧
        b = info_octets (wireInfo ACF_ABB_MSG_TYPE (ACF_ABB_HEADER_LEN + msg.payload.length) msg.info) ++
          msg.payload ++ List.replicate (padTo (ACF_ABB_HEADER_LEN + msg.payload.length)) 0 :=
  encode_ok_iff (fun octets pad => octets ++ msg.payload ++ pad) (by decide)

theorem encode_acf_gbb_ok {msg : AcfGbbMessage} {b : List UInt8} :
    encode_acf_gbb msg = .ok b ↔
      FitsLength (ACF_GBB_HEADER_LEN + msg.payload.length) ∧ msg.info.FieldsFit ∧
        b = info_octets (wireInfo ACF_GBB_MSG_TYPE (ACF_GBB_HEADER_LEN + msg.payload.length) msg.info) ++
          be 8 msg.message_timestamp.toNat ++ msg.payload ++
          List.replicate (padTo (ACF_GBB_HEADER_LEN + msg.payload.length)) 0 :=
  encode_ok_iff (fun octets pad => octets ++ be 8 msg.message_timestamp.toNat ++ msg.payload ++ pad) (by decide)

/-- An encoder refuses a message for its size or for a field that does not fit, with one error. -/
theorem encode_acf_abb_error {msg : AcfAbbMessage}
    (h : ¬ (FitsLength (ACF_ABB_HEADER_LEN + msg.payload.length) ∧ msg.info.FieldsFit)) :
    encode_acf_abb msg = .error .InvalidSize := by
  by_cases hfit : FitsLength (ACF_ABB_HEADER_LEN + msg.payload.length)
  · have hw : ¬ (wireInfo ACF_ABB_MSG_TYPE (ACF_ABB_HEADER_LEN + msg.payload.length) msg.info).InWidth :=
      fun hw => h ⟨hfit, (wireInfo_inWidth hfit (by decide)).1 hw⟩
    have hinfo := encode_info_error hw
    simp only [wireInfo] at hinfo
    simp only [encode_acf_abb, quadlets_and_pad_ok hfit, bind, Except.bind, hinfo]
  · simp only [encode_acf_abb, quadlets_and_pad_error hfit, bind, Except.bind]

/-! ## Decoding what was encoded -/

/-- The payload behind a header of `header_len` octets is taken whole, whatever follows the message. -/
theorem take_message_bytes_frame {header payload : List UInt8} {header_len : Nat} (hl : header.length = header_len)
    (h : FitsLength (header_len + payload.length)) (type : UInt8) (info : ByteMessageInfo) (t : List UInt8) :
    take_message_bytes (header ++ payload ++ List.replicate (padTo (header_len + payload.length)) 0 ++ t)
        header_len (wireInfo type (header_len + payload.length) info) =
      .ok (payload, header_len + payload.length + padTo (header_len + payload.length)) := by
  have hlen := wireInfo_length h type info
  have hpad := wireInfo_pad (header_len + payload.length) type info
  subst hl
  refine take_message_bytes_ok.2 ⟨hlen.symm, by omega, by simp; omega, ?_⟩
  have hrest : header.length + payload.length + padTo (header.length + payload.length) - header.length -
      padTo (header.length + payload.length) = payload.length := by omega
  rw [hpad, hrest, List.append_assoc, List.append_assoc, List.drop_left, List.take_left]

/-- The message the decoder gives for an encoded one: its length fields are the ones written. -/
def AcfAbbMessage.onWire (msg : AcfAbbMessage) : AcfAbbMessage :=
  { msg with info := wireInfo ACF_ABB_MSG_TYPE (ACF_ABB_HEADER_LEN + msg.payload.length) msg.info }

def AcfGbbMessage.onWire (msg : AcfGbbMessage) : AcfGbbMessage :=
  { msg with info := wireInfo ACF_GBB_MSG_TYPE (ACF_GBB_HEADER_LEN + msg.payload.length) msg.info }

theorem AcfGbbMessage.onWire_info (msg : AcfGbbMessage) :
    msg.onWire.info = wireInfo ACF_GBB_MSG_TYPE (ACF_GBB_HEADER_LEN + msg.payload.length) msg.info := rfl

theorem acf_abb_at_encoded {msg : AcfAbbMessage} {b : List UInt8} (h : encode_acf_abb msg = .ok b) (t : List UInt8) :
    acf_abb_at (b ++ t) = .ok (msg.onWire, b.length) := by
  obtain ⟨hfit, hf, rfl⟩ := encode_acf_abb_ok.1 h
  have htype : ACF_ABB_MSG_TYPE ≤ ACF_MSG_TYPE_7BIT_MAX := by decide
  have hw := (wireInfo_inWidth hfit htype).2 hf
  have hheader : (info_octets msg.onWire.info).length = ACF_ABB_HEADER_LEN := info_octets_length _
  refine acf_abb_at_ok.2 ⟨?_, rfl, ?_⟩
  · simp only [List.append_assoc]
    exact decode_info_octets hw _
  · simp only [List.length_append, info_octets_length, List.length_replicate]
    exact take_message_bytes_frame hheader hfit _ _ t

theorem decode_acf_abb_ok {b : List UInt8} {msg : AcfAbbMessage} :
    decode_acf_abb b = .ok msg ↔ ∃ k, acf_abb_at b = .ok (msg, k) := by
  unfold decode_acf_abb
  constructor
  · intro h
    obtain ⟨⟨m, k⟩, hm, h⟩ := bind_ok_iff.1 h
    cases h
    exact ⟨k, hm⟩
  · rintro ⟨k, hk⟩
    exact bind_ok_iff.2 ⟨_, hk, rfl⟩

theorem decode_acf_abb_encoded {msg : AcfAbbMessage} {b : List UInt8} (h : encode_acf_abb msg = .ok b) :
    decode_acf_abb b = .ok msg.onWire := by
  have hat := acf_abb_at_encoded h []
  rw [List.append_nil] at hat
  exact decode_acf_abb_ok.2 ⟨_, hat⟩

theorem decode_acf_gbb_encoded {msg : AcfGbbMessage} {b : List UInt8} (h : encode_acf_gbb msg = .ok b)
    (t : List UInt8) : decode_acf_gbb (b ++ t) = .ok msg.onWire := by
  obtain ⟨hfit, hf, rfl⟩ := encode_acf_gbb_ok.1 h
  have htype : ACF_GBB_MSG_TYPE ≤ ACF_MSG_TYPE_7BIT_MAX := by decide
  have hw := (wireInfo_inWidth hfit htype).2 hf
  have hheader : (info_octets msg.onWire.info ++ be 8 msg.message_timestamp.toNat).length = ACF_GBB_HEADER_LEN := by
    rw [List.length_append, info_octets_length, be_length, ACF_GBB_HEADER_LEN]
  rw [← AcfGbbMessage.onWire_info] at hw ⊢
  refine decode_acf_gbb_ok.2 ⟨?_, rfl, ?_, _, take_message_bytes_frame hheader hfit _ _ t⟩
  · simp only [List.append_assoc]
    exact decode_info_octets hw _
  · have hts : msg.message_timestamp.toNat < 256 ^ 8 := msg.message_timestamp.toNat_lt
    simp only [List.append_assoc]
    rw [← List.append_assoc, List.take_left' hheader, List.drop_left' (info_octets_length _), ofBe_be_of_lt hts,
      UInt64.ofNat_toNat]
    rfl

/-! ## Encoding what was decoded -/

/-- A message's octets with the reserved bits and the last `pad` octets zero. -/
def blanked (pad : Nat) (b : List UInt8) : List UInt8 :=
  clear_rsv (b.take (b.length - pad)) ++ List.replicate pad 0

theorem clear_rsv_take (b : List UInt8) :
    clear_rsv b = clear_rsv (b.take BYTE_MESSAGE_INFO_LEN) ++ b.drop BYTE_MESSAGE_INFO_LEN := by
  rcases b with _ | ⟨b0, _ | ⟨b1, _ | ⟨b2, _ | ⟨b3, _ | ⟨b4, t⟩⟩⟩⟩⟩
  case cons.cons.cons.cons.cons =>
    have ht : t.take 3 ++ t.drop 3 = t := List.take_append_drop 3 t
    simp only [clear_rsv, BYTE_MESSAGE_INFO_LEN, List.take_succ_cons, List.drop_succ_cons, List.cons_append, ht]
  all_goals rfl

/-- A message taken from `b` has the lengths an encoder would give it. -/
theorem taken_lengths {b payload : List UInt8} {header_len k : Nat} {info : ByteMessageInfo} (hw : info.InWidth)
    (h : take_message_bytes b header_len info = .ok (payload, k)) :
    FitsLength (header_len + payload.length) ∧
      wireInfo info.acf_msg_type (header_len + payload.length) info = info ∧
      k = info.extent ∧ k ≤ b.length ∧ b.take (k - info.pad.toNat) = b.take header_len ++ payload := by
  obtain ⟨hk, hle, hlen, hpayload⟩ := take_message_bytes_ok.1 h
  have hsize : payload.length = k - header_len - info.pad.toNat := by
    rw [hpayload, List.length_take_of_le (by simp; omega)]
  obtain ⟨hfit, hself⟩ := wireInfo_self hw (n := header_len + payload.length) (by rw [ByteMessageInfo.extent]; omega)
  refine ⟨hfit, hself, hk, hlen, ?_⟩
  rw [hpayload, ← List.take_add]
  congr 1
  omega

/-- A blanked message is its header without reserved bits, then the rest of it up to the pad. -/
theorem blanked_taken {b payload : List UInt8} {header_len k : Nat} {info : ByteMessageInfo}
    (hh : BYTE_MESSAGE_INFO_LEN ≤ header_len) (hinfo : decode_byte_message_info b = .ok info)
    (h : take_message_bytes b header_len info = .ok (payload, k)) :
    blanked info.pad.toNat (b.take k) = info_octets info ++ (b.take header_len).drop BYTE_MESSAGE_INFO_LEN ++ payload ++
      List.replicate (padTo (header_len + payload.length)) 0 := by
  obtain ⟨hw, hoctets, hlen⟩ := decode_info_ok hinfo
  obtain ⟨hfit, hself, -, hk, htake⟩ := taken_lengths hw h
  have hpad : padTo (header_len + payload.length) = info.pad.toNat := by
    rw [← wireInfo_pad _ info.acf_msg_type info, hself]
  have hhead : (b.take header_len ++ payload).take BYTE_MESSAGE_INFO_LEN = b.take BYTE_MESSAGE_INFO_LEN := by
    rw [List.take_append_of_le_length (by simp; omega), List.take_take, Nat.min_eq_left hh]
  have hbody : (b.take header_len ++ payload).drop BYTE_MESSAGE_INFO_LEN =
      (b.take header_len).drop BYTE_MESSAGE_INFO_LEN ++ payload :=
    List.drop_append_of_le_length (by simp; omega)
  rw [blanked, List.length_take_of_le hk, List.take_take, Nat.min_eq_left (Nat.sub_le _ _), htake, clear_rsv_take,
    hhead, hbody, ← hoctets, hpad]
  simp only [List.append_assoc]

/-- An ACF_ABB message read from `b` encodes to its own octets, blanked. -/
theorem encode_read_abb {b : List UInt8} {msg : AcfAbbMessage} {k : Nat} (h : acf_abb_at b = .ok (msg, k)) :
    encode_acf_abb msg = .ok (blanked msg.info.pad.toNat (b.take k)) ∧ msg.onWire = msg ∧
      k = msg.info.extent ∧ k ≤ b.length := by
  obtain ⟨hinfo, htype, htake⟩ := acf_abb_at_ok.1 h
  obtain ⟨hw, -, -⟩ := decode_info_ok hinfo
  obtain ⟨hfit, hself, hk, hlen, -⟩ := taken_lengths hw htake
  rw [htype] at hself
  refine ⟨encode_acf_abb_ok.2 ⟨hfit, hw.fieldsFit, ?_⟩, by rw [AcfAbbMessage.onWire, hself], hk, hlen⟩
  rw [hself, blanked_taken (Nat.le_refl _) hinfo htake, ACF_ABB_HEADER_LEN, List.drop_take_self, List.append_nil]

/-- The timestamp read from its octets is written as them. -/
theorem stamp_octets {b : List UInt8} (h : ACF_GBB_HEADER_LEN ≤ b.length) :
    be 8 (UInt64.ofNat (ofBe ((b.take ACF_GBB_HEADER_LEN).drop BYTE_MESSAGE_INFO_LEN))).toNat =
      (b.take ACF_GBB_HEADER_LEN).drop BYTE_MESSAGE_INFO_LEN := by
  have hsize : ((b.take ACF_GBB_HEADER_LEN).drop BYTE_MESSAGE_INFO_LEN).length = 8 := by
    rw [List.length_drop, List.length_take_of_le h]
    rfl
  have hback := be_ofBe ((b.take ACF_GBB_HEADER_LEN).drop BYTE_MESSAGE_INFO_LEN)
  have hlt := ofBe_lt ((b.take ACF_GBB_HEADER_LEN).drop BYTE_MESSAGE_INFO_LEN)
  rw [hsize] at hback hlt
  rw [UInt64.toNat_ofNat', Nat.mod_eq_of_lt (by omega), hback]

/-- An ACF_GBB message read from `b` encodes to its own octets, blanked. -/
theorem encode_read_gbb {b : List UInt8} {msg : AcfGbbMessage} (h : decode_acf_gbb b = .ok msg) :
    encode_acf_gbb msg = .ok (blanked msg.info.pad.toNat (b.take msg.info.extent)) ∧ msg.onWire = msg ∧
      msg.info.extent ≤ b.length := by
  obtain ⟨hinfo, htype, hts, k, htake⟩ := decode_acf_gbb_ok.1 h
  obtain ⟨hw, -, -⟩ := decode_info_ok hinfo
  obtain ⟨hfit, hself, hk, hlen, -⟩ := taken_lengths hw htake
  obtain ⟨-, hle, -, -⟩ := take_message_bytes_ok.1 htake
  subst hk
  rw [htype] at hself
  refine ⟨encode_acf_gbb_ok.2 ⟨hfit, hw.fieldsFit, ?_⟩, by rw [AcfGbbMessage.onWire, hself], hlen⟩
  rw [hself, hts, stamp_octets (by omega), blanked_taken (by decide) hinfo htake]

/-- Both encoders accept a message exactly when its padded size fits the length field, their
decoders give it back, and what a decoder accepts is encoded to its own octets, blanked. -/
theorem message_codec :
    (∀ msg : AcfAbbMessage, msg.info.FieldsFit →
      ((∃ b, encode_acf_abb msg = .ok b) ↔ FitsLength (ACF_ABB_HEADER_LEN + msg.payload.length)) ∧
        ∀ b, encode_acf_abb msg = .ok b → decode_acf_abb b = .ok msg.onWire) ∧
    (∀ msg : AcfGbbMessage, msg.info.FieldsFit →
      ((∃ b, encode_acf_gbb msg = .ok b) ↔ FitsLength (ACF_GBB_HEADER_LEN + msg.payload.length)) ∧
        ∀ b, encode_acf_gbb msg = .ok b → decode_acf_gbb b = .ok msg.onWire) ∧
    (∀ b msg, decode_acf_abb b = .ok msg → msg.info.extent ≤ b.length ∧ ∃ b', encode_acf_abb msg = .ok b' ∧
      decode_acf_abb b' = .ok msg ∧ b' = blanked msg.info.pad.toNat (b.take msg.info.extent)) ∧
    ∀ b msg, decode_acf_gbb b = .ok msg → msg.info.extent ≤ b.length ∧ ∃ b', encode_acf_gbb msg = .ok b' ∧
      decode_acf_gbb b' = .ok msg ∧ b' = blanked msg.info.pad.toNat (b.take msg.info.extent) := by
  refine ⟨fun msg hf => ⟨⟨?_, ?_⟩, ?_⟩, fun msg hf => ⟨⟨?_, ?_⟩, ?_⟩, ?_, ?_⟩
  · rintro ⟨b, hb⟩
    exact (encode_acf_abb_ok.1 hb).1
  · intro hfit
    exact ⟨_, encode_acf_abb_ok.2 ⟨hfit, hf, rfl⟩⟩
  · intro b hb
    exact decode_acf_abb_encoded hb
  · rintro ⟨b, hb⟩
    exact (encode_acf_gbb_ok.1 hb).1
  · intro hfit
    exact ⟨_, encode_acf_gbb_ok.2 ⟨hfit, hf, rfl⟩⟩
  · intro b hb
    simpa using decode_acf_gbb_encoded hb []
  · intro b msg h
    obtain ⟨k, hk⟩ := decode_acf_abb_ok.1 h
    obtain ⟨henc, hself, rfl, hlen⟩ := encode_read_abb hk
    exact ⟨hlen, _, henc, by rw [decode_acf_abb_encoded henc, hself], rfl⟩
  · intro b msg h
    obtain ⟨henc, hself, hlen⟩ := encode_read_gbb h
    refine ⟨hlen, _, henc, ?_, rfl⟩
    simpa [hself] using decode_acf_gbb_encoded henc []

/-! ## Lists of messages -/

/-- A message lies within the payload, and only its own octets decide what it is. -/
theorem abb_reader_local : abb_reader.Local where
  le := fun h => (encode_read_abb h).2.2.2
  own := by
    intro b msg k h t
    obtain ⟨hinfo, htype, htake⟩ := acf_abb_at_ok.1 h
    obtain ⟨hk, hle, hlen, hpayload⟩ := take_message_bytes_ok.1 htake
    have hfront : (b.take k ++ t).take BYTE_MESSAGE_INFO_LEN = b.take BYTE_MESSAGE_INFO_LEN := by
      rw [ACF_ABB_HEADER_LEN] at hle
      rw [List.take_append_of_le_length (by simp; omega), List.take_take, Nat.min_eq_left (by omega)]
    refine acf_abb_at_ok.2 ⟨?_, htype, take_message_bytes_ok.2 ⟨hk, hle, by simp; omega, ?_⟩⟩
    · rwa [← decode_info_take, hfront, decode_info_take]
    · rw [List.drop_append_of_le_length (by simp; omega), List.take_append_of_le_length (by simp; omega),
        List.drop_take, List.take_take, Nat.min_eq_left (by omega)]
      exact hpayload

theorem decode_messages_ok {b : List UInt8} {ms : List AcfAbbMessage} :
    decode_acf_abb_messages b = .ok ms ↔ b ≠ [] ∧ abb_reader.all b = .ok ms := by
  unfold decode_acf_abb_messages
  rw [guard_ok_iff, List.isEmpty_iff]
  rfl

/-- Encoded messages, put together, decode to the messages. -/
theorem decode_messages_encoded {msgs : List AcfAbbMessage} {bs : List (List UInt8)} (hne : msgs ≠ [])
    (h : List.Forall₂ (fun msg b => encode_acf_abb msg = .ok b) msgs bs) :
    decode_acf_abb_messages bs.flatten = .ok (msgs.map AcfAbbMessage.onWire) := by
  have hread : List.Forall₂ (fun b x => abb_reader.read b = .ok (x, b.length)) bs (msgs.map AcfAbbMessage.onWire) := by
    refine List.forall₂_map_right_iff.2 (h.flip.imp fun b msg h => ?_)
    have hat := acf_abb_at_encoded h []
    rwa [List.append_nil] at hat
  have hall := abb_reader_local.all_encodings hread
  refine decode_messages_ok.2 ⟨fun hnil => ?_, hall⟩
  rw [hnil, Reader.all_nil, Except.ok.injEq] at hall
  exact hne (List.map_eq_nil_iff.1 hall.symm)

/-- A payload that decodes is its messages' own octets, one after another. -/
theorem decode_messages_pieces {b : List UInt8} {ms : List AcfAbbMessage} (h : decode_acf_abb_messages b = .ok ms) :
    ms ≠ [] ∧ ∃ bs, b = bs.flatten ∧ List.Forall₂ (fun m p => acf_abb_at p = .ok (m, p.length)) ms bs := by
  obtain ⟨hne, hall⟩ := decode_messages_ok.1 h
  obtain ⟨bs, hbs, hread⟩ := abb_reader_local.all_pieces hall
  refine ⟨?_, bs, hbs, hread.flip⟩
  rintro rfl
  cases hread
  exact hne hbs

/-- Encoded messages put together decode to the messages, and a payload that decodes is the
messages' own extents one after another, each of which the message encodes to, blanked. -/
theorem message_list_codec :
    (∀ (msgs : List AcfAbbMessage) (bs : List (List UInt8)), msgs ≠ [] →
      List.Forall₂ (fun msg b => encode_acf_abb msg = .ok b) msgs bs →
        decode_acf_abb_messages bs.flatten = .ok (msgs.map AcfAbbMessage.onWire)) ∧
    ∀ b ms, decode_acf_abb_messages b = .ok ms → ms ≠ [] ∧ ∃ bs : List (List UInt8), b = bs.flatten ∧
      List.Forall₂ (fun msg piece => piece.length = msg.info.extent ∧ decode_acf_abb piece = .ok msg ∧
        encode_acf_abb msg = .ok (blanked msg.info.pad.toNat piece)) ms bs := by
  constructor
  · intro msgs bs hne henc
    exact decode_messages_encoded hne henc
  · intro b ms h
    obtain ⟨hne, bs, hbs, hread⟩ := decode_messages_pieces h
    refine ⟨hne, bs, hbs, hread.imp fun msg piece hp => ?_⟩
    obtain ⟨henc, -, hk, -⟩ := encode_read_abb hp
    rw [List.take_length] at henc
    exact ⟨hk, decode_acf_abb_ok.2 ⟨_, hp⟩, henc⟩

/-- The fields of decoded messages fit. -/
theorem decode_messages_fit {b : List UInt8} {ms : List AcfAbbMessage} (h : decode_acf_abb_messages b = .ok ms) :
    ∀ m ∈ ms, m.info.FieldsFit := by
  obtain ⟨-, bs, -, hread⟩ := decode_messages_pieces h
  have hboth : List.Forall₂ (fun m p => m.info.FieldsFit ∧ acf_abb_at p = .ok (m, p.length)) ms bs :=
    hread.imp fun m p hp => ⟨(decode_info_ok (acf_abb_at_ok.1 hp).1).1.fieldsFit, hp⟩
  exact ((List.forall₂_and_left ms bs).1 hboth).1

/-- What follows the messages of a payload is read as further messages. -/
theorem decode_messages_append {b : List UInt8} {ms : List AcfAbbMessage} (h : decode_acf_abb_messages b = .ok ms)
    {t : List UInt8} (ht : t ≠ []) : decode_acf_abb_messages (b ++ t) = (ms ++ ·) <$> decode_acf_abb_messages t := by
  have hall (c : List UInt8) (hc : c ≠ []) : decode_acf_abb_messages c = abb_reader.all c := by
    unfold decode_acf_abb_messages
    exact if_neg fun hnil => hc (List.isEmpty_iff.1 hnil)
  rw [hall t ht, hall (b ++ t) (by simp [ht])]
  exact abb_reader_local.all_append (decode_messages_ok.1 h).2 t

end RustRcp
