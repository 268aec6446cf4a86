import RustRcp.Regmap
import RustRcp.Lib.Reader
/-!
# The configuration tables

Rows of fixed length, five kinds of them, and a table as a run of rows
(`ConfigTableRow` and its implementations, `src/regmap.rs`). `LawfulRow` is what
one row's codec promises; what it makes of a table of any length follows for all
five kinds at once.
-/
open Bytes Cursor

namespace RustRcp

/-! ## Rows -/

/-- The trait: a row has a fixed length on the wire. -/
class ConfigTableRow (T : Type) where
  ROW_LEN : Nat
  encode_row : T → List UInt8
  decode_row : List UInt8 → Except RcpError T

open ConfigTableRow (ROW_LEN encode_row decode_row)

def encode_rows {T : Type} [ConfigTableRow T] (rows : List T) : List UInt8 :=
  rows.foldl (fun buf row => buf ++ encode_row row) []

/-- One turn of the loop of `decode_rows`. -/
def row_reader (T : Type) [ConfigTableRow T] (h : 0 < ROW_LEN T) : Reader UInt8 RcpError T where
  read b := do
    let row ← decode_row (b.take (ROW_LEN T))
    return (row, ROW_LEN T)
  pos hread := by
    obtain ⟨row, -, hk⟩ := bind_ok_iff.1 hread
    cases hk
    exact h

def decode_rows (T : Type) [ConfigTableRow T] (bytes : List UInt8) : Except RcpError (List T) :=
  if h : ROW_LEN T = 0 ∨ bytes.length % ROW_LEN T ≠ 0 then .error .ShortFrame
  else (row_reader T (by omega)).all bytes

/-- `len` bytes are asked for, and the fields read from the front of them. -/
def decode_fields {T : Type} (take_fields : Cursor RcpError T) (len : Nat) (bytes : List UInt8) : Except RcpError T :=
  if bytes.length < len then .error .ShortFrame else do
  let (e, _rest) ← take_fields bytes
  return e

/-! ## Pin mapping -/

structure HwPinMappingEntry where
  hw_ep_nr : UInt8 := 0
  hw_ep_pin_nr : UInt8 := 0
  hw_pin_props : UInt8 := 0
  deriving DecidableEq, Repr

namespace HwPinMappingEntry

def ENCODED_LEN : Nat := 3

def encode (e : HwPinMappingEntry) : List UInt8 := [e.hw_ep_nr, e.hw_ep_pin_nr, e.hw_pin_props]

def decode : List UInt8 → Except RcpError HwPinMappingEntry
  | b0 :: b1 :: b2 :: _ => .ok { hw_ep_nr := b0, hw_ep_pin_nr := b1, hw_pin_props := b2 }
  | _ => .error .ShortFrame

instance : ConfigTableRow HwPinMappingEntry := ⟨ENCODED_LEN, encode, decode⟩

end HwPinMappingEntry

/-! ## Request streams -/

structure RequestStreamConfigEntry where
  rx_stream_id : UInt64 := 0
  rx_stream_max_request_size : UInt16 := 0
  rx_wd_timeout_interval : UInt16 := 0
  rx_secure_channel_index : UInt8 := 0
  rx_enforce_e2e : Bool := false
  rx_enforce_seq : Bool := false
  rx_seq_safestate_enable : Bool := false
  rx_wd_enable : Bool := false
  rx_wd_safestate_enable : Bool := false
  rx_ovrflw_safestate_enable : Bool := false
  rx_safety_measure : Bool := false
  rx_wd_info_enable : Bool := false
  rx_safestate_sequencer : UInt8 := 0
  rx_safe_sequencer_state : UInt8 := 0
  rx_ack_stream_index : UInt8 := 0
  rx_resp_stream_index : UInt8 := 0
  deriving DecidableEq, Repr

namespace RequestStreamConfigEntry
open GeneralRegisters (take_u8 take_u16)

def ENCODED_LEN : Nat := 24
def FLAG_ENFORCE_E2E : UInt8 := (1 : UInt8) <<< 0
def FLAG_ENFORCE_SEQ : UInt8 := (1 : UInt8) <<< 1
def FLAG_SEQ_SAFESTATE_ENABLE : UInt8 := (1 : UInt8) <<< 2
def FLAG_WD_ENABLE : UInt8 := (1 : UInt8) <<< 3
def FLAG_WD_SAFESTATE_ENABLE : UInt8 := (1 : UInt8) <<< 4
def FLAG_OVRFLW_SAFESTATE_ENABLE : UInt8 := (1 : UInt8) <<< 5
def FLAG_SAFETY_MEASURE : UInt8 := (1 : UInt8) <<< 6
def FLAG_WD_INFO_ENABLE : UInt8 := (1 : UInt8) <<< 7

/-- `if on { b |= flag }`. -/
def set_flag (b flag : UInt8) (on : Bool) : UInt8 := if on then b ||| flag else b

def flags_byte (e : RequestStreamConfigEntry) : UInt8 :=
  let b := 0
  let b := set_flag b FLAG_ENFORCE_E2E e.rx_enforce_e2e
  let b := set_flag b FLAG_ENFORCE_SEQ e.rx_enforce_seq
  let b := set_flag b FLAG_SEQ_SAFESTATE_ENABLE e.rx_seq_safestate_enable
  let b := set_flag b FLAG_WD_ENABLE e.rx_wd_enable
  let b := set_flag b FLAG_WD_SAFESTATE_ENABLE e.rx_wd_safestate_enable
  let b := set_flag b FLAG_OVRFLW_SAFESTATE_ENABLE e.rx_ovrflw_safestate_enable
  let b := set_flag b FLAG_SAFETY_MEASURE e.rx_safety_measure
  set_flag b FLAG_WD_INFO_ENABLE e.rx_wd_info_enable

def encode (e : RequestStreamConfigEntry) : List UInt8 :=
  be 8 e.rx_stream_id.toNat ++ (be 2 e.rx_stream_max_request_size.toNat ++ (be 2 e.rx_wd_timeout_interval.toNat ++
  (be 1 e.rx_secure_channel_index.toNat ++ (be 1 e.flags_byte.toNat ++ (be 1 e.rx_safestate_sequencer.toNat ++
  (be 1 e.rx_safe_sequencer_state.toNat ++ (be 1 e.rx_ack_stream_index.toNat ++ (be 1 e.rx_resp_stream_index.toNat ++
  List.replicate 6 0))))))))

def take_u64 : Cursor RcpError UInt64 := UInt64.ofNat <$> word 8

/-- The fields of a row; the reserved bytes behind them are left alone. -/
def take_fields : Cursor RcpError RequestStreamConfigEntry := do
  let rx_stream_id ← take_u64
  let rx_stream_max_request_size ← take_u16
  let rx_wd_timeout_interval ← take_u16
  let rx_secure_channel_index ← take_u8
  let flags ← take_u8
  let rx_safestate_sequencer ← take_u8
  let rx_safe_sequencer_state ← take_u8
  let rx_ack_stream_index ← take_u8
  let rx_resp_stream_index ← take_u8
  return {
    rx_stream_id, rx_stream_max_request_size, rx_wd_timeout_interval, rx_secure_channel_index
    rx_enforce_e2e := flags &&& FLAG_ENFORCE_E2E != 0
    rx_enforce_seq := flags &&& FLAG_ENFORCE_SEQ != 0
    rx_seq_safestate_enable := flags &&& FLAG_SEQ_SAFESTATE_ENABLE != 0
    rx_wd_enable := flags &&& FLAG_WD_ENABLE != 0
    rx_wd_safestate_enable := flags &&& FLAG_WD_SAFESTATE_ENABLE != 0
    rx_ovrflw_safestate_enable := flags &&& FLAG_OVRFLW_SAFESTATE_ENABLE != 0
    rx_safety_measure := flags &&& FLAG_SAFETY_MEASURE != 0
    rx_wd_info_enable := flags &&& FLAG_WD_INFO_ENABLE != 0
    rx_safestate_sequencer, rx_safe_sequencer_state, rx_ack_stream_index, rx_resp_stream_index }

def decode (bytes : List UInt8) : Except RcpError RequestStreamConfigEntry :=
  decode_fields take_fields ENCODED_LEN bytes

instance : ConfigTableRow RequestStreamConfigEntry := ⟨ENCODED_LEN, encode, decode⟩

end RequestStreamConfigEntry

/-! ## Endpoint numbers -/

structure EpByteBusIdMapEntry where
  map_stream_index : UInt8 := 0
  map_byte_bus_id : UInt16 := 0
  map_ep_nr : UInt8 := 0
  deriving DecidableEq, Repr

namespace EpByteBusIdMapEntry

def ENCODED_LEN : Nat := 4

def encode (e : EpByteBusIdMapEntry) : List UInt8 :=
  [e.map_stream_index, e.map_ep_nr] ++ be 2 e.map_byte_bus_id.toNat

def decode : List UInt8 → Except RcpError EpByteBusIdMapEntry
  | b0 :: b1 :: b2 :: b3 :: _ =>
    .ok { map_stream_index := b0, map_ep_nr := b1, map_byte_bus_id := UInt16.ofNat (ofBe [b2, b3]) }
  | _ => .error .ShortFrame

instance : ConfigTableRow EpByteBusIdMapEntry := ⟨ENCODED_LEN, encode, decode⟩

end EpByteBusIdMapEntry

/-! ## Response streams -/

structure ResponseStreamConfigEntry where
  resp_stream_uid : UInt16 := 0
  resp_max_avtpdu_size : UInt16 := 0
  resp_queue_size : UInt16 := 0
  resp_flush_on_count : UInt16 := 0
  resp_flush_time : UInt16 := 0
  deriving DecidableEq, Repr

namespace ResponseStreamConfigEntry
open GeneralRegisters (take_u16)

def ENCODED_LEN : Nat := 10

def encode (e : ResponseStreamConfigEntry) : List UInt8 :=
  be 2 e.resp_stream_uid.toNat ++ (be 2 e.resp_max_avtpdu_size.toNat ++ (be 2 e.resp_queue_size.toNat ++
  (be 2 e.resp_flush_on_count.toNat ++ be 2 e.resp_flush_time.toNat)))

def take_fields : Cursor RcpError ResponseStreamConfigEntry := do
  let resp_stream_uid ← take_u16
  let resp_max_avtpdu_size ← take_u16
  let resp_queue_size ← take_u16
  let resp_flush_on_count ← take_u16
  let resp_flush_time ← take_u16
  return { resp_stream_uid, resp_max_avtpdu_size, resp_queue_size, resp_flush_on_count, resp_flush_time }

def decode (bytes : List UInt8) : Except RcpError ResponseStreamConfigEntry :=
  decode_fields take_fields ENCODED_LEN bytes

instance : ConfigTableRow ResponseStreamConfigEntry := ⟨ENCODED_LEN, encode, decode⟩

end ResponseStreamConfigEntry

/-! ## Sequencers -/

structure SequencerStateEntry where
  seq_state : UInt8
  request_stream_index : UInt8
  deriving DecidableEq, Repr

namespace SequencerStateEntry

def ENCODED_LEN : Nat := 2

def encode (e : SequencerStateEntry) : List UInt8 := [e.seq_state, e.request_stream_index]

def decode : List UInt8 → Except RcpError SequencerStateEntry
  | b0 :: b1 :: _ => .ok { seq_state := b0, request_stream_index := b1 }
  | _ => .error .ShortFrame

instance : ConfigTableRow SequencerStateEntry := ⟨ENCODED_LEN, encode, decode⟩

end SequencerStateEntry

/-! ## One row -/

/-- What a row's codec promises. The bytes at the offsets in `reserved` are not part of any field. -/
structure LawfulRow (T : Type) [ConfigTableRow T] (reserved : Nat → Prop) : Prop where
  pos : 0 < ROW_LEN T
  length : ∀ row : T, (encode_row row).length = ROW_LEN T
  decode_encode : ∀ row : T, decode_row (encode_row row) = .ok row
  accepts : ∀ b, (∃ row : T, decode_row b = .ok row) ↔ ROW_LEN T ≤ b.length
  encode_decode : ∀ b (row : T), b.length = ROW_LEN T → decode_row b = .ok row →
    ∀ i, ¬ reserved i → (encode_row row)[i]? = b[i]?

/-- What becomes of a table. -/
structure TableKept (T : Type) [ConfigTableRow T] (reserved : Nat → Prop) : Prop where
  decode_encode : ∀ rows : List T, decode_rows T (encode_rows rows) = .ok rows
  accepts : ∀ b, (∃ rows, decode_rows T b = .ok rows) ↔ ROW_LEN T ∣ b.length
  aligned : ∀ b rows, decode_rows T b = .ok rows → rows.length * ROW_LEN T = b.length ∧
    ∀ i (h : i < rows.length), decode_row ((b.drop (i * ROW_LEN T)).take (ROW_LEN T)) = .ok rows[i]
  encode_decode : ∀ b rows, decode_rows T b = .ok rows → (encode_rows rows).length = b.length ∧
    ∀ i, ¬ reserved (i % ROW_LEN T) → (encode_rows rows)[i]? = b[i]?

theorem encode_rows_eq {T : Type} [ConfigTableRow T] (rows : List T) :
    encode_rows rows = (rows.map encode_row).flatten := by
  rw [encode_rows, ← List.flatMap_eq_foldl, List.flatMap_def]

namespace LawfulRow
variable {T : Type} [ConfigTableRow T] {reserved : Nat → Prop}

theorem read_ok_iff (h : 0 < ROW_LEN T) {b : List UInt8} {row : T} {k : Nat} :
    (row_reader T h).read b = .ok (row, k) ↔ decode_row (b.take (ROW_LEN T)) = .ok row ∧ k = ROW_LEN T := by
  simp only [row_reader, bind_ok_iff]
  constructor
  · rintro ⟨row', hrow, hk⟩
    cases hk
    exact ⟨hrow, rfl⟩
  · rintro ⟨hrow, rfl⟩
    exact ⟨row, hrow, rfl⟩

theorem reader_local (h : LawfulRow T reserved) : (row_reader T h.pos).Local where
  le hread := by
    obtain ⟨hrow, rfl⟩ := (read_ok_iff h.pos).1 hread
    have hlen := (h.accepts _).1 ⟨_, hrow⟩
    rw [List.length_take] at hlen
    omega
  own hread t := by
    obtain ⟨hrow, rfl⟩ := (read_ok_iff h.pos).1 hread
    refine (read_ok_iff h.pos).2 ⟨?_, rfl⟩
    rwa [List.take_left' (Nat.le_antisymm (List.length_take_le _ _) ((h.accepts _).1 ⟨_, hrow⟩))]

theorem decode_rows_eq (h : LawfulRow T reserved) {b : List UInt8} (hlen : ROW_LEN T ∣ b.length) :
    decode_rows T b = (row_reader T h.pos).all b := by
  have hpos := h.pos
  have hmod := Nat.mod_eq_zero_of_dvd hlen
  rw [decode_rows, dif_neg (by omega)]

/-- Whole rows are all accepted. -/
theorem all_ok (h : LawfulRow T reserved) (k : Nat) {b : List UInt8} (hlen : b.length = k * ROW_LEN T) :
    ∃ rows, (row_reader T h.pos).all b = .ok rows := by
  have hpos := h.pos
  induction k generalizing b with
  | zero =>
    have hnil : b = [] := List.length_eq_zero_iff.1 (by omega)
    exact ⟨[], by rw [hnil, Reader.all_nil]⟩
  | succ k ih =>
    rw [Nat.succ_mul] at hlen
    obtain ⟨row, hrow⟩ := (h.accepts (b.take (ROW_LEN T))).2 (by rw [List.length_take]; omega)
    obtain ⟨rows, hrows⟩ := ih (b := b.drop (ROW_LEN T)) (by rw [List.length_drop]; omega)
    exact ⟨row :: rows, by rw [h.reader_local.all_cons ((read_ok_iff h.pos).2 ⟨hrow, rfl⟩), hrows]; rfl⟩

theorem decode_rows_ok_iff (h : LawfulRow T reserved) (b : List UInt8) :
    (∃ rows, decode_rows T b = .ok rows) ↔ ROW_LEN T ∣ b.length := by
  constructor
  · rintro ⟨rows, hrows⟩
    by_contra hlen
    rw [decode_rows, dif_pos (.inr fun hmod => hlen (Nat.dvd_of_mod_eq_zero hmod))] at hrows
    cases hrows
  · intro hlen
    rw [h.decode_rows_eq hlen]
    exact h.all_ok (b.length / ROW_LEN T) (Nat.div_mul_cancel hlen).symm

/-- An accepted table is its rows' own bytes, one row after another. -/
theorem pieces (h : LawfulRow T reserved) {b : List UInt8} {rows : List T} (hrows : decode_rows T b = .ok rows) :
    ∃ bs : List (List UInt8), b = bs.flatten ∧
      List.Forall₂ (fun p row => p.length = ROW_LEN T ∧ decode_row p = .ok row) bs rows := by
  rw [h.decode_rows_eq ((h.decode_rows_ok_iff b).1 ⟨rows, hrows⟩)] at hrows
  obtain ⟨bs, hb, hread⟩ := h.reader_local.all_pieces hrows
  refine ⟨bs, hb, hread.imp fun p row hp => ?_⟩
  obtain ⟨hrow, hlen⟩ := (read_ok_iff h.pos).1 hp
  rw [← hlen, List.take_length] at hrow
  exact ⟨hlen, hrow⟩

/-- Rows and their encodings. -/
theorem encodings (h : LawfulRow T reserved) (rows : List T) :
    List.Forall₂ (fun p row => p.length = ROW_LEN T ∧ decode_row p = .ok row) (rows.map encode_row) rows := by
  rw [List.forall₂_map_left_iff, List.forall₂_same]
  exact fun row _ => ⟨h.length row, h.decode_encode row⟩

theorem decode_rows_encode_rows (h : LawfulRow T reserved) (rows : List T) :
    decode_rows T (encode_rows rows) = .ok rows := by
  have hrow := h.encodings rows
  have hdvd : ROW_LEN T ∣ (rows.map encode_row).flatten.length := ⟨_, by rw [Reader.length_pieces hrow, Nat.mul_comm]⟩
  rw [encode_rows_eq, h.decode_rows_eq hdvd]
  refine h.reader_local.all_encodings (hrow.imp fun b row hb => ?_)
  rw [read_ok_iff, ← hb.1, List.take_length]
  exact ⟨hb.2, rfl⟩

theorem encode_rows_decode_rows (h : LawfulRow T reserved) {b : List UInt8} {rows : List T}
    (hrows : decode_rows T b = .ok rows) : (encode_rows rows).length = b.length ∧
      ∀ i, ¬ reserved (i % ROW_LEN T) → (encode_rows rows)[i]? = b[i]? := by
  obtain ⟨bs, rfl, hpieces⟩ := h.pieces hrows
  have hrow := h.encodings rows
  have hagree : List.Forall₂ (fun p q : List UInt8 => p.length = ROW_LEN T ∧ q.length = ROW_LEN T ∧
      ∀ i, ¬ reserved i → q[i]? = p[i]?) bs (rows.map encode_row) := by
    rw [List.forall₂_map_right_iff]
    exact hpieces.imp fun p row hp => ⟨hp.1, h.length row, h.encode_decode p row hp.1 hp.2⟩
  rw [encode_rows_eq]
  refine ⟨by rw [Reader.length_pieces hrow, Reader.length_pieces hpieces], fun i hi => ?_⟩
  exact Reader.pieces_agree hagree i hi

/-- What one row promises, a table keeps. -/
theorem table_kept (h : LawfulRow T reserved) : TableKept T reserved where
  decode_encode := h.decode_rows_encode_rows
  accepts := h.decode_rows_ok_iff
  aligned b rows hrows := by
    obtain ⟨bs, rfl, hpieces⟩ := h.pieces hrows
    exact ⟨(Reader.length_pieces hpieces).symm, Reader.piece_at hpieces⟩
  encode_decode _ _ := h.encode_rows_decode_rows

end LawfulRow

/-! ## The five kinds -/

/-- Two octets as a word and back. -/
theorem be_word (hi lo : UInt8) : be 2 (UInt16.ofNat (ofBe [hi, lo])).toNat = [hi, lo] := by
  have hlt : ofBe [hi, lo] < 256 ^ 2 := ofBe_lt [hi, lo]
  rw [UInt16.toNat_ofNat_of_lt' hlt]
  exact be_ofBe [hi, lo]

theorem word_be (x : UInt16) : ∃ hi lo, be 2 x.toNat = [hi, lo] ∧ UInt16.ofNat (ofBe [hi, lo]) = x := by
  have hx : x.toNat < 256 ^ 2 := x.toNat_lt
  refine ⟨_, _, rfl, ?_⟩
  show UInt16.ofNat (ofBe (be 2 x.toNat)) = x
  rw [ofBe_be_of_lt hx, UInt16.ofNat_toNat]

theorem hw_pin_mapping_lawful : LawfulRow HwPinMappingEntry fun _ => False where
  pos := by decide
  length _ := rfl
  decode_encode _ := rfl
  accepts b := by
    show (∃ row, HwPinMappingEntry.decode b = .ok row) ↔ 3 ≤ b.length
    rcases b with _ | ⟨b0, _ | ⟨b1, _ | ⟨b2, t⟩⟩⟩ <;> simp [HwPinMappingEntry.decode]
  encode_decode b row hlen hrow i _ := by
    change b.length = 3 at hlen
    rcases b with _ | ⟨b0, _ | ⟨b1, _ | ⟨b2, _ | ⟨b3, t⟩⟩⟩⟩ <;> simp at hlen
    cases hrow
    rfl

theorem ep_byte_bus_id_map_lawful : LawfulRow EpByteBusIdMapEntry fun _ => False where
  pos := by decide
  length _ := rfl
  decode_encode e := by
    obtain ⟨hi, lo, hbe, hword⟩ := word_be e.map_byte_bus_id
    show EpByteBusIdMapEntry.decode (EpByteBusIdMapEntry.encode e) = .ok e
    rw [EpByteBusIdMapEntry.encode, hbe]
    exact congrArg (fun id => Except.ok { e with map_byte_bus_id := id }) hword
  accepts b := by
    show (∃ row, EpByteBusIdMapEntry.decode b = .ok row) ↔ 4 ≤ b.length
    rcases b with _ | ⟨b0, _ | ⟨b1, _ | ⟨b2, _ | ⟨b3, t⟩⟩⟩⟩ <;> simp [EpByteBusIdMapEntry.decode]
  encode_decode b row hlen hrow i _ := by
    change b.length = 4 at hlen
    rcases b with _ | ⟨b0, _ | ⟨b1, _ | ⟨b2, _ | ⟨b3, _ | ⟨b4, t⟩⟩⟩⟩⟩ <;> simp at hlen
    cases hrow
    show ([b0, b1] ++ be 2 (UInt16.ofNat (ofBe [b2, b3])).toNat)[i]? = _
    rw [be_word]
    rfl

section Fields
variable {T : Type} {take_fields : Cursor RcpError T} {k len : Nat}

theorem decode_fields_ok_iff (htakes : Takes take_fields k) (hk : k ≤ len) (b : List UInt8) :
    (∃ e, decode_fields take_fields len b = .ok e) ↔ len ≤ b.length := by
  unfold decode_fields
  constructor
  · rintro ⟨e, h⟩
    exact Nat.le_of_not_lt (guard_ok_iff.1 h).1
  · intro h
    obtain ⟨e, he⟩ := htakes b (by omega)
    exact ⟨e, guard_ok_iff.2 ⟨Nat.not_lt.2 h, bind_ok_iff.2 ⟨_, he, rfl⟩⟩⟩

theorem decode_fields_reads {x : List UInt8} {e : T} (hreads : Reads take_fields x e) {t : List UInt8}
    (hlen : len ≤ (x ++ t).length) : decode_fields take_fields len (x ++ t) = .ok e :=
  guard_ok_iff.2 ⟨Nat.not_lt.2 hlen, bind_ok_iff.2 ⟨_, hreads t, rfl⟩⟩

theorem decode_fields_relates {P : T → List UInt8 → Prop} (hrelates : Relates take_fields k P) (hk : k ≤ len)
    {b : List UInt8} {e : T} (h : decode_fields take_fields len b = .ok e) : P e (b.take k) := by
  obtain ⟨hlen, h⟩ := guard_ok_iff.1 h
  obtain ⟨⟨e', rest⟩, hfields, he⟩ := bind_ok_iff.1 h
  cases he
  exact (hrelates b e rest (by omega) hfields).2

end Fields

namespace RequestStreamConfigEntry
open GeneralRegisters

/-- Each flag has a bit of its own. -/
theorem flags_read (e : RequestStreamConfigEntry) :
    (e.flags_byte &&& FLAG_ENFORCE_E2E != 0) = e.rx_enforce_e2e ∧
      (e.flags_byte &&& FLAG_ENFORCE_SEQ != 0) = e.rx_enforce_seq ∧
      (e.flags_byte &&& FLAG_SEQ_SAFESTATE_ENABLE != 0) = e.rx_seq_safestate_enable ∧
      (e.flags_byte &&& FLAG_WD_ENABLE != 0) = e.rx_wd_enable ∧
      (e.flags_byte &&& FLAG_WD_SAFESTATE_ENABLE != 0) = e.rx_wd_safestate_enable ∧
      (e.flags_byte &&& FLAG_OVRFLW_SAFESTATE_ENABLE != 0) = e.rx_ovrflw_safestate_enable ∧
      (e.flags_byte &&& FLAG_SAFETY_MEASURE != 0) = e.rx_safety_measure ∧
      (e.flags_byte &&& FLAG_WD_INFO_ENABLE != 0) = e.rx_wd_info_enable := by
  unfold flags_byte
  generalize e.rx_enforce_e2e = f0, e.rx_enforce_seq = f1, e.rx_seq_safestate_enable = f2, e.rx_wd_enable = f3,
    e.rx_wd_safestate_enable = f4, e.rx_ovrflw_safestate_enable = f5, e.rx_safety_measure = f6,
    e.rx_wd_info_enable = f7
  revert f0 f1 f2 f3 f4 f5 f6 f7
  decide +kernel

/-- A byte is made of its flags. -/
theorem flags_written : ∀ b : UInt8, flags_byte {
    rx_enforce_e2e := b &&& FLAG_ENFORCE_E2E != 0, rx_enforce_seq := b &&& FLAG_ENFORCE_SEQ != 0
    rx_seq_safestate_enable := b &&& FLAG_SEQ_SAFESTATE_ENABLE != 0, rx_wd_enable := b &&& FLAG_WD_ENABLE != 0
    rx_wd_safestate_enable := b &&& FLAG_WD_SAFESTATE_ENABLE != 0
    rx_ovrflw_safestate_enable := b &&& FLAG_OVRFLW_SAFESTATE_ENABLE != 0
    rx_safety_measure := b &&& FLAG_SAFETY_MEASURE != 0, rx_wd_info_enable := b &&& FLAG_WD_INFO_ENABLE != 0 } = b :=
  forall_byte (by decide +kernel)

theorem takes_u64 : Takes take_u64 8 := (takes_word 8).map _

theorem reads_u64 (v : UInt64) : Reads take_u64 (be 8 v.toNat) v := by
  have h := (reads_word (ε := RcpError) (n := 8) v.toNat_lt).map UInt64.ofNat
  rwa [UInt64.ofNat_toNat] at h

theorem relates_u64 : Relates take_u64 8 fun v x => be 8 v.toNat = x :=
  relates_word fun _ hv => UInt64.toNat_ofNat_of_lt' hv

/-- The bytes of a row that hold fields. -/
def fields (e : RequestStreamConfigEntry) : List UInt8 :=
  be 8 e.rx_stream_id.toNat ++ (be 2 e.rx_stream_max_request_size.toNat ++ (be 2 e.rx_wd_timeout_interval.toNat ++
  (be 1 e.rx_secure_channel_index.toNat ++ (be 1 e.flags_byte.toNat ++ (be 1 e.rx_safestate_sequencer.toNat ++
  (be 1 e.rx_safe_sequencer_state.toNat ++ (be 1 e.rx_ack_stream_index.toNat ++
  be 1 e.rx_resp_stream_index.toNat)))))))

theorem encode_eq (e : RequestStreamConfigEntry) : e.encode = e.fields ++ List.replicate 6 0 := by
  simp only [encode, fields, List.append_assoc]

theorem fields_length (e : RequestStreamConfigEntry) : e.fields.length = 18 := by
  simp [fields]

theorem takes_fields : Takes take_fields 18 := by
  unfold take_fields
  exact takes_u64.bind fun _ => takes_u16.bind fun _ => takes_u16.bind fun _ => takes_u8.bind fun _ =>
    takes_u8.bind fun _ => takes_u8.bind fun _ => takes_u8.bind fun _ => takes_u8.bind fun _ => takes_u8.bind fun _ =>
    takes_pure _

theorem reads_fields (e : RequestStreamConfigEntry) : Reads take_fields e.fields e := by
  obtain ⟨h0, h1, h2, h3, h4, h5, h6, h7⟩ := flags_read e
  unfold take_fields
  rw [← List.append_nil e.fields, fields]
  simp only [List.append_assoc]
  refine (reads_u64 _).bind <| (reads_u16 _).bind <| (reads_u16 _).bind <| (reads_u8 _).bind <| (reads_u8 _).bind <|
    (reads_u8 _).bind <| (reads_u8 _).bind <| (reads_u8 _).bind <| (reads_u8 _).bind ?_
  rw [h0, h1, h2, h3, h4, h5, h6, h7]
  exact reads_pure e

theorem relates_fields : Relates take_fields 18 fun e x => e.fields = x := by
  unfold take_fields
  refine relates_u64.bind fun _ => relates_u16.bind fun _ => relates_u16.bind fun _ => relates_u8.bind fun _ =>
    relates_u8.bind fun flags => relates_u8.bind fun _ => relates_u8.bind fun _ => relates_u8.bind fun _ =>
    relates_u8.bind fun _ => relates_pure ?_
  have hflags := flags_written flags
  simp only [fields, List.append_nil]
  simp only [flags_byte] at hflags ⊢
  rw [hflags]

end RequestStreamConfigEntry

open RequestStreamConfigEntry in
theorem request_stream_lawful : LawfulRow RequestStreamConfigEntry (18 ≤ ·) where
  pos := by decide
  length _ := rfl
  decode_encode e := by
    have hdec : decode_fields take_fields 24 (e.fields ++ List.replicate 6 0) = .ok e :=
      decode_fields_reads (reads_fields e) (by simp [fields_length])
    rwa [← encode_eq] at hdec
  accepts := decode_fields_ok_iff takes_fields (by decide)
  encode_decode b row hlen hrow i hi := by
    have hfields : row.fields = b.take 18 := decode_fields_relates relates_fields (by decide) hrow
    show row.encode[i]? = b[i]?
    rw [encode_eq, List.getElem?_append_left (by rw [fields_length]; omega), hfields,
      List.getElem?_take_of_lt (by omega)]

open GeneralRegisters in
theorem response_stream_lawful : LawfulRow ResponseStreamConfigEntry fun _ => False where
  pos := by decide
  length _ := rfl
  decode_encode e := by
    have hreads : Reads ResponseStreamConfigEntry.take_fields (e.encode ++ []) e := by
      simp only [ResponseStreamConfigEntry.encode, List.append_assoc]
      exact (reads_u16 _).bind <| (reads_u16 _).bind <| (reads_u16 _).bind <| (reads_u16 _).bind <|
        (reads_u16 _).bind <| reads_pure _
    rw [List.append_nil] at hreads
    have hdec : decode_fields ResponseStreamConfigEntry.take_fields 10 (e.encode ++ []) = .ok e :=
      decode_fields_reads hreads (Nat.le_refl _)
    rwa [List.append_nil] at hdec
  accepts := decode_fields_ok_iff (k := 10) (takes_u16.bind fun _ => takes_u16.bind fun _ => takes_u16.bind fun _ =>
    takes_u16.bind fun _ => takes_u16.bind fun _ => takes_pure _) (Nat.le_refl _)
  encode_decode b row hlen hrow i _ := by
    have hrelates : Relates ResponseStreamConfigEntry.take_fields 10 fun e x => e.encode = x :=
      relates_u16.bind fun _ => relates_u16.bind fun _ => relates_u16.bind fun _ => relates_u16.bind fun _ =>
        relates_u16.bind fun _ => relates_pure (by simp only [List.append_nil]; rfl)
    have hrow := decode_fields_relates hrelates (Nat.le_refl _) hrow
    rw [List.take_of_length_le (show b.length ≤ 10 from Nat.le_of_eq hlen)] at hrow
    exact congrArg (·[i]?) hrow

theorem sequencer_state_lawful : LawfulRow SequencerStateEntry fun _ => False where
  pos := by decide
  length _ := rfl
  decode_encode _ := rfl
  accepts b := by
    show (∃ row, SequencerStateEntry.decode b = .ok row) ↔ 2 ≤ b.length
    rcases b with _ | ⟨b0, _ | ⟨b1, t⟩⟩ <;> simp [SequencerStateEntry.decode]
  encode_decode b row hlen hrow i _ := by
    change b.length = 2 at hlen
    rcases b with _ | ⟨b0, _ | ⟨b1, _ | ⟨b2, t⟩⟩⟩ <;> simp at hlen
    cases hrow
    rfl

/-! ## The register map -/

/-- What the register map's codecs keep. Only a request stream's row has bytes that belong to no field,
its last six. -/
structure RegisterMapKept : Prop where
  hw_pin_mapping : TableKept HwPinMappingEntry fun _ => False
  request_stream : TableKept RequestStreamConfigEntry (18 ≤ ·)
  ep_byte_bus_id_map : TableKept EpByteBusIdMapEntry fun _ => False
  response_stream : TableKept ResponseStreamConfigEntry fun _ => False
  sequencer_state : TableKept SequencerStateEntry fun _ => False
  registers : ∀ g : GeneralRegisters, GeneralRegisters.decode g.encode = .ok g
  image : ∀ b g, GeneralRegisters.decode b = .ok g → g.encode = b.take 65

theorem register_map_kept : RegisterMapKept where
  hw_pin_mapping := hw_pin_mapping_lawful.table_kept
  request_stream := request_stream_lawful.table_kept
  ep_byte_bus_id_map := ep_byte_bus_id_map_lawful.table_kept
  response_stream := response_stream_lawful.table_kept
  sequencer_state := sequencer_state_lawful.table_kept
  registers := GeneralRegisters.decode_encode_alone
  image _ _ := GeneralRegisters.encode_decode

end RustRcp
