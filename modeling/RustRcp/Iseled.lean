import RustRcp.Error
import RustRcp.Lib.Bytes
import RustRcp.Lib.Codec
/-!
# ISELED line coding

Bytes as pairs of 4b/5b code groups, and frames on the line (`src/iseled.rs`). The table has
sixteen different entries and is read backwards exactly (`symbol_to_nibble_eq_some`), so a byte,
a string of bytes and a frame each have one line coding, and no other symbols are accepted
(`line_coding_exact`).
-/
open Bytes Codec

namespace RustRcp

/-! ## Code groups -/

def NIBBLE_TO_5B : List UInt8 :=
  [0b11110, 0b01001, 0b10100, 0b10101, 0b01010, 0b01011, 0b01110, 0b01111,
    0b10010, 0b10011, 0b10110, 0b10111, 0b11010, 0b11011, 0b11100, 0b11101]

def symbol_to_nibble (symbol : UInt8) : Option UInt8 := (NIBBLE_TO_5B.idxOf? symbol).map UInt8.ofNat

/-- The code group of a nibble. -/
def nibble_to_symbol (nibble : UInt8) : UInt8 := NIBBLE_TO_5B.getD nibble.toNat 0

/-- One turn of the loop of `encode_4b5b`. -/
def encode_pair (byte : UInt8) : List UInt8 := [nibble_to_symbol (byte >>> 4), nibble_to_symbol (byte &&& 0x0F)]

def encode_4b5b (data : List UInt8) : List UInt8 := data.flatMap encode_pair

/-- One turn of the loop of `decode_4b5b`. -/
def decode_pair (s0 s1 : UInt8) : Except RcpError UInt8 := do
  let hi ← ok_or (symbol_to_nibble s0) .InvalidParameter
  let lo ← ok_or (symbol_to_nibble s1) .InvalidParameter
  return (hi <<< 4) ||| lo

/-- The loop, over the pairs of `chunks_exact(2)`. -/
def decode_pairs : List UInt8 → Except RcpError (List UInt8)
  | s0 :: s1 :: rest => do
    let byte ← decode_pair s0 s1
    let out ← decode_pairs rest
    return byte :: out
  | _ => .ok []

def decode_4b5b (symbols : List UInt8) : Except RcpError (List UInt8) :=
  if symbols.length % 2 ≠ 0 then .error .ShortFrame
  else decode_pairs symbols

/-! ## Nibbles -/

theorem high_nibble_lt : ∀ byte : UInt8, (byte >>> 4).toNat < 16 := forall_byte (by decide +kernel)

theorem low_nibble_lt : ∀ byte : UInt8, (byte &&& 0x0F).toNat < 16 := forall_byte (by decide +kernel)

theorem join_nibbles : ∀ byte : UInt8, ((byte >>> 4) <<< 4) ||| (byte &&& 0x0F) = byte :=
  forall_byte (by decide +kernel)

theorem split_nibbles : ∀ hi : UInt8, hi.toNat < 16 → ∀ lo : UInt8, lo.toNat < 16 →
    ((hi <<< 4) ||| lo) >>> 4 = hi ∧ ((hi <<< 4) ||| lo) &&& 0x0F = lo := by
  refine forall_lt 16 fun i => forall_lt 16 ?_
  revert i
  decide

/-- In a list without duplicates every element has one index. -/
theorem idxOf?_of_nodup {α : Type} [DecidableEq α] {l : List α} (h : l.Nodup) {a : α} {i : Nat} :
    l.idxOf? a = some i ↔ l[i]? = some a := by
  rw [List.idxOf?_eq_some_iff, List.getElem?_eq_some_iff]
  refine exists_congr fun hi => and_iff_left_of_imp ?_
  rintro rfl j hj hsame
  exact hj.ne (h.getElem_inj_iff.1 hsame)

/-- The table read backwards. -/
theorem symbol_to_nibble_eq_some {symbol nibble : UInt8} :
    symbol_to_nibble symbol = some nibble ↔ nibble.toNat < 16 ∧ nibble_to_symbol nibble = symbol := by
  have hnodup : NIBBLE_TO_5B.Nodup := by decide
  have hlength : NIBBLE_TO_5B.length = 16 := rfl
  simp only [symbol_to_nibble, nibble_to_symbol, Option.map_eq_some_iff, idxOf?_of_nodup hnodup,
    List.getD_eq_getElem?_getD]
  constructor
  · rintro ⟨i, hi, rfl⟩
    have hlt := (List.getElem?_eq_some_iff.1 hi).1
    rw [UInt8.toNat_ofNat_of_lt' (by rw [hlength] at hlt; exact hlt.trans (by decide)), hi]
    exact ⟨hlength ▸ hlt, rfl⟩
  · rintro ⟨hlt, rfl⟩
    rw [← hlength] at hlt
    exact ⟨nibble.toNat, by simp [hlt], UInt8.ofNat_toNat⟩

theorem mem_table_iff {symbol : UInt8} : symbol ∈ NIBBLE_TO_5B ↔ ∃ nibble, symbol_to_nibble symbol = some nibble := by
  rw [← List.isSome_idxOf?, ← Option.isSome_iff_exists, symbol_to_nibble, Option.isSome_map]

/-! ## Strings of bytes -/

/-- One byte, of two symbols. -/
def decode_word : List UInt8 → Except RcpError UInt8
  | [s0, s1] => decode_pair s0 s1
  | _ => .error .ShortFrame

theorem decode_pair_eq_ok {s0 s1 byte : UInt8} : decode_pair s0 s1 = .ok byte ↔ encode_pair byte = [s0, s1] := by
  simp only [decode_pair, bind_ok_iff, ok_or_eq_ok, symbol_to_nibble_eq_some, encode_pair, List.cons.injEq, and_true]
  constructor
  · rintro ⟨hi, ⟨hhi, rfl⟩, lo, ⟨hlo, rfl⟩, hbyte⟩
    cases hbyte
    obtain ⟨hhigh, hlow⟩ := split_nibbles hi hhi lo hlo
    rw [hhigh, hlow]
    exact ⟨rfl, rfl⟩
  · rintro ⟨rfl, rfl⟩
    refine ⟨_, ⟨high_nibble_lt byte, rfl⟩, _, ⟨low_nibble_lt byte, rfl⟩, ?_⟩
    rw [join_nibbles]
    rfl

theorem word_exact : Exact (fun _ => True) encode_pair decode_word := by
  refine exact_of_all_iff fun word byte => ?_
  unfold decode_word
  split
  next s0 s1 => exact decode_pair_eq_ok
  next hword => exact iff_of_false nofun fun h => hword _ _ h.symm

theorem decode_4b5b_even {symbols : List UInt8} (h : 2 ∣ symbols.length) : decode_4b5b symbols = decode_pairs symbols :=
  if_neg (by omega)

theorem decode_4b5b_wordwise : Wordwise 2 decode_word decode_4b5b where
  nil := rfl
  cons word rest hword hrest := by
    match word, hword with
    | [s0, s1], _ =>
      have hwhole : 2 ∣ ([s0, s1] ++ rest).length := by
        rw [List.length_append]
        exact Nat.dvd_add (Nat.dvd_refl 2) hrest
      rw [decode_4b5b_even hwhole, decode_4b5b_even hrest]
      rfl
  whole s as h := by
    rw [decode_4b5b, guard_ok_iff, not_not] at h
    exact Nat.dvd_of_mod_eq_zero h.1

theorem line_4b5b_exact : Exact (fun _ => True) encode_4b5b decode_4b5b := by
  have hwords : Exact (fun data => ∀ byte ∈ data, True) encode_4b5b decode_4b5b :=
    word_exact.words (fun _ => rfl) decode_4b5b_wordwise
  simpa using hwords

theorem length_encode_4b5b (data : List UInt8) : (encode_4b5b data).length = 2 * data.length := by
  induction data with
  | nil => rfl
  | cons byte data ih =>
    have hcons : encode_4b5b (byte :: data) = encode_pair byte ++ encode_4b5b data := List.flatMap_cons
    rw [hcons, List.length_append, ih, List.length_cons, Nat.mul_succ, Nat.add_comm]
    rfl

/-- Two symbols are a byte when both are in the table. -/
theorem decode_pair_ok_iff (s0 s1 : UInt8) :
    (∃ byte, decode_pair s0 s1 = .ok byte) ↔ s0 ∈ NIBBLE_TO_5B ∧ s1 ∈ NIBBLE_TO_5B := by
  simp only [decode_pair, bind_ok_iff, ok_or_eq_ok, mem_table_iff]
  constructor
  · rintro ⟨byte, hi, hhi, lo, hlo, -⟩
    exact ⟨⟨hi, hhi⟩, lo, hlo⟩
  · rintro ⟨⟨hi, hhi⟩, lo, hlo⟩
    exact ⟨_, hi, hhi, lo, hlo, rfl⟩

theorem decode_pairs_ok_iff (symbols : List UInt8) (h : 2 ∣ symbols.length) :
    (∃ data, decode_pairs symbols = .ok data) ↔ ∀ symbol ∈ symbols, symbol ∈ NIBBLE_TO_5B := by
  fun_induction decode_pairs symbols with
  | case1 s0 s1 rest ih =>
    have hrest : 2 ∣ rest.length := (Nat.dvd_add_left (Nat.dvd_refl 2)).1 h
    rw [List.forall_mem_cons, List.forall_mem_cons, ← and_assoc, ← decode_pair_ok_iff, ← ih hrest]
    simp only [bind_ok_iff]
    constructor
    · rintro ⟨data, byte, hbyte, out, hout, -⟩
      exact ⟨⟨byte, hbyte⟩, out, hout⟩
    · rintro ⟨⟨byte, hbyte⟩, out, hout⟩
      exact ⟨_, byte, hbyte, out, hout, rfl⟩
  | case2 symbols hshort =>
    -- a single symbol would be half a byte
    match symbols, h with
    | [], _ => simp
    | [_], h => simp at h
    | _ :: _ :: _, _ => exact absurd rfl (hshort _ _ _)

/-- What is accepted: whole bytes of symbols from the table. -/
theorem decode_4b5b_ok_iff (symbols : List UInt8) :
    (∃ data, decode_4b5b symbols = .ok data) ↔
      symbols.length % 2 = 0 ∧ ∀ symbol ∈ symbols, symbol ∈ NIBBLE_TO_5B := by
  simp only [decode_4b5b, guard_ok_iff, not_not, exists_and_left]
  exact and_congr_right fun h => decode_pairs_ok_iff symbols (Nat.dvd_of_mod_eq_zero h)

/-! ## Frames -/

structure IseledFrame where
  chain_address : UInt8 := 0
  command : UInt8 := 0
  data : List UInt8 := []
  deriving DecidableEq, Repr

namespace IseledFrame

def encode (self : IseledFrame) : List UInt8 := self.chain_address :: self.command :: self.data

def decode : List UInt8 → Except RcpError IseledFrame
  | chain_address :: command :: data => .ok { chain_address, command, data }
  | _ => .error .ShortFrame

def encode_line (self : IseledFrame) : List UInt8 := encode_4b5b self.encode

def decode_line (symbols : List UInt8) : Except RcpError IseledFrame := do
  let raw ← decode_4b5b symbols
  decode raw

theorem exact : Exact (fun _ => True) encode decode := by
  refine exact_of_all_iff fun b self => ?_
  unfold decode
  split
  next chain_address command data =>
    constructor
    · rintro ⟨⟩
      rfl
    · rintro ⟨⟩
      rfl
  next hshort => exact iff_of_false nofun fun h => hshort _ _ _ h.symm

theorem decode_ok_iff (b : List UInt8) : (∃ self, decode b = .ok self) ↔ 2 ≤ b.length := by
  unfold decode
  split
  · simp
  next hshort =>
    match b with
    | [] | [_] => simp
    | _ :: _ :: _ => exact absurd rfl (hshort _ _ _)

theorem line_exact : Exact (fun _ => True) encode_line decode_line := by
  have hline : Exact (fun self => True ∧ True) encode_line decode_line := exact.over line_4b5b_exact
  simpa using hline

/-- What is accepted: symbols of two bytes and more. -/
theorem decode_line_ok_iff (symbols : List UInt8) :
    (∃ self, decode_line symbols = .ok self) ↔ (∃ raw, decode_4b5b symbols = .ok raw) ∧ 4 ≤ symbols.length := by
  simp only [decode_line, bind_ok_iff]
  constructor
  · rintro ⟨self, raw, hraw, hself⟩
    have hlength := (decode_ok_iff raw).1 ⟨self, hself⟩
    obtain ⟨-, rfl⟩ := line_4b5b_exact.ok_iff.1 hraw
    refine ⟨⟨raw, hraw⟩, ?_⟩
    rw [length_encode_4b5b]
    omega
  · rintro ⟨⟨raw, hraw⟩, hlength⟩
    obtain ⟨-, rfl⟩ := line_4b5b_exact.ok_iff.1 hraw
    rw [length_encode_4b5b] at hlength
    obtain ⟨self, hself⟩ := (decode_ok_iff raw).2 (by omega)
    exact ⟨self, raw, hraw, hself⟩

end IseledFrame

/-- Byte strings and frames have one line coding each, and no other symbols are accepted: none of odd
length, and none that the table does not have. -/
theorem line_coding_exact :
    Exact (fun _ => True) encode_4b5b decode_4b5b ∧
    (∀ symbols, (∀ data, encode_4b5b data ≠ symbols) → ∃ e, decode_4b5b symbols = .error e) ∧
    (∀ symbols, (∃ data, decode_4b5b symbols = .ok data) ↔
      symbols.length % 2 = 0 ∧ ∀ symbol ∈ symbols, symbol ∈ NIBBLE_TO_5B) ∧
    Exact (fun _ => True) IseledFrame.encode_line IseledFrame.decode_line ∧
    ∀ symbols, (∃ frame, IseledFrame.decode_line symbols = .ok frame) ↔
      (∃ data, decode_4b5b symbols = .ok data) ∧ 4 ≤ symbols.length :=
  ⟨line_4b5b_exact, fun _ hother => line_4b5b_exact.error fun data _ => hother data, decode_4b5b_ok_iff,
    IseledFrame.line_exact, IseledFrame.decode_line_ok_iff⟩

end RustRcp
