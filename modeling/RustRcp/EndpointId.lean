import RustRcp.Adapt
import RustRcp.AvtpCodec
import RustRcp.Lib.Numeral
/-!
# Endpoint ids as text

`format_endpoint_id` and `parse_endpoint_id` (`src/adapt.rs`). Every pair is read back from
what is printed for it; but the two halves are read by the standard library's integer
parsers, which take a plus sign, leading zeros, and hex digits of either case and any count,
so a pair is also read from strings that are never printed (`endpoint_id_text`).
-/
open Numeral

namespace RustRcp

/-! ## Numbers in text -/

/-- What stands after the plus sign a number may begin with. -/
def unsigned (s : List Char) : List Char :=
  match s with
  | '+' :: rest => rest
  | _ => s

/-- `s` is a number of this radix: digits of either case, and at most a plus sign before them. -/
def Writes (radix : Nat) (s : List Char) (v : Nat) : Prop :=
  unsigned s ≠ [] ∧ ∃ ds : List Nat, (unsigned s).map (to_digit radix) = ds.map some ∧ value radix ds = v

theorem from_str_radix_eq_some {radix max v : Nat} (hradix : 0 < radix) (src : List Char) :
    from_str_radix radix max src = some v ↔ Writes radix src v ∧ v ≤ max := by
  have hunsigned : from_str_radix radix max src = if (unsigned src).isEmpty then none
      else (unsigned src).foldlM (fun value c => do
        let digit ← to_digit radix c
        if value * radix + digit ≤ max then some (value * radix + digit) else none) 0 := rfl
  rw [hunsigned, Writes]
  by_cases hempty : unsigned src = []
  · simp [hempty]
  · rw [if_neg (by simpa using hempty), foldlM_eq_some hradix _ _ (Nat.zero_le _), and_comm]
    exact and_congr_left' (and_iff_right hempty).symm

/-- The digits a number is printed with. -/
def printed_digits (radix : Nat) : List Char := (List.range radix).map Nat.digitChar

theorem to_digit_digitChar {radix d : Nat} (hradix : radix ≤ 16) (hd : d < radix) :
    to_digit radix d.digitChar = some d := by
  have hall : ∀ d < 16, to_digit 36 d.digitChar = some d := by decide
  obtain ⟨hdigit, -⟩ := Option.filter_eq_some_iff.1 (hall d (by omega))
  exact Option.filter_eq_some_iff.2 ⟨hdigit, decide_eq_true hd⟩

theorem map_digitChar_of_printed {radix : Nat} {s : List Char} (h : ∀ c ∈ s, c ∈ printed_digits radix) :
    ∃ ds : List Nat, (∀ d ∈ ds, d < radix) ∧ ds.map Nat.digitChar = s := by
  induction s with
  | nil => exact ⟨[], by simp, rfl⟩
  | cons c s ih =>
    obtain ⟨d, hd, rfl⟩ := List.mem_map.1 (h c List.mem_cons_self)
    obtain ⟨ds, hds, rfl⟩ := ih fun e he => h e (List.mem_cons_of_mem _ he)
    exact ⟨d :: ds, List.forall_mem_cons.2 ⟨List.mem_range.1 hd, hds⟩, rfl⟩

theorem digitChar_ne_plus (d : Nat) : d.digitChar ≠ '+' := by
  by_cases hd : d < 16
  · have hall : ∀ d < 16, Nat.digitChar d ≠ '+' := by decide
    exact hall d hd
  · rw [Nat.digitChar_eq_star.2 (by omega)]
    decide

theorem unsigned_digits (ds : List Nat) : unsigned (ds.map Nat.digitChar) = ds.map Nat.digitChar := by
  unfold unsigned
  split
  next rest hplus =>
    obtain ⟨d, ds', rfl, hd, -⟩ := List.map_eq_cons_iff.1 hplus
    exact absurd hd (digitChar_ne_plus d)
  · rfl

/-- Digits as they are printed are a number, of their value and no other. -/
theorem writes_digits {radix v : Nat} {ds : List Nat} (hradix : radix ≤ 16) (hds : ∀ d ∈ ds, d < radix) :
    Writes radix (ds.map Nat.digitChar) v ↔ ds ≠ [] ∧ value radix ds = v := by
  have hread : ((ds.map Nat.digitChar).map (to_digit radix)) = ds.map some := by
    rw [List.map_map]
    exact List.map_congr_left fun d hd => to_digit_digitChar hradix (hds d hd)
  rw [Writes, unsigned_digits, hread]
  refine and_congr (by simp) ⟨?_, fun hv => ⟨ds, rfl, hv⟩⟩
  rintro ⟨es, hes, hv⟩
  rwa [(List.map_injective_iff.2 (Option.some_injective Nat)) hes]

theorem hex_016x_eq (v : UInt64) : hex_016x v = (padded 16 16 v.toNat).map Nat.digitChar := by
  rw [hex_016x, padded, List.map_map]
  apply List.map_congr_left
  intro i hi
  have hall : ∀ d < 16, "0123456789abcdef".toList.getD d ' ' = d.digitChar := by decide
  exact hall _ (Nat.mod_lt _ (by decide))

/-! ## The halves of an id -/

theorem split_once_append {sep : Char} {before : List Char} (after : List Char) (h : sep ∉ before) :
    split_once sep (before ++ sep :: after) = some (before, after) := by
  have hbefore : ∀ c ∈ before, decide (c ≠ sep) = true := by
    intro c hc
    exact decide_eq_true fun heq => h (heq ▸ hc)
  rw [split_once, List.span_eq_takeWhile_dropWhile, List.takeWhile_append_of_pos hbefore,
    List.dropWhile_append_of_pos hbefore]
  simp

theorem eq_append_of_split_once {sep : Char} {s before after : List Char}
    (h : split_once sep s = some (before, after)) :
    s = before ++ sep :: after := by
  rw [split_once, List.span_eq_takeWhile_dropWhile] at h
  split at h
  · cases h
  next before' c after' hspan =>
    cases h
    obtain ⟨rfl, hdrop⟩ := Prod.mk.inj hspan
    have hc := List.head_dropWhile_not (p := (· ≠ sep)) (l := s) (by rw [hdrop]; simp)
    simp only [hdrop, List.head_cons] at hc
    obtain rfl : c = sep := by simpa using hc
    rw [← hdrop, List.takeWhile_append_dropWhile]

/-- The number before the separator holds none itself. -/
theorem not_mem_of_writes {radix v : Nat} {s : List Char} (h : Writes radix s v) : ENDPOINT_ID_SEP ∉ s := by
  intro hmem
  obtain ⟨-, ds, hds, -⟩ := h
  have hdigits : ENDPOINT_ID_SEP ∈ unsigned s := by
    unfold unsigned
    split
    · exact List.mem_of_ne_of_mem (by decide) hmem
    · exact hmem
  have hnone : to_digit radix ENDPOINT_ID_SEP = none := by simp [to_digit, ENDPOINT_ID_SEP]
  have hread := List.mem_map_of_mem (f := to_digit radix) hdigits
  rw [hds, hnone] at hread
  simp at hread

theorem to_u64_from_u64 (raw : UInt64) : (StreamId.from_u64 raw).to_u64 = raw := build_parse_stream_id raw

theorem from_u64_to_u64 (s : StreamId) : StreamId.from_u64 s.to_u64 = s := by
  rw [StreamId.to_u64, StreamId.from_u64, parse_build_stream_id]

/-- The ids that are read: a hex number and a decimal one with a separator in between. -/
theorem parse_endpoint_id_eq_ok {id : String} {stream_id : StreamId} {byte_bus_id : UInt16} :
    parse_endpoint_id id = .ok (stream_id, byte_bus_id) ↔ ∃ hex dec, id.toList = hex ++ ENDPOINT_ID_SEP :: dec ∧
      Writes 16 hex stream_id.to_u64.toNat ∧ Writes 10 dec byte_bus_id.toNat := by
  have hraw := stream_id.to_u64.toNat_lt
  have hbus := byte_bus_id.toNat_lt
  simp only [parse_endpoint_id, bind_ok_iff, ok_or_eq_ok]
  constructor
  · rintro ⟨⟨hex, dec⟩, hsplit, raw, hhex, bus, hdec, hpair⟩
    obtain ⟨hhex, hraw⟩ := (from_str_radix_eq_some (by decide) hex).1 hhex
    obtain ⟨hdec, hbus⟩ := (from_str_radix_eq_some (by decide) dec).1 hdec
    cases hpair
    refine ⟨hex, dec, eq_append_of_split_once hsplit, ?_, ?_⟩
    · rwa [to_u64_from_u64, UInt64.toNat_ofNat_of_lt' (by simp only [UInt64.size]; omega)]
    · rwa [UInt16.toNat_ofNat_of_lt' (by simp only [UInt16.size]; omega)]
  · rintro ⟨hex, dec, hid, hhex, hdec⟩
    refine ⟨(hex, dec), ?_, _, (from_str_radix_eq_some (by decide) hex).2 ⟨hhex, by omega⟩, _,
      (from_str_radix_eq_some (by decide) dec).2 ⟨hdec, by omega⟩, ?_⟩
    · rw [hid, split_once_append dec (not_mem_of_writes hhex)]
    · rw [UInt64.ofNat_toNat, UInt16.ofNat_toNat, from_u64_to_u64]
      rfl

/-! ## Printed ids -/

/-- The first half as it is printed: exactly sixteen hex digits, in lower case. -/
def PrintedHex (hex : List Char) : Prop := hex.length = 16 ∧ ∀ c ∈ hex, c ∈ printed_digits 16

/-- The second half as it is printed: decimal digits, without a zero in front. -/
def PrintedDecimal (dec : List Char) : Prop :=
  (∀ c ∈ dec, c ∈ printed_digits 10) ∧ (dec = ['0'] ∨ dec.head? ≠ some '0')

theorem hex_016x_printed (v : UInt64) : PrintedHex (hex_016x v) ∧ Writes 16 (hex_016x v) v.toNat := by
  have hlt : ∀ d ∈ padded 16 16 v.toNat, d < 16 := fun d hd => lt_of_mem_padded (by decide) hd
  rw [hex_016x_eq]
  refine ⟨⟨by simp, ?_⟩, (writes_digits (by decide) hlt).2 ⟨?_, value_padded v.toNat_lt⟩⟩
  · intro c hc
    obtain ⟨d, hd, rfl⟩ := List.mem_map.1 hc
    exact List.mem_map_of_mem (List.mem_range.2 (hlt d hd))
  · exact List.ne_nil_of_length_pos (by simp)

theorem eq_hex_016x {hex : List Char} {v : UInt64} (hprinted : PrintedHex hex) (hwrites : Writes 16 hex v.toNat) :
    hex = hex_016x v := by
  obtain ⟨hlength, hdigits⟩ := hprinted
  obtain ⟨ds, hds, rfl⟩ := map_digitChar_of_printed hdigits
  obtain ⟨-, hv⟩ := (writes_digits (by decide) hds).1 hwrites
  have hpadded := padded_value hds
  rw [List.length_map] at hlength
  rw [hlength, hv] at hpadded
  rw [hex_016x_eq, hpadded]

theorem toDigits_printed (v : Nat) : PrintedDecimal (Nat.toDigits 10 v) ∧ Writes 10 (Nat.toDigits 10 v) v := by
  have hlt : ∀ d ∈ shortest 10 v, d < 10 := fun d hd => lt_of_mem_shortest (by decide) hd
  rw [toDigits_eq (by decide)]
  refine ⟨⟨?_, ?_⟩, (writes_digits (by decide) hlt).2 ⟨shortest_ne_nil 10 v, value_shortest 10 v⟩⟩
  · intro c hc
    obtain ⟨d, hd, rfl⟩ := List.mem_map.1 hc
    exact List.mem_map_of_mem (List.mem_range.2 (hlt d hd))
  · rcases @head_shortest 10 v with hzero | hhead
    · exact .inl (by rw [hzero]; rfl)
    · right
      rw [List.head?_map]
      intro hfront
      obtain ⟨d, hd, hchar⟩ := Option.map_eq_some_iff.1 hfront
      exact hhead (Nat.digitChar_eq_zero.1 hchar ▸ hd)

theorem eq_toDigits {dec : List Char} {v : Nat} (hprinted : PrintedDecimal dec) (hwrites : Writes 10 dec v) :
    dec = Nat.toDigits 10 v := by
  obtain ⟨hdigits, hfront⟩ := hprinted
  obtain ⟨ds, hds, rfl⟩ := map_digitChar_of_printed hdigits
  obtain ⟨hne, rfl⟩ := (writes_digits (by decide) hds).1 hwrites
  rw [toDigits_eq (by decide), shortest_value (by decide) hne hds]
  cases ds with
  | nil => exact absurd rfl hne
  | cons d ds => simpa using hfront

/-- An id that is two numbers in the ranges of its halves is made of these as they are printed. -/
def Canonical (id : String) : Prop :=
  ∀ hex dec raw bus, id.toList = hex ++ ENDPOINT_ID_SEP :: dec → Writes 16 hex raw → raw < 2 ^ 64 →
    Writes 10 dec bus → bus < 2 ^ 16 → PrintedHex hex ∧ PrintedDecimal dec

/-- Every pair is read from what is printed for it, and from nothing else exactly when the id is canonical. -/
theorem endpoint_id_text (stream_id : StreamId) (byte_bus_id : UInt16) (id : String) :
    parse_endpoint_id (format_endpoint_id stream_id byte_bus_id) = .ok (stream_id, byte_bus_id) ∧
    ((∀ stream_id' byte_bus_id', parse_endpoint_id id = .ok (stream_id', byte_bus_id') →
        id = format_endpoint_id stream_id' byte_bus_id') ↔ Canonical id) := by
  refine ⟨?_, ?_, ?_⟩
  · exact parse_endpoint_id_eq_ok.2 ⟨_, _, String.toList_ofList, (hex_016x_printed _).2, (toDigits_printed _).2⟩
  · intro h hex dec raw bus hid hhex hraw hdec hbus
    have hread : parse_endpoint_id id = .ok (.from_u64 (UInt64.ofNat raw), UInt16.ofNat bus) := by
      refine parse_endpoint_id_eq_ok.2 ⟨hex, dec, hid, ?_, ?_⟩
      · rwa [to_u64_from_u64, UInt64.toNat_ofNat_of_lt' hraw]
      · rwa [UInt16.toNat_ofNat_of_lt' hbus]
    have hprinted := congrArg String.toList (h _ _ hread)
    rw [format_endpoint_id, String.toList_ofList, hid] at hprinted
    have hsplit := congrArg (split_once ENDPOINT_ID_SEP) hprinted
    rw [split_once_append _ (not_mem_of_writes hhex), split_once_append _ (not_mem_of_writes (hex_016x_printed _).2)]
      at hsplit
    obtain ⟨rfl, rfl⟩ := Prod.mk.inj (Option.some.inj hsplit)
    exact ⟨(hex_016x_printed _).1, (toDigits_printed _).1⟩
  · intro hcanonical stream_id' byte_bus_id' hread
    obtain ⟨hex, dec, hid, hhex, hdec⟩ := parse_endpoint_id_eq_ok.1 hread
    obtain ⟨hpad, hshort⟩ := hcanonical hex dec _ _ hid hhex stream_id'.to_u64.toNat_lt hdec byte_bus_id'.toNat_lt
    rw [format_endpoint_id, ← eq_hex_016x hpad hhex, ← eq_toDigits hshort hdec, ← hid, String.ofList_toList]

/-- `1.5` is read as the pair that `0000000000000001.5` is printed for. -/
theorem endpoint_id_unprinted : ¬ ∀ id stream_id byte_bus_id,
    parse_endpoint_id id = .ok (stream_id, byte_bus_id) → id = format_endpoint_id stream_id byte_bus_id := by
  intro h
  have hread : parse_endpoint_id "1.5" = .ok (.from_u64 1, 5) := by decide
  exact absurd (congrArg String.length (h _ _ _ hread)) (by decide)

end RustRcp
