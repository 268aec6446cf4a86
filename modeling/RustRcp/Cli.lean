import RustRcp.EndpointId
/-!
# Arguments of the command line

How the binary reads the bytes that are the value of a flag (`src/bin/rcp.rs`).
`parse_hex_arg` cuts a text into pieces of two octets and reads each as a number; what is not
two hex digits is read all the same, or panics, so it does what it is for exactly on an even
number of digits (`parse_hex_arg_reads`).
-/
open Bytes Numeral

namespace RustRcp

/-! ## Pieces of a text -/

inductive Panic where
  /-- A range that is not in the text, or cuts a character. -/
  | StrIndex
  deriving DecidableEq, Repr

/-- `str::len`: how many octets the characters take in UTF-8. -/
def str_len (s : List Char) : Nat := (s.map Char.utf8Size).sum

/-- The text before its octet `n`, and from there on. -/
def split_at_octet : List Char → Nat → Except Panic (List Char × List Char)
  | s, 0 => .ok ([], s)
  | [], _ + 1 => .error .StrIndex
  | c :: s, n + 1 =>
    if n + 1 < c.utf8Size then .error .StrIndex
    else do
      let (before, after) ← split_at_octet s (n + 1 - c.utf8Size)
      return (c :: before, after)

/-- `&s[start..stop]`. -/
def str_index (s : List Char) (start stop : Nat) : Except Panic (List Char) := do
  let (_, rest) ← split_at_octet s start
  let (piece, _) ← split_at_octet rest (stop - start)
  return piece

/-- `(0..stop).step_by(step)`. -/
def step_by (stop step : Nat) : List Nat := (List.range ((stop + step - 1) / step)).map (· * step)

/-! ## Arguments -/

def flag_value (args : List String) (flag : String) : Option String :=
  ((args.zip args.tail).find? fun w => w.1 = flag).map Prod.snd

/-- A piece as a byte. -/
def hex_byte (piece : List Char) : UInt8 :=
  -- `unwrap_or(0)`
  UInt8.ofNat ((from_str_radix 16 255 piece).getD 0)

def hex_bytes (v : List Char) : Except Panic (List UInt8) :=
  (step_by (str_len v) 2).mapM fun i => hex_byte <$> str_index v i (i + 2)

def parse_hex_arg (args : List String) (flag : String) : Except Panic (Option (List UInt8)) :=
  match flag_value args flag with
  | some v => some <$> hex_bytes v.toList
  | none => .ok none

/-- `{:02x}` of a byte. -/
def hex_02x (b : UInt8) : List Char :=
  let digit (n : Nat) := "0123456789abcdef".toList.getD n ' '
  [digit (b.toNat / 16), digit (b.toNat % 16)]

def hex_encode (bytes : List UInt8) : String := String.ofList (bytes.flatMap hex_02x)

/-! ## Cutting -/

@[simp] theorem str_len_nil : str_len [] = 0 := rfl

@[simp] theorem str_len_cons (c : Char) (s : List Char) : str_len (c :: s) = c.utf8Size + str_len s := by simp [str_len]

@[simp] theorem str_len_append (s t : List Char) : str_len (s ++ t) = str_len s + str_len t := by simp [str_len]

@[simp] theorem split_at_octet_zero (s : List Char) : split_at_octet s 0 = .ok ([], s) := by cases s <;> rfl

/-- Behind a prefix the text is cut as it is without it. -/
theorem split_at_octet_append (piece rest : List Char) (n : Nat) :
    split_at_octet (piece ++ rest) (str_len piece + n) =
      (fun cut => (piece ++ cut.1, cut.2)) <$> split_at_octet rest n := by
  induction piece with
  | nil =>
    rw [str_len_nil, Nat.zero_add, List.nil_append]
    cases split_at_octet rest n <;> rfl
  | cons c piece ih =>
    have hpos := c.utf8Size_pos
    obtain ⟨m, hm⟩ := Nat.exists_eq_succ_of_ne_zero (n := str_len (c :: piece) + n) (by rw [str_len_cons]; omega)
    rw [hm, List.cons_append]
    rw [str_len_cons] at hm
    have hleft : m + 1 - c.utf8Size = str_len piece + n := by omega
    rw [split_at_octet, if_neg (by omega), hleft, ih]
    cases split_at_octet rest n <;> rfl

/-- What is cut off is put together again, and has the octets asked for. -/
theorem split_at_octet_eq_ok {s before after : List Char} {n : Nat} :
    split_at_octet s n = .ok (before, after) ↔ s = before ++ after ∧ str_len before = n := by
  constructor
  · intro h
    fun_induction split_at_octet s n generalizing before after with
    | case1 s =>
      cases h
      exact ⟨rfl, rfl⟩
    | case2 => cases h
    | case3 => cases h
    | case4 c s n hfits ih =>
      cases hrest : split_at_octet s (n + 1 - c.utf8Size) with
      | error e =>
        rw [hrest] at h
        cases h
      | ok cut =>
        rw [hrest] at h
        cases h
        obtain ⟨rfl, hlen⟩ := ih hrest
        refine ⟨rfl, ?_⟩
        rw [str_len_cons, hlen]
        omega
  · rintro ⟨rfl, rfl⟩
    have hcut := split_at_octet_append before after 0
    rw [Nat.add_zero] at hcut
    rw [hcut, split_at_octet_zero]
    simp

theorem str_index_append {piece rest : List Char} {n : Nat} (h : str_len piece = n) (i : Nat) :
    str_index (piece ++ rest) (i + n) (i + n + n) = str_index rest i (i + n) := by
  have hcut := split_at_octet_append piece rest i
  rw [h, Nat.add_comm n i] at hcut
  rw [str_index, str_index, hcut, Nat.add_sub_cancel_left, Nat.add_sub_cancel_left]
  cases split_at_octet rest i <;> rfl

theorem step_by_add {n : Nat} (hpos : 0 < n) (stop : Nat) :
    step_by (n + stop) n = 0 :: (step_by stop n).map (· + n) := by
  have hcount : (n + stop + n - 1) / n = (stop + n - 1) / n + 1 := by
    rw [show n + stop + n - 1 = stop + n - 1 + n by omega, Nat.add_div_right _ hpos]
  rw [step_by, step_by, hcount, List.range_succ_eq_map, List.map_cons, List.map_map, List.map_map, Nat.zero_mul]
  congr 1
  apply List.map_congr_left
  intro i _
  exact Nat.succ_mul i n

/-! ## Pieces -/

/-- The text is cut into pieces of two octets. -/
inductive Paired : List Char → Prop
  | nil : Paired []
  | append {piece rest : List Char} (hpiece : str_len piece = 2) (hrest : Paired rest) : Paired (piece ++ rest)

/-- The first piece is read, then the others. -/
theorem hex_bytes_append {piece : List Char} (h : str_len piece = 2) (rest : List Char) :
    hex_bytes (piece ++ rest) = (hex_byte piece :: ·) <$> hex_bytes rest := by
  have hfirst : str_index (piece ++ rest) 0 (0 + 2) = .ok piece := by
    have hcut : split_at_octet (piece ++ rest) 2 = .ok (piece, rest) := split_at_octet_eq_ok.2 ⟨rfl, h⟩
    rw [str_index, split_at_octet_zero]
    show (do let (piece, _) ← split_at_octet (piece ++ rest) 2; return piece) = _
    rw [hcut]
    rfl
  have hothers : (fun i => hex_byte <$> str_index (piece ++ rest) i (i + 2)) ∘ (· + 2) =
      fun i => hex_byte <$> str_index rest i (i + 2) := by
    funext i
    exact congrArg (hex_byte <$> ·) (str_index_append h i)
  rw [hex_bytes, str_len_append, h, step_by_add (by decide), List.mapM_cons, List.mapM_map, hfirst, hothers,
    ← hex_bytes]
  cases hex_bytes rest <;> rfl

/-- A text whose first two octets are no piece is not read. -/
theorem hex_bytes_error {s : List Char} {e : Panic} (hs : s ≠ []) (h : split_at_octet s 2 = .error e) :
    hex_bytes s = .error e := by
  obtain ⟨count, hcount⟩ : ∃ count, (str_len s + 2 - 1) / 2 = count + 1 := by
    obtain ⟨c, s, rfl⟩ := List.exists_cons_of_ne_nil hs
    have hpos := c.utf8Size_pos
    rw [str_len_cons]
    exact Nat.exists_eq_succ_of_ne_zero (by omega)
  have hfirst : str_index s 0 (0 + 2) = .error e := by
    rw [str_index, split_at_octet_zero]
    show (do let (piece, _) ← split_at_octet s 2; return piece) = _
    rw [h]
    rfl
  rw [hex_bytes, step_by, hcount, List.range_succ_eq_map, List.map_cons, List.mapM_cons, Nat.zero_mul, hfirst]
  rfl

theorem parse_hex_arg_some {args : List String} {flag v : String} (h : flag_value args flag = some v) :
    parse_hex_arg args flag = some <$> hex_bytes v.toList := by
  rw [parse_hex_arg, h]

theorem hex_bytes_ok_iff (s : List Char) : (∃ bytes, hex_bytes s = .ok bytes) ↔ Paired s := by
  constructor
  · rintro ⟨bytes, hbytes⟩
    induction hn : s.length using Nat.strong_induction_on generalizing s bytes with
    | _ n ih =>
      by_cases hs : s = []
      · rw [hs]
        exact .nil
      · cases hcut : split_at_octet s 2 with
        | error e =>
          rw [hex_bytes_error hs hcut] at hbytes
          cases hbytes
        | ok cut =>
          obtain ⟨piece, rest⟩ := cut
          obtain ⟨rfl, hpiece⟩ := split_at_octet_eq_ok.1 hcut
          rw [hex_bytes_append hpiece] at hbytes
          cases hrest : hex_bytes rest with
          | error e =>
            rw [hrest] at hbytes
            cases hbytes
          | ok bytes' =>
            -- the rest is shorter: a piece of two octets is not empty
            refine .append hpiece (ih rest.length ?_ rest bytes' hrest rfl)
            have hne : piece ≠ [] := by
              rintro rfl
              cases hpiece
            have hpos := List.length_pos_iff.2 hne
            rw [List.length_append] at hn
            omega
  · intro h
    induction h with
    | nil => exact ⟨[], rfl⟩
    | @append piece rest hpiece _ ih =>
      obtain ⟨bytes, hbytes⟩ := ih
      exact ⟨hex_byte piece :: bytes, by rw [hex_bytes_append hpiece, hbytes]; rfl⟩

/-- The reader returns unless the value of its flag is not made of pieces. -/
theorem parse_hex_arg_ok_iff (args : List String) (flag : String) :
    (∃ read, parse_hex_arg args flag = .ok read) ↔ ∀ v, flag_value args flag = some v → Paired v.toList := by
  cases hv : flag_value args flag with
  | none => simp [parse_hex_arg, hv]
  | some v =>
    simp only [parse_hex_arg_some hv, Option.some.injEq, forall_eq', ← hex_bytes_ok_iff]
    cases hex_bytes v.toList with
    | error e => exact iff_of_false nofun nofun
    | ok bytes => exact iff_of_true ⟨some bytes, rfl⟩ ⟨bytes, rfl⟩

/-! ## Printed bytes -/

theorem hex_byte_02x : ∀ b : UInt8, hex_byte (hex_02x b) = b := forall_byte (by decide +kernel)

theorem str_len_02x : ∀ b : UInt8, str_len (hex_02x b) = 2 := forall_byte (by decide +kernel)

theorem hex_bytes_printed (bytes : List UInt8) : hex_bytes (bytes.flatMap hex_02x) = .ok bytes := by
  induction bytes with
  | nil => rfl
  | cons b bytes ih =>
    rw [List.flatMap_cons, hex_bytes_append (str_len_02x b), ih, hex_byte_02x]
    rfl

/-! ## Hex digits -/

def HEX_DIGITS : List Char := "0123456789abcdefABCDEF".toList

/-- An even number of hex digits. -/
def EvenHex (v : List Char) : Prop := v.length % 2 = 0 ∧ ∀ c ∈ v, c ∈ HEX_DIGITS

/-- A hex digit takes one octet, is no plus sign, and is printed in lower case. -/
theorem hex_digit_spec : ∀ c ∈ HEX_DIGITS, c.utf8Size = 1 ∧ c ≠ '+' ∧
    ∃ d < 16, to_digit 16 c = some d ∧ c.toLower = d.digitChar := by
  rw [← List.forall_iff_forall_mem]
  decide

theorem hex_02x_eq (b : UInt8) : hex_02x b = [(b.toNat / 16).digitChar, (b.toNat % 16).digitChar] := by
  have hall : ∀ d < 16, "0123456789abcdef".toList.getD d ' ' = d.digitChar := by decide
  have hb := b.toNat_lt
  simp only [hex_02x]
  rw [hall _ (by omega), hall _ (by omega)]

/-- Two hex digits are read as the byte they are printed for. -/
theorem hex_byte_digits {c d : Char} (hc : c ∈ HEX_DIGITS) (hd : d ∈ HEX_DIGITS) :
    hex_02x (hex_byte [c, d]) = [c.toLower, d.toLower] := by
  obtain ⟨-, hplus, hi, hhi, hchi, hclower⟩ := hex_digit_spec c hc
  obtain ⟨-, -, lo, hlo, hdlo, hdlower⟩ := hex_digit_spec d hd
  have hunsigned : unsigned [c, d] = [c, d] := by
    unfold unsigned
    split
    next rest heq => exact absurd (List.cons.inj heq).1 hplus
    · rfl
  have hread : from_str_radix 16 255 [c, d] = some (hi * 16 + lo) := by
    refine (from_str_radix_eq_some (by decide) _).2 ⟨⟨by simp [hunsigned], [hi, lo], ?_, by simp [value]⟩, by omega⟩
    rw [hunsigned, List.map_cons, List.map_singleton, hchi, hdlo]
    rfl
  have hvalue : (hex_byte [c, d]).toNat = hi * 16 + lo := by
    rw [hex_byte, hread, Option.getD_some, UInt8.toNat_ofNat_of_lt' (by simp only [UInt8.size]; omega)]
  have hhigh : (hi * 16 + lo) / 16 = hi := by omega
  have hlow : (hi * 16 + lo) % 16 = lo := by omega
  rw [hex_02x_eq, hvalue, hhigh, hlow, hclower, hdlower]

/-- An even number of hex digits is read, and printed again it is what it was, in lower case. -/
theorem hex_bytes_evenHex {v : List Char} (h : EvenHex v) :
    ∃ bytes, hex_bytes v = .ok bytes ∧ bytes.flatMap hex_02x = v.map Char.toLower := by
  induction v using List.twoStepInduction with
  | nil => exact ⟨[], rfl, rfl⟩
  | singleton c => exact absurd h.1 (by simp)
  | cons_cons c d v ih _ =>
    obtain ⟨hlength, hdigits⟩ := h
    rw [List.forall_mem_cons, List.forall_mem_cons] at hdigits
    obtain ⟨hc, hd, hv⟩ := hdigits
    have heven : v.length % 2 = 0 := by
      rw [List.length_cons, List.length_cons] at hlength
      omega
    obtain ⟨bytes, hbytes, hprinted⟩ := ih ⟨heven, hv⟩
    have hpiece : str_len [c, d] = 2 := by simp [(hex_digit_spec c hc).1, (hex_digit_spec d hd).1]
    refine ⟨hex_byte [c, d] :: bytes, ?_, ?_⟩
    · have hcut := hex_bytes_append hpiece v
      rw [hbytes] at hcut
      exact hcut
    · rw [List.flatMap_cons, hex_byte_digits hc hd, hprinted]
      rfl

/-- What is read of `v` is right: bytes that are printed as `v` in lower case, where it is an even number of
hex digits, and otherwise nothing. -/
def HexRead (v : String) (result : Except Panic (Option (List UInt8))) : Prop :=
  ∃ read, result = .ok read ∧ match read with
    | some bytes => EvenHex v.toList ∧ hex_encode bytes = v.toLower
    | none => ¬ EvenHex v.toList

theorem hexRead_iff (v : String) : HexRead v (some <$> hex_bytes v.toList) ↔ EvenHex v.toList := by
  constructor
  · rintro ⟨read, hread, hright⟩
    cases hbytes : hex_bytes v.toList with
    | error e =>
      rw [hbytes] at hread
      cases hread
    | ok bytes =>
      rw [hbytes] at hread
      cases hread
      exact hright.1
  · intro h
    obtain ⟨bytes, hbytes, hprinted⟩ := hex_bytes_evenHex h
    have hlower : v.toLower = v.map Char.toLower := rfl
    refine ⟨some bytes, by rw [hbytes]; rfl, h, ?_⟩
    rw [hex_encode, hprinted, hlower, ← String.toList_map, String.ofList_toList]

/-- The value of a flag is read right exactly when it is an even number of hex digits. It is read without a
panic exactly when it is made of pieces, and as the bytes it was printed for. -/
theorem parse_hex_arg_reads (args : List String) (flag : String) :
    ((∀ v, flag_value args flag = some v → HexRead v (parse_hex_arg args flag)) ↔
      ∀ v, flag_value args flag = some v → EvenHex v.toList) ∧
    ((∃ read, parse_hex_arg args flag = .ok read) ↔ ∀ v, flag_value args flag = some v → Paired v.toList) ∧
    ∀ bytes, flag_value args flag = some (hex_encode bytes) → parse_hex_arg args flag = .ok (some bytes) := by
  refine ⟨forall_congr' fun v => forall_congr' fun hv => ?_, parse_hex_arg_ok_iff args flag, fun bytes hv => ?_⟩
  · rw [parse_hex_arg_some hv, hexRead_iff]
  · rw [parse_hex_arg_some hv, hex_encode, String.toList_ofList, hex_bytes_printed]
    rfl

/-- An odd number of digits is a panic. -/
theorem parse_hex_arg_odd : ¬ ∀ args flag v, flag_value args flag = some v → HexRead v (parse_hex_arg args flag) := by
  intro h
  obtain ⟨read, hread, -⟩ := h ["--payload", "abc"] "--payload" "abc" (by decide)
  have hpanic : parse_hex_arg ["--payload", "abc"] "--payload" = .error .StrIndex := by decide
  rw [hpanic] at hread
  cases hread

end RustRcp
