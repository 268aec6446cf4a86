import Mathlib.Logic.Function.Basic
import Mathlib.Data.List.Basic
/-!
# Exact codecs

An encoder that writes any value, valid or not, and a decoder that gives back the valid ones
and accepts nothing else (`Exact`). A codec over another one is exact again (`Exact.over`), and
so are words one after another (`Exact.words`).
-/

namespace Codec

variable {α β γ σ ε : Type}

/-- Valid values are read back, what is accepted is what the value read encodes to, and the encoding of
an invalid value is refused. -/
structure Exact (valid : α → Prop) (encode : α → β) (decode : β → Except ε α) : Prop where
  decode_encode : ∀ a, valid a → decode (encode a) = .ok a
  encode_decode : ∀ b a, decode b = .ok a → valid a ∧ encode a = b
  refused : ∀ a, ¬ valid a → ∃ e, decode (encode a) = .error e

variable {valid : α → Prop} {encode : α → β} {decode : β → Except ε α}

/-- Where values have different encodings, it is enough to say what is accepted. -/
theorem exact_of_iff (hinj : Function.Injective encode) (h : ∀ b a, decode b = .ok a ↔ valid a ∧ encode a = b) :
    Exact valid encode decode where
  decode_encode a ha := (h _ a).2 ⟨ha, rfl⟩
  encode_decode b a := (h b a).1
  refused a ha := by
    cases hread : decode (encode a) with
    | error e => exact ⟨e, rfl⟩
    | ok a' =>
      obtain ⟨ha', hsame⟩ := (h _ a').1 hread
      exact absurd (hinj hsame ▸ ha') ha

/-- Where every value is valid, what is accepted tells everything. -/
theorem exact_of_all_iff (h : ∀ b a, decode b = .ok a ↔ encode a = b) : Exact (fun _ => True) encode decode where
  decode_encode a _ := (h _ a).2 rfl
  encode_decode b a hread := ⟨trivial, (h b a).1 hread⟩
  refused _ ha := absurd trivial ha

theorem Exact.ok_iff (h : Exact valid encode decode) {b : β} {a : α} :
    decode b = .ok a ↔ valid a ∧ encode a = b := by
  refine ⟨h.encode_decode b a, ?_⟩
  rintro ⟨ha, rfl⟩
  exact h.decode_encode a ha

/-- What no valid value encodes to is refused. -/
theorem Exact.error (h : Exact valid encode decode) {b : β} (hb : ∀ a, valid a → encode a ≠ b) :
    ∃ e, decode b = .error e := by
  cases hread : decode b with
  | error e => exact ⟨e, rfl⟩
  | ok a =>
    obtain ⟨ha, hsame⟩ := h.encode_decode b a hread
    exact absurd hsame (hb a ha)

/-- What one codec writes is written by another. -/
theorem Exact.over {valid' : β → Prop} {encode' : β → γ} {decode' : γ → Except ε β} (h : Exact valid encode decode)
    (h' : Exact valid' encode' decode') :
    Exact (fun a => valid a ∧ valid' (encode a)) (fun a => encode' (encode a)) (fun c => decode' c >>= decode) where
  decode_encode a ha := by
    rw [h'.decode_encode _ ha.2]
    exact h.decode_encode a ha.1
  encode_decode c a hread := by
    cases hb : decode' c with
    | error e =>
      rw [hb] at hread
      cases hread
    | ok b =>
      rw [hb] at hread
      obtain ⟨hb', rfl⟩ := h'.encode_decode c b hb
      obtain ⟨ha, rfl⟩ := h.encode_decode b a hread
      exact ⟨⟨ha, hb'⟩, rfl⟩
  refused a ha := by
    by_cases hb : valid' (encode a)
    · rw [h'.decode_encode _ hb]
      exact h.refused a fun hvalid => ha ⟨hvalid, hb⟩
    · obtain ⟨e, he⟩ := h'.refused _ hb
      exact ⟨e, by rw [he]; rfl⟩

/-! ## Words -/

/-- `all` reads words of `n` symbols as `one` does, and nothing that is not made of such words. -/
structure Wordwise (n : Nat) (one : List σ → Except ε α) (all : List σ → Except ε (List α)) : Prop where
  nil : all [] = .ok []
  cons : ∀ word rest, word.length = n → n ∣ rest.length → all (word ++ rest) = do
    let a ← one word
    let as ← all rest
    return a :: as
  whole : ∀ s as, all s = .ok as → n ∣ s.length

section
variable {n : Nat} {encode : α → List σ} {one : List σ → Except ε α} {all : List σ → Except ε (List α)}

theorem Wordwise.ok (hw : Wordwise n one all) {word rest : List σ} {a : α} (hlen : word.length = n)
    (hrest : n ∣ rest.length) (hone : one word = .ok a) : all (word ++ rest) = (a :: ·) <$> all rest := by
  rw [hw.cons word rest hlen hrest, hone]
  rfl

theorem Wordwise.error (hw : Wordwise n one all) {word rest : List σ} {e : ε} (hlen : word.length = n)
    (hrest : n ∣ rest.length) (hone : one word = .error e) : all (word ++ rest) = .error e := by
  rw [hw.cons word rest hlen hrest, hone]
  rfl

/-- The first word of what is read, and the others. -/
theorem Wordwise.split (hw : Wordwise n one all) {s : List σ} (hs : s ≠ []) {as : List α}
    (h : all s = .ok as) : ∃ word rest a as', s = word ++ rest ∧ word.length = n ∧ as = a :: as' ∧
      one word = .ok a ∧ all rest = .ok as' := by
  have hdvd := hw.whole s as h
  have hlen : n ≤ s.length := Nat.le_of_dvd (List.length_pos_iff.2 hs) hdvd
  have hword : (s.take n).length = n := List.length_take_of_le hlen
  have hleft : n ∣ (s.drop n).length := by
    rw [List.length_drop]
    exact Nat.dvd_sub hdvd (Nat.dvd_refl n)
  rw [← List.take_append_drop n s] at h
  cases hone : one (s.take n) with
  | error e =>
    rw [hw.error hword hleft hone] at h
    cases h
  | ok a =>
    rw [hw.ok hword hleft hone] at h
    cases hrest : all (s.drop n) with
    | error e =>
      rw [hrest] at h
      cases h
    | ok as' =>
      rw [hrest] at h
      cases h
      exact ⟨s.take n, s.drop n, a, as', (List.take_append_drop n s).symm, hword, rfl, hone, hrest⟩

theorem dvd_length_flatMap (hlen : ∀ a, (encode a).length = n) (as : List α) : n ∣ (as.flatMap encode).length := by
  induction as with
  | nil => simp
  | cons a as ih =>
    rw [List.flatMap_cons, List.length_append, hlen]
    exact Nat.dvd_add (Nat.dvd_refl n) ih

/-- Words of a codec one after another. -/
theorem Exact.words (h : Exact valid encode one) (hlen : ∀ a, (encode a).length = n)
    (hw : Wordwise n one all) : Exact (fun as => ∀ a ∈ as, valid a) (List.flatMap encode) all where
  decode_encode as has := by
    induction as with
    | nil => exact hw.nil
    | cons a as ih =>
      rw [List.forall_mem_cons] at has
      rw [List.flatMap_cons, hw.ok (hlen a) (dvd_length_flatMap hlen as) (h.decode_encode a has.1), ih has.2]
      rfl
  encode_decode s as hread := by
    induction as generalizing s with
    | nil =>
      by_cases hs : s = []
      · exact ⟨by simp, hs.symm⟩
      · obtain ⟨word, rest, a, as', -, -, hnil, -⟩ := hw.split hs hread
        cases hnil
    | cons a as ih =>
      have hs : s ≠ [] := by
        rintro rfl
        rw [hw.nil] at hread
        cases hread
      obtain ⟨word, rest, a', as', rfl, -, heq, hone, hrest⟩ := hw.split hs hread
      obtain ⟨rfl, rfl⟩ := List.cons.inj heq
      obtain ⟨ha, rfl⟩ := h.encode_decode word a hone
      obtain ⟨has, rfl⟩ := ih rest hrest
      exact ⟨List.forall_mem_cons.2 ⟨ha, has⟩, rfl⟩
  refused as has := by
    induction as with
    | nil => exact absurd (by simp) has
    | cons a as ih =>
      rw [List.forall_mem_cons, not_and] at has
      rw [List.flatMap_cons]
      by_cases ha : valid a
      · obtain ⟨e, he⟩ := ih (has ha)
        exact ⟨e, by rw [hw.ok (hlen a) (dvd_length_flatMap hlen as) (h.decode_encode a ha), he]; rfl⟩
      · obtain ⟨e, he⟩ := h.refused a ha
        exact ⟨e, hw.error (hlen a) (dvd_length_flatMap hlen as) he⟩

end

end Codec
