import RustRcp.FragmentLatch
/-!
# What the buffer's fields say of each other

In every state of a run of `accept_fragment` and `reset` the buffer's total, its bound,
its segments and the number it expects agree (`buffer_invariant`).
-/
open Stateful

namespace RustRcp

open FragmentReassemblyBuffer

/-- The buffer with the number of fragments accepted since the last `reset`, by what the calls returned. -/
structure Counted where
  buffer : FragmentReassemblyBuffer
  accepted : Nat := 0

namespace Counted

def next (s : Counted) : BufferCall → Counted
  | .accept info payload =>
    let (r, buffer) := exec (accept_fragment info payload) s.buffer
    { buffer, accepted := if r.isOk then s.accepted + 1 else s.accepted }
  | .reset => { buffer := s.buffer.reset }

/-- A fresh buffer. -/
def start (max : UInt16) : Counted := { buffer := new max }

theorem next_accept_fits {s : Counted} {info : ByteMessageInfo} {payload : List UInt8}
    (h : Fits s.buffer info payload) :
    s.next (.accept info payload) = { buffer := s.buffer.push payload, accepted := s.accepted + 1 } := by
  rw [next, accept_fits h]
  rfl

theorem next_accept_refused {s : Counted} {info : ByteMessageInfo} {payload : List UInt8}
    (h : ¬ Fits s.buffer info payload) : s.next (.accept info payload) = s := by
  obtain ⟨e, he⟩ := accept_refused h
  rw [next, he]
  rfl

end Counted

/-! ## The invariant -/

/-- The fields agree, on a buffer with this bound. The expected number wraps at 2 ^ 16. -/
structure Agreed (max : UInt16) (s : Counted) : Prop where
  bound : s.buffer.max_request_size = max
  total : s.buffer.total_len = (s.buffer.segments.map List.length).sum
  bounded : s.buffer.total_len ≤ max.toNat
  counted : s.buffer.segments.length = s.accepted
  expected : s.buffer.next_expected_segment_num = UInt16.ofNat s.accepted

theorem agreed_start (max : UInt16) : Agreed max (.start max) := ⟨rfl, rfl, Nat.zero_le _, rfl, rfl⟩

/-- Every call keeps it. -/
theorem Agreed.next {max : UInt16} {s : Counted} (h : Agreed max s) (call : BufferCall) : Agreed max (s.next call) := by
  cases call with
  | reset => exact ⟨h.bound, rfl, Nat.zero_le _, rfl, rfl⟩
  | accept info payload =>
    by_cases hfit : Fits s.buffer info payload
    · rw [Counted.next_accept_fits hfit]
      constructor
      · exact h.bound
      · simp [FragmentReassemblyBuffer.push, h.total]
      · rw [← h.bound]
        exact hfit.bounded
      · simp [FragmentReassemblyBuffer.push, h.counted]
      · simp [FragmentReassemblyBuffer.push, h.expected]
    · rw [Counted.next_accept_refused hfit]
      exact h

theorem agreed_states (max : UInt16) (calls : List BufferCall) :
    ∀ s ∈ states Counted.next (.start max) calls, Agreed max s :=
  states_inv Counted.next (agreed_start max) fun p _ h => h.next p.2

/-- As many fragments as there are numbers of 12 bits. -/
def SEGMENT_NUMBERS : Nat := READ_SIZE_SEGMENT_12BIT_MAX.toNat + 1

/-- What a caller can rely on in a state. No slice is longer than half of what a `usize` can count. -/
structure Reliable (max : UInt16) (s : Counted) : Prop where
  total : s.buffer.total_len = (s.buffer.segments.map List.length).sum
  bounded : s.buffer.total_len ≤ max.toNat
  no_overflow : ∀ usize_bits, 32 ≤ usize_bits → ∀ payload : List UInt8, payload.length < 2 ^ (usize_bits - 1) →
    s.buffer.total_len + payload.length < 2 ^ usize_bits
  expected : s.accepted ≤ SEGMENT_NUMBERS → s.buffer.next_expected_segment_num.toNat = s.accepted
  refused : ∀ info payload e, (exec (accept_fragment info payload) s.buffer).1 = .error e →
    (exec (accept_fragment info payload) s.buffer).2 = s.buffer

theorem Agreed.reliable {max : UInt16} {s : Counted} (h : Agreed max s) : Reliable max s where
  total := h.total
  bounded := h.bounded
  no_overflow usize_bits hbits payload hpayload := by
    obtain ⟨n, rfl⟩ := Nat.exists_eq_add_of_le hbits
    have hmax : max.toNat < 2 ^ 16 := max.toNat_lt
    have hhalf : 2 ^ 16 ≤ 2 ^ (32 + n - 1) := Nat.pow_le_pow_right (by decide) (by omega)
    have hdouble : 2 ^ (32 + n) = 2 * 2 ^ (32 + n - 1) := by
      rw [← Nat.pow_succ']
      congr 1
      omega
    have hbounded := h.bounded
    omega
  expected hfew := by
    rw [h.expected, UInt16.toNat_ofNat']
    have hmax : SEGMENT_NUMBERS = 4096 := rfl
    omega
  refused info payload e he := by
    by_cases hfit : Fits s.buffer info payload
    · rw [accept_fits hfit] at he
      cases he
    · obtain ⟨e', he'⟩ := accept_refused hfit
      rw [he']

/-- In every state of every run the total is that of the segments and within the bound, the number expected
is that of the fragments accepted, and a refused fragment changes nothing. -/
theorem buffer_invariant (max : UInt16) (calls : List BufferCall) :
    ∀ s ∈ states Counted.next (.start max) calls, Reliable max s :=
  fun s hs => (agreed_states max calls s hs).reliable

/-- A fragment taken and one out of order, in a buffer for sixteen octets. -/
theorem buffer_invariant_refused :
    Reliable 16 ((Counted.start 16).next (.accept { ms := true } [1]) |>.next (.accept { ms := true } [2])) :=
  buffer_invariant 16 [.accept { ms := true } [1], .accept { ms := true } [2]] _ (by simp [states])

end RustRcp
