import RustRcp.Lifecycle
import RustRcp.Avtp
import RustRcp.Lib.Serial
/-!
# Fields that wrap

A timed request's readiness and the check of a stream's sequence numbers (`src/request.rs`)
where the field they compare has wrapped: the one compares signed differences, and is right
across a rollover but for times that read as untimed (`ready_across_rollover`), the other
the fields themselves, and is right within one cycle (`sequence_within_cycle`).
-/
open Serial

namespace RustRcp

/-! ## Readiness -/

/-- A moment, in nanoseconds, as the field carries it. -/
def AvtpTimestamp.at_moment (t : Nat) : AvtpTimestamp := ⟨UInt32.ofNat t⟩

@[simp] theorem raw_at_moment (t : Nat) : (AvtpTimestamp.at_moment t).raw.toNat = t % 2 ^ 32 := UInt32.toNat_ofNat'

theorem is_untimed_moment (t : Nat) : (AvtpTimestamp.at_moment t).raw = 0 ↔ t % 2 ^ 32 = 0 := by
  rw [← UInt32.toNat_inj, raw_at_moment]
  rfl

/-- A request executed at `t1` is ready from `t1` on, and always when `t1` reads as untimed. -/
theorem ready_across_rollover (t0 t1 t : Nat) (_hissued : t0 ≤ t1) (hhorizon : t1 < t0 + 2 ^ 31) (hafter : t0 ≤ t)
    (hbefore : t < t1 + 2 ^ 31) :
    is_timed_request_ready (.at_moment t) ⟨.at_moment t1⟩ = true ↔ t1 ≤ t ∨ t1 % 2 ^ 32 = 0 := by
  have hnear : t1 < t + 2 ^ 31 := by omega
  have hdistance := distance_lt_iff hnear hbefore
  rw [show 2 * 2 ^ 31 = 2 ^ 32 from rfl] at hdistance
  rw [is_timed_request_ready_iff, is_untimed_moment, raw_at_moment, raw_at_moment, hdistance, or_comm]

/-- The counter rolls over a second before the request is due: at `2^32 - 10^9` it is not ready, at
`2^32 + 10^9` it is. -/
theorem ready_across_rollover_second :
    is_timed_request_ready (.at_moment (2 ^ 32 - 10 ^ 9)) ⟨.at_moment (2 ^ 32 + 10 ^ 9)⟩ = false ∧
      is_timed_request_ready (.at_moment (2 ^ 32 + 10 ^ 9)) ⟨.at_moment (2 ^ 32 + 10 ^ 9)⟩ = true := by
  constructor
  · rw [← Bool.not_eq_true, ready_across_rollover (2 ^ 32 - 10 ^ 9) _ _ (by decide) (by decide) (by decide) (by decide)]
    decide
  · rw [ready_across_rollover (2 ^ 32 - 10 ^ 9) _ _ (by decide) (by decide) (by decide) (by decide)]
    decide

/-- Issued at `2^32 - 1` for `2^32`, which reads as untimed, a request is ready when it is issued. -/
theorem ready_before_rollover : ¬ ∀ t0 t1 t : Nat, t0 ≤ t1 → t1 < t0 + 2 ^ 31 → t0 ≤ t → t < t1 + 2 ^ 31 →
    (is_timed_request_ready (.at_moment t) ⟨.at_moment t1⟩ = true ↔ t1 ≤ t) := by
  intro h
  have hready : is_timed_request_ready (.at_moment (2 ^ 32 - 1)) ⟨.at_moment (2 ^ 32)⟩ = true := by decide
  have hdue := (h (2 ^ 32 - 1) (2 ^ 32) (2 ^ 32 - 1) (by decide) (by decide) (by decide) (by decide)).1 hready
  exact absurd hdue (by decide)

/-! ## Sequence numbers -/

inductive SequenceEnforcementOutcome where
  | Accepted
  | RejectedNoSafestate
  | RejectedSafestate
  deriving DecidableEq, Repr

namespace SequenceEnforcementOutcome

def is_rejected : SequenceEnforcementOutcome → Bool
  | Accepted => false
  | _ => true

def drives_safestate : SequenceEnforcementOutcome → Bool
  | RejectedSafestate => true
  | _ => false

end SequenceEnforcementOutcome

def evaluate_rx_enforce_seq (last_accepted_seq candidate_seq : UInt32)
    (rx_enforce_seq rx_seq_safestate_enable : Bool) : SequenceEnforcementOutcome :=
  if !rx_enforce_seq || candidate_seq > last_accepted_seq then .Accepted
  else if rx_seq_safestate_enable then .RejectedSafestate
  else .RejectedNoSafestate

theorem evaluate_rx_enforce_seq_rejected (last candidate : UInt32) (safestate : Bool) :
    (evaluate_rx_enforce_seq last candidate true safestate).is_rejected = true ↔ candidate ≤ last := by
  rw [evaluate_rx_enforce_seq, ← UInt32.not_lt]
  split_ifs with h <;> simp_all [SequenceEnforcementOutcome.is_rejected]

/-- A rejection drives the stream's endpoints to safe state exactly when the stream is configured so. -/
theorem evaluate_rx_enforce_seq_safestate (last candidate : UInt32) (rx_enforce_seq rx_seq_safestate_enable : Bool) :
    (evaluate_rx_enforce_seq last candidate rx_enforce_seq rx_seq_safestate_enable).drives_safestate =
      ((evaluate_rx_enforce_seq last candidate rx_enforce_seq rx_seq_safestate_enable).is_rejected &&
        rx_seq_safestate_enable) := by
  rw [evaluate_rx_enforce_seq]
  split_ifs with _ henable <;>
    simp_all [SequenceEnforcementOutcome.is_rejected, SequenceEnforcementOutcome.drives_safestate]

/-- What becomes of the sequence numbers received after `last_accepted_seq`, with enforcement enabled. -/
def enforce (rx_seq_safestate_enable : Bool) : UInt32 → List UInt32 → List SequenceEnforcementOutcome
  | _, [] => []
  | last_accepted_seq, candidate_seq :: rest =>
    let outcome := evaluate_rx_enforce_seq last_accepted_seq candidate_seq true rx_seq_safestate_enable
    outcome :: enforce rx_seq_safestate_enable
      (if outcome.is_rejected then last_accepted_seq else candidate_seq) rest

/-- The frames a sender sends, by their number: the header's sequence number counts up, modulo 256. -/
structure Sender where
  header : Nat → NtscfHeader
  counts : ∀ k, (header (k + 1)).sequence_num = (header k).sequence_num + 1

namespace Sender

def seq (self : Sender) (k : Nat) : UInt32 := (self.header k).sequence_num.toUInt32

/-- The count that frame `k`'s sequence number is the field of. -/
def count (self : Sender) (k : Nat) : Nat := (self.header 0).sequence_num.toNat + k

theorem toNat_seq (self : Sender) (k : Nat) : (self.seq k).toNat = self.count k % 256 := by
  show (self.header k).sequence_num.toNat = _
  induction k with
  | zero => exact (Nat.mod_eq_of_lt (self.header 0).sequence_num.toNat_lt).symm
  | succ k ih =>
    rw [self.counts, UInt8.toNat_add, ih, count, count]
    exact Nat.mod_add_mod ..

end Sender

/-- Frame `k` was the last one delivered; next comes it again, or a later one with fewer than 128 lost in between. -/
def Follows (k next : Nat) : Prop := k ≤ next ∧ next ≤ k + 128

/-- Which of the frames delivered after frame `k` repeat the one before them. -/
def duplicates : Nat → List Nat → List Bool
  | _, [] => []
  | k, next :: rest => decide (next = k) :: duplicates next rest

/-- A later frame is accepted after frame `k` only within the counter's cycle. -/
theorem seq_lt_seq_iff (sender : Sender) {k next : Nat} (hlater : k < next) (hnear : next ≤ k + 128) :
    sender.seq k < sender.seq next ↔ sender.count k / 256 = sender.count next / 256 := by
  rw [UInt32.lt_iff_toNat_lt, sender.toNat_seq, sender.toNat_seq]
  exact mod_lt_mod_iff (Nat.add_lt_add_left hlater _) (by unfold Sender.count; omega)

/-- Enforcement rejects the duplicates and nothing else exactly when no frame lies past the counter's wrap. -/
theorem sequence_within_cycle (sender : Sender) (rx_seq_safestate_enable : Bool) (first : Nat) (delivered : List Nat)
    (hfollows : List.IsChain Follows (first :: delivered)) :
    (enforce rx_seq_safestate_enable (sender.seq first) (delivered.map sender.seq)).map (·.is_rejected) =
        duplicates first delivered ↔
      ∀ k ∈ delivered, sender.count k / 256 = sender.count first / 256 := by
  induction delivered generalizing first with
  | nil => simp [enforce, duplicates]
  | cons next rest ih =>
    obtain ⟨⟨hle, hnear⟩, hrest⟩ := List.isChain_cons_cons.1 hfollows
    have hrejected := evaluate_rx_enforce_seq_rejected (sender.seq first) (sender.seq next) rx_seq_safestate_enable
    simp only [List.map_cons, enforce, duplicates, List.cons.injEq, List.forall_mem_cons]
    rcases Nat.eq_or_lt_of_le hle with hsame | hlater
    · subst hsame
      have hdup := hrejected.2 UInt32.le_rfl
      simp [hdup, ih first hrest]
    · have hfirst : decide (next = first) = false := decide_eq_false (Nat.ne_of_gt hlater)
      have haccepted := seq_lt_seq_iff sender hlater hnear
      rw [← UInt32.not_le, ← hrejected, Bool.not_eq_true] at haccepted
      rw [hfirst, haccepted]
      constructor
      · rintro ⟨hcycle, htail⟩
        rw [if_neg (by simp [haccepted.2 hcycle])] at htail
        exact ⟨hcycle.symm, fun k hk => ((ih next hrest).1 htail k hk).trans hcycle.symm⟩
      · rintro ⟨hcycle, htail⟩
        rw [if_neg (by simp [haccepted.2 hcycle.symm])]
        exact ⟨hcycle.symm, (ih next hrest).2 fun k hk => (htail k hk).trans hcycle.symm⟩

/-- A sender whose first frame is numbered `start`. -/
def Sender.starting (start : UInt8) : Sender where
  header k := { sequence_num := start + UInt8.ofNat k }
  counts k := by rw [UInt8.ofNat_add, UInt8.add_assoc]; rfl

/-- Frames 3, 4 and 6 come after frame 3, 4 twice: the repeats are rejected. -/
theorem sequence_within_cycle_repeats :
    (enforce false ((Sender.starting 0).seq 3) ([3, 4, 4, 6].map (Sender.starting 0).seq)).map (·.is_rejected) =
      [true, false, true, false] := by
  refine (sequence_within_cycle (Sender.starting 0) false 3 [3, 4, 4, 6] ?_).2 ?_
  · simp [Follows]
  · decide

/-- The frame after number 255 has number 0, and is rejected. -/
theorem sequence_past_wrap : ¬ ∀ (sender : Sender) (rx_seq_safestate_enable : Bool) (first : Nat)
    (delivered : List Nat),
    List.IsChain Follows (first :: delivered) →
      (enforce rx_seq_safestate_enable (sender.seq first) (delivered.map sender.seq)).map (·.is_rejected) =
        duplicates first delivered := by
  intro h
  have hwrapped := h (Sender.starting 255) false 0 [1] (by simp [Follows])
  exact absurd hwrapped (by decide)

end RustRcp
