import RustRcp.Fragment
/-!
# What the buffer remembers of a finished train

The buffer keeps a count and the segments, so a finished train looks to it like
one that goes on. `completion_latch` says in which runs that does not show.
-/
open Stateful

namespace RustRcp

open FragmentReassemblyBuffer

/-! ## Runs of calls -/

/-- A call a stream's owner makes on its buffer. -/
inductive BufferCall where
  | accept (info : ByteMessageInfo) (payload : List UInt8)
  | reset

/-- Where the train stands, by what the calls since the last `reset` returned. -/
inductive TrainStatus where
  | idle
  | between
  | complete
  deriving DecidableEq

def TrainStatus.after (status : TrainStatus) : Except RcpError FragmentAcceptOutcome → TrainStatus
  | .error _ => status
  | .ok .Continuing => if status = .complete then .complete else .between
  | .ok .Complete => .complete

/-- The buffer with the status of its train. -/
structure Tracked where
  buffer : FragmentReassemblyBuffer
  train : TrainStatus := .idle

def Tracked.next (s : Tracked) : BufferCall → Tracked
  | .accept info payload =>
    let (r, buffer) := exec (accept_fragment info payload) s.buffer
    { buffer, train := s.train.after r }
  | .reset => { buffer := s.buffer.reset, train := .idle }

/-- A fresh buffer. -/
def Tracked.start (max : UInt16) : Tracked := { buffer := new max }

theorem next_accept_fits {s : Tracked} {info : ByteMessageInfo} {payload : List UInt8}
    (h : Fits s.buffer info payload) :
    s.next (.accept info payload) =
      { buffer := s.buffer.push payload
        train := s.train.after (.ok (if info.ms then .Continuing else .Complete)) } := by
  simp only [Tracked.next, accept_fits h]

theorem next_accept_refused {s : Tracked} {info : ByteMessageInfo} {payload : List UInt8}
    (h : ¬ Fits s.buffer info payload) : s.next (.accept info payload) = s := by
  obtain ⟨e, he⟩ := accept_refused h
  simp only [Tracked.next, he, TrainStatus.after]

/-! ## The latch -/

/-- Once a train is complete, every fragment is refused and the combined payload stays. -/
def Latched (max : UInt16) (calls : List BufferCall) : Prop :=
  ∀ p ∈ visits Tracked.next (.start max) calls, p.1.train = .complete → ∀ info payload, p.2 = .accept info payload →
    (∃ e, (exec (accept_fragment info payload) p.1.buffer).1 = .error e) ∧
      combined_payload (exec (accept_fragment info payload) p.1.buffer).2 = combined_payload p.1.buffer

/-- A buffer is in progress only between a train's first and last fragment. -/
def ProgressShown (max : UInt16) (calls : List BufferCall) : Prop :=
  ∀ s ∈ states Tracked.next (.start max) calls, s.buffer.is_in_progress = true → s.train = .between

/-- What the status says of a buffer no train of which is complete. -/
def StatusShown (s : Tracked) : Prop :=
  s.train ≠ .complete ∧ (s.buffer.is_in_progress = true → s.train = .between)

/-- A call that completes no train keeps `StatusShown`. -/
theorem status_kept {s : Tracked} {call : BufferCall} (h : StatusShown s)
    (hcall : ∀ info payload, call = .accept info payload → info.ms = false → ¬ Fits s.buffer info payload) :
    StatusShown (s.next call) := by
  cases call with
  | reset => exact ⟨nofun, nofun⟩
  | accept info payload =>
    by_cases hfit : Fits s.buffer info payload
    · have hms : info.ms = true := by
        by_contra hms
        exact hcall info payload rfl (Bool.eq_false_iff.2 hms) hfit
      rw [next_accept_fits hfit, hms]
      simp only [StatusShown, TrainStatus.after, if_true, if_neg h.1]
      exact ⟨nofun, fun _ => trivial⟩
    · rw [next_accept_refused hfit]
      exact h

/-- In a run, completion latches exactly when no call after it presents a fragment that still
fits, and progress is shown exactly when no call completes a train. -/
theorem completion_latch (max : UInt16) (calls : List BufferCall) :
    (Latched max calls ↔ ∀ p ∈ visits Tracked.next (.start max) calls, p.1.train = .complete →
      ∀ info payload, p.2 = .accept info payload → ¬ Fits p.1.buffer info payload) ∧
    (ProgressShown max calls ↔ ∀ p ∈ visits Tracked.next (.start max) calls,
      ∀ info payload, p.2 = .accept info payload → info.ms = false → ¬ Fits p.1.buffer info payload) := by
  refine ⟨⟨?_, ?_⟩, ?_, ?_⟩
  · -- a fragment that fits is taken, whatever came before
    intro h p hp hdone info payload hcall hfit
    obtain ⟨⟨e, he⟩, -⟩ := h p hp hdone info payload hcall
    rw [accept_fits hfit] at he
    cases he
  · intro h p hp hdone info payload hcall
    obtain ⟨e, he⟩ := accept_refused (h p hp hdone info payload hcall)
    rw [he]
    exact ⟨⟨e, rfl⟩, rfl⟩
  · -- the call that completes a train leaves the buffer looking busy
    intro h p hp info payload hcall hms hfit
    have hnext := h _ (next_mem_states Tracked.next hp)
    rw [hcall, next_accept_fits hfit, hms] at hnext
    cases hnext (by simp [is_in_progress, FragmentReassemblyBuffer.push])
  · intro h s hs
    have hstart : StatusShown (.start max) := by
      simp [StatusShown, Tracked.start, new, is_in_progress]
    exact (states_inv Tracked.next hstart (fun p hp hkept => status_kept hkept (h p hp)) s hs).2

/-- A train of one fragment completes, and a fragment with the next number is still taken. -/
theorem completion_not_latched :
    ¬ ∀ max calls, Latched max calls ∧ ProgressShown max calls := by
  intro h
  obtain ⟨hlatched, -⟩ := h 16 [.accept {} [1], .accept { ms := true, read_size_segment := ⟨1⟩ } [2]]
  obtain ⟨⟨e, he⟩, -⟩ := hlatched
    (Tracked.next (.start 16) (.accept {} [1]), .accept { ms := true, read_size_segment := ⟨1⟩ } [2])
    (by simp [visits]) rfl _ _ rfl
  rw [accept_fits ⟨by decide, rfl, by decide⟩] at he
  cases he

end RustRcp
