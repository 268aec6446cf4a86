import RustRcp.E2e
/-!
# Fragment reassembly

The buffer that collects a fragment train (`src/fragment.rs`), and why the way a
payload is split does not show in what comes out (`fragmentation_transparent`).
-/
open Stateful

namespace RustRcp

/-! ## The buffer -/

inductive FragmentAcceptOutcome where
  | Continuing
  | Complete
  deriving DecidableEq, Repr

structure FragmentReassemblyBuffer where
  max_request_size : UInt16
  segments : List (List UInt8) := []
  total_len : Nat := 0
  next_expected_segment_num : UInt16 := 0
  deriving DecidableEq, Repr

namespace FragmentReassemblyBuffer

def new (rx_stream_max_request_size : UInt16) : FragmentReassemblyBuffer :=
  { max_request_size := rx_stream_max_request_size }

def fragmentation_supported (self : FragmentReassemblyBuffer) : Bool := self.max_request_size != 0

def is_in_progress (self : FragmentReassemblyBuffer) : Bool := !self.segments.isEmpty

def accept_fragment (info : ByteMessageInfo) (payload : List UInt8) :
    Stateful RcpError FragmentReassemblyBuffer FragmentAcceptOutcome := do
  let self ← get
  if !self.fragmentation_supported then throw .UnsupportedCmd else
  let segment_num := info.read_size_segment.as_segment_num
  if segment_num ≠ self.next_expected_segment_num then throw .InvalidParameter else
  let prospective_total := self.total_len + payload.length
  if prospective_total > self.max_request_size.toNat then throw .PayloadTooLarge else
  -- the segment number wraps at 2 ^ 16, as `wrapping_add` does
  set { self with
    segments := self.segments ++ [payload]
    total_len := prospective_total
    next_expected_segment_num := self.next_expected_segment_num + 1 }
  return if info.ms then .Continuing else .Complete

def segment_refs (self : FragmentReassemblyBuffer) : List (List UInt8) := self.segments

def combined_payload (self : FragmentReassemblyBuffer) : List UInt8 := assemble self.segment_refs

def reset (self : FragmentReassemblyBuffer) : FragmentReassemblyBuffer :=
  { self with segments := [], total_len := 0, next_expected_segment_num := 0 }

end FragmentReassemblyBuffer

open FragmentReassemblyBuffer

def verify_reassembled_train_crc (buffer : FragmentReassemblyBuffer) (header : HeaderVariant)
    (final_fragment : AcfCoverageMessage) (crc_present : Bool) : Except RcpError UInt32 := do
  check_fragment_crc_placement false crc_present
  crc32_tc18_for_fragment_train header final_fragment buffer.segment_refs

/-! ## What a fragment does -/

/-- The buffer takes this fragment: it is the next one and leaves the train within its bound. -/
structure Fits (b : FragmentReassemblyBuffer) (info : ByteMessageInfo) (payload : List UInt8) : Prop where
  supported : b.max_request_size ≠ 0
  expected : info.read_size_segment.raw = b.next_expected_segment_num
  bounded : b.total_len + payload.length ≤ b.max_request_size.toNat

/-- The buffer with one more segment. -/
def FragmentReassemblyBuffer.push (b : FragmentReassemblyBuffer) (payload : List UInt8) : FragmentReassemblyBuffer :=
  { b with
    segments := b.segments ++ [payload]
    total_len := b.total_len + payload.length
    next_expected_segment_num := b.next_expected_segment_num + 1 }

theorem accept_fits {b : FragmentReassemblyBuffer} {info : ByteMessageInfo} {payload : List UInt8}
    (h : Fits b info payload) :
    exec (accept_fragment info payload) b = (.ok (if info.ms then .Continuing else .Complete), b.push payload) := by
  obtain ⟨hsup, hnum, hlen⟩ := h
  have hsup' : b.fragmentation_supported = true := bne_iff_ne.2 hsup
  simp only [accept_fragment, exec_bind, exec_get, hsup', Bool.not_true, Bool.false_eq_true, if_false,
    ReadSizeOrSegment.as_segment_num, ne_eq, hnum, not_true_eq_false, gt_iff_lt, Nat.not_lt.2 hlen, exec_set, exec_pure]
  rfl

/-- A fragment the buffer does not take is refused and changes nothing. -/
theorem accept_refused {b : FragmentReassemblyBuffer} {info : ByteMessageInfo} {payload : List UInt8}
    (h : ¬ Fits b info payload) : ∃ e, exec (accept_fragment info payload) b = (.error e, b) := by
  by_cases hsup : b.max_request_size = 0
  · have hsup' : b.fragmentation_supported = false := bne_eq_false_iff_eq.2 hsup
    refine ⟨.UnsupportedCmd, ?_⟩
    simp only [accept_fragment, exec_bind, exec_get, hsup', Bool.not_false, if_true, exec_throw]
  · have hsup' : b.fragmentation_supported = true := bne_iff_ne.2 hsup
    by_cases hnum : info.read_size_segment.raw = b.next_expected_segment_num
    · have hlen : b.max_request_size.toNat < b.total_len + payload.length := by
        by_contra hlen
        exact h ⟨hsup, hnum, Nat.le_of_not_lt hlen⟩
      refine ⟨.PayloadTooLarge, ?_⟩
      simp only [accept_fragment, exec_bind, exec_get, hsup', Bool.not_true, Bool.false_eq_true, if_false,
        ReadSizeOrSegment.as_segment_num, ne_eq, hnum, not_true_eq_false, gt_iff_lt, hlen, if_true, exec_throw]
    · refine ⟨.InvalidParameter, ?_⟩
      simp only [accept_fragment, exec_bind, exec_get, hsup', Bool.not_true, Bool.false_eq_true, if_false,
        ReadSizeOrSegment.as_segment_num, ne_eq, hnum, not_false_eq_true, if_true, exec_throw]

/-! ## A whole train -/

/-- Give the fragments to the buffer in turn. -/
def feed (b : FragmentReassemblyBuffer) : List (ByteMessageInfo × List UInt8) →
    List (Except RcpError FragmentAcceptOutcome) × FragmentReassemblyBuffer
  | [] => ([], b)
  | (info, payload) :: rest =>
    let (r, b) := exec (accept_fragment info payload) b
    let (rs, b) := feed b rest
    (r :: rs, b)

/-- Fragments numbered from `n` on, with `ms` set on all but the last. -/
inductive Train : Nat → List (ByteMessageInfo × List UInt8) → Prop
  | last {n info payload} : info.read_size_segment.raw = UInt16.ofNat n → info.ms = false → Train n [(info, payload)]
  | more {n info payload rest} : info.read_size_segment.raw = UInt16.ofNat n → info.ms = true → Train (n + 1) rest →
      Train n ((info, payload) :: rest)

theorem assemble_eq (segments : List (List UInt8)) : assemble segments = segments.flatten := by
  have h : ∀ acc, segments.foldl (fun combined segment => combined ++ segment) acc = acc ++ segments.flatten := by
    induction segments with
    | nil => simp
    | cons segment segments ih =>
      intro acc
      rw [List.foldl_cons, ih, List.flatten_cons, List.append_assoc]
  exact h []

theorem feed_train {n : Nat} {frs : List (ByteMessageInfo × List UInt8)} (h : Train n frs)
    {b : FragmentReassemblyBuffer} (hmax : b.max_request_size ≠ 0) (hnum : b.next_expected_segment_num = UInt16.ofNat n)
    (hlen : b.total_len + (frs.map Prod.snd).flatten.length ≤ b.max_request_size.toNat) :
    (feed b frs).1 = List.replicate (frs.length - 1) (.ok .Continuing) ++ [.ok .Complete] ∧
      (feed b frs).2.segments = b.segments ++ frs.map Prod.snd := by
  induction h generalizing b with
  | @last n info payload hseg hms =>
    have hfit : Fits b info payload := ⟨hmax, hseg.trans hnum.symm, by simpa using hlen⟩
    simp [feed, accept_fits hfit, hms, FragmentReassemblyBuffer.push]
  | @more n info payload rest hseg hms hrest ih =>
    simp only [List.map_cons, List.flatten_cons, List.length_append] at hlen
    have hfit : Fits b info payload := ⟨hmax, hseg.trans hnum.symm, by omega⟩
    -- both numbers wrap at 2 ^ 16, so they agree however long the train is
    have hnext : (b.push payload).next_expected_segment_num = UInt16.ofNat (n + 1) := by
      rw [UInt16.ofNat_add, ← hnum]
      rfl
    obtain ⟨houts, hsegs⟩ := ih (b := b.push payload) hmax hnext (by simp only [FragmentReassemblyBuffer.push]; omega)
    have hpos : 0 < rest.length := by cases hrest <;> simp
    simp only [feed, accept_fits hfit, hms, if_true, houts, hsegs]
    refine ⟨?_, by simp [FragmentReassemblyBuffer.push]⟩
    rw [List.length_cons, ← List.cons_append, ← List.replicate_succ]
    congr 2
    omega

/-- The same message with another payload. -/
def AcfCoverageMessage.withPayload : AcfCoverageMessage → List UInt8 → AcfCoverageMessage
  | .Abb msg, payload => .Abb { msg with payload }
  | .Gbb msg, payload => .Gbb { msg with payload }

theorem coverage_for_train (header : HeaderVariant) (final : AcfCoverageMessage) (segments : List (List UInt8)) :
    build_crc32_coverage_buffer_for_fragment_train header final segments =
      build_crc32_coverage_buffer header (final.withPayload segments.flatten) := by
  cases final <;>
    simp only [build_crc32_coverage_buffer_for_fragment_train, assemble_eq, AcfCoverageMessage.withPayload]

/-- A payload split into a train comes out whole, and its CRC is that of one unsplit message. -/
theorem fragmentation_transparent (max : UInt16) (payload : List UInt8) (frs : List (ByteMessageInfo × List UInt8))
    (htrain : Train 0 frs) (hsplit : (frs.map Prod.snd).flatten = payload) (hmax : max ≠ 0)
    (hsize : payload.length ≤ max.toNat) :
    (feed (new max) frs).1 = List.replicate (frs.length - 1) (.ok .Continuing) ++ [.ok .Complete] ∧
      combined_payload (feed (new max) frs).2 = payload ∧
      ∀ header final, verify_reassembled_train_crc (feed (new max) frs).2 header final true =
        crc32_tc18 <$> build_crc32_coverage_buffer header (final.withPayload payload) := by
  subst hsplit
  obtain ⟨houts, hsegs⟩ := feed_train htrain (b := new max) hmax rfl (by simpa [new] using hsize)
  have hsegs' : (feed (new max) frs).2.segment_refs = frs.map Prod.snd := hsegs
  refine ⟨houts, by rw [combined_payload, hsegs', assemble_eq], fun header final => ?_⟩
  unfold verify_reassembled_train_crc crc32_tc18_for_fragment_train
  rw [hsegs', coverage_for_train]
  rfl

/-- Three segments, the middle one empty. -/
theorem fragmentation_transparent_three :
    combined_payload (feed (new 16) [({ ms := true }, [1, 2]), ({ ms := true, read_size_segment := ⟨1⟩ }, []),
      ({ read_size_segment := ⟨2⟩ }, [3])]).2 = [1, 2, 3] :=
  (fragmentation_transparent 16 [1, 2, 3] _ (.more rfl rfl (.more rfl rfl (.last rfl rfl))) rfl (by decide)
    (by decide)).2.1

end RustRcp
