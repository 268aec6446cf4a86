import RustRcp.Pending
import RustRcp.Safety
import RustRcp.Lib.Agenda
/-!
# A stream's requests over time

Requests come in, the one that `select_next_pending_request` (`src/request.rs`) names is
executed, and a stream that has been silent for too long (`src/watchdog.rs`) loses those that
are not tagged for safety, in any order. The list of requests is the caller's, kept as these two
files ask of it: numbered as they arrive, and without the one that was selected.
`stream_scheduled` says which requests are executed, in what order, which of them wait for which,
and what silence costs.
-/
open Agenda

namespace RustRcp

/-! ## The stream -/

/-- What waits, the number of the next arrival, and the watchdog. -/
structure RequestStream where
  pending : List PendingRequestKey := []
  arrival_seq : UInt64 := 0
  watchdog : StreamWatchdogState

inductive StreamCall where
  | arrive (kind : RequestKind) (now_tick : UInt64)
  | execute
  /-- A look at the watchdog. -/
  | check (now_tick : UInt64)

namespace RequestStream

def new (now_tick : UInt64) : RequestStream := { watchdog := .new now_tick }

variable (row : RequestStreamConfigEntry)

def overflowed (self : RequestStream) (now_tick : UInt64) : Bool :=
  (evaluate_stream_watchdog self.watchdog now_tick ⟨row.rx_wd_timeout_interval⟩ row.rx_wd_enable
    row.rx_wd_safestate_enable).watchdog_overflowed

/-- What a call does, and what becomes of the requests. -/
def step (self : RequestStream) : StreamCall → List (Note PendingRequestKey) × RequestStream
  | .arrive kind now_tick =>
    let key : PendingRequestKey := { kind, arrival_seq := self.arrival_seq }
    ([.added key], { pending := self.pending ++ [key], arrival_seq := self.arrival_seq + 1,
                     watchdog := self.watchdog.reset_on_request now_tick })
  | .execute =>
    match execute_next self.pending with
    | none => ([], self)
    | some (key, pending) => ([.taken key], { self with pending })
  | .check now_tick =>
    let (kept, purged) := purge_normal_priority_on_watchdog_overflow self.pending (self.overflowed row now_tick)
    ((requests_at self.pending purged).map .dropped, { self with pending := requests_at self.pending kept })

def run (start : UInt64) (calls : List StreamCall) : List (Note PendingRequestKey) × RequestStream :=
  calls.foldl (fun here call => (here.1 ++ (here.2.step row call).1, (here.2.step row call).2)) ([], new start)

theorem run_concat (start : UInt64) (calls : List StreamCall) (call : StreamCall) :
    run row start (calls ++ [call]) = ((run row start calls).1 ++ ((run row start calls).2.step row call).1,
      ((run row start calls).2.step row call).2) := by
  rw [run, List.foldl_append]
  rfl

/-- What a call does to the agenda. -/
def op (self : RequestStream) : StreamCall → Op PendingRequestKey
  | .arrive kind _ => .add { kind, arrival_seq := self.arrival_seq }
  | .execute => .take
  | .check now_tick => .drop fun key => !stays (self.overflowed row now_tick) key

theorem step_agenda (log : List (Note PendingRequestKey)) (self : RequestStream) (call : StreamCall) :
    (log ++ (self.step row call).1, (self.step row call).2.pending) =
      Agenda.step rank (log, self.pending) (self.op row call) := by
  cases call with
  | arrive kind now_tick => rfl
  | execute =>
    simp only [step, op, Agenda.step, execute_next_eq]
    cases Selection.takeLeast rank self.pending with
    | none => rw [List.append_nil]
    | some next => rfl
  | check now_tick =>
    simp only [step, op, Agenda.step, purge_spec, requests_at_indices, Bool.not_not]

/-- A run is an agenda worked off. -/
theorem run_agenda (start : UInt64) (calls : List StreamCall) :
    ∃ ops, ((run row start calls).1, (run row start calls).2.pending) = Agenda.run rank ops := by
  induction calls using List.reverseRecOn with
  | nil => exact ⟨[], rfl⟩
  | append_singleton calls call ih =>
    obtain ⟨ops, hops⟩ := ih
    refine ⟨ops ++ [(run row start calls).2.op row call], ?_⟩
    rw [run_concat, Agenda.run_concat, ← hops]
    exact step_agenda row _ _ call

/-! ## Numbers and time -/

/-- The ticks at which requests come. -/
def ticks (calls : List StreamCall) : List UInt64 :=
  calls.filterMap fun call => match call with
    | .arrive _ now_tick => some now_tick
    | .execute | .check _ => none

theorem ticks_append (calls later : List StreamCall) : ticks (calls ++ later) = ticks calls ++ ticks later :=
  List.filterMap_append ..

/-- Requests are numbered in the order in which they come, and each resets the watchdog. -/
structure Kept (start : UInt64) (calls : List StreamCall) (log : List (Note PendingRequestKey))
    (stream : RequestStream) : Prop where
  numbers : (added log).map PendingRequestKey.arrival_seq = (List.range (ticks calls).length).map UInt64.ofNat
  next : stream.arrival_seq = UInt64.ofNat (ticks calls).length
  watchdog : stream.watchdog = requested start (ticks calls)

/-- Nothing comes in by any other call. -/
theorem step_other (self : RequestStream) {call : StreamCall} (h : ∀ kind now_tick, call ≠ .arrive kind now_tick) :
    ticks [call] = [] ∧ added (self.step row call).1 = [] ∧ (self.step row call).2.arrival_seq = self.arrival_seq ∧
      (self.step row call).2.watchdog = self.watchdog := by
  cases call with
  | arrive kind now_tick => exact absurd rfl (h kind now_tick)
  | execute =>
    simp only [step]
    cases execute_next self.pending with
    | none => exact ⟨rfl, rfl, rfl, rfl⟩
    | some next => exact ⟨rfl, rfl, rfl, rfl⟩
  | check now_tick => exact ⟨rfl, added_dropped _, rfl, rfl⟩

theorem kept (start : UInt64) (calls : List StreamCall) :
    Kept start calls (run row start calls).1 (run row start calls).2 := by
  induction calls using List.reverseRecOn with
  | nil => exact ⟨rfl, rfl, rfl⟩
  | append_singleton calls call ih =>
    obtain ⟨hnumbers, hnext, hwatchdog⟩ := ih
    rw [run_concat]
    by_cases hcall : ∃ kind now_tick, call = .arrive kind now_tick
    · obtain ⟨kind, now_tick, rfl⟩ := hcall
      constructor
      · rw [added_append, List.map_append, hnumbers, ticks_append, List.length_append]
        change _ ++ [(run row start calls).2.arrival_seq] = (List.range (_ + 1)).map _
        rw [hnext, List.range_succ, List.map_append]
        rfl
      · rw [ticks_append, List.length_append]
        change (run row start calls).2.arrival_seq + 1 = UInt64.ofNat (_ + 1)
        rw [hnext, UInt64.ofNat_add]
        rfl
      · rw [ticks_append, requested, List.foldl_append, ← requested, ← hwatchdog]
        rfl
    · obtain ⟨hticks, hadded, hseq, hdog⟩ :=
        step_other row (run row start calls).2 fun kind now_tick heq => hcall ⟨kind, now_tick, heq⟩
      constructor
      · rw [added_append, hadded, List.append_nil, ticks_append, hticks, List.append_nil]
        exact hnumbers
      · rw [hseq, ticks_append, hticks, List.append_nil]
        exact hnext
      · rw [hdog, ticks_append, hticks, List.append_nil]
        exact hwatchdog

/-- With fewer than 2^64 requests, no two have one number, and a later one has a greater. -/
theorem numbers_increase {start : UInt64} {calls : List StreamCall} {log : List (Note PendingRequestKey)}
    {stream : RequestStream} (h : Kept start calls log stream) (hfew : (ticks calls).length ≤ 2 ^ 64) :
    (added log).Pairwise fun earlier later => earlier.arrival_seq < later.arrival_seq := by
  have hnumbers : ((added log).map PendingRequestKey.arrival_seq).Pairwise (· < ·) := by
    rw [h.numbers, List.pairwise_map]
    refine List.pairwise_lt_range.imp_of_mem fun {i j} hi hj hlt => ?_
    rw [List.mem_range] at hi hj
    have hsize : UInt64.size = 2 ^ 64 := rfl
    rw [UInt64.lt_iff_toNat_lt, UInt64.toNat_ofNat_of_lt' (by omega), UInt64.toNat_ofNat_of_lt' (by omega)]
    exact hlt
  exact List.pairwise_map.1 hnumbers

/-- Requests of one tier come in the order of their numbers. -/
def InTurnOf (earlier later : PendingRequestKey) : Prop :=
  execution_priority_tier earlier.kind = execution_priority_tier later.kind → earlier.arrival_seq < later.arrival_seq

theorem inTurnOf_of_rank {earlier later : PendingRequestKey} (h : rank earlier < rank later) :
    InTurnOf earlier later := by
  intro htier
  rw [rank, rank, Prod.Lex.toLex_lt_toLex] at h
  rcases h with hless | ⟨-, hless⟩
  · exact absurd hless (by simp only [htier, lt_self_iff_false, not_false_eq_true])
  · exact UInt64.lt_iff_toNat_lt.2 hless

/-! ## What is purged -/

/-- What a run notes as dropped is not tagged for safety. -/
theorem dropped_untagged (start : UInt64) (calls : List StreamCall) :
    ∀ key ∈ dropped (run row start calls).1, key.kind.is_safety_tagged = false := by
  induction calls using List.reverseRecOn with
  | nil => exact fun key hmem => absurd hmem List.not_mem_nil
  | append_singleton calls call ih =>
    intro key hmem
    rw [run_concat, dropped_append, List.mem_append] at hmem
    obtain hmem | hmem := hmem
    · exact ih key hmem
    · cases call with
      | arrive kind now_tick => exact absurd hmem List.not_mem_nil
      | execute =>
        simp only [step] at hmem
        split at hmem <;> exact absurd hmem List.not_mem_nil
      | check now_tick =>
        simp only [step, purge_spec, requests_at_indices, dropped_dropped, List.mem_filter] at hmem
        obtain ⟨-, hstays⟩ := hmem
        rw [Bool.not_eq_true', ← Bool.not_eq_true, stays_iff, Classical.not_imp, Bool.not_eq_true] at hstays
        exact hstays.2

/-- The timeout is on, and has passed since the last request, or since the start. -/
def Silent (start : UInt64) (calls : List StreamCall) (now_tick : UInt64) : Prop :=
  row.rx_wd_enable = true ∧ row.rx_wd_timeout_interval.toNat ≤
    now_tick.toNat - ((start :: ticks calls).getLast (List.cons_ne_nil _ _)).toNat

instance (start : UInt64) (calls : List StreamCall) (now_tick : UInt64) : Decidable (Silent row start calls now_tick) :=
  inferInstanceAs (Decidable (_ ∧ _))

theorem overflowed_iff (start : UInt64) (calls : List StreamCall) (now_tick : UInt64) :
    (run row start calls).2.overflowed row now_tick = true ↔ Silent row start calls now_tick := by
  obtain ⟨hoverflowed, -⟩ := evaluate_stream_watchdog_eq (run row start calls).2.watchdog now_tick
    ⟨row.rx_wd_timeout_interval⟩ row.rx_wd_enable row.rx_wd_safestate_enable
  rw [overflowed, hoverflowed, Bool.and_eq_true, expired_iff, (kept row start calls).watchdog, requested_last]
  rfl

/-- A look at the watchdog after some silence leaves what is tagged for safety, any other look leaves all. -/
theorem silence (start : UInt64) (calls : List StreamCall) (now_tick : UInt64) :
    (run row start (calls ++ [.check now_tick])).2.pending =
      if Silent row start calls now_tick then
        (run row start calls).2.pending.filter fun key => key.kind.is_safety_tagged
      else (run row start calls).2.pending := by
  rw [run_concat]
  simp only [step, purge_spec, requests_at_indices]
  split
  next hsilent =>
    refine List.filter_congr fun key _ => ?_
    rw [Bool.eq_iff_iff, stays_iff, (overflowed_iff row start calls now_tick).2 hsilent]
    exact ⟨fun h => h rfl, fun h _ => h⟩
  next hheard =>
    refine List.filter_eq_self.2 fun key _ => ?_
    rw [stays_iff]
    exact fun hoverflowed => absurd ((overflowed_iff row start calls now_tick).1 hoverflowed) hheard

/-! ## Scheduled -/

/-- What a stream owes the requests that come in. -/
structure Scheduled (start : UInt64) (calls : List StreamCall) (log : List (Note PendingRequestKey))
    (pending : List PendingRequestKey) : Prop where
  /-- Each has been executed, or purged, or is still pending, once. -/
  conserved : (added log).Perm (taken log ++ dropped log ++ pending) ∧ (added log).Nodup
  /-- The one that is executed is before all that wait. -/
  least : ∀ before key after, log = before ++ .taken key :: after →
    ∀ other, Waiting before other → rank key ≤ rank other
  /-- Of one tier, the first come is executed first. -/
  in_turn : (taken log).Pairwise InTurnOf
  /-- What is pending waits only for those before it, and no longer than there are such. -/
  patient : ∀ before key after, log = before ++ .added key :: after → key ∈ pending →
    (∀ other ∈ taken after, rank other < rank key) ∧
      (taken after).length ≤ ((added log).filter fun other => rank other < rank key).length
  /-- What is tagged for safety is never purged. -/
  tagged : ∀ key ∈ dropped log, key.kind.is_safety_tagged = false
  /-- The rest is purged by a look at the watchdog after silence, and by none other. -/
  silence : ∀ earlier now_tick later, calls = earlier ++ .check now_tick :: later →
    (run row start (earlier ++ [.check now_tick])).2.pending =
      if Silent row start earlier now_tick then
        (run row start earlier).2.pending.filter fun key => key.kind.is_safety_tagged
      else (run row start earlier).2.pending

/-- However arrivals, executions and looks at the watchdog follow one another, a stream that has had no more requests
than there are numbers keeps to its schedule. -/
theorem stream_scheduled (start : UInt64) (calls : List StreamCall) (hfew : (ticks calls).length ≤ 2 ^ 64) :
    Scheduled row start calls (run row start calls).1 (run row start calls).2.pending := by
  have hnumbers := numbers_increase (kept row start calls) hfew
  obtain ⟨ops, hops⟩ := run_agenda row start calls
  have hconserved := Agenda.conserved rank ops
  have hkeys : ((added (run row start calls).1).map rank).Nodup := by
    rw [List.Nodup, List.pairwise_map]
    refine hnumbers.imp fun {earlier later} hless heq => ?_
    have hseq : earlier.arrival_seq.toNat = later.arrival_seq.toNat := congrArg (fun r => (ofLex r).2) heq
    exact UInt64.lt_irrefl _ (UInt64.toNat_inj.1 hseq ▸ hless)
  have hleast := taken_least rank ops (by rw [← hops]; exact hkeys.of_map)
  have hturn := taken_in_turn rank (fun _ _ => inTurnOf_of_rank) ops (by rw [← hops]; exact hkeys)
    (by rw [← hops]; exact hnumbers.imp (S := InTurnOf) fun hless _ => hless)
  rw [← hops] at hconserved hleast hturn
  constructor
  · exact ⟨hconserved, hkeys.of_map⟩
  · exact hleast
  · exact hturn.1
  · intro before key after hlog hpending
    have hwaiting := (mem_iff hconserved hkeys.of_map).1 hpending
    dsimp only at hconserved hleast
    rw [hlog] at hconserved hleast hkeys hwaiting ⊢
    exact wait_bounded hconserved hkeys hleast hwaiting
  · exact dropped_untagged row start calls
  · exact fun earlier now_tick later _ => silence row start earlier now_tick

theorem stream_scheduled_three :
    let row : RequestStreamConfigEntry := { rx_wd_enable := true, rx_wd_timeout_interval := 10 }
    let calls : List StreamCall :=
      [.arrive .Standard 1, .arrive .SafetyTriggered 2, .execute, .arrive .SafetyCompound 3, .check 20]
    (ticks calls).length ≤ 2 ^ 64 ∧ Scheduled row 0 calls (run row 0 calls).1 (run row 0 calls).2.pending :=
  ⟨by decide, stream_scheduled _ 0 _ (by decide)⟩

end RequestStream

end RustRcp
