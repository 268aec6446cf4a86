import RustRcp.Mock
import RustRcp.Lib.Threads
/-!
# A primary and its standby

The redundant endpoint and its failover (`src/redundancy.rs`), and which calls it answers
when several of them fail on the primary at once (`failover_available`).
-/
open Stateful Threads

namespace RustRcp

/-- One of the two endpoints handed to `new`, in this order. -/
inductive Given where
  | first
  | second
  deriving DecidableEq

/-- The references it holds, behind its lock, and the endpoints they are to with what these keep. -/
structure RedundancyEndpoint (M : Type) where
  primary : Given
  secondary : Option Given
  failovers : UInt32
  endpoints : Given → Endpoint M
  memory : M

namespace RedundancyEndpoint
variable {M : Type}

def new (primary secondary : Endpoint M) (memory : M) : RedundancyEndpoint M where
  primary := .first
  secondary := some .second
  failovers := 0
  endpoints
    | .first => primary
    | .second => secondary
  memory

def failover_count (self : RedundancyEndpoint M) : UInt32 := self.failovers

/-- `op` on one of the two. -/
def on (endpoint : Given) (op : Access) : Stateful RcpError (RedundancyEndpoint M) (List UInt8) := do
  let self ← get
  within RedundancyEndpoint.memory (fun self memory => { self with memory }) ((self.endpoints endpoint).perform op)

/-- The arm where the primary has failed, up to the retry: who is promoted, if anyone is left. -/
def promote (self : RedundancyEndpoint M) : Option (Given × RedundancyEndpoint M) :=
  match self.secondary with
  | none => none
  | some sec => some (sec, { self with primary := sec, secondary := none, failovers := self.failovers + 1 })

def dispatch (op : Access) : Stateful RcpError (RedundancyEndpoint M) (List UInt8) := do
  let self ← get
  tryCatch (on self.primary op) fun primary_err => do
    match (← get).promote with
    | none => throw primary_err
    | some (primary, self) =>
      set self
      on primary op

@[simp] theorem exec_on (endpoint : Given) (op : Access) (self : RedundancyEndpoint M) :
    exec (on endpoint op) self =
      ((exec ((self.endpoints endpoint).perform op) self.memory).1,
        { self with memory := (exec ((self.endpoints endpoint).perform op) self.memory).2 }) := rfl

/-! ## Calls side by side -/

/-- How far a `dispatch` has come. -/
inductive Phase where
  | idle
  | failed (primary_err : RcpError)
  | retrying (primary : Given)
  | returned (result : Except RcpError (List UInt8))

/-- A call begun on an endpoint, or come back to the lock after the primary has failed it. -/
inductive Event (ι : Type) where
  | started (i : ι) (endpoint : Given) (fails : Bool)
  | back (i : ι) (promotes : Bool)
  deriving DecidableEq

variable {ι : Type} (calls : ι → Access)

/-- The first attempt and the promotion hold the lock, the retry does not. -/
def move : Move ι (RedundancyEndpoint M) Phase := fun i self phase =>
  match phase with
  | .idle =>
    match exec (on self.primary (calls i)) self with
    | (.ok v, self) => some (self, .returned (.ok v))
    | (.error primary_err, self) => some (self, .failed primary_err)
  | .failed primary_err =>
    match self.promote with
    -- `secondary.take()` finds nothing, also when another call has promoted it
    | none => some (self, .returned (.error primary_err))
    | some (primary, self) => some (self, .retrying primary)
  | .retrying primary =>
    let (result, self) := exec (on primary (calls i)) self
    some (self, .returned result)
  | .returned _ => none

def seen : ι → RedundancyEndpoint M → Phase → Option (Event ι) := fun i self phase =>
  match phase with
  | .idle => some (.started i self.primary (!(exec (on self.primary (calls i)) self).1.isOk))
  | .failed _ => some (.back i self.secondary.isSome)
  | .retrying primary => some (.started i primary (!(exec (on primary (calls i)) self).1.isOk))
  | .returned _ => none

/-! ## Failures at once -/

/-- The calls that an endpoint has failed. -/
def failures (log : List (Event ι)) : List ι :=
  log.filterMap fun event => match event with
    | .started i _ fails => if fails then some i else none
    | .back .. => none

/-- Those that have come back for the standby. -/
def comebacks (log : List (Event ι)) : List ι :=
  log.filterMap fun event => match event with
    | .started .. => none
    | .back i _ => some i

/-- Once an endpoint is promoted, no call is begun on the first one. -/
def Demoted (log : List (Event ι)) : Prop :=
  log.Pairwise fun earlier later => ∀ i, earlier = .back i true → ∀ j fails, later ≠ .started j .first fails

/-- Nobody has come back yet and the pair is as it was made, or the second endpoint has taken over. -/
def Standing (s : RedundancyEndpoint M) (comebacks : Nat) : Prop :=
  s.primary = .first ∧ s.secondary = some .second ∧ s.failovers = 0 ∧ comebacks = 0 ∨
    s.primary = .second ∧ s.secondary = none ∧ s.failovers = 1 ∧ 1 ≤ comebacks

/-- Whether the call is on its way back. -/
def Phase.waits : Phase → Nat
  | .failed _ => 1
  | .idle | .retrying _ | .returned _ => 0

def Phase.Lost (phase : Phase) : Prop := ∃ e, phase = .returned (.error e)

def Phase.Retries (phase : Phase) : Prop := ∀ endpoint, phase = .retrying endpoint → endpoint = .second

/-- The pair and its calls as the log has them. A call is lost when it is not the first to come back. -/
structure Tracks [DecidableEq ι] (endpoints : Given → Endpoint M) (log : List (Event ι))
    (race : Race ι (RedundancyEndpoint M) Phase) : Prop where
  endpoints : race.shared.endpoints = endpoints
  standing : Standing race.shared (comebacks log).length
  retries : ∀ i, (race.phase i).Retries
  demoted : Demoted log
  lost : (∃ i, (race.phase i).Lost) ↔ 2 ≤ (comebacks log).length
  balanced : ∀ i, (failures log).count i = (comebacks log).count i + (race.phase i).waits

variable {calls} {log : List (Event ι)} {endpoints : Given → Endpoint M} {race : Race ι (RedundancyEndpoint M) Phase}
  {i : ι}

theorem demoted_concat {event : Event ι} (h : Demoted log)
    (hevent : 1 ≤ (comebacks log).length → ∀ j fails, event ≠ .started j .first fails) : Demoted (log ++ [event]) := by
  refine List.pairwise_append.2 ⟨h, List.pairwise_singleton _ _, ?_⟩
  rintro _ hmem event' hevent' i rfl j fails rfl
  cases List.mem_singleton.1 hevent'
  have hback : i ∈ comebacks log := List.mem_filterMap.2 ⟨_, hmem, rfl⟩
  exact hevent (List.length_pos_of_mem hback) j fails rfl

@[simp] theorem comebacks_started (log : List (Event ι)) (i : ι) (endpoint : Given) (fails : Bool) :
    comebacks (log ++ [.started i endpoint fails]) = comebacks log := by
  simp [comebacks]

@[simp] theorem comebacks_back (log : List (Event ι)) (i : ι) (promotes : Bool) :
    comebacks (log ++ [.back i promotes]) = comebacks log ++ [i] := by
  simp [comebacks]

@[simp] theorem failures_started (log : List (Event ι)) (i : ι) (endpoint : Given) (fails : Bool) :
    failures (log ++ [.started i endpoint fails]) = failures log ++ if fails then [i] else [] := by
  cases fails <;> simp [failures]

@[simp] theorem failures_back (log : List (Event ι)) (i : ι) (promotes : Bool) :
    failures (log ++ [.back i promotes]) = failures log := by
  simp [failures]

/-- A call is only lost by returning an error. -/
theorem Phase.not_lost {phase : Phase} (h : ∀ result, phase ≠ .returned result) : ¬ phase.Lost := by
  rintro ⟨e, heq⟩
  exact h _ heq

variable [DecidableEq ι]

/-- A call that is left alone is dispatched. -/
theorem turns_alone {race : Race ι (RedundancyEndpoint M) Phase} {i : ι} (hidle : race.phase i = .idle) :
    run (move calls) race (List.replicate 3 i) =
      ⟨(exec (dispatch (calls i)) race.shared).2,
        Function.update race.phase i (.returned (exec (dispatch (calls i)) race.shared).1)⟩ := by
  rw [run_replicate (race.shared, .idle) hidle]
  cases hfirst : exec ((race.shared.endpoints race.shared.primary).perform (calls i)) race.shared.memory with
  | mk result memory =>
    cases result with
    | ok v => simp [alone, move, dispatch, exec_bind, exec_tryCatch, hfirst]
    | error primary_err =>
      cases hsecondary : race.shared.secondary <;>
        simp [alone, move, dispatch, exec_bind, exec_tryCatch, promote, hfirst, hsecondary]

/-- A call that an endpoint fails has to come back. -/
theorem balanced_started {phase : ι → Phase}
    (h : ∀ i, (failures log).count i = (comebacks log).count i + (phase i).waits) (hwaited : (phase i).waits = 0)
    {fails : Bool} {next : Phase} (hnext : next.waits = fails.toNat) (endpoint : Given) (j : ι) :
    (failures (log ++ [.started i endpoint fails])).count j =
      (comebacks (log ++ [.started i endpoint fails])).count j + (Function.update phase i next j).waits := by
  rw [failures_started, comebacks_started, List.count_append, h j]
  rcases eq_or_ne j i with rfl | hne
  · rw [Function.update_self, hwaited, hnext]
    cases fails <;> simp
  · rw [Function.update_of_ne hne]
    cases fails <;> simp [hne.symm]

/-- A call that waited has come back. -/
theorem balanced_back {phase : ι → Phase}
    (h : ∀ i, (failures log).count i = (comebacks log).count i + (phase i).waits) (hwaited : (phase i).waits = 1)
    {next : Phase} (hnext : next.waits = 0) (promotes : Bool) (j : ι) :
    (failures (log ++ [.back i promotes])).count j =
      (comebacks (log ++ [.back i promotes])).count j + (Function.update phase i next j).waits := by
  rw [failures_back, comebacks_back, List.count_append, h j]
  rcases eq_or_ne j i with rfl | hne
  · rw [Function.update_self, hwaited, hnext, List.count_singleton_self]
  · rw [Function.update_of_ne hne, List.count_singleton, if_neg (by simpa using hne.symm), Nat.add_zero]

/-- A call is begun on an endpoint, and not lost. It waits if the endpoint fails it. -/
theorem Tracks.started (h : Tracks endpoints log race) {endpoint : Given} {fails : Bool} {next : Phase} (memory : M)
    (hendpoint : endpoint = race.shared.primary ∨ endpoint = .second) (hretries : next.Retries)
    (hlost : ¬ (race.phase i).Lost) (hnext : ¬ next.Lost) (hwaited : (race.phase i).waits = 0)
    (hwaits : next.waits = fails.toNat) :
    Tracks endpoints (log ++ [.started i endpoint fails])
      ⟨{ race.shared with memory }, Function.update race.phase i next⟩ where
  endpoints := h.endpoints
  standing := by simpa [Standing] using h.standing
  retries := update_all h.retries hretries
  demoted := by
    refine demoted_concat h.demoted fun hback j fails heq => ?_
    cases heq
    -- somebody has come back, so the second endpoint has taken over
    rcases h.standing with ⟨-, -, -, hnone⟩ | ⟨hprimary, -⟩
    · omega
    · rcases hendpoint with heq | heq
      · cases heq.trans hprimary
      · cases heq
  lost := by
    have hsame : ∀ j, (Function.update race.phase i next j).Lost ↔ (race.phase j).Lost :=
      phase_iff Phase.Lost (iff_of_false hnext hlost)
    simp only [hsame, comebacks_started]
    exact h.lost
  balanced := balanced_started h.balanced hwaited hwaits endpoint

/-- The first to come back is promoted, whoever comes later is lost. -/
theorem Tracks.back (h : Tracks endpoints log race) {primary_err : RcpError}
    (hphase : race.phase i = .failed primary_err) :
    Tracks endpoints (log ++ noted (seen calls) race i) (turn (move calls) race i) := by
  have hfailed : ¬ (race.phase i).Lost := Phase.not_lost (by simp [hphase])
  have hwaited : (race.phase i).waits = 1 := by rw [hphase]; rfl
  rcases h.standing with ⟨hprimary, hsecondary, hfailovers, hnone⟩ | ⟨hprimary, hsecondary, hfailovers, hsome⟩
  · have hnoted : noted (seen calls) race i = [.back i true] := by simp [noted, seen, hphase, hsecondary]
    have hmove : move calls i race.shared (race.phase i) =
        some ({ race.shared with primary := .second, secondary := none, failovers := 1 }, .retrying .second) := by
      simp [move, promote, hphase, hsecondary, hfailovers]
    have hsame : ∀ j, (Function.update race.phase i (.retrying .second) j).Lost ↔ (race.phase j).Lost :=
      phase_iff Phase.Lost (iff_of_false nofun hfailed)
    rw [hnoted, turn_some hmove]
    constructor
    · exact h.endpoints
    · exact .inr ⟨rfl, rfl, rfl, by simp⟩
    · refine update_all h.retries fun endpoint heq => ?_
      cases heq
      rfl
    · exact demoted_concat h.demoted fun _ _ _ => nofun
    · simp only [hsame, h.lost, comebacks_back, List.length_append, hnone]
      simp
    · exact balanced_back h.balanced hwaited rfl true
  · have hnoted : noted (seen calls) race i = [.back i false] := by simp [noted, seen, hphase, hsecondary]
    have hmove : move calls i race.shared (race.phase i) = some (race.shared, .returned (.error primary_err)) := by
      simp [move, promote, hphase, hsecondary]
    rw [hnoted, turn_some hmove]
    constructor
    · exact h.endpoints
    · exact .inr ⟨hprimary, hsecondary, hfailovers, by simp⟩
    · exact update_all h.retries nofun
    · exact demoted_concat h.demoted fun _ _ _ => nofun
    · rw [comebacks_back, List.length_append, List.length_singleton]
      exact iff_of_true ⟨i, primary_err, Function.update_self ..⟩ (by omega)
    · exact balanced_back h.balanced hwaited rfl false

/-- Every turn is tracked, if the second endpoint does not fail. -/
theorem tracks_turn (hsecond : ∀ op memory, (exec ((endpoints .second).perform op) memory).1.isOk = true)
    (log : List (Event ι)) (race : Race ι (RedundancyEndpoint M) Phase) (i : ι) (h : Tracks endpoints log race) :
    Tracks endpoints (log ++ noted (seen calls) race i) (turn (move calls) race i) := by
  cases hphase : race.phase i with
  | idle =>
    have hidle : ¬ (race.phase i).Lost := Phase.not_lost (by simp [hphase])
    have hwaited : (race.phase i).waits = 0 := by rw [hphase]; rfl
    cases hrun : exec ((race.shared.endpoints race.shared.primary).perform (calls i)) race.shared.memory with
    | mk result memory =>
      cases result with
      | ok v =>
        have hnoted : noted (seen calls) race i = [.started i race.shared.primary false] := by
          simp [noted, seen, hphase, hrun, Except.isOk, Except.toBool]
        have hmove : move calls i race.shared (race.phase i) =
            some ({ race.shared with memory }, .returned (.ok v)) := by simp [move, hphase, hrun]
        rw [hnoted, turn_some hmove]
        exact h.started memory (.inl rfl) nofun hidle nofun hwaited rfl
      | error primary_err =>
        have hnoted : noted (seen calls) race i = [.started i race.shared.primary true] := by
          simp [noted, seen, hphase, hrun, Except.isOk, Except.toBool]
        have hmove : move calls i race.shared (race.phase i) =
            some ({ race.shared with memory }, .failed primary_err) := by simp [move, hphase, hrun]
        rw [hnoted, turn_some hmove]
        exact h.started memory (.inl rfl) nofun hidle nofun hwaited rfl
  | failed primary_err => exact h.back hphase
  | retrying endpoint =>
    obtain rfl := h.retries i endpoint hphase
    have hretrying : ¬ (race.phase i).Lost := Phase.not_lost (by simp [hphase])
    have hok := hsecond (calls i) race.shared.memory
    cases hrun : exec ((endpoints .second).perform (calls i)) race.shared.memory with
    | mk result memory =>
      rw [hrun] at hok
      have hnoted : noted (seen calls) race i = [.started i .second false] := by
        simp [noted, seen, hphase, h.endpoints, hrun, hok]
      have hmove : move calls i race.shared (race.phase i) =
          some ({ race.shared with memory }, .returned result) := by
        simp [move, hphase, h.endpoints, hrun]
      rw [hnoted, turn_some hmove]
      refine h.started memory (.inr rfl) nofun hretrying ?_ (by rw [hphase]; rfl) rfl
      rintro ⟨e, heq⟩
      cases heq
      cases hok
  | returned result =>
    have hnoted : noted (seen calls) race i = ([] : List (Event ι)) := by simp [noted, seen, hphase]
    rw [hnoted, turn_none (by simp [move, hphase]), List.append_nil]
    exact h

/-! ## Availability -/

section
variable (calls : ι → Access) (primary secondary : Endpoint M) (memory : M) (schedule : List ι)

/-- What a schedule makes of a new pair. -/
def raced : Race ι (RedundancyEndpoint M) Phase :=
  run (move calls) (fresh (new primary secondary memory) .idle) schedule

/-- What it shows. -/
def shown : List (Event ι) := trace (move calls) (seen calls) (fresh (new primary secondary memory) .idle) schedule

/-- One failover at most, the first endpoint out of use after it, and every call that has returned answered. -/
structure FailsOver : Prop where
  counted : (raced calls primary secondary memory schedule).shared.failover_count ≤ 1
  demoted : Demoted (shown calls primary secondary memory schedule)
  answered : ∀ i result, (raced calls primary secondary memory schedule).phase i = .returned result → result.isOk = true

end

theorem tracks_raced (calls : ι → Access) (primary secondary : Endpoint M)
    (hsecondary : ∀ op memory, (exec (secondary.perform op) memory).1.isOk = true) (memory : M) (schedule : List ι) :
    Tracks (new primary secondary memory).endpoints (shown calls primary secondary memory schedule)
      (raced calls primary secondary memory schedule) := by
  have hidle : ¬ Phase.idle.Lost := Phase.not_lost nofun
  have hstart : Tracks (new primary secondary memory).endpoints []
      (fresh (new primary secondary memory) .idle : Race ι (RedundancyEndpoint M) Phase) := {
    endpoints := rfl
    standing := .inl ⟨rfl, rfl, rfl, rfl⟩
    retries := fun _ => nofun
    demoted := .nil
    lost := iff_of_false (fun ⟨_, hlost⟩ => hidle hlost) (by simp [comebacks])
    balanced := fun _ => rfl }
  exact run_follows hstart (tracks_turn hsecondary) schedule

/-- Once all calls have returned nobody is on the way back. -/
theorem nobody_waits {primary secondary : Endpoint M} {memory : M} {schedule : List ι}
    (h : Finished (move calls) (fresh (new primary secondary memory) .idle) schedule) (i : ι) :
    ((raced calls primary secondary memory schedule).phase i).waits = 0 := by
  by_cases hi : i ∈ schedule
  · have hstop := h i hi
    cases hphase : (raced calls primary secondary memory schedule).phase i with
    | failed primary_err =>
      rw [raced] at hphase
      simp only [move, hphase] at hstop
      split at hstop <;> cases hstop
    | idle | retrying | returned => rfl
  · have hidle : (raced calls primary secondary memory schedule).phase i = .idle := phase_run_of_notMem hi
    rw [hidle]
    rfl

/-- Those that have failed have then come back. -/
theorem comebacks_perm {endpoints : Given → Endpoint M} {log : List (Event ι)}
    {race : Race ι (RedundancyEndpoint M) Phase} (h : Tracks endpoints log race)
    (hfinished : ∀ i, (race.phase i).waits = 0) : (comebacks log).Perm (failures log) := by
  rw [List.perm_iff_count]
  intro i
  rw [h.balanced i, hfinished i, Nat.add_zero]

/-- With a second endpoint that never fails, calls are answered in every run in which at most one of those
that the first endpoint has failed comes back for the second. Once all have returned, these are the ones
that have failed. -/
theorem failover_available (calls : ι → Access) (primary secondary : Endpoint M)
    (hsecondary : ∀ op memory, (exec (secondary.perform op) memory).1.isOk = true) (memory : M) (schedule : List ι) :
    (FailsOver calls primary secondary memory schedule ↔
        (comebacks (shown calls primary secondary memory schedule)).length ≤ 1) ∧
      (Finished (move calls) (fresh (new primary secondary memory) .idle) schedule →
        (FailsOver calls primary secondary memory schedule ↔
          (failures (shown calls primary secondary memory schedule)).length ≤ 1)) := by
  have htracks := tracks_raced calls primary secondary hsecondary memory schedule
  have hlost : (comebacks (shown calls primary secondary memory schedule)).length ≤ 1 ↔
      ¬ ∃ i, ((raced calls primary secondary memory schedule).phase i).Lost := by
    rw [htracks.lost]
    omega
  have hiff : FailsOver calls primary secondary memory schedule ↔
      (comebacks (shown calls primary secondary memory schedule)).length ≤ 1 := by
    rw [hlost]
    constructor
    · rintro h ⟨i, e, hreturned⟩
      cases h.answered i _ hreturned
    · intro hnobody
      constructor
      · rcases htracks.standing with ⟨-, -, hfailovers, -⟩ | ⟨-, -, hfailovers, -⟩ <;>
          simp [failover_count, hfailovers]
      · exact htracks.demoted
      · intro i result hreturned
        cases result with
        | ok v => rfl
        | error e => exact absurd ⟨i, e, hreturned⟩ hnobody
  refine ⟨hiff, fun hfinished => ?_⟩
  rw [hiff, (comebacks_perm htracks (nobody_waits hfinished)).length_eq]

/-- An endpoint that does not answer. -/
def unreachable : Endpoint Heap := ⟨fun _ => throw .Closed, fun _ => throw .Closed⟩

theorem mock_answers (op : Access) (heap : Heap) : (exec ((MockEndpoint 0).perform op) heap).1.isOk = true := by
  rw [mock_perform]
  cases op <;> rfl

/-- A read that comes between another call's promotion of the second endpoint and its retry there. -/
theorem failover_available_two :
    FailsOver (fun reads : Bool => if reads then .read 1 else .write [1]) unreachable (MockEndpoint 0) [[7]]
      [false, false, true, false] :=
  (failover_available (fun reads : Bool => if reads then .read 1 else .write [1]) unreachable (MockEndpoint 0)
    mock_answers [[7]] [false, false, true, false]).1.2 (by decide)

/-- Two calls fail on the first endpoint. The one that comes back first gets the second, the other its error. -/
theorem both_failed :
    (∀ op heap, (exec ((MockEndpoint 0).perform op) heap).1.isOk = true) ∧
      (raced (fun _ : Bool => .read 1) unreachable (MockEndpoint 0) [[7]]
        [false, true, false, true, false]).phase false = .returned (.ok [7]) ∧
      ¬ FailsOver (fun _ : Bool => .read 1) unreachable (MockEndpoint 0) [[7]] [false, true, false, true, false] := by
  refine ⟨mock_answers, rfl, fun h => ?_⟩
  cases h.answered true (.error .Closed) rfl

end RedundancyEndpoint

end RustRcp
