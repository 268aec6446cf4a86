import RustRcp.Concurrent
import RustRcp.Lib.Tickets
/-!
# The ids of registrations at the same time

A call reads the id it will return in its first step and uses it up in its third, so
the ids are tickets from a counter (`Logged`). `concurrent_registration` says for which
schedules the calls get ids of their own, and with them their own implementations.
-/
open Stateful Tickets

namespace RustRcp.RcServer

variable {ι M : Type} [DecidableEq ι] {calls : ι → RegisterCall M} {schedule : List ι} {i k : ι}

/-! ## The counter -/

/-- What a step is to the counter: the first of a call reads it, the third raises it. -/
def event (race : Race ι M) (i : ι) : Option (Event ι) :=
  match race.phase i with
  | .idle => some (.take i)
  | .registered _ => some (.bump i)
  | _ => none

variable (calls) in
/-- The counter's events in a run. -/
def log (general : GeneralRegisters) (memory : M) (schedule : List ι) : List (Event ι) :=
  (visits (turn calls) (start general memory) schedule).filterMap fun visit => event visit.1 visit.2

/-- The call has loaded this id. -/
def Phase.Loaded (id : EndpointId) : Phase → Prop
  | .loaded id' | .registered id' | .counted id' | .returned (.ok id') => id' = id
  | _ => False

/-- The call has raised the counter. -/
def Phase.Counted : Phase → Prop
  | .counted _ | .returned (.ok _) => True
  | _ => False

/-- The race is as the counter's events say. -/
structure Logged (log : List (Event ι)) (race : Race ι M) : Prop where
  legal : Legal log
  counter : race.server.next_endpoint_id = idOf (bumpers log).length
  taken : ∀ i, .take i ∈ log ↔ race.phase i ≠ .idle
  bumped : ∀ i, .bump i ∈ log ↔ (race.phase i).Counted
  loaded : ∀ i id, (race.phase i).Loaded id → id = idOf (ticket log i)

theorem logged_start (general : GeneralRegisters) (memory : M) :
    Logged ([] : List (Event ι)) (start general memory) where
  legal := legal_nil
  counter := rfl
  taken _ := by simp [start]
  bumped _ := by simp [start, Phase.Counted]
  loaded _ _ h := h.elim

section Turn
variable {self self' : RcServer M} {phase : ι → Phase} {events : List (Event ι)} (h : Logged events ⟨self, phase⟩)
include h

/-- A step that leaves the counter alone. -/
theorem Logged.quiet (hcounter : self'.next_endpoint_id = self.next_endpoint_id) {next : Phase}
    (hbegun : phase k ≠ .idle) (hnext : next ≠ .idle) (hcounted : next.Counted ↔ (phase k).Counted)
    (hloaded : ∀ id, next.Loaded id → (phase k).Loaded id) : Logged events ⟨self', Function.update phase k next⟩ where
  legal := h.legal
  counter := hcounter.trans h.counter
  taken i := (h.taken i).trans (update_iff (· ≠ .idle) (iff_of_true hnext hbegun) i).symm
  bumped i := (h.bumped i).trans (update_iff Phase.Counted hcounted i).symm
  loaded i id hid := by
    simp only [] at hid
    rcases eq_or_ne i k with rfl | hne
    · rw [Function.update_self] at hid
      exact h.loaded i id (hloaded id hid)
    · rw [Function.update_of_ne hne] at hid
      exact h.loaded i id hid

/-- A loaded id is the call's ticket, whatever comes next. -/
theorem Logged.ticket_concat {id : EndpointId} (hid : (phase i).Loaded id) (e : Event ι) :
    id = idOf (ticket (events ++ [e]) i) := by
  have htaken : .take i ∈ events := by
    refine (h.taken i).2 fun hidle => ?_
    simp only [] at hidle
    rw [hidle] at hid
    exact hid
  rw [ticket_append htaken]
  exact h.loaded i id hid

theorem Logged.load (hidle : phase k = .idle) :
    Logged (events ++ [.take k]) ⟨self, Function.update phase k (.loaded self.next_endpoint_id)⟩ := by
  have hnew : .take k ∉ events := fun hmem => (h.taken k).1 hmem hidle
  have hlegal := h.legal.concat hnew nofun
  constructor
  · exact hlegal
  · simpa using h.counter
  · intro i
    rcases eq_or_ne i k with rfl | hne
    · simp
    · simp [h.taken, hne]
  · intro i
    rcases eq_or_ne i k with rfl | hne
    · simp [h.bumped, hidle, Phase.Counted]
    · simp [h.bumped, hne]
  · intro i id hid
    simp only [] at hid
    rcases eq_or_ne i k with rfl | hne
    · rw [Function.update_self] at hid
      rw [hlegal.ticket_eq rfl, ← h.counter]
      exact hid.symm
    · rw [Function.update_of_ne hne] at hid
      exact h.ticket_concat hid _

theorem Logged.count {id : EndpointId} (hphase : phase k = .registered id) : Logged (events ++ [.bump k])
      ⟨{ self with next_endpoint_id := self.next_endpoint_id + 1 }, Function.update phase k (.counted id)⟩ := by
  have htaken : .take k ∈ events := (h.taken k).2 (by simp [hphase])
  have hnew : .bump k ∉ events := by simp [h.bumped, hphase, Phase.Counted]
  have hlegal := h.legal.concat hnew (by rintro i ⟨⟩; exact htaken)
  constructor
  · exact hlegal
  · have hcounter : self.next_endpoint_id = idOf (bumpers events).length := h.counter
    simp only [hcounter, idOf, bumpers_append, List.length_append, UInt32.ofNat_add]
    rfl
  · intro i
    rcases eq_or_ne i k with rfl | hne
    · simp [htaken]
    · simp [h.taken, hne]
  · intro i
    rcases eq_or_ne i k with rfl | hne
    · simp [Phase.Counted]
    · simp [h.bumped, hne]
  · intro i id' hid
    have hloaded : (phase i).Loaded id' := (update_iff (Phase.Loaded id') (by rw [hphase]; rfl) i).1 hid
    exact h.ticket_concat hloaded _

end Turn

variable (calls) in
theorem logged_turn {events : List (Event ι)} {race : Race ι M} (h : Logged events race) (k : ι) :
    Logged (events ++ (event race k).toList) (turn calls race k) := by
  obtain ⟨self, phase⟩ := race
  cases hphase : phase k with
  | idle =>
    simp only [event, turn, hphase, Option.toList_some]
    exact h.load hphase
  | loaded id =>
    simp only [event, turn, hphase, Option.toList_none, List.append_nil]
    cases self.endpoints.register (calls k).stream_id (calls k).byte_bus_id id with
    | error e =>
      exact h.quiet (by rfl) (by simp [hphase]) (by simp) (by simp [hphase, Phase.Counted]) fun _ => False.elim
    | ok endpoints =>
      exact h.quiet (by rfl) (by simp [hphase]) (by simp) (by simp [hphase, Phase.Counted])
        (by simp [hphase, Phase.Loaded])
  | registered id =>
    simp only [event, turn, hphase, Option.toList_some]
    exact h.count hphase
  | counted id =>
    simp only [event, turn, hphase, Option.toList_none, List.append_nil]
    exact h.quiet (by rfl) (by simp [hphase]) (by simp) (by simp [hphase, Phase.Counted])
      (by simp [hphase, Phase.Loaded])
  | returned result =>
    simp only [event, turn, hphase, Option.toList_none, List.append_nil]
    exact h

theorem log_append (general : GeneralRegisters) (memory : M) (schedule rest : List ι) :
    log calls general memory (schedule ++ rest) = log calls general memory schedule ++
      (visits (turn calls) (raced calls general memory schedule) rest).filterMap
        fun visit => event visit.1 visit.2 := by
  rw [log, visits_append, List.filterMap_append, log, raced]

variable (calls) in
theorem logged_run (general : GeneralRegisters) (memory : M) (schedule : List ι) :
    Logged (log calls general memory schedule) (raced calls general memory schedule) := by
  induction schedule using List.reverseRecOn with
  | nil => exact logged_start general memory
  | append_singleton schedule k ih =>
    have hturn := logged_turn calls ih k
    rw [raced, List.foldl_concat, ← raced, log_append]
    cases hevent : event (raced calls general memory schedule) k with
    | none => simpa [visits, hevent] using hturn
    | some e => simpa [visits, hevent] using hturn

/-! ## Orders that keep the calls apart -/

theorem Phase.counted_iff {p : Phase} {steps : Nat} {wins : Prop} (h : p.At steps wins) :
    p.Counted ↔ 3 ≤ steps ∧ wins := by
  rcases p with _ | _ | _ | _ | _ | _ <;> simp only [Phase.At] at h <;> simp only [Phase.Counted]
  · simp [h]
  · simp [h]
  · simp [h]
  · simp [h]
  · simp [h]
  · simpa [h.2] using Nat.le_trans (by decide) h.1

theorem Phase.idle_iff {p : Phase} {steps : Nat} {wins : Prop} (h : p.At steps wins) : p = .idle ↔ steps = 0 := by
  rcases p with _ | _ | _ | _ | _ | _ <;> simp only [Phase.At] at h <;> simp <;> omega

theorem Wins.of_append {rest : List ι} (h : Wins calls (schedule ++ rest) i) (hsteps : 2 ≤ schedule.count i) :
    Wins calls schedule i := by
  obtain ⟨before, after, hsplit, hone, hfirst⟩ := h.first
  rcases List.append_eq_append_iff.1 hsplit with ⟨gap, rfl, -⟩ | ⟨gap, rfl, hgap⟩
  · rw [List.count_append] at hone
    omega
  · cases gap with
    | nil =>
      rw [List.append_nil] at hsteps
      omega
    | cons j gap =>
      rw [List.cons_append, List.cons.injEq] at hgap
      obtain ⟨rfl, -⟩ := hgap
      exact ⟨h.fits, before, gap, rfl, hone, hfirst⟩

theorem OneByOne.initial {rest : List ι} (h : OneByOne calls (schedule ++ rest)) : OneByOne calls schedule where
  alone before i after hsplit hload hi j hj :=
    h.alone before i (after ++ rest) (by rw [hsplit]; simp) hload (hi.append rest) j (hj.append rest)
  few winners hnodup hwins := h.few winners hnodup fun i hi => (hwins i hi).append rest
  device i hi := h.device i (hi.append rest)

section Runs
variable (general : GeneralRegisters) (memory : M)

theorem take_mem_log : .take i ∈ log calls general memory schedule ↔ schedule.count i ≠ 0 := by
  rw [(logged_run calls general memory schedule).taken, Ne,
    Phase.idle_iff ((follows_run calls general memory schedule).stage i)]

theorem bump_mem_log :
    .bump i ∈ log calls general memory schedule ↔ 3 ≤ schedule.count i ∧ Wins calls schedule i := by
  rw [(logged_run calls general memory schedule).bumped,
    Phase.counted_iff ((follows_run calls general memory schedule).stage i)]

/-- A call that reads the counter makes its first step. -/
theorem log_split {before' after' : List (Event ι)}
    (h : log calls general memory schedule = before' ++ .take i :: after') :
    ∃ before after, schedule = before ++ i :: after ∧ before.count i = 0 ∧
      before' = log calls general memory before := by
  obtain ⟨visits₁, visits₂, hvisits, rfl, hrest⟩ := List.filterMap_eq_append_iff.1 h
  obtain ⟨quiet, ⟨race, k⟩, visits₃, rfl, hquiet, hevent, -⟩ := List.filterMap_eq_cons_iff.1 hrest
  rw [← List.append_assoc] at hvisits
  obtain ⟨before, after, rfl, hbefore, rfl⟩ := visits_split _ hvisits
  have hidle : (raced calls general memory before).phase k = .idle ∧ k = i := by
    change event (raced calls general memory before) k = some (.take i) at hevent
    unfold event at hevent
    cases hphase : (raced calls general memory before).phase k <;> simp_all
  obtain ⟨hidle, rfl⟩ := hidle
  -- what comes before it in the log is the log of the steps before it
  refine ⟨before, after, rfl, ?_, ?_⟩
  · exact (Phase.idle_iff ((follows_run calls general memory before).stage k)).1 hidle
  · have hnone : quiet.filterMap (fun visit => event visit.1 visit.2) = [] := List.filterMap_eq_nil_iff.2 hquiet
    rw [log, ← hbefore, List.filterMap_append, hnone, List.append_nil]

theorem OneByOne.alone_log (h : OneByOne calls schedule) :
    Alone (log calls general memory schedule) ∧ (bumpers (log calls general memory schedule)).length ≤ 2 ^ 32 := by
  constructor
  · intro before' i after' hsplit hi j hj htake
    obtain ⟨before, after, rfl, hload, rfl⟩ := log_split general memory hsplit
    have hwins := ((bump_mem_log general memory).1 hj).2
    have hbegun := (take_mem_log general memory).1 htake
    have hsteps : 3 ≤ before.count j := by
      have := h.alone before i after rfl hload ((bump_mem_log general memory).1 hi).2 j hwins
      omega
    exact (bump_mem_log general memory).2 ⟨hsteps, hwins.of_append (by omega)⟩
  · refine h.few _ (nodup_bumpers (logged_run calls general memory schedule).legal.nodup) fun i hi => ?_
    exact ((bump_mem_log general memory).1 (mem_bumpers.1 hi)).2

variable (calls) in
/-- Every call that has begun has returned. -/
def Finished (general : GeneralRegisters) (memory : M) (schedule : List ι) : Prop :=
  ∀ i ∈ schedule, ∃ result, (raced calls general memory schedule).phase i = .returned result

theorem Finished.steps (h : Finished calls general memory schedule) (hwins : Wins calls schedule i) :
    3 ≤ schedule.count i := by
  have hstage := (follows_run calls general memory schedule).stage i
  have hmem : i ∈ schedule := List.count_pos_iff.1 (Nat.lt_of_lt_of_le (by decide) hwins.steps)
  obtain ⟨result, hresult⟩ := h i hmem
  rw [hresult] at hstage
  cases result with
  | ok id => exact Nat.le_trans (by decide) hstage.1
  | error e => exact absurd hwins hstage.2

theorem Finished.one_by_one (h : Finished calls general memory schedule)
    (halone : Alone (log calls general memory schedule))
    (hfew : (bumpers (log calls general memory schedule)).length ≤ 2 ^ 32)
    (hdevice : ∀ i, Wins calls schedule i → (calls i).byte_bus_id ≠ EP0_BYTE_BUS_ID) : OneByOne calls schedule where
  alone before i after hsplit hload hi j hj := by
    by_contra hbetween
    have hbump : ∀ {k}, Wins calls schedule k → .bump k ∈ log calls general memory schedule :=
      fun hk => (bump_mem_log general memory).2 ⟨h.steps general memory hk, hk⟩
    obtain ⟨rest, hlog⟩ : ∃ rest, log calls general memory schedule =
        log calls general memory before ++ .take i :: rest := by
      have hidle := (Phase.idle_iff ((follows_run calls general memory before).stage i)).2 hload
      refine ⟨(visits (turn calls) (raced calls general memory (before ++ [i])) after).filterMap
        fun visit => event visit.1 visit.2, ?_⟩
      rw [hsplit, List.append_cons, log_append, log_append]
      simp [visits, event, hidle]
    -- `j` has read the counter, so it has raised it as well
    have htake : .take j ∈ log calls general memory before := (take_mem_log general memory).2 (by omega)
    have := (bump_mem_log general memory).1 (halone _ i rest hlog (hbump hi) j (hbump hj) htake)
    omega
  few winners hnodup hwins := by
    have hsub : winners ⊆ bumpers (log calls general memory schedule) := by
      intro i hi
      have hwin := hwins i hi
      exact mem_bumpers.2 ((bump_mem_log general memory).2 ⟨h.steps general memory hwin, hwin⟩)
    exact (hnodup.subperm hsub).length_le.trans hfew
  device := hdevice

end Runs

/-! ## Ids and implementations -/

variable (calls) in
/-- Calls that have succeeded have ids of their own, requests for their addresses are calls of their own
implementations, because the server asks whatever is stored under their ids, and nobody else has
registered an address. -/
structure Sound (race : Race ι M) : Prop where
  distinct : ∀ i j id, race.phase i = .returned (.ok id) → race.phase j = .returned (.ok id) → i = j
  dispatched : ∀ i id, race.phase i = .returned (.ok id) →
    race.server.ServedBy (calls i).stream_id (calls i).byte_bus_id (calls i).endpoint
  stored : ∀ i id, race.phase i = .returned (.ok id) → ∀ endpoint,
    RcServer.ServedBy
      { race.server with endpoint_impls := Function.update race.server.endpoint_impls id (some endpoint) }
      (calls i).stream_id (calls i).byte_bus_id endpoint
  registered : ∀ stream bus id, race.server.endpoints.lookup stream bus = some id →
    ∃ i, (calls i).stream_id = stream ∧ (calls i).byte_bus_id = bus ∧ (race.phase i).Holds id

theorem idOf_eq_iff {m n : Nat} : idOf m = idOf n ↔ m % 2 ^ 32 = n % 2 ^ 32 := by
  rw [idOf, idOf, ← UInt32.toNat_inj, UInt32.toNat_ofNat', UInt32.toNat_ofNat']

/-- The id of a call that has succeeded is its ticket. -/
theorem returned_ticket {events : List (Event ι)} {race : Race ι M} (h : Logged events race) {id : EndpointId}
    (hi : race.phase i = .returned (.ok id)) : .bump i ∈ events ∧ id = idOf (ticket events i) := by
  refine ⟨(h.bumped i).2 ?_, h.loaded i id ?_⟩
  · rw [hi]
    trivial
  · rw [hi]
    rfl

theorem OneByOne.sound (h : OneByOne calls schedule) (general : GeneralRegisters) (memory : M) :
    Sound calls (raced calls general memory schedule) := by
  have hlogged := logged_run calls general memory schedule
  have hfollows := follows_run calls general memory schedule
  have htickets := (tickets_distinct_iff hlogged.legal (by decide)).2 (h.alone_log general memory)
  have hdistinct : ∀ i j id, (raced calls general memory schedule).phase i = .returned (.ok id) →
      (raced calls general memory schedule).phase j = .returned (.ok id) → i = j := by
    intro i j id hi hj
    obtain ⟨hbump, rfl⟩ := returned_ticket hlogged hi
    obtain ⟨hbump', hid⟩ := returned_ticket hlogged hj
    exact htickets i j hbump hbump' (idOf_eq_iff.1 hid)
  have hheld : ∀ i id, (raced calls general memory schedule).phase i = .returned (.ok id) →
      (raced calls general memory schedule).server.endpoints.lookup (calls i).stream_id (calls i).byte_bus_id =
        some id := by
    intro i id hi
    refine hfollows.held i id ?_
    rw [hi]
    rfl
  have hdevice : ∀ i id, (raced calls general memory schedule).phase i = .returned (.ok id) →
      (calls i).byte_bus_id ≠ EP0_BYTE_BUS_ID := by
    intro i id hi
    have hstage := hfollows.stage i
    rw [hi] at hstage
    exact h.device i hstage.2
  refine ⟨hdistinct, fun i id hi => served_by (hdevice i id hi) ?_,
    fun i id hi endpoint => served_by (hdevice i id hi) ?_, hfollows.owner⟩
  · -- the implementation stored last under this id is that of a call that returned it
    obtain ⟨j, hj, himpl⟩ := hfollows.implemented i id hi
    obtain rfl := hdistinct i j id hi hj
    rw [endpointFor, hheld i id hi, Option.bind_some, himpl]
  · rw [endpointFor, hheld i id hi, Option.bind_some]
    exact Function.update_self ..

theorem Finished.one_by_one_of_sound {general : GeneralRegisters} {memory : M}
    (h : Finished calls general memory schedule) (hsound : Sound calls (raced calls general memory schedule)) :
    OneByOne calls schedule := by
  have hlogged := logged_run calls general memory schedule
  have hreturned : ∀ i, .bump i ∈ log calls general memory schedule → (raced calls general memory schedule).phase i =
      .returned (.ok (idOf (ticket (log calls general memory schedule) i))) := by
    intro i hi
    have hmem : i ∈ schedule := by
      have := ((bump_mem_log general memory).1 hi).1
      exact List.count_pos_iff.1 (by omega)
    obtain ⟨result, hresult⟩ := h i hmem
    have hcounted := (hlogged.bumped i).1 hi
    rw [hresult] at hcounted
    cases result with
    | error e => exact hcounted.elim
    | ok id => rw [hresult, (returned_ticket hlogged hresult).2]
  have hdevice : ∀ i, Wins calls schedule i → (calls i).byte_bus_id ≠ EP0_BYTE_BUS_ID := by
    intro i hi hzero
    have hdone := hreturned i ((bump_mem_log general memory).2 ⟨h.steps general memory hi, hi⟩)
    -- an implementation that refuses everything would be asked here, and the registers answer
    have hserved := hsound.stored i _ hdone { read := fun _ => throw .EpError, write := fun _ => throw .EpError }
    rw [hzero] at hserved
    exact not_served_by_ep0 _ _ hserved
  obtain ⟨halone, hfew⟩ := (tickets_distinct_iff hlogged.legal (by decide)).1 fun i j hi hj heq =>
    hsound.distinct i j _ (hreturned i hi) (idOf_eq_iff.2 heq ▸ hreturned j hj)
  exact h.one_by_one general memory halone hfew hdevice

/-- When calls that run side by side keep their ids and implementations apart: at any time as long as
they load one at a time and are for devices, and once all have returned only then. -/
theorem concurrent_registration (calls : ι → RegisterCall M) (general : GeneralRegisters) (memory : M)
    (schedule : List ι) :
    (OneByOne calls schedule → ∀ done rest, schedule = done ++ rest → Sound calls (raced calls general memory done)) ∧
      (Finished calls general memory schedule →
        (Sound calls (raced calls general memory schedule) ↔ OneByOne calls schedule)) := by
  constructor
  · rintro h done rest rfl
    exact h.initial.sound general memory
  · intro h
    exact ⟨h.one_by_one_of_sound, fun hone => hone.sound general memory⟩

/-- Two calls for two addresses, both of which load before either raises the counter: both return id 0. -/
theorem registrations_collide :
    let calls : Bool → RegisterCall Heap := fun i =>
      ⟨⟨#v[2, 0, 0, 0, 0, 1], 1⟩, if i then 6 else 5, MockEndpoint (if i then 1 else 0)⟩
    let schedule := [false, true, false, true, false, true, false, true]
    Finished calls {} [[1], [2]] schedule ∧
      (raced calls {} [[1], [2]] schedule).phase false = .returned (.ok 0) ∧
      (raced calls {} [[1], [2]] schedule).phase true = .returned (.ok 0) ∧
      (exec (handle_abb ⟨#v[2, 0, 0, 0, 0, 1], 1⟩
        { info := { byte_bus_id := 5, read_size_segment := ⟨1⟩ }, payload := [] })
        (raced calls {} [[1], [2]] schedule).server).1.map AcfAbbMessage.payload = .ok [2] ∧
      ¬ Sound calls (raced calls {} [[1], [2]] schedule) := by
  intro calls schedule
  have hfalse : (raced calls {} [[1], [2]] schedule).phase false = .returned (.ok 0) := by decide +kernel
  have htrue : (raced calls {} [[1], [2]] schedule).phase true = .returned (.ok 0) := by decide +kernel
  refine ⟨?_, hfalse, htrue, by decide +kernel, fun h => Bool.false_ne_true (h.distinct _ _ _ hfalse htrue)⟩
  rintro (_ | _) -
  · exact ⟨_, hfalse⟩
  · exact ⟨_, htrue⟩

end RustRcp.RcServer
