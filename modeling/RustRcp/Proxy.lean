import RustRcp.Mock
import RustRcp.Lib.RwLock
/-!
# Hot swap

The proxy endpoint (`src/proxy.rs`), called from any number of threads. A call takes the lock,
works under it and gives it back, one step each. `hot_swap_barrier`: a call is served by one
endpoint or by none, and from the moment an endpoint is replaced until it is put in again no
call reaches it.
-/
open Stateful Threads

namespace RustRcp

/-! ## Calls one at a time -/

/-- The endpoint delegated to, the lock on it, and what each endpoint keeps. -/
structure ProxyEndpoint (ι κ M : Type) where
  inner : Option κ
  lock : RwLock ι
  memory : κ → M

namespace ProxyEndpoint

/-- What a read or a write returns. -/
abbrev Answer := Except RcpError (List UInt8)

variable {ι κ M : Type} [DecidableEq ι] [DecidableEq κ]

def new (inner : κ) (memory : κ → M) : ProxyEndpoint ι κ M := { inner := some inner, lock := .free, memory }

def swap (self : ProxyEndpoint ι κ M) (new_inner : κ) : ProxyEndpoint ι κ M := { self with inner := some new_inner }

def detach (self : ProxyEndpoint ι κ M) : ProxyEndpoint ι κ M := { self with inner := none }

variable (endpoint : κ → Endpoint M)

/-- `read` and `write`. -/
def access (self : ProxyEndpoint ι κ M) (a : Access) : Answer × ProxyEndpoint ι κ M :=
  match self.inner with
  | some ep =>
    let (answer, memory) := exec ((endpoint ep).perform a) (self.memory ep)
    (answer, { self with memory := Function.update self.memory ep memory })
  | none => (.error .NotConnected, self)

/-! ## Calls side by side -/

/-- `swap` and `detach` assign what they put in. -/
inductive Call (κ : Type) where
  | access (a : Access)
  | replace (new_inner : Option κ)

inductive Phase (κ : Type) where
  | idle
  /-- The read guard is held. -/
  | reading
  | running (ep : κ)
  | answered (served : Option κ) (answer : Answer)
  | returned (served : Option κ) (answer : Answer)
  /-- The write guard is held. -/
  | writing
  | replaced (old : Option κ)
  | swapped (old : Option κ)

def Phase.Reads : Phase κ → Prop
  | .reading | .running _ | .answered .. => True
  | _ => False

def Phase.Writes : Phase κ → Prop
  | .writing | .replaced _ => True
  | _ => False

/-- A call begins or ends on an endpoint, or the endpoint is replaced. -/
inductive Event (ι κ : Type) where
  | started (i : ι) (ep : κ)
  | ended (i : ι) (ep : κ) (answer : Answer)
  | assigned (i : ι) (old new_inner : Option κ)

def Event.caller : Event ι κ → ι
  | .started i _ | .ended i .. | .assigned i .. => i

variable (calls : ι → Call κ)

def move : Move ι (ProxyEndpoint ι κ M) (Phase κ) := fun i self phase =>
  match calls i, phase with
  | .access _, .idle => (self.lock.read i).map fun lock => ({ self with lock }, .reading)
  | .access _, .reading =>
    match self.inner with
    | some ep => some (self, .running ep)
    | none => some (self, .answered none (.error .NotConnected))
  -- under the read guard: no `swap` comes between the look and the end of the call
  | .access a, .running ep =>
    let (answer, memory) := exec ((endpoint ep).perform a) (self.memory ep)
    some ({ self with memory := Function.update self.memory ep memory }, .answered (some ep) answer)
  | .access _, .answered served answer => some ({ self with lock := self.lock.unread i }, .returned served answer)
  | .replace _, .idle => (self.lock.write i).map fun lock => ({ self with lock }, .writing)
  | .replace new_inner, .writing => some ({ self with inner := new_inner }, .replaced self.inner)
  | .replace _, .replaced old => some ({ self with lock := self.lock.unwrite }, .swapped old)
  | _, _ => none

def seen : ι → ProxyEndpoint ι κ M → Phase κ → Option (Event ι κ) := fun i self phase =>
  match calls i, phase with
  | .access _, .reading => self.inner.map fun ep => .started i ep
  | .access a, .running ep => some (.ended i ep (exec ((endpoint ep).perform a) (self.memory ep)).1)
  | .replace new_inner, .writing => some (.assigned i self.inner new_inner)
  | _, _ => none

/-- Every step there is, and what is seen of it. -/
inductive Step (i : ι) (self : ProxyEndpoint ι κ M) :
    Phase κ → ProxyEndpoint ι κ M → Phase κ → Option (Event ι κ) → Prop
  | guard {a lock} (hcall : calls i = .access a) (hlock : self.lock.read i = some lock) :
    Step i self .idle { self with lock } .reading none
  | found {a ep} (hcall : calls i = .access a) (hinner : self.inner = some ep) :
    Step i self .reading self (.running ep) (some (.started i ep))
  | missing {a} (hcall : calls i = .access a) (hinner : self.inner = none) :
    Step i self .reading self (.answered none (.error .NotConnected)) none
  | served {a ep} (hcall : calls i = .access a) :
    Step i self (.running ep)
      { self with memory := Function.update self.memory ep (exec ((endpoint ep).perform a) (self.memory ep)).2 }
      (.answered (some ep) (exec ((endpoint ep).perform a) (self.memory ep)).1)
      (some (.ended i ep (exec ((endpoint ep).perform a) (self.memory ep)).1))
  | unguard {a served answer} (hcall : calls i = .access a) :
    Step i self (.answered served answer) { self with lock := self.lock.unread i } (.returned served answer) none
  | exclude {new_inner lock} (hcall : calls i = .replace new_inner) (hlock : self.lock.write i = some lock) :
    Step i self .idle { self with lock } .writing none
  | assign {new_inner} (hcall : calls i = .replace new_inner) :
    Step i self .writing { self with inner := new_inner } (.replaced self.inner)
      (some (.assigned i self.inner new_inner))
  | release {new_inner old} (hcall : calls i = .replace new_inner) :
    Step i self (.replaced old) { self with lock := self.lock.unwrite } (.swapped old) none

variable {endpoint calls} {race : Race ι (ProxyEndpoint ι κ M) (Phase κ)} {i : ι}

theorem step_of_move {self self' : ProxyEndpoint ι κ M} {phase phase' : Phase κ}
    (h : move endpoint calls i self phase = some (self', phase')) :
    Step endpoint calls i self phase self' phase' (seen endpoint calls i self phase) := by
  cases hcall : calls i with
  | access a =>
    cases phase with
    | idle =>
      simp only [move, seen, hcall, Option.map_eq_some_iff] at h ⊢
      obtain ⟨lock, hlock, hnext⟩ := h
      cases hnext
      exact .guard hcall hlock
    | reading =>
      cases hinner : self.inner with
      | none =>
        simp only [move, seen, hcall, hinner, Option.map_none] at h ⊢
        cases h
        exact .missing hcall hinner
      | some ep =>
        simp only [move, seen, hcall, hinner, Option.map_some] at h ⊢
        cases h
        exact .found hcall hinner
    | running ep =>
      simp only [move, seen, hcall] at h ⊢
      cases h
      exact .served hcall
    | answered served answer =>
      simp only [move, seen, hcall] at h ⊢
      cases h
      exact .unguard hcall
    | returned | writing | replaced | swapped =>
      simp only [move, hcall] at h
      cases h
  | replace new_inner =>
    cases phase with
    | idle =>
      simp only [move, seen, hcall, Option.map_eq_some_iff] at h ⊢
      obtain ⟨lock, hlock, hnext⟩ := h
      cases hnext
      exact .exclude hcall hlock
    | writing =>
      simp only [move, seen, hcall] at h ⊢
      cases h
      exact .assign hcall
    | replaced old =>
      simp only [move, seen, hcall] at h ⊢
      cases h
      exact .release hcall
    | reading | running | answered | returned | swapped =>
      simp only [move, hcall] at h
      cases h

theorem seen_of_stuck {self : ProxyEndpoint ι κ M} {phase : Phase κ} (h : move endpoint calls i self phase = none) :
    seen endpoint calls i self phase = none := by
  cases hcall : calls i <;> cases phase <;> simp_all [move, seen]
  split at h <;> simp_all

/-- The steps of a read or a write with nobody in between are the function. -/
theorem access_alone {a : Access} {lock : RwLock ι} (hcall : calls i = .access a) (hidle : race.phase i = .idle)
    (hlock : race.shared.lock.read i = some lock) :
    run (move endpoint calls) race (List.replicate 4 i) =
      ⟨{ (race.shared.access endpoint a).2 with lock := lock.unread i },
        Function.update race.phase i (.returned race.shared.inner (race.shared.access endpoint a).1)⟩ := by
  rw [run_replicate (race.shared, .idle) hidle]
  cases hinner : race.shared.inner <;> simp [alone, move, hcall, hlock, hinner, access]

/-- So are those of a swap or a detach. -/
theorem replace_alone {new_inner : Option κ} {lock : RwLock ι} (hcall : calls i = .replace new_inner)
    (hidle : race.phase i = .idle) (hlock : race.shared.lock.write i = some lock) :
    run (move endpoint calls) race (List.replicate 3 i) =
      ⟨{ new_inner.elim race.shared.detach race.shared.swap with lock := lock.unwrite },
        Function.update race.phase i (.swapped race.shared.inner)⟩ := by
  rw [run_replicate (race.shared, .idle) hidle]
  cases new_inner <;> simp [alone, move, hcall, hlock, swap, detach]

/-- A turn is a step, or nothing. -/
theorem turn_cases (race : Race ι (ProxyEndpoint ι κ M) (Phase κ)) (i : ι) :
    (turn (move endpoint calls) race i = race ∧ noted (seen endpoint calls) race i = []) ∨
    ∃ self' phase' event, Step endpoint calls i race.shared (race.phase i) self' phase' event ∧
      turn (move endpoint calls) race i = ⟨self', Function.update race.phase i phase'⟩ ∧
      noted (seen endpoint calls) race i = event.toList := by
  cases hmove : move endpoint calls i race.shared (race.phase i) with
  | none => exact .inl ⟨turn_none hmove, by rw [noted, seen_of_stuck hmove]; rfl⟩
  | some next => exact .inr ⟨_, _, _, step_of_move hmove, turn_some hmove, rfl⟩

/-! ## The lock and the endpoint -/

/-- The lock is held in the phases that have a guard, and calls run on the endpoint that is in. -/
structure Guarded (race : Race ι (ProxyEndpoint ι κ M) (Phase κ)) : Prop where
  held : RwLock.Held Phase.Reads Phase.Writes race.shared.lock race.phase
  current : ∀ j ep, race.phase j = .running ep → race.shared.inner = some ep

omit [DecidableEq ι] [DecidableEq κ] in
theorem guarded_new (inner : κ) (memory : κ → M) : Guarded (fresh (new (ι := ι) inner memory) .idle) where
  held := RwLock.held_free (fun _ h => h) (fun _ h => h)
  current := nofun

omit [DecidableEq κ] in
/-- Whoever runs after a step has begun with it, or ran before. -/
theorem running_update {phase : ι → Phase κ} {next : Phase κ} {j : ι} {ep : κ}
    (h : Function.update phase i next j = .running ep) : next = .running ep ∨ phase j = .running ep := by
  rcases eq_or_ne j i with rfl | hne
  · rw [Function.update_self] at h
    exact .inl h
  · rw [Function.update_of_ne hne] at h
    exact .inr h

theorem Guarded.after_turn (h : Guarded race) (i : ι) : Guarded (turn (move endpoint calls) race i) := by
  rcases turn_cases race i with ⟨hturn, -⟩ | ⟨self', phase', event, hstep, hturn, -⟩
  · rwa [hturn]
  rw [hturn]
  generalize hphase : race.phase i = phase at hstep
  have hkeep : ∀ {next : Phase κ}, (∀ ep, next ≠ .running ep) → ∀ j ep,
      Function.update race.phase i next j = .running ep → race.shared.inner = some ep :=
    fun hnext j ep hrunning => h.current j ep ((running_update hrunning).resolve_left (hnext ep))
  cases hstep with
  | guard hcall hlock => exact ⟨h.held.read hlock trivial nofun, hkeep nofun⟩
  | found hcall hinner =>
    refine ⟨h.held.keep (by rw [hphase]; rfl) (by rw [hphase]; rfl), fun j ep hrunning => ?_⟩
    rcases running_update hrunning with heq | hold
    · cases heq
      exact hinner
    · exact h.current j ep hold
  | missing hcall hinner => exact ⟨h.held.keep (by rw [hphase]; rfl) (by rw [hphase]; rfl), hkeep nofun⟩
  | served hcall => exact ⟨h.held.keep (by rw [hphase]; rfl) (by rw [hphase]; rfl), hkeep nofun⟩
  | unguard hcall => exact ⟨h.held.unread (by rw [hphase]; exact id) id id, hkeep nofun⟩
  | exclude hcall hlock => exact ⟨h.held.write hlock id trivial, hkeep nofun⟩
  | assign hcall =>
    -- while this call holds the guard nobody runs on what it replaces
    refine ⟨h.held.keep (by rw [hphase]; rfl) (by rw [hphase]; rfl), fun j ep hrunning => ?_⟩
    rcases running_update hrunning with heq | hold
    · cases heq
    · have hreads := h.held.alone (j := i) (by rw [hphase]; trivial) j
      rw [hold] at hreads
      exact absurd trivial hreads
  | release hcall => exact ⟨h.held.unwrite (by rw [hphase]; trivial) id id, hkeep nofun⟩

/-! ## Who serves a call -/

/-- The events of one call. -/
def own (i : ι) (events : List (Event ι κ)) : List (Event ι κ) := events.filter fun event => event.caller = i

variable (endpoint calls) in
/-- A call with this answer ran on the one endpoint that gave it, or, where there was none, on none. -/
def Served (i : ι) (events : List (Event ι κ)) (served : Option κ) (answer : Answer) : Prop :=
  ∃ a, calls i = .access a ∧
    match served with
    | some ep =>
      own i events = [.started i ep, .ended i ep answer] ∧
        ∃ memory, answer = (exec ((endpoint ep).perform a) memory).1
    | none => own i events = [] ∧ answer = .error .NotConnected

variable (endpoint calls) in
def Phase.At (events : List (Event ι κ)) (i : ι) : Phase κ → Prop
  | .idle | .reading => own i events = []
  | .running ep => own i events = [.started i ep]
  | .answered served answer | .returned served answer => Served endpoint calls i events served answer
  | .writing | .replaced _ | .swapped _ => True

omit [DecidableEq κ] in
theorem own_append (events : List (Event ι κ)) (event : Event ι κ) :
    own event.caller (events ++ [event]) = own event.caller events ++ [event] := by
  simp [own]

omit [DecidableEq κ] in
/-- Only its own events change where a call is. -/
theorem Phase.At.of_own {events later : List (Event ι κ)} {phase : Phase κ} (h : phase.At endpoint calls events i)
    (hown : own i later = own i events) : phase.At endpoint calls later i := by
  cases phase <;> simp_all [Phase.At, Served]

theorem Step.caller {self self' : ProxyEndpoint ι κ M} {phase phase' : Phase κ} {event : Option (Event ι κ)}
    (h : Step endpoint calls i self phase self' phase' event) : ∀ e ∈ event, e.caller = i := by
  cases h <;> simp [Event.caller]

theorem at_turn (events : List (Event ι κ)) (race : Race ι (ProxyEndpoint ι κ M) (Phase κ)) (i : ι)
    (h : ∀ j, (race.phase j).At endpoint calls events j) :
    ∀ j, ((turn (move endpoint calls) race i).phase j).At endpoint calls
      (events ++ noted (seen endpoint calls) race i) j := by
  rcases turn_cases race i with ⟨hturn, hnoted⟩ | ⟨self', phase', event, hstep, hturn, hnoted⟩
  · rwa [hturn, hnoted, List.append_nil]
  rw [hturn, hnoted]
  intro j
  rcases eq_or_ne j i with rfl | hne
  · simp only [Function.update_self]
    have hat := h j
    generalize race.phase j = phase at hat hstep
    cases hstep with
    | guard hcall hlock => simpa [Phase.At] using hat
    | @found a ep hcall hinner =>
      have hown := own_append events (.started j ep)
      rwa [Event.caller, hat] at hown
    | missing hcall hinner => exact ⟨_, hcall, by simpa [Phase.At] using hat, rfl⟩
    | @served a ep hcall =>
      have hown := own_append events (.ended j ep (exec ((endpoint ep).perform a) (race.shared.memory ep)).1)
      rw [Event.caller, hat] at hown
      exact ⟨a, hcall, hown, _, rfl⟩
    | unguard hcall => simpa [Phase.At] using hat
    | exclude hcall hlock | assign hcall | release hcall => trivial
  · simp only [Function.update_of_ne hne]
    refine (h j).of_own ?_
    have hothers : own j event.toList = [] := by
      rw [own, List.filter_eq_nil_iff]
      intro e he
      simp [hstep.caller e (Option.mem_toList.1 he), hne.symm]
    rw [own, List.filter_append, ← own, ← own, hothers, List.append_nil]

/-! ## The barrier -/

/-- An endpoint that is not in, as it was left: nobody has begun to run on it. -/
structure Away (ep : κ) (kept : M) (events : List (Event ι κ)) (race : Race ι (ProxyEndpoint ι κ M) (Phase κ)) :
    Prop where
  guarded : Guarded race
  out : race.shared.inner ≠ some ep
  memory : race.shared.memory ep = kept
  unstarted : ∀ i, .started i ep ∉ events

omit [DecidableEq ι] [DecidableEq κ] in
/-- Nobody runs on an endpoint that is not in. -/
theorem Away.idle {ep : κ} {kept : M} {events : List (Event ι κ)} (h : Away ep kept events race) (i : ι) :
    race.phase i ≠ .running ep :=
  fun hrunning => h.out (h.guarded.current i ep hrunning)

theorem Away.after_turn {ep : κ} {kept : M} {events : List (Event ι κ)} (h : Away ep kept events race) (i : ι)
    (hnot : ∀ k old, .assigned k old (some ep) ∉ noted (seen endpoint calls) race i) :
    Away ep kept (events ++ noted (seen endpoint calls) race i) (turn (move endpoint calls) race i) := by
  have hguarded : Guarded (turn (move endpoint calls) race i) := h.guarded.after_turn i
  rcases turn_cases race i with ⟨hturn, hnoted⟩ | ⟨self', phase', event, hstep, hturn, hnoted⟩
  · rwa [hturn, hnoted, List.append_nil]
  rw [hnoted] at hnot
  rw [hturn] at hguarded
  rw [hturn, hnoted]
  generalize hphase : race.phase i = phase at hstep
  cases hstep with
  | guard | missing | unguard | exclude | release =>
    exact ⟨hguarded, h.out, h.memory, by simpa using h.unstarted⟩
  | @found a other hcall hinner =>
    refine ⟨hguarded, h.out, h.memory, fun j hmem => ?_⟩
    rcases List.mem_append.1 hmem with hmem | hmem
    · exact h.unstarted j hmem
    · cases List.mem_singleton.1 hmem
      exact h.out hinner
  | @served a other hcall =>
    have hne : ep ≠ other := fun heq => h.idle i (heq ▸ hphase)
    refine ⟨hguarded, h.out, ?_, by simpa using h.unstarted⟩
    exact (Function.update_of_ne hne ..).trans h.memory
  | @assign new_inner hcall =>
    refine ⟨hguarded, fun heq => ?_, h.memory, by simpa using h.unstarted⟩
    exact hnot i race.shared.inner (by simp [show new_inner = some ep from heq])

theorem guarded_run (endpoint : κ → Endpoint M) (calls : ι → Call κ) (inner : κ) (memory : κ → M) (schedule : List ι) :
    Guarded (run (move endpoint calls) (fresh (new inner memory) .idle) schedule) :=
  run_keeps (guarded_new inner memory) (fun _ i h => h.after_turn i) schedule

/-- After an endpoint is replaced, and until it is put in again, it stays as it is. -/
theorem away_run {j : ι} {new_inner : Option κ} {ep : κ} (hguarded : Guarded race)
    (hcall : calls j = .replace new_inner) (hphase : race.phase j = .writing) (hnew : new_inner ≠ some ep)
    (later : List ι)
    (hnot : ∀ k old, .assigned k old (some ep) ∉
      trace (move endpoint calls) (seen endpoint calls) (turn (move endpoint calls) race j) later) :
    Away ep (race.shared.memory ep)
      (trace (move endpoint calls) (seen endpoint calls) (turn (move endpoint calls) race j) later)
      (run (move endpoint calls) (turn (move endpoint calls) race j) later) := by
  have hturn : turn (move endpoint calls) race j = ⟨{ race.shared with inner := new_inner },
      Function.update race.phase j (.replaced race.shared.inner)⟩ := turn_some (by simp only [move, hcall, hphase])
  have hstart : Away ep (race.shared.memory ep) [] (turn (move endpoint calls) race j) :=
    ⟨hguarded.after_turn j, by rw [hturn]; exact hnew, by rw [hturn], by simp⟩
  revert hnot
  refine run_follows (R := fun events race' => (∀ k old, .assigned k old (some ep) ∉ events) →
    Away ep (race.shared.memory ep) events race') (fun _ => hstart) ?_ later
  intro events race' i h hnot
  refine (h fun k old hmem => hnot k old (List.mem_append_left _ hmem)).after_turn i fun k old hmem => ?_
  exact hnot k old (List.mem_append_right _ hmem)

/-- Every call is served by one endpoint or by none; and from the assignment that replaces an endpoint,
so from the return of the call that makes it, until one that puts the endpoint in again, no call begins or
runs on it and what it keeps does not change. -/
theorem hot_swap_barrier (endpoint : κ → Endpoint M) (calls : ι → Call κ) (inner : κ) (memory : κ → M)
    (schedule : List ι) :
    let start := fresh (new inner memory) .idle
    let now := run (move endpoint calls) start schedule
    (∀ i served answer, now.phase i = .returned served answer →
      Served endpoint calls i (trace (move endpoint calls) (seen endpoint calls) start schedule) served answer) ∧
    ∀ j new_inner ep, calls j = .replace new_inner → now.phase j = .writing → now.shared.inner = some ep →
      new_inner ≠ some ep → ∀ later,
        let after := turn (move endpoint calls) now j
        (∀ k old, .assigned k old (some ep) ∉ trace (move endpoint calls) (seen endpoint calls) after later) →
          (∀ i, .started i ep ∉ trace (move endpoint calls) (seen endpoint calls) after later) ∧
          (∀ i, (run (move endpoint calls) after later).phase i ≠ .running ep) ∧
          (run (move endpoint calls) after later).shared.memory ep = now.shared.memory ep := by
  intro start now
  constructor
  · intro i served answer hreturned
    have hstart : ∀ j, (start.phase j).At endpoint calls [] j := fun _ => rfl
    have hat : (now.phase i).At endpoint calls (trace (move endpoint calls) (seen endpoint calls) start schedule) i :=
      run_follows (R := fun events (race : Race ι (ProxyEndpoint ι κ M) (Phase κ)) =>
        ∀ j, (race.phase j).At endpoint calls events j) hstart at_turn schedule i
    rwa [hreturned] at hat
  · intro j new_inner ep hcall hphase _ hnew later after hnot
    have haway := away_run (guarded_run endpoint calls inner memory schedule) hcall hphase hnew later hnot
    exact ⟨haway.unstarted, haway.idle, haway.memory⟩

/-- Two writes, with a swap between them, and a detach and a swap back. -/
def hot_swap_calls : Nat → Call Bool
  | 0 => .access (.write [7])
  | 1 => .replace (some true)
  | 2 => .replace (some false)
  | _ => .access (.write [8])

/-- The write that comes after the swap leaves what the first one wrote. -/
theorem hot_swap_barrier_written :
    (run (move (fun _ => MockEndpoint 0) hot_swap_calls) (fresh (new false fun _ => [[0]]) .idle)
      [0, 0, 0, 0, 1, 1, 1, 3, 3, 3, 3]).shared.memory false = [[7]] := by
  have hbarrier := (hot_swap_barrier (fun _ => MockEndpoint 0) hot_swap_calls false (fun _ => [[0]]) [0, 0, 0, 0, 1]).2
    1 (some true) false rfl rfl rfl (by decide) [1, 3, 3, 3, 3]
  have hevents : trace (move (fun _ => MockEndpoint 0) hot_swap_calls) (seen (fun _ => MockEndpoint 0) hot_swap_calls)
      (turn (move (fun _ => MockEndpoint 0) hot_swap_calls)
        (run (move (fun _ => MockEndpoint 0) hot_swap_calls) (fresh (new false fun _ => [[0]]) .idle)
          [0, 0, 0, 0, 1]) 1)
      [1, 3, 3, 3, 3] = [.started 3 true, .ended 3 true (.ok [])] := rfl
  exact (hbarrier (by rw [hevents]; simp)).2.2

/-- Replaced, an endpoint is put in again, and a write runs on it. -/
theorem hot_swap_back : ¬ ∀ (endpoint : Bool → Endpoint Heap) (calls : Nat → Call Bool) (inner : Bool)
    (memory : Bool → Heap) (schedule : List Nat) (j : Nat) (ep : Bool),
    (run (move endpoint calls) (fresh (new inner memory) .idle) schedule).phase j = .swapped (some ep) →
      ∀ later i, (run (move endpoint calls) (run (move endpoint calls) (fresh (new inner memory) .idle) schedule)
        later).phase i ≠ .running ep := by
  intro h
  exact h (fun _ => MockEndpoint 0) hot_swap_calls false (fun _ => [[0]]) [1, 1, 1] 1 false rfl [2, 2, 2, 3, 3] 3 rfl

end ProxyEndpoint

end RustRcp
