import RustRcp.Mock
import RustRcp.Lib.Threads
/-!
# Recorded calls

The recording endpoint (`src/record.rs`). A call reaches the wrapped endpoint first and
the log later, so the log need not have the order of the effects; when it can be replayed
all the same is what `recording_faithful` says.
-/
open Stateful Threads

namespace RustRcp

/-! ## Entries -/

inductive Entry where
  | Read (read_size : UInt16) (result : Except RcpError (List UInt8))
  | Write (payload : List UInt8) (result : Except RcpError Unit)

namespace Entry

/-- What is recorded of an access. -/
def of : Access → Except RcpError (List UInt8) → Entry
  | .read read_size, result => .Read read_size result
  | .write payload, result => .Write payload ((fun _ => ()) <$> result)

def access : Entry → Access
  | .Read read_size _ => .read read_size
  | .Write payload _ => .write payload

@[simp] theorem access_of (access : Access) (result : Except RcpError (List UInt8)) :
    (of access result).access = access := by
  cases access <;> rfl

end Entry

/-! ## The recorder -/

structure RecordEndpoint (M : Type) where
  inner : Endpoint M
  log : List Entry := []
  /-- What the wrapped endpoint keeps. -/
  memory : M

namespace RecordEndpoint
variable {M : Type}

def new (inner : Endpoint M) (memory : M) : RecordEndpoint M := { inner, memory }

def entries (self : RecordEndpoint M) : List Entry := self.log

def clear (self : RecordEndpoint M) : RecordEndpoint M := { self with log := [] }

/-- The wrapped endpoint's result, as a value. -/
def on_inner {α : Type} (x : Endpoint M → Stateful RcpError M α) :
    Stateful RcpError (RecordEndpoint M) (Except RcpError α) := do
  let self ← get
  within RecordEndpoint.memory (fun self memory => { self with memory }) (attempt (x self.inner))

def push (entry : Entry) (self : RecordEndpoint M) : RecordEndpoint M := { self with log := self.log ++ [entry] }

def read (read_size : UInt16) : Stateful RcpError (RecordEndpoint M) (List UInt8) := do
  let result ← on_inner fun inner => inner.read read_size
  modify (push (.Read read_size result))
  MonadExcept.ofExcept result

def write (payload : List UInt8) : Stateful RcpError (RecordEndpoint M) Unit := do
  let result ← on_inner fun inner => inner.write payload
  modify (push (.Write payload result))
  MonadExcept.ofExcept result

/-- Either of them. -/
def perform : Access → Stateful RcpError (RecordEndpoint M) (List UInt8)
  | .read read_size => read read_size
  | .write payload => do
    write payload
    return []

theorem perform_spec (self : RecordEndpoint M) (access : Access) :
    exec (perform access) self =
      ((exec (self.inner.perform access) self.memory).1,
        push (.of access (exec (self.inner.perform access) self.memory).1)
          { self with memory := (exec (self.inner.perform access) self.memory).2 }) := by
  cases access with
  | read read_size => simp [perform, read, exec_bind, on_inner, Endpoint.perform, Entry.of]
  | write payload =>
    cases hrun : exec (self.inner.write payload) self.memory with
    | mk result memory =>
      cases result <;> simp [perform, write, exec_bind, on_inner, Endpoint.perform, Entry.of, hrun]

/-! ## Calls side by side -/

inductive Phase where
  | idle
  | called (result : Except RcpError (List UInt8))
  | returned (result : Except RcpError (List UInt8))

variable {ι : Type} (calls : ι → Access)

/-- First the wrapped endpoint, then the log. -/
def move : Move ι (RecordEndpoint M) Phase := fun i self phase =>
  match phase with
  | .idle =>
    -- the inner call does not hold the lock of the log
    let (result, memory) := exec (self.inner.perform (calls i)) self.memory
    some ({ self with memory }, .called result)
  | .called result => some (self.push (.of (calls i) result), .returned result)
  | .returned _ => none

/-- A call has its effect, or its entry. -/
inductive Event (ι : Type) where
  | effect (i : ι)
  | append (i : ι)
  deriving DecidableEq

def seen : ι → RecordEndpoint M → Phase → Option (Event ι) := fun i _ phase =>
  match phase with
  | .idle => some (.effect i)
  | .called _ => some (.append i)
  | .returned _ => none

/-- The calls in the order of their effects. -/
def effects (events : List (Event ι)) : List ι :=
  events.filterMap fun event => match event with
    | .effect i => some i
    | .append _ => none

/-- The calls in the order of their entries. -/
def appends (events : List (Event ι)) : List ι :=
  events.filterMap fun event => match event with
    | .effect _ => none
    | .append i => some i

@[simp] theorem effects_effect (events : List (Event ι)) (i : ι) :
    effects (events ++ [.effect i]) = effects events ++ [i] := by
  simp [effects]

@[simp] theorem effects_append (events : List (Event ι)) (i : ι) :
    effects (events ++ [.append i]) = effects events := by
  simp [effects]

@[simp] theorem appends_effect (events : List (Event ι)) (i : ι) :
    appends (events ++ [.effect i]) = appends events := by
  simp [appends]

@[simp] theorem appends_append (events : List (Event ι)) (i : ι) :
    appends (events ++ [.append i]) = appends events ++ [i] := by
  simp [appends]

/-! ## Orders -/

section
variable (inner : Endpoint M) (memory : M)

/-- What the wrapped endpoint keeps after the calls of an order. -/
def after (order : List ι) : M := order.foldl (fun memory i => (exec (inner.perform (calls i)) memory).2) memory

/-- The entries that accesses made one after the other leave, and what the endpoint keeps then. -/
def replay : M → List Access → List Entry × M
  | memory, [] => ([], memory)
  | memory, access :: rest =>
    let (result, memory) := exec (inner.perform access) memory
    let (entries, memory) := replay memory rest
    (.of access result :: entries, memory)

theorem replay_concat (memory : M) (accesses : List Access) (access : Access) :
    replay inner memory (accesses ++ [access]) =
      ((replay inner memory accesses).1 ++
          [.of access (exec (inner.perform access) (replay inner memory accesses).2).1],
        (exec (inner.perform access) (replay inner memory accesses).2).2) := by
  induction accesses generalizing memory with
  | nil => rfl
  | cons first rest ih => simp only [List.cons_append, replay, ih]

theorem after_concat (order : List ι) (k : ι) :
    after calls inner memory (order ++ [k]) = (exec (inner.perform (calls k)) (after calls inner memory order)).2 := by
  rw [after, List.foldl_append]
  rfl

end

/-- The payload written last in an order. -/
def held (initial : List UInt8) (order : List ι) : List UInt8 :=
  order.foldl (fun held i => match calls i with
    | .read _ => held
    | .write payload => payload) initial

theorem held_concat (initial : List UInt8) (order : List ι) (k : ι) :
    held calls initial (order ++ [k]) = match calls k with
      | .read _ => held calls initial order
      | .write payload => payload := by
  rw [held, List.foldl_append]
  rfl

/-- Reads leave it. -/
theorem held_filter (initial : List UInt8) (order : List ι) :
    held calls initial (order.filter fun i => (calls i).is_write) = held calls initial order := by
  induction order using List.reverseRecOn with
  | nil => rfl
  | append_singleton order k ih =>
    rw [List.filter_append, held_concat]
    cases hcall : calls k with
    | read read_size =>
      have hread : (calls k).is_write = false := by rw [hcall]; rfl
      simpa [hread] using ih
    | write payload =>
      have hwrite : (calls k).is_write := by rw [hcall]; rfl
      rw [List.filter_singleton, hwrite, cond_true, held_concat, hcall]

/-- A mock endpoint keeps the payload written last. -/
theorem after_mock (initial : List UInt8) (order : List ι) :
    after calls (MockEndpoint 0) [initial] order = [held calls initial order] := by
  induction order using List.reverseRecOn with
  | nil => rfl
  | append_singleton order k ih =>
    rw [after_concat, ih, held_concat, mock_perform]
    cases calls k <;> rfl

variable [DecidableEq ι]

/-- What stands before a call in an order. -/
def before (order : List ι) (i : ι) : List ι := order.takeWhile (· ≠ i)

/-- What a call is answered where it stands in an order. -/
def answer (inner : Endpoint M) (memory : M) (order : List ι) (i : ι) : Except RcpError (List UInt8) :=
  (exec (inner.perform (calls i)) (after calls inner memory (before order i))).1

def entry (inner : Endpoint M) (memory : M) (order : List ι) (i : ι) : Entry :=
  .of (calls i) (answer calls inner memory order i)

/-- A call that is left alone does what the recorder's method does. -/
theorem turns_alone {race : Race ι (RecordEndpoint M) Phase} {i : ι} (hidle : race.phase i = .idle) :
    run (move calls) race (List.replicate 2 i) =
      ⟨(exec (perform (calls i)) race.shared).2,
        Function.update race.phase i (.returned (exec (perform (calls i)) race.shared).1)⟩ := by
  rw [run_replicate (race.shared, .idle) hidle, perform_spec]
  simp [alone, move]

variable {calls} {inner : Endpoint M} {memory : M} {order : List ι} {i k : ι}

theorem before_concat (h : i ∈ order) (k : ι) : before (order ++ [k]) i = before order i := by
  induction order with
  | nil => cases h
  | cons j order ih =>
    by_cases hji : j = i
    · simp [before, hji]
    · have hi : i ∈ order := (List.mem_cons.1 h).resolve_left (Ne.symm hji)
      simpa [before, hji] using ih hi

theorem before_last (h : k ∉ order) : before (order ++ [k]) k = order := by
  induction order with
  | nil => simp [before]
  | cons j order ih =>
    rw [List.mem_cons, not_or] at h
    simpa [before, Ne.symm h.1] using ih h.2

theorem before_sublist (order : List ι) (k : ι) : (before order k).Sublist order :=
  List.takeWhile_sublist _

theorem mem_before_cons {j : ι} : i ∈ before (j :: order) k ↔ j ≠ k ∧ (i = j ∨ i ∈ before order k) := by
  by_cases hjk : j = k <;> simp [before, hjk]

theorem before_asymm (h : i ∈ before order k) : k ∉ before order i := by
  induction order with
  | nil => cases h
  | cons j order ih =>
    obtain ⟨hjk, hi⟩ := mem_before_cons.1 h
    rw [mem_before_cons]
    rintro ⟨hji, hk⟩
    exact ih (hi.resolve_left (Ne.symm hji)) (hk.resolve_left (Ne.symm hjk))

theorem before_total (hi : i ∈ order) (hne : i ≠ k) : i ∈ before order k ∨ k ∈ before order i := by
  induction order with
  | nil => cases hi
  | cons j order ih =>
    rw [mem_before_cons, mem_before_cons]
    by_cases hji : j = i
    · exact .inl ⟨hji ▸ hne, .inl hji.symm⟩
    · by_cases hjk : j = k
      · exact .inr ⟨hji, .inl hjk.symm⟩
      · have hrest : i ∈ order := (List.mem_cons.1 hi).resolve_left (Ne.symm hji)
        exact (ih hrest).imp (fun h => ⟨hjk, .inr h⟩) fun h => ⟨hji, .inr h⟩

theorem ne_of_before (h : i ∈ before order k) : i ≠ k := by
  rintro rfl
  exact before_asymm h h

/-- The calls of an order stand one before the other. -/
theorem pairwise_before (h : order.Nodup) : order.Pairwise fun i k => i ∈ before order k := by
  induction order with
  | nil => exact .nil
  | cons j order ih =>
    obtain ⟨hj, horder⟩ := List.nodup_cons.1 h
    refine .cons (fun k hk => ?_) ((ih horder).imp_of_mem fun {i k} hi hk hik => ?_)
    · exact mem_before_cons.2 ⟨fun hjk => hj (hjk ▸ hk), .inl rfl⟩
    · exact mem_before_cons.2 ⟨fun hjk => hj (hjk ▸ hk), .inr hik⟩

/-- Later calls do not change an answer. -/
theorem answer_concat (h : i ∈ order) (k : ι) :
    answer calls inner memory (order ++ [k]) i = answer calls inner memory order i := by
  rw [answer, answer, before_concat h]

theorem entry_concat (h : i ∈ order) (k : ι) :
    entry calls inner memory (order ++ [k]) i = entry calls inner memory order i := by
  rw [entry, entry, answer_concat h]

/-- A replay answers each call where it stands. -/
theorem replay_order (h : order.Nodup) :
    replay inner memory (order.map calls) =
      (order.map (entry calls inner memory order), after calls inner memory order) := by
  induction order using List.reverseRecOn with
  | nil => rfl
  | append_singleton order k ih =>
    rw [List.nodup_append] at h
    have hk : k ∉ order := fun hmem => h.2.2 k hmem k List.mem_cons_self rfl
    have hearlier : order.map (entry calls inner memory (order ++ [k])) = order.map (entry calls inner memory order) :=
      List.map_congr_left fun i hi => entry_concat hi k
    have hlast : entry calls inner memory (order ++ [k]) k =
        .of (calls k) (exec (inner.perform (calls k)) (after calls inner memory order)).1 := by
      rw [entry, answer, before_last hk]
    rw [List.map_append, List.map_append, List.map_singleton, List.map_singleton, replay_concat, ih h.1, hearlier,
      hlast, after_concat]

/-- Entries in one order can be replayed as they were made in another: every call is answered alike. -/
theorem replay_iff {order' : List ι} (h : order.Nodup) :
    replay inner memory ((order.map (entry calls inner memory order')).map Entry.access) =
        (order.map (entry calls inner memory order'), after calls inner memory order') ↔
      (∀ i ∈ order, entry calls inner memory order i = entry calls inner memory order' i) ∧
        after calls inner memory order = after calls inner memory order' := by
  have haccess : (order.map (entry calls inner memory order')).map Entry.access = order.map calls := by
    rw [List.map_map]
    exact List.map_congr_left fun i _ => Entry.access_of ..
  rw [haccess, replay_order h, Prod.mk.injEq, List.map_inj_left]

/-! ## What a schedule records -/

variable (calls inner memory) in
/-- A call stands where the events have it, with the answer it gets in the order of the effects. -/
def Phase.At (events : List (Event ι)) (i : ι) : Phase → Prop
  | .idle => i ∉ effects events ∧ i ∉ appends events
  | .called result => i ∈ effects events ∧ i ∉ appends events ∧ result = answer calls inner memory (effects events) i
  | .returned result => i ∈ effects events ∧ i ∈ appends events ∧ result = answer calls inner memory (effects events) i

variable (calls inner memory) in
/-- The recorder and its calls as the events have them. -/
structure Tracks (events : List (Event ι)) (race : Race ι (RecordEndpoint M) Phase) : Prop where
  wrapped : race.shared.inner = inner
  kept : race.shared.memory = after calls inner memory (effects events)
  logged : race.shared.log = (appends events).map (entry calls inner memory (effects events))
  nodup : (effects events).Nodup ∧ (appends events).Nodup
  stage : ∀ i, (race.phase i).At calls inner memory events i

variable {events : List (Event ι)} {race : Race ι (RecordEndpoint M) Phase}

/-- A call with an entry has had its effect. -/
theorem Tracks.mem_effects (h : Tracks calls inner memory events race) (hi : i ∈ appends events) :
    i ∈ effects events := by
  have hstage := h.stage i
  cases hphase : race.phase i with
  | idle =>
    rw [hphase] at hstage
    exact absurd hi hstage.2
  | called result | returned result =>
    rw [hphase] at hstage
    exact hstage.1

/-- Another call's step leaves a call where it stands. -/
theorem Phase.At.concat {phase : Phase} {event : Event ι} (h : phase.At calls inner memory events i)
    (heffect : event ≠ .effect i) (happend : event ≠ .append i) :
    phase.At calls inner memory (events ++ [event]) i := by
  cases event with
  | effect k =>
    have hik : i ≠ k := fun heq => heffect (heq ▸ rfl)
    cases phase with
    | idle => simpa [At, hik] using h
    | called result | returned result => simpa [At, hik, h.1, answer_concat h.1 k] using h.2
  | append k =>
    have hik : i ≠ k := fun heq => happend (heq ▸ rfl)
    cases phase <;> simpa [At, hik] using h

theorem stage_concat {phase : ι → Phase} {next : Phase} {event : Event ι}
    (h : ∀ i, (phase i).At calls inner memory events i) (hevent : event = .effect k ∨ event = .append k)
    (hnext : next.At calls inner memory (events ++ [event]) k) (i : ι) :
    (Function.update phase k next i).At calls inner memory (events ++ [event]) i := by
  rcases eq_or_ne i k with rfl | hne
  · rwa [Function.update_self]
  · rw [Function.update_of_ne hne]
    rcases hevent with rfl | rfl
    · exact (h i).concat (by simpa using hne.symm) (by simp)
    · exact (h i).concat (by simp) (by simpa using hne.symm)

theorem tracks_turn (events : List (Event ι)) (race : Race ι (RecordEndpoint M) Phase) (k : ι)
    (h : Tracks calls inner memory events race) :
    Tracks calls inner memory (events ++ noted seen race k) (turn (move calls) race k) := by
  have hstage := h.stage k
  cases hphase : race.phase k with
  | idle =>
    rw [hphase] at hstage
    have hnoted : noted seen race k = [.effect k] := by simp [noted, seen, hphase]
    have hanswer : answer calls inner memory (effects events ++ [k]) k =
        (exec (inner.perform (calls k)) (after calls inner memory (effects events))).1 := by
      rw [answer, before_last hstage.1]
    have hmove : move calls k race.shared (race.phase k) =
        some ({ race.shared with memory := after calls inner memory (effects events ++ [k]) },
          .called (answer calls inner memory (effects events ++ [k]) k)) := by
      simp [move, hphase, h.wrapped, h.kept, after_concat, hanswer]
    rw [hnoted, turn_some hmove]
    -- the effect comes last in the order: earlier answers stay
    constructor
    · exact h.wrapped
    · rw [effects_effect]
    · rw [effects_effect, appends_effect, h.logged]
      exact List.map_congr_left fun i hi => (entry_concat (h.mem_effects hi) k).symm
    · rw [effects_effect, appends_effect, ← List.concat_eq_append]
      exact ⟨h.nodup.1.concat hstage.1, h.nodup.2⟩
    · exact stage_concat h.stage (.inl rfl) (by simp [Phase.At, hstage.2])
  | called result =>
    rw [hphase] at hstage
    obtain ⟨heffect, happend, rfl⟩ := hstage
    have hnoted : noted seen race k = [.append k] := by simp [noted, seen, hphase]
    rw [hnoted, turn_some (by rw [hphase]; rfl)]
    constructor
    · exact h.wrapped
    · rw [effects_append]
      exact h.kept
    · rw [effects_append, appends_append, List.map_append, ← h.logged]
      rfl
    · rw [effects_append, appends_append, ← List.concat_eq_append]
      exact ⟨h.nodup.1, h.nodup.2.concat happend⟩
    · exact stage_concat h.stage (.inr rfl) (by simp [Phase.At, heffect])
  | returned result =>
    have hnoted : noted seen race k = ([] : List (Event ι)) := by simp [noted, seen, hphase]
    rw [hnoted, turn_none (by rw [hphase]; rfl), List.append_nil]
    exact h

/-! ## Replaying a recording -/

section
variable (calls : ι → Access) (initial : List UInt8) (schedule : List ι)

/-- What a schedule makes of a new recorder around a mock endpoint. -/
def recorded : Race ι (RecordEndpoint Heap) Phase :=
  run (move calls) (fresh (new (MockEndpoint 0) [initial]) .idle) schedule

/-- What it shows. -/
def shown : List (Event ι) := trace (move calls) seen (fresh (new (MockEndpoint 0) [initial]) .idle) schedule

/-- One entry for each call, with what the call returned, and a log whose replay gives every result and the
endpoint's state again. -/
structure Faithful : Prop where
  one_each : ∃ order : List ι, order.Nodup ∧ (∀ i, i ∈ order ↔ i ∈ schedule) ∧
    List.Forall₂ (fun i entry => ∃ result, (recorded calls initial schedule).phase i = .returned result ∧
      entry = .of (calls i) result) order (recorded calls initial schedule).shared.entries
  replayed : replay (MockEndpoint 0) [initial] ((recorded calls initial schedule).shared.entries.map Entry.access) =
    ((recorded calls initial schedule).shared.entries, (recorded calls initial schedule).shared.memory)

/-- In the order of the entries every read finds the front it found in the order of the effects, and the
last payload is the same. -/
structure SameView (events : List (Event ι)) : Prop where
  reads : ∀ i ∈ appends events, ∀ read_size, calls i = .read read_size →
    (held calls initial (before (appends events) i)).take read_size.toNat =
      (held calls initial (before (effects events) i)).take read_size.toNat
  last : held calls initial (appends events) = held calls initial (effects events)

/-- No two calls, one of them a write, are recorded in the opposite order of their effects. -/
def InOrder (events : List (Event ι)) : Prop :=
  ∀ i k, (calls i).is_write ∨ (calls k).is_write → i ∈ before (effects events) k → k ∉ before (appends events) i

end

/-! ## Calls that are recorded in order -/

section
variable {initial : List UInt8} (hordered : InOrder calls events)
include hordered

theorem InOrder.before_iff (hboth : ∀ i, i ∈ appends events ↔ i ∈ effects events)
    (hwrite : (calls i).is_write ∨ (calls k).is_write) :
    i ∈ before (appends events) k ↔ i ∈ before (effects events) k := by
  constructor
  · intro hi
    have hmem : i ∈ appends events := (before_sublist ..).mem hi
    refine (before_total ((hboth i).1 hmem) (ne_of_before hi)).resolve_right fun hk => ?_
    exact hordered k i hwrite.symm hk hi
  · intro hi
    have hmem : i ∈ effects events := (before_sublist ..).mem hi
    exact (before_total ((hboth i).2 hmem) (ne_of_before hi)).resolve_right (hordered i k hwrite hi)

/-- Pieces of the two orders with the same writes in them hold the same payload. -/
theorem InOrder.held_eq (hboth : ∀ i, i ∈ appends events ↔ i ∈ effects events)
    (hnodup : (effects events).Nodup ∧ (appends events).Nodup) {left right : List ι}
    (hleft : left.Sublist (appends events)) (hright : right.Sublist (effects events))
    (hsame : ∀ i, (calls i).is_write → (i ∈ left ↔ i ∈ right)) :
    held calls initial left = held calls initial right := by
  have hperm : (left.filter fun i => (calls i).is_write).Perm (right.filter fun i => (calls i).is_write) := by
    rw [List.perm_ext_iff_of_nodup ((hnodup.2.sublist hleft).filter _) ((hnodup.1.sublist hright).filter _)]
    intro i
    simp only [List.mem_filter]
    exact and_congr_left (hsame i)
  -- the entries' order has them as the effects' order has them
  have hearlier : (left.filter fun i => (calls i).is_write).Pairwise fun i k => i ∈ before (effects events) k :=
    (((pairwise_before hnodup.2).sublist hleft).filter _).imp_of_mem fun hi _ hik =>
      (hordered.before_iff hboth (.inl (List.mem_filter.1 hi).2)).1 hik
  have hlater : (right.filter fun i => (calls i).is_write).Pairwise fun i k => i ∈ before (effects events) k :=
    ((pairwise_before hnodup.1).sublist hright).filter _
  -- so the writes of both pieces are one list
  rw [← held_filter, ← held_filter calls initial right,
    hperm.eq_of_pairwise (fun i k _ _ hik hki => absurd hki (before_asymm hik)) hearlier hlater]

/-- Then every read finds what it found, and the last payload is the same. -/
theorem InOrder.same_view (hboth : ∀ i, i ∈ appends events ↔ i ∈ effects events)
    (hnodup : (effects events).Nodup ∧ (appends events).Nodup) : SameView calls initial events := by
  constructor
  · intro i _ read_size _
    rw [hordered.held_eq hboth hnodup (before_sublist ..) (before_sublist ..) fun k hk =>
      hordered.before_iff hboth (.inl hk)]
  · exact hordered.held_eq hboth hnodup (.refl _) (.refl _) fun i _ => hboth i

end

/-- It answers a call alike in two orders when that is no read, or finds the same front. -/
theorem entry_mock_iff {initial : List UInt8} {order order' : List ι} :
    entry calls (MockEndpoint 0) [initial] order i = entry calls (MockEndpoint 0) [initial] order' i ↔
      ∀ read_size, calls i = .read read_size →
        (held calls initial (before order i)).take read_size.toNat =
          (held calls initial (before order' i)).take read_size.toNat := by
  rw [entry, entry, answer, answer, after_mock, after_mock, mock_perform, mock_perform]
  cases hcall : calls i with
  | read read_size => simp [Entry.of, ← List.take_eq_take_min]
  | write payload => simp

variable (calls) in
theorem tracks_recorded (initial : List UInt8) (schedule : List ι) :
    Tracks calls (MockEndpoint 0) [initial] (shown calls initial schedule) (recorded calls initial schedule) := by
  have hstart : Tracks calls (MockEndpoint 0) [initial] []
      (fresh (new (MockEndpoint 0) [initial]) .idle : Race ι (RecordEndpoint Heap) Phase) := {
    wrapped := rfl
    kept := rfl
    logged := rfl
    nodup := ⟨.nil, .nil⟩
    stage := fun i => by simp [fresh, Phase.At, effects, appends] }
  exact run_follows hstart tracks_turn schedule

/-- A call that is not in the schedule has neither effect nor entry. -/
theorem not_shown {initial : List UInt8} {schedule : List ι} (h : i ∉ schedule) :
    i ∉ effects (shown calls initial schedule) ∧ i ∉ appends (shown calls initial schedule) := by
  have hstage := (tracks_recorded calls initial schedule).stage i
  have hidle : (recorded calls initial schedule).phase i = .idle := phase_run_of_notMem h
  rw [hidle] at hstage
  exact hstage

/-- Once all calls have returned, those of the schedule are the ones with an entry. -/
theorem mem_appends {initial : List UInt8} {schedule : List ι}
    (h : Finished (move calls) (fresh (new (MockEndpoint 0) [initial]) .idle) schedule) :
    i ∈ appends (shown calls initial schedule) ↔ i ∈ schedule := by
  have hstage := (tracks_recorded calls initial schedule).stage i
  constructor
  · exact fun hi => by_contra fun hnot => (not_shown hnot).2 hi
  · intro hi
    have hstop := h i hi
    cases hphase : (recorded calls initial schedule).phase i with
    | idle | called result =>
      rw [recorded] at hphase
      simp [move, hphase] at hstop
    | returned result =>
      rw [hphase] at hstage
      exact hstage.2.1

/-- And they are those with an effect. -/
theorem mem_appends_iff {initial : List UInt8} {schedule : List ι}
    (h : Finished (move calls) (fresh (new (MockEndpoint 0) [initial]) .idle) schedule) (i : ι) :
    i ∈ appends (shown calls initial schedule) ↔ i ∈ effects (shown calls initial schedule) := by
  refine ⟨(tracks_recorded calls initial schedule).mem_effects, fun hi => (mem_appends h).2 ?_⟩
  exact by_contra fun hnot => (not_shown hnot).1 hi

theorem faithful_iff {initial : List UInt8} {schedule : List ι}
    (hfinished : Finished (move calls) (fresh (new (MockEndpoint 0) [initial]) .idle) schedule) :
    Faithful calls initial schedule ↔ SameView calls initial (shown calls initial schedule) := by
  have htracks := tracks_recorded calls initial schedule
  have hreplay : replay (MockEndpoint 0) [initial]
        ((recorded calls initial schedule).shared.entries.map Entry.access) =
          ((recorded calls initial schedule).shared.entries, (recorded calls initial schedule).shared.memory) ↔
      SameView calls initial (shown calls initial schedule) := by
    rw [entries, htracks.logged, htracks.kept, replay_iff htracks.nodup.2]
    simp only [entry_mock_iff, after_mock, List.cons.injEq, and_true]
    exact ⟨fun h => ⟨h.1, h.2⟩, fun h => ⟨h.reads, h.last⟩⟩
  rw [← hreplay]
  constructor
  · exact Faithful.replayed
  · intro h
    refine ⟨⟨appends (shown calls initial schedule), htracks.nodup.2, fun i => mem_appends hfinished, ?_⟩, h⟩
    rw [entries, htracks.logged, List.forall₂_map_right_iff, List.forall₂_same]
    intro i hi
    have hstage := htracks.stage i
    cases hphase : (recorded calls initial schedule).phase i with
    | idle =>
      rw [hphase] at hstage
      exact absurd hi hstage.2
    | called result =>
      rw [hphase] at hstage
      exact absurd hi hstage.2.1
    | returned result =>
      rw [hphase] at hstage
      exact ⟨result, rfl, by rw [entry, hstage.2.2]⟩

/-- What has been recorded of calls that have all returned can be replayed exactly when the order of the entries
shows the reads what the order of the effects did; so it can when they are recorded in order. -/
theorem recording_faithful (calls : ι → Access) (initial : List UInt8) (schedule : List ι)
    (hfinished : Finished (move calls) (fresh (new (MockEndpoint 0) [initial]) .idle) schedule) :
    (Faithful calls initial schedule ↔ SameView calls initial (shown calls initial schedule)) ∧
      (InOrder calls (shown calls initial schedule) → Faithful calls initial schedule) := by
  refine ⟨faithful_iff hfinished, fun hordered => (faithful_iff hfinished).2 ?_⟩
  exact hordered.same_view (mem_appends_iff hfinished) (tracks_recorded calls initial schedule).nodup

/-- A write and a read that take turns. -/
theorem recording_faithful_two :
    Faithful (fun i : Bool => if i then .read 1 else .write [1]) [0] [false, true, false, true] := by
  refine (recording_faithful (fun i : Bool => if i then .read 1 else .write [1]) [0] [false, true, false, true] ?_).2 ?_
  · intro i _
    cases i <;> rfl
  · intro i k _
    cases i <;> cases k <;> decide

/-- Two writes, the second of which is recorded first: the replay ends with the wrong one. -/
theorem swapped_entries :
    let calls : Bool → Access := fun i => if i then .write [2] else .write [1]
    let schedule := [false, true, true, false]
    Finished (move calls) (fresh (new (MockEndpoint 0) [[0]]) .idle) schedule ∧
      (recorded calls [0] schedule).shared.memory = [[2]] ∧
      (replay (MockEndpoint 0) [[0]] ((recorded calls [0] schedule).shared.entries.map Entry.access)).2 = [[1]] ∧
      ¬ Faithful calls [0] schedule := by
  intro calls schedule
  refine ⟨fun i _ => by cases i <;> rfl, rfl, rfl, fun h => ?_⟩
  have hmemory : ([[1]] : Heap) = [[2]] := congrArg Prod.snd h.replayed
  simp at hmemory

end RecordEndpoint

end RustRcp
