import RustRcp.Lib.Since
import Mathlib.Data.List.Perm.Basic
import Mathlib.Logic.Hydra
import Mathlib.Order.WellFounded
/-!
# Waiting for an item

Threads put items into a store and take items out of it, under a mutex. One that finds the
store empty waits on a condition variable; one that has put an item gives the mutex back
first and wakes one of those waiting in a step of its own, so others come in between. A
thread may also come back from waiting without having been woken.

Every schedule takes the items that were put, each once (`Room.conserved`), in the order they
were put where the store keeps one (`Room.in_order`), and no item is left lying while all who
are awake have gone (`Room.attended`, `Attended.of_idle`). A run goes on for ever only if threads
come back unwoken again and again (`Room.endless_wakes`).
-/

open scoped List

namespace Condvar

variable {α σ : Type}

/-- What the threads put items into. -/
structure Store (α σ : Type) where
  items : σ → List α
  put : α → σ → σ
  take : σ → Option (α × σ)
  items_put : ∀ a s, items (put a s) = items s ++ [a]
  take_none : ∀ {s}, take s = none → items s = []
  take_some : ∀ {a s t}, take s = some (a, t) → (items s).Perm (a :: items t)

/-- What a thread is going to do. What it does next may depend on what it takes. -/
inductive Prog (α : Type) where
  | done
  | put (a : α) (rest : Prog α)
  /-- Wait for an item, or with a time limit until that is over. -/
  | take (timed : Bool) (rest : Option α → Prog α)
  | try_take (rest : Option α → Prog α)

inductive Phase (α : Type) where
  | ready (prog : Prog α)
  /-- An item has been put, and nobody woken for it so far. -/
  | notifying (rest : Prog α)
  | waiting (timed : Bool) (rest : Option α → Prog α)
  | woken (timed : Bool) (rest : Option α → Prog α)

namespace Phase

def is_waiting : Phase α → Bool
  | waiting .. => true
  | ready _ | notifying _ | woken .. => false

/-- On the way to look at the store, or to wake one that is not. -/
def is_awake : Phase α → Bool
  | notifying _ | woken .. => true
  | ready _ | waiting .. => false

def wake : Phase α → Phase α
  | waiting timed rest => woken timed rest
  | phase => phase

/-- It has done all it was going to do, or waits. -/
def Idle (phase : Phase α) : Prop := phase = ready .done ∨ phase.is_waiting = true

end Phase

structure Room (α σ : Type) where
  store : σ
  threads : List (Phase α)

/-- A thread takes its next step: `expired` is what its clock says if it looks at one, and `whom` it
wakes if that one waits. Or a thread comes back from waiting by itself. -/
inductive Turn where
  | step (i : Nat) (expired : Bool) (whom : Nat)
  | wake (i : Nat)

/-- What happens to the items. -/
inductive Note (α : Type) where
  | put (i : Nat) (a : α)
  | took (i : Nat) (a : α)
  /-- A thread goes on without one. -/
  | left (i : Nat)

def wake_at (i : Nat) (threads : List (Phase α)) : List (Phase α) :=
  match threads[i]? with
  | some phase => threads.set i phase.wake
  | none => threads

/-- Wake one that waits, if any does. -/
def notify (whom : Nat) (threads : List (Phase α)) : List (Phase α) :=
  wake_at (if threads[whom]?.any Phase.is_waiting then whom else threads.findIdx Phase.is_waiting) threads

/-- What the step of a thread in a phase does to the others. -/
def rouse (whom : Nat) : Phase α → List (Phase α) → List (Phase α)
  | .notifying _, threads => notify whom threads
  | .ready _, threads | .waiting .., threads | .woken .., threads => threads

variable (S : Store α σ)

/-- A look at the store, with the mutex held. -/
def look (gives_up : Bool) (timed : Bool) (rest : Option α → Prog α) (s : σ) : Phase α × σ :=
  match S.take s with
  | some (a, s) => (.ready (rest (some a)), s)
  | none => (if gives_up then .ready (rest none) else .waiting timed rest, s)

def look_noted (i : Nat) (gives_up : Bool) (s : σ) : List (Note α) :=
  match S.take s with
  | some (a, _) => [.took i a]
  | none => if gives_up then [.left i] else []

/-- What a thread that steps makes of its phase and of the store. Waking another one is left out. -/
def advance (expired : Bool) : Phase α → σ → Phase α × σ
  | .ready .done, s => (.ready .done, s)
  | .ready (.put a rest), s => (.notifying rest, S.put a s)
  | .ready (.take timed rest), s | .woken timed rest, s => look S (timed && expired) timed rest s
  | .ready (.try_take rest), s => look S true true rest s
  | .notifying rest, s => (.ready rest, s)
  | .waiting timed rest, s => (.waiting timed rest, s)

def noted_of (i : Nat) (expired : Bool) : Phase α → σ → List (Note α)
  | .ready (.put a _), _ => [.put i a]
  | .ready (.take timed _), s | .woken timed _, s => look_noted S i (timed && expired) s
  | .ready (.try_take _), s => look_noted S i true s
  | .ready .done, _ | .notifying _, _ | .waiting .., _ => []

namespace Room

def turn (room : Room α σ) : Turn → Room α σ
  | .wake i => { room with threads := wake_at i room.threads }
  | .step i expired whom =>
    match room.threads[i]? with
    | none => room
    | some phase =>
      let (next, store) := advance S expired phase room.store
      { store, threads := (rouse whom phase room.threads).set i next }

def noted (room : Room α σ) : Turn → List (Note α)
  | .wake _ => []
  | .step i expired _ =>
    match room.threads[i]? with
    | none => []
    | some phase => noted_of S i expired phase room.store

/-- What a schedule leads to, with what it does to the items. -/
def run (room : Room α σ) (schedule : List Turn) : List (Note α) × Room α σ :=
  schedule.foldl (fun here t => (here.1 ++ noted S here.2 t, turn S here.2 t)) ([], room)

end Room

/-- The items put, in order. -/
def given (log : List (Note α)) : List α :=
  log.filterMap fun note => match note with
    | .put _ a => some a
    | .took .. | .left _ => none

/-- The items taken, in order. -/
def fetched (log : List (Note α)) : List α :=
  log.filterMap fun note => match note with
    | .took _ a => some a
    | .put .. | .left _ => none

/-! ## Who is awake -/

/-- How many are on their way to the store or to waking somebody. -/
def awake (threads : List (Phase α)) : Nat := threads.countP Phase.is_awake

def waiting (threads : List (Phase α)) : Nat := threads.countP Phase.is_waiting

theorem countP_set_add {β : Type} {p : β → Bool} {xs : List β} {i : Nat} {x : β} (h : xs[i]? = some x) (y : β) :
    (xs.set i y).countP p + (p x).toNat = xs.countP p + (p y).toNat := by
  obtain ⟨hi, rfl⟩ := List.getElem?_eq_some_iff.1 h
  have hle : (if p xs[i] then 1 else 0) ≤ xs.countP p := List.boole_getElem_le_countP hi
  rw [List.countP_set hi]
  cases hx : p xs[i] <;> cases p y <;>
    simp only [hx, Bool.toNat_true, Bool.toNat_false, if_true, if_false, Bool.false_eq_true] at hle ⊢ <;> omega

theorem wake_of_not_waiting {phase : Phase α} (h : phase.is_waiting = false) : phase.wake = phase := by
  cases phase with
  | waiting timed rest => cases h
  | _ => rfl

theorem wake_at_self {threads : List (Phase α)} {i : Nat} (h : ∀ phase, threads[i]? = some phase → ¬ phase.is_waiting) :
    wake_at i threads = threads := by
  unfold wake_at
  cases hi : threads[i]? with
  | none => rfl
  | some phase =>
    obtain ⟨hlt, hphase⟩ := List.getElem?_eq_some_iff.1 hi
    dsimp only
    rw [wake_of_not_waiting (Bool.eq_false_iff.2 (h phase hi)), ← hphase, List.set_getElem_self]

/-- One who waits and is woken is awake. -/
theorem wake_at_waiting {threads : List (Phase α)} {i : Nat} {phase : Phase α} (hi : threads[i]? = some phase)
    (hphase : phase.is_waiting = true) :
    waiting (wake_at i threads) + 1 = waiting threads ∧ awake (wake_at i threads) = awake threads + 1 := by
  have hwaiting := countP_set_add (p := Phase.is_waiting) hi phase.wake
  have hawake := countP_set_add (p := Phase.is_awake) hi phase.wake
  rw [wake_at, hi]
  cases phase with
  | waiting timed rest => exact ⟨hwaiting, hawake⟩
  | _ => cases hphase

/-- A thread that does not wait is where it was after any other has been woken. -/
theorem wake_at_getElem? {threads : List (Phase α)} {i k : Nat} {phase : Phase α} (hi : threads[i]? = some phase)
    (hphase : phase.is_waiting = false) : (wake_at k threads)[i]? = some phase := by
  rcases eq_or_ne k i with rfl | hne
  · rw [wake_at_self fun other hother => ?_, hi]
    rw [hi, Option.some.injEq] at hother
    rw [← hother, hphase]
    exact Bool.false_ne_true
  · unfold wake_at
    split
    · rw [List.getElem?_set_ne hne, hi]
    · exact hi

theorem notify_eq (whom : Nat) (threads : List (Phase α)) :
    waiting threads = 0 ∧ notify whom threads = threads ∨
      waiting (notify whom threads) + 1 = waiting threads ∧ awake (notify whom threads) = awake threads + 1 := by
  unfold notify
  split_ifs with hwhom
  · obtain ⟨phase, hi, hphase⟩ := Option.any_eq_true .. |>.1 hwhom
    exact .inr (wake_at_waiting hi hphase)
  · by_cases hsome : ∃ phase ∈ threads, phase.is_waiting = true
    · have hlt := List.findIdx_lt_length_of_exists hsome
      exact .inr (wake_at_waiting (List.getElem?_eq_getElem hlt) List.findIdx_getElem)
    · refine .inl ⟨?_, wake_at_self fun phase hi => ?_⟩
      · rw [waiting, List.countP_eq_zero]
        exact fun phase hmem hphase => hsome ⟨phase, hmem, hphase⟩
      · exact fun hphase => hsome ⟨phase, List.mem_of_getElem? hi, hphase⟩

/-! ## A step -/

/-- A thread looks at the store: what for, and whether it may go on without an item. -/
inductive Asks : Phase α → Bool → (Option α → Prog α) → Prop where
  | take (timed : Bool) (rest : Option α → Prog α) : Asks (.ready (.take timed rest)) timed rest
  | woken (timed : Bool) (rest : Option α → Prog α) : Asks (.woken timed rest) timed rest
  | try_take (rest : Option α → Prog α) : Asks (.ready (.try_take rest)) true rest

/-- All that a step of one thread can do. -/
inductive Acts (i : Nat) : Phase α → σ → Phase α → σ → List (Note α) → Prop where
  | rests {phase : Phase α} {s : σ} (h : phase.Idle) : Acts i phase s phase s []
  | puts {a : α} {rest : Prog α} {s : σ} : Acts i (.ready (.put a rest)) s (.notifying rest) (S.put a s) [.put i a]
  | notifies {rest : Prog α} {s : σ} : Acts i (.notifying rest) s (.ready rest) s []
  | takes {phase : Phase α} {timed : Bool} {rest : Option α → Prog α} {a : α} {s t : σ} (h : Asks phase timed rest)
      (htake : S.take s = some (a, t)) : Acts i phase s (.ready (rest (some a))) t [.took i a]
  | leaves {phase : Phase α} {rest : Option α → Prog α} {s : σ} (h : Asks phase true rest)
      (hempty : S.items s = []) : Acts i phase s (.ready (rest none)) s [.left i]
  | waits {phase : Phase α} {timed : Bool} {rest : Option α → Prog α} {s : σ} (h : Asks phase timed rest)
      (htry : phase ≠ .ready (.try_take rest)) (hempty : S.items s = []) : Acts i phase s (.waiting timed rest) s []

variable {S}

theorem look_acts {i : Nat} {phase : Phase α} {timed gives_up : Bool} {rest : Option α → Prog α} (s : σ)
    (h : Asks phase timed rest) (hgives : gives_up = true → timed = true)
    (htry : phase = .ready (.try_take rest) → gives_up = true) :
    Acts S i phase s (look S gives_up timed rest s).1 (look S gives_up timed rest s).2 (look_noted S i gives_up s) := by
  unfold look look_noted
  cases htake : S.take s with
  | some found => exact .takes h htake
  | none =>
    cases gives_up with
    | true =>
      obtain rfl := hgives rfl
      exact .leaves h (S.take_none htake)
    | false => exact .waits h (fun heq => Bool.false_ne_true (htry heq)) (S.take_none htake)

theorem advance_acts (i : Nat) (expired : Bool) (phase : Phase α) (s : σ) :
    Acts S i phase s (advance S expired phase s).1 (advance S expired phase s).2 (noted_of S i expired phase s) := by
  cases phase with
  | waiting timed rest => exact .rests (.inr rfl)
  | notifying rest => exact .notifies
  | woken timed rest => exact look_acts s (.woken timed rest) (fun h => (Bool.and_eq_true _ _ ▸ h).1) nofun
  | ready prog =>
    cases prog with
    | done => exact .rests (.inl rfl)
    | put a rest => exact .puts
    | take timed rest => exact look_acts s (.take timed rest) (fun h => (Bool.and_eq_true _ _ ▸ h).1) nofun
    | try_take rest => exact look_acts s (.try_take rest) (fun _ => rfl) fun _ => rfl

/-- A turn changes nothing, or it wakes a thread, or a thread steps. -/
theorem Room.turn_cases (room : Room α σ) (t : Turn) :
    Room.turn S room t = room ∧ Room.noted S room t = [] ∨
      (∃ i, Room.turn S room t = { room with threads := wake_at i room.threads } ∧ Room.noted S room t = []) ∨
      ∃ i whom phase next store, room.threads[i]? = some phase ∧
        Acts S i phase room.store next store (Room.noted S room t) ∧
        Room.turn S room t = { store, threads := (rouse whom phase room.threads).set i next } := by
  cases t with
  | wake i => exact .inr (.inl ⟨i, rfl, rfl⟩)
  | step i expired whom =>
    simp only [Room.turn, Room.noted]
    cases hi : room.threads[i]? with
    | none => exact .inl ⟨rfl, rfl⟩
    | some phase =>
      exact .inr (.inr ⟨i, whom, phase, _, _, hi, advance_acts i expired phase room.store, rfl⟩)

theorem rouse_getElem? (whom : Nat) {threads : List (Phase α)} {i : Nat} {phase : Phase α}
    (hi : threads[i]? = some phase) :
    (rouse whom phase threads)[i]? = some phase := by
  cases phase with
  | notifying rest => exact wake_at_getElem? hi rfl
  | _ => exact hi

/-! ## Nobody sleeps while an item lies there -/

/-- While somebody waits, no more items lie there than threads are on their way. -/
def Attended (S : Store α σ) (room : Room α σ) : Prop :=
  0 < waiting room.threads → (S.items room.store).length ≤ awake room.threads

theorem Asks.not_waiting {phase : Phase α} {timed : Bool} {rest : Option α → Prog α} (h : Asks phase timed rest) :
    phase.is_waiting = false := by
  cases h <;> rfl

theorem Asks.rouse {phase : Phase α} {timed : Bool} {rest : Option α → Prog α} (h : Asks phase timed rest) (whom : Nat)
    (threads : List (Phase α)) : rouse whom phase threads = threads := by
  cases h <;> rfl

/-- A step brings one who is awake for each item it brings, and ends the watch of one only with an item. -/
theorem Acts.attended {i : Nat} {phase next : Phase α} {s t : σ} {log : List (Note α)}
    (h : Acts S i phase s next t log) {threads : List (Phase α)} (hi : threads[i]? = some phase) (whom : Nat)
    (hbefore : 0 < waiting threads → (S.items s).length ≤ awake threads)
    (hafter : 0 < waiting ((rouse whom phase threads).set i next)) :
    (S.items t).length ≤ awake ((rouse whom phase threads).set i next) := by
  have hwaiting := countP_set_add (p := Phase.is_waiting) (rouse_getElem? whom hi) next
  have hawake := countP_set_add (p := Phase.is_awake) (rouse_getElem? whom hi) next
  change waiting _ + _ = waiting _ + _ at hwaiting
  change awake _ + _ = awake _ + _ at hawake
  cases h with
  | rests hidle =>
    obtain rfl | hphase := hidle
    · simp only [rouse] at hwaiting hawake hafter ⊢
      omega
    · cases phase with
      | waiting timed rest =>
        simp only [rouse] at hwaiting hawake hafter ⊢
        omega
      | _ => cases hphase
  | puts =>
    simp only [rouse, Phase.is_waiting, Phase.is_awake, Bool.toNat_true, Bool.toNat_false, S.items_put,
      List.length_append, List.length_singleton] at hwaiting hawake hafter ⊢
    omega
  | @notifies rest s =>
    simp only [rouse, Phase.is_waiting, Phase.is_awake, Bool.toNat_true, Bool.toNat_false] at hwaiting hawake hafter ⊢
    obtain ⟨hnone, heq⟩ | ⟨hone, hmore⟩ := notify_eq whom threads
    · rw [heq] at hwaiting hafter
      omega
    · omega
  | takes hasks htake =>
    have hlen := (S.take_some htake).length_eq
    have hle : phase.is_awake.toNat ≤ 1 := Bool.toNat_le _
    rw [hasks.rouse] at hwaiting hawake hafter ⊢
    rw [hasks.not_waiting] at hwaiting
    rw [List.length_cons] at hlen
    change _ = _ + 0 at hwaiting hawake
    change _ + 0 = _ at hwaiting
    omega
  | leaves _ hempty => simp [hempty]
  | waits _ _ hempty => simp [hempty]

theorem Attended.turn {room : Room α σ} (h : Attended S room) (t : Turn) : Attended S (Room.turn S room t) := by
  obtain ⟨heq, -⟩ | ⟨k, heq, -⟩ | ⟨i, whom, phase, next, store, hi, hacts, heq⟩ := Room.turn_cases (S := S) room t
  · rw [heq]
    exact h
  · rw [heq]
    intro hafter
    by_cases hk : ∃ phase, room.threads[k]? = some phase ∧ phase.is_waiting = true
    · obtain ⟨phase, hk, hphase⟩ := hk
      obtain ⟨hone, hmore⟩ := wake_at_waiting hk hphase
      have hbefore := h (by omega)
      dsimp only at hafter ⊢
      omega
    · rw [wake_at_self fun phase hphase hwaits => hk ⟨phase, hphase, hwaits⟩] at hafter ⊢
      exact h hafter
  · rw [heq]
    exact hacts.attended hi whom h

/-- What holds at the start, with nothing noted, and is kept by each turn with its notes holds of every run. -/
theorem Room.run_keeps {R : List (Note α) → Room α σ → Prop} {room : Room α σ} (h0 : R [] room)
    (hturn : ∀ log room t, R log room → R (log ++ Room.noted S room t) (Room.turn S room t)) (schedule : List Turn) :
    R (Room.run S room schedule).1 (Room.run S room schedule).2 := by
  unfold Room.run
  refine List.foldlRecOn (motive := fun (here : List (Note α) × Room α σ) => R here.1 here.2) schedule _ h0
    fun here hhere t _ => ?_
  exact hturn _ _ t hhere

theorem Room.attended {room : Room α σ} (h : Attended S room) (schedule : List Turn) :
    Attended S (Room.run S room schedule).2 :=
  Room.run_keeps (R := fun _ room => Attended S room) h (fun _ _ t hroom => hroom.turn t) schedule

theorem attended_ready {β : Type} (progs : List β) (prog : β → Prog α) {s : σ} :
    Attended S ⟨s, progs.map fun x => .ready (prog x)⟩ := by
  intro hwaits
  obtain ⟨phase, hmem, hphase⟩ := List.countP_pos_iff.1 hwaits
  obtain ⟨x, -, rfl⟩ := List.mem_map.1 hmem
  cases hphase

/-- Where an item lies and a thread waits, another one is on its way. -/
theorem Attended.someone {room : Room α σ} (h : Attended S room) (hitems : S.items room.store ≠ [])
    (hwaits : ∃ phase ∈ room.threads, phase.is_waiting = true) : ∃ phase ∈ room.threads, phase.is_awake = true := by
  have hlen := h (List.countP_pos_iff.2 hwaits)
  have hpos := List.length_pos_of_ne_nil hitems
  exact List.countP_pos_iff.1 (Nat.lt_of_lt_of_le hpos hlen)

theorem Phase.Idle.not_awake {phase : Phase α} (h : phase.Idle) : phase.is_awake = false := by
  obtain rfl | h := h
  · rfl
  · cases phase with
    | waiting timed rest => rfl
    | _ => cases h

/-- When none can go on, whoever waits waits in vain. -/
theorem Attended.of_idle {room : Room α σ} (h : Attended S room) (hidle : ∀ phase ∈ room.threads, phase.Idle)
    (hwaits : ∃ phase ∈ room.threads, phase.is_waiting = true) : S.items room.store = [] := by
  by_contra hitems
  obtain ⟨phase, hmem, hawake⟩ := h.someone hitems hwaits
  rw [(hidle phase hmem).not_awake] at hawake
  exact Bool.false_ne_true hawake

/-! ## What becomes of the items -/

@[simp] theorem given_append (log notes : List (Note α)) : given (log ++ notes) = given log ++ given notes :=
  List.filterMap_append ..

@[simp] theorem fetched_append (log notes : List (Note α)) : fetched (log ++ notes) = fetched log ++ fetched notes :=
  List.filterMap_append ..

theorem Acts.conserved {i : Nat} {phase next : Phase α} {s t : σ} {notes : List (Note α)}
    (h : Acts S i phase s next t notes) : (S.items s ++ given notes).Perm (fetched notes ++ S.items t) := by
  cases h with
  | puts => simp [given, fetched, S.items_put]
  | takes _ htake => simpa [given, fetched] using S.take_some htake
  | _ => simp [given, fetched]

theorem Room.turn_conserved (room : Room α σ) (t : Turn) :
    (S.items room.store ++ given (Room.noted S room t)).Perm
      (fetched (Room.noted S room t) ++ S.items (Room.turn S room t).store) := by
  obtain ⟨heq, hnoted⟩ | ⟨k, heq, hnoted⟩ | ⟨i, whom, phase, next, store, hi, hacts, heq⟩ :=
    Room.turn_cases (S := S) room t
  · rw [heq, hnoted]
    simp [given, fetched]
  · rw [heq, hnoted]
    simp [given, fetched]
  · rw [heq]
    exact hacts.conserved

/-- What were put are those taken and those that lie there. -/
def Balanced (S : Store α σ) (start : List α) (log : List (Note α)) (room : Room α σ) : Prop :=
  (start ++ given log).Perm (fetched log ++ S.items room.store)

theorem Balanced.turn {start : List α} {log : List (Note α)} {room : Room α σ} (h : Balanced S start log room)
    (t : Turn) : Balanced S start (log ++ Room.noted S room t) (Room.turn S room t) := by
  unfold Balanced at h ⊢
  calc start ++ given (log ++ Room.noted S room t)
      = start ++ given log ++ given (Room.noted S room t) := by simp
    _ ~ fetched log ++ S.items room.store ++ given (Room.noted S room t) := h.append_right _
    _ = fetched log ++ (S.items room.store ++ given (Room.noted S room t)) := List.append_assoc ..
    _ ~ fetched log ++ (fetched (Room.noted S room t) ++ S.items (Room.turn S room t).store) :=
      (Room.turn_conserved room t).append_left _
    _ = fetched (log ++ Room.noted S room t) ++ S.items (Room.turn S room t).store := by simp

theorem balanced_fresh (room : Room α σ) : Balanced S (S.items room.store) [] room := by
  simp [Balanced, given, fetched]

/-- Every item put is taken once, or still lies there. -/
theorem Room.conserved (room : Room α σ) (schedule : List Turn) :
    Balanced S (S.items room.store) (Room.run S room schedule).1 (Room.run S room schedule).2 :=
  Room.run_keeps (balanced_fresh room) (fun _ _ t h => h.turn t) schedule

/-- The store hands out what has lain longest. -/
def Store.Ordered (S : Store α σ) : Prop := ∀ {a s t}, S.take s = some (a, t) → S.items s = a :: S.items t

theorem Acts.in_order (hS : S.Ordered) {i : Nat} {phase next : Phase α} {s t : σ} {notes : List (Note α)}
    (h : Acts S i phase s next t notes) : S.items s ++ given notes = fetched notes ++ S.items t := by
  cases h with
  | puts => simp [given, fetched, S.items_put]
  | takes _ htake => simpa [given, fetched] using hS htake
  | _ => simp [given, fetched]

/-- In an ordered store, items are taken in the order they were put. -/
theorem Room.in_order (hS : S.Ordered) (room : Room α σ) (schedule : List Turn) :
    S.items room.store ++ given (Room.run S room schedule).1 =
      fetched (Room.run S room schedule).1 ++ S.items (Room.run S room schedule).2.store := by
  have hfresh : S.items room.store ++ given [] = fetched [] ++ S.items room.store := by simp [given, fetched]
  refine Room.run_keeps (R := fun log here => S.items room.store ++ given log = fetched log ++ S.items here.store)
    hfresh (fun log here t hhere => ?_) schedule
  rw [given_append, fetched_append, ← List.append_assoc, hhere, List.append_assoc, List.append_assoc]
  obtain ⟨heq, hnoted⟩ | ⟨k, heq, hnoted⟩ | ⟨i, whom, phase, next, store, hi, hacts, heq⟩ :=
    Room.turn_cases (S := S) here t
  · rw [heq, hnoted]
    simp [given, fetched]
  · rw [heq, hnoted]
    simp [given, fetched]
  · rw [heq, hacts.in_order hS]

theorem Acts.notes {i : Nat} {phase next : Phase α} {s t : σ} {notes : List (Note α)}
    (h : Acts S i phase s next t notes) :
    notes = [] ∨ ∃ note, notes = [note] ∧ ∀ i, note = .left i → S.items s = [] := by
  cases h with
  | leaves hasks hempty => exact .inr ⟨_, rfl, fun _ _ => hempty⟩
  | puts | takes => exact .inr ⟨_, rfl, nofun⟩
  | rests | notifies | waits => exact .inl rfl

/-- What a program goes on to. -/
inductive Prog.Follows : Prog α → Prog α → Prop where
  | put (a : α) (rest : Prog α) : Follows rest (.put a rest)
  | take (timed : Bool) (rest : Option α → Prog α) (x : Option α) : Follows (rest x) (.take timed rest)
  | try_take (rest : Option α → Prog α) (x : Option α) : Follows (rest x) (.try_take rest)

theorem Prog.follows_wf : WellFounded (Prog.Follows (α := α)) := by
  constructor
  intro prog
  induction prog with
  | done => exact ⟨_, nofun⟩
  | put a rest ih =>
    refine ⟨_, fun next hnext => ?_⟩
    cases hnext
    exact ih
  | take timed rest ih =>
    refine ⟨_, fun next hnext => ?_⟩
    cases hnext
    exact ih _
  | try_take rest ih =>
    refine ⟨_, fun next hnext => ?_⟩
    cases hnext
    exact ih _

/-- What a thread has left to do. -/
def Phase.left : Phase α → Prog α
  | ready prog => prog
  | notifying rest => rest
  | waiting timed rest | woken timed rest => .take timed rest

def Phase.notifies : Phase α → Bool
  | notifying _ => true
  | ready _ | waiting .. | woken .. => false

/-- About to look, and perhaps to wait. -/
def Phase.looks : Phase α → Bool
  | woken .. | ready (.take ..) => true
  | _ => false

/-- A thread that can go on takes its next step. -/
def Room.Goes (S : Store α σ) (later room : Room α σ) : Prop :=
  ∃ i expired whom phase, room.threads[i]? = some phase ∧ ¬ phase.Idle ∧ later = Room.turn S room (.step i expired whom)

theorem wake_left (phase : Phase α) : phase.wake.left = phase.left := by cases phase <;> rfl

theorem wake_notifies (phase : Phase α) : phase.wake.notifies = phase.notifies := by cases phase <;> rfl

/-- Waking somebody keeps what waking keeps of every thread. -/
theorem map_wake_at {β : Type} {f : Phase α → β} (h : ∀ phase, f phase.wake = f phase) (i : Nat)
    (threads : List (Phase α)) : (wake_at i threads).map f = threads.map f := by
  unfold wake_at
  split
  next phase hi =>
    rw [List.map_set, h]
    obtain ⟨hlt, rfl⟩ := List.getElem?_eq_some_iff.1 hi
    rw [← List.getElem_map f (h := by rwa [List.length_map]), List.set_getElem_self]
  next => rfl

theorem map_rouse {β : Type} {f : Phase α → β} (h : ∀ phase, f phase.wake = f phase) (whom : Nat) (phase : Phase α)
    (threads : List (Phase α)) : (rouse whom phase threads).map f = threads.map f := by
  cases phase with
  | notifying rest => exact map_wake_at h _ threads
  | _ => rfl

/-- A list goes down where one of its elements does. -/
theorem cutExpand_set {β : Type} {r : β → β → Prop} {xs : List β} {i : Nat} {x y : β} (hi : xs[i]? = some x)
    (h : r y x) : Relation.CutExpand r (xs.set i y : Multiset β) (xs : Multiset β) := by
  obtain ⟨hlt, rfl⟩ := List.getElem?_eq_some_iff.1 hi
  obtain ⟨before, after, heq, -, hset⟩ :
      ∃ before after, xs = before ++ xs[i] :: after ∧ before.length = i ∧ xs.set i y = before ++ y :: after :=
    List.exists_of_set hlt
  rw [hset, heq, ← Multiset.coe_add, ← Multiset.coe_add, Relation.cutExpand_add_left, ← Multiset.cons_coe,
    ← Multiset.cons_coe, ← Multiset.singleton_add, ← Multiset.singleton_add]
  exact Relation.cutExpand_single_add (by simpa using h) _

/-- What is left to do, how many have still to wake another, and how many are about to look. -/
def Room.measure (room : Room α σ) : Multiset (Prog α) × Nat × Nat :=
  ((room.threads.map Phase.left : List (Prog α)), room.threads.countP Phase.notifies, room.threads.countP Phase.looks)

def Lower : Multiset (Prog α) × Nat × Nat → Multiset (Prog α) × Nat × Nat → Prop :=
  Prod.Lex (Relation.CutExpand Prog.Follows) (Prod.Lex (· < ·) (· < ·))

theorem lower_wf : WellFounded (Lower (α := α)) :=
  Prog.follows_wf.cutExpand.prod_lex (wellFounded_lt.prod_lex wellFounded_lt)

theorem Asks.follows {phase : Phase α} {timed : Bool} {rest : Option α → Prog α} (h : Asks phase timed rest)
    (x : Option α) : Prog.Follows (rest x) phase.left := by
  cases h with
  | take timed rest => exact .take timed rest x
  | woken timed rest => exact .take timed rest x
  | try_take rest => exact .try_take rest x

/-- One thread has less left to do, and the others what they had. -/
theorem lower_of_follows {threads : List (Phase α)} {i whom : Nat} {phase next : Phase α} {s t : σ}
    (hi : threads[i]? = some phase) (h : Prog.Follows next.left phase.left) :
    Lower (Room.measure ⟨t, (rouse whom phase threads).set i next⟩) (Room.measure ⟨s, threads⟩) := by
  refine .left _ _ ?_
  rw [List.map_set, map_rouse wake_left]
  exact cutExpand_set (by rw [List.getElem?_map, hi]; rfl) h

/-- As much is left to do. -/
theorem map_left_set {threads : List (Phase α)} {i whom : Nat} {phase next : Phase α} (hi : threads[i]? = some phase)
    (h : next.left = phase.left) :
    ((rouse whom phase threads).set i next).map Phase.left = threads.map Phase.left := by
  obtain ⟨hlt, rfl⟩ := List.getElem?_eq_some_iff.1 hi
  rw [List.map_set, map_rouse wake_left, h, ← List.getElem_map Phase.left (h := by rwa [List.length_map]),
    List.set_getElem_self]

theorem countP_wake_at {p : Phase α → Bool} (h : ∀ phase, p phase.wake = p phase) (i : Nat)
    (threads : List (Phase α)) : (wake_at i threads).countP p = threads.countP p := by
  have hmap := congrArg (List.countP id) (map_wake_at h i threads)
  rwa [List.countP_map, List.countP_map] at hmap

theorem countP_rouse {p : Phase α → Bool} (h : ∀ phase, p phase.wake = p phase) (whom : Nat) (phase : Phase α)
    (threads : List (Phase α)) : (rouse whom phase threads).countP p = threads.countP p := by
  cases phase with
  | notifying rest => exact countP_wake_at h _ threads
  | _ => rfl

/-- As much is left to do, and fewer have still to wake another, or fewer are about to look. -/
theorem lower_of_left {threads : List (Phase α)} {i whom : Nat} {phase next : Phase α} {s t : σ}
    (hi : threads[i]? = some phase) (h : next.left = phase.left)
    (hfewer : Prod.Lex (· < ·) (· < ·)
      (((rouse whom phase threads).set i next).countP Phase.notifies,
        ((rouse whom phase threads).set i next).countP Phase.looks)
      (threads.countP Phase.notifies, threads.countP Phase.looks)) :
    Lower (Room.measure ⟨t, (rouse whom phase threads).set i next⟩) (Room.measure ⟨s, threads⟩) := by
  unfold Lower Room.measure
  dsimp only
  rw [map_left_set hi h]
  exact .right _ hfewer

theorem Acts.lower {i : Nat} {phase next : Phase α} {s t : σ} {notes : List (Note α)}
    (h : Acts S i phase s next t notes) {threads : List (Phase α)} (hi : threads[i]? = some phase)
    (hgoes : ¬ phase.Idle) (whom : Nat) :
    Lower (Room.measure ⟨t, (rouse whom phase threads).set i next⟩) (Room.measure ⟨s, threads⟩) := by
  have hnotifies := countP_set_add (p := Phase.notifies) (rouse_getElem? whom hi) next
  rw [countP_rouse wake_notifies] at hnotifies
  cases h with
  | rests hidle => exact absurd hidle hgoes
  | @puts a rest => exact lower_of_follows hi (.put a rest)
  | takes hasks htake => exact lower_of_follows hi (hasks.follows _)
  | leaves hasks hempty => exact lower_of_follows hi (hasks.follows _)
  | notifies =>
    -- as much is left to do, and one fewer has to wake another
    refine lower_of_left hi rfl (.left _ _ ?_)
    exact Nat.lt_of_lt_of_eq (Nat.lt_succ_self _) hnotifies
  | @waits _ timed rest _ hasks htry hempty =>
    have hlooks := countP_set_add (p := Phase.looks) (rouse_getElem? whom hi) (.waiting timed rest)
    rw [hasks.rouse] at hnotifies hlooks
    cases hasks with
    | try_take => exact absurd rfl htry
    | take | woken =>
      -- as much is left to do and to wake, and one fewer is about to look
      refine lower_of_left hi rfl (Prod.lex_def.2 (.inr ⟨hnotifies, ?_⟩))
      exact Nat.lt_of_lt_of_eq (Nat.lt_succ_self _) hlooks

/-- Each step leaves less to do. -/
theorem Room.goes_wf (S : Store α σ) : WellFounded (Room.Goes S) := by
  refine Subrelation.wf (fun {later room} hgoes => ?_) (lower_wf.onFun (f := Room.measure))
  obtain ⟨i, expired, whom, phase, hi, hidle, rfl⟩ := hgoes
  have hacts := (advance_acts (S := S) i expired phase room.store).lower hi hidle whom
  simp only [Function.onFun, Room.turn, hi]
  exact hacts

/-- A turn that is one: a thread that can go on steps, or one that waits comes back by itself. -/
inductive Room.Moves (room : Room α σ) : Turn → Prop where
  | step {i : Nat} {expired : Bool} {whom : Nat} {phase : Phase α} (hi : room.threads[i]? = some phase)
      (hgoes : ¬ phase.Idle) : Moves room (.step i expired whom)
  | wake {i : Nat} {phase : Phase α} (hi : room.threads[i]? = some phase) (hwaits : phase.is_waiting = true) :
      Moves room (.wake i)

/-- A run without an end: the rooms it comes through from this one, and its turns. -/
structure Room.Endless (S : Store α σ) (room : Room α σ) (rooms : Nat → Room α σ) (turns : Nat → Turn) : Prop where
  start : rooms 0 = room
  turn : ∀ n, rooms (n + 1) = Room.turn S (rooms n) (turns n)
  moves : ∀ n, (rooms n).Moves (turns n)

/-- In a run without an end threads come back by themselves again and again. -/
theorem Room.endless_wakes {room : Room α σ} {rooms : Nat → Room α σ} {turns : Nat → Turn}
    (h : Room.Endless S room rooms turns) (n : Nat) : ∃ m, n ≤ m ∧ ∃ i, turns m = .wake i := by
  by_contra hnone
  simp only [not_exists, not_and] at hnone
  -- from `n` on every turn is a step, and steps come to an end
  have hgoes : ∀ k, Room.Goes S (rooms (n + (k + 1))) (rooms (n + k)) := by
    intro k
    have hmoves := h.moves (n + k)
    have hturn := h.turn (n + k)
    cases hstep : turns (n + k) with
    | wake i => exact absurd hstep (hnone (n + k) (Nat.le_add_right n k) i)
    | step i expired whom =>
      rw [hstep] at hmoves hturn
      cases hmoves with
      | step hi hidle => exact ⟨i, expired, whom, _, hi, hidle, hturn⟩
  exact (wellFounded_iff_isEmpty_descending_chain.1 (Room.goes_wf S)).false ⟨fun k => rooms (n + k), hgoes⟩

/-! ## Without a time limit -/

/-- A step leaves a thread what it had to do, or what that goes on to. -/
theorem Acts.left {i : Nat} {phase next : Phase α} {s t : σ} {notes : List (Note α)}
    (h : Acts S i phase s next t notes) : next.left = phase.left ∨ Prog.Follows next.left phase.left := by
  cases h with
  | rests | notifies => exact .inl rfl
  | puts => exact .inr (.put _ _)
  | takes hasks | leaves hasks => exact .inr (hasks.follows _)
  | waits hasks htry =>
    cases hasks with
    | try_take => exact absurd rfl htry
    | take | woken => exact .inl rfl

/-- It looks for items only to wait for them as long as it takes. -/
inductive Prog.Patient : Prog α → Prop where
  | done : Patient .done
  | put {a : α} {rest : Prog α} (h : rest.Patient) : Patient (.put a rest)
  | take {rest : Option α → Prog α} (h : ∀ a, (rest (some a)).Patient) : Patient (.take false rest)

theorem Asks.patient {phase : Phase α} {timed : Bool} {rest : Option α → Prog α} (h : Asks phase timed rest)
    (hpatient : phase.left.Patient) : timed = false ∧ ∀ a, (rest (some a)).Patient := by
  cases h <;> cases hpatient <;> exact ⟨rfl, by assumption⟩

theorem Acts.patient {i : Nat} {phase next : Phase α} {s t : σ} {notes : List (Note α)}
    (h : Acts S i phase s next t notes) (hpatient : phase.left.Patient) :
    next.left.Patient ∧ ∀ k, .left k ∉ notes := by
  cases h with
  | rests hidle => exact ⟨hpatient, nofun⟩
  | puts =>
    cases hpatient with
    | put hrest => exact ⟨hrest, by simp⟩
  | notifies => exact ⟨hpatient, nofun⟩
  | takes hasks htake => exact ⟨(hasks.patient hpatient).2 _, by simp⟩
  | leaves hasks hempty => cases (hasks.patient hpatient).1
  | waits hasks htry hempty =>
    obtain ⟨rfl, hrest⟩ := hasks.patient hpatient
    exact ⟨.take hrest, nofun⟩

/-- What is noted of a step is noted of the thread that takes it. -/
theorem Acts.left_mem {i k : Nat} {phase next : Phase α} {s t : σ} {notes : List (Note α)}
    (h : Acts S i phase s next t notes) (hmem : .left k ∈ notes) : k = i := by
  cases h <;> simp at hmem
  exact hmem

/-- A patient thread never goes on without an item. -/
theorem Room.patient {room : Room α σ} {i : Nat} (h : ∀ phase, room.threads[i]? = some phase → phase.left.Patient)
    (schedule : List Turn) : .left i ∉ (Room.run S room schedule).1 := by
  refine (Room.run_keeps (R := fun log here => .left i ∉ log ∧
    ∀ prog, (here.threads.map Phase.left)[i]? = some prog → prog.Patient) ⟨nofun, fun prog hprog => ?_⟩
    (fun log here t hhere => ?_) schedule).1
  · rw [List.getElem?_map, Option.map_eq_some_iff] at hprog
    obtain ⟨phase, hi, rfl⟩ := hprog
    exact h phase hi
  · obtain ⟨hlog, hleft⟩ := hhere
    obtain ⟨heq, hnoted⟩ | ⟨k, heq, hnoted⟩ | ⟨k, whom, phase, next, store, hk, hacts, heq⟩ :=
      Room.turn_cases (S := S) here t
    · rw [heq, hnoted, List.append_nil]
      exact ⟨hlog, hleft⟩
    · rw [heq, hnoted, List.append_nil, map_wake_at wake_left]
      exact ⟨hlog, hleft⟩
    · rw [heq, List.map_set, map_rouse wake_left, List.mem_append, not_or]
      rcases eq_or_ne k i with rfl | hne
      · obtain ⟨hlt, -⟩ := List.getElem?_eq_some_iff.1 hk
        have hphase := hleft phase.left (by rw [List.getElem?_map, hk]; rfl)
        obtain ⟨hnext, hnotes⟩ := hacts.patient hphase
        refine ⟨⟨hlog, hnotes k⟩, fun prog hprog => ?_⟩
        rw [List.getElem?_set_self (by rwa [List.length_map]), Option.some.injEq] at hprog
        exact hprog ▸ hnext
      · refine ⟨⟨hlog, fun hmem => hne (hacts.left_mem hmem).symm⟩, fun prog hprog => ?_⟩
        rw [List.getElem?_set_ne hne] at hprog
        exact hleft prog hprog

end Condvar
