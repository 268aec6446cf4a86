import RustRcp.Loan
import RustRcp.Lib.Condvar
/-!
# Waiting

The two places where threads wait for one another: the channel within a process
(`src/shmem.rs`) and the pool of buffers (`src/loan.rs`). In both, an item is put under the
lock and somebody woken once the lock is free again. Nothing written is lost, doubled or
overtaken, and no reader sleeps beside a message (`InProcChannel.delivers`); borrowers who
hold one buffer at a time all get theirs (`LoanPool.loans_served`).
-/
open Condvar

namespace RustRcp

/-! ## The channel -/

structure InProcChannel where
  buf : List (List UInt8) := []

namespace InProcChannel

def push_back (self : InProcChannel) (data : List UInt8) : InProcChannel := { buf := self.buf ++ [data] }

def pop_front (self : InProcChannel) : Option (List UInt8 × InProcChannel) :=
  match self.buf with
  | [] => none
  | v :: buf => some (v, { buf })

/-- What stands between the lock's `lock` and its release in `write` and in a turn of `read`'s loop. -/
def store : Store (List UInt8) InProcChannel where
  items := buf
  put data self := self.push_back data
  take := pop_front
  items_put _ _ := rfl
  take_none := by
    rintro ⟨_ | _⟩ h
    · rfl
    · cases h
  take_some := by
    rintro a ⟨_ | _⟩ t h <;> cases h
    exact .rfl

/-- What a thread asks of the channel: what it does after a read may depend on what that returns. -/
inductive Client where
  | done
  | write (data : List UInt8) (rest : Client)
  | read (timeout : Option Nat) (rest : Except RcpError (List UInt8) → Client)

/-- `write` pushes and notifies. `read` loops until there is something, or its time is over. -/
def Client.prog : Client → Prog (List UInt8)
  | done => .done
  | write data rest => .put data rest.prog
  | read timeout rest => .take timeout.isSome fun found => (rest (ok_or found .Timeout)).prog

/-- What a client goes on to is another client. -/
theorem Client.follows {client : Client} {next : Prog (List UInt8)} (h : Prog.Follows next client.prog) :
    ∃ later : Client, next = later.prog := by
  generalize hprog : client.prog = prog at h
  cases client with
  | done =>
    cases hprog
    cases h
  | write data rest =>
    cases hprog
    cases h
    exact ⟨rest, rfl⟩
  | read timeout rest =>
    cases hprog
    cases h
    exact ⟨_, rfl⟩

/-- It reads without a timeout only. -/
inductive Client.Patient : Client → Prop where
  | done : Patient .done
  | write {data : List UInt8} {rest : Client} (h : rest.Patient) : Patient (.write data rest)
  | read {rest : Except RcpError (List UInt8) → Client} (h : ∀ data, (rest (.ok data)).Patient) :
      Patient (.read none rest)

theorem Client.Patient.prog {client : Client} (h : client.Patient) : client.prog.Patient := by
  induction h with
  | done => exact .done
  | write _ ih => exact .put ih
  | read _ ih => exact .take ih

/-- The clients before the first step. -/
def opened (clients : List Client) : Room (List UInt8) InProcChannel :=
  ⟨{}, clients.map fun client => .ready client.prog⟩

end InProcChannel

/-! ## The pool -/

namespace LoanPool

/-- `acquire` pops under the lock, and a dropped loan pushes. -/
def store : Store (List UInt8) LoanPool where
  items := state
  put returned self := self.release returned
  take := acquire
  items_put _ _ := rfl
  take_none := by
    intro s h
    rw [acquire, Option.map_eq_none_iff, List.getLast?_eq_none_iff] at h
    exact h
  take_some := by
    intro a s t h
    rw [acquire, Option.map_eq_some_iff] at h
    obtain ⟨buf, hlast, heq⟩ := h
    obtain ⟨rfl, rfl⟩ := Prod.ext_iff.1 heq
    obtain ⟨front, hstate⟩ := List.getLast?_eq_some_iff.1 hlast
    rw [hstate, List.dropLast_concat]
    exact List.perm_append_singleton buf front

/-- A borrower gets a buffer by one of the two calls, and gives it back as `used` has left it: dropped, or copied and
dropped by `write_loaned`. -/
inductive Borrowing where
  | acquire (used : List UInt8 → List UInt8)
  | try_acquire (used : List UInt8 → List UInt8)

/-- What a borrower does with what it gets, if it gets anything. -/
def lent (used : List UInt8 → List UInt8) (later : Prog (List UInt8)) : Option (List UInt8) → Prog (List UInt8)
  | some buf => .put (used buf) later
  | none => later

/-- One loan after the other. -/
def borrower : List Borrowing → Prog (List UInt8)
  | [] => .done
  | .acquire used :: later => .take false (lent used (borrower later))
  | .try_acquire used :: later => .try_take (lent used (borrower later))

/-- A buffer is out. -/
def holds : Phase (List UInt8) → Bool
  | .ready (.put ..) => true
  | _ => false

theorem holds_wake (phase : Phase (List UInt8)) : holds phase.wake = holds phase := by cases phase <;> rfl

/-- Where a borrower can be. -/
inductive Borrows : Phase (List UInt8) → Prop where
  | between (later : List Borrowing) : Borrows (.ready (borrower later))
  | holding (buf : List UInt8) (later : List Borrowing) : Borrows (.ready (.put buf (borrower later)))
  | notifying (later : List Borrowing) : Borrows (.notifying (borrower later))
  | waiting (used : List UInt8 → List UInt8) (later : List Borrowing) :
      Borrows (.waiting false (lent used (borrower later)))
  | woken (used : List UInt8 → List UInt8) (later : List Borrowing) :
      Borrows (.woken false (lent used (borrower later)))

theorem Borrows.wake {phase : Phase (List UInt8)} (h : Borrows phase) : Borrows phase.wake := by
  cases h with
  | waiting used later => exact .woken used later
  | between later => exact .between later
  | holding buf later => exact .holding buf later
  | notifying later => exact .notifying later
  | woken used later => exact .woken used later

theorem holds_between (later : List Borrowing) : holds (.ready (borrower later)) = false := by
  rcases later with _ | ⟨_ | _, later⟩ <;> rfl

/-- A borrower that looks for a buffer is at one of its loans, and waits only in `acquire`. -/
theorem Borrows.asks {phase : Phase (List UInt8)} {timed : Bool} {rest : Option (List UInt8) → Prog (List UInt8)}
    (h : Borrows phase) (hasks : Asks phase timed rest) :
    (∃ used later, rest = lent used (borrower later)) ∧ (timed = false ∨ phase = .ready (.try_take rest)) := by
  cases hasks with
  | woken =>
    cases h with
    | woken used later => exact ⟨⟨used, later, rfl⟩, .inl rfl⟩
  | take timed rest =>
    generalize hphase : Phase.ready (.take timed rest) = phase at h
    cases h with
    | between later =>
      rcases later with _ | ⟨used | used, later⟩ <;> cases hphase
      exact ⟨⟨used, later, rfl⟩, .inl rfl⟩
    | _ => cases hphase
  | try_take rest =>
    generalize hphase : Phase.ready (.try_take rest) = phase at h
    cases h with
    | between later =>
      rcases later with _ | ⟨used | used, later⟩ <;> cases hphase
      exact ⟨⟨used, later, rfl⟩, .inr rfl⟩
    | _ => cases hphase

theorem holds_of_asks {phase : Phase (List UInt8)} {timed : Bool} {rest : Option (List UInt8) → Prog (List UInt8)}
    (h : Asks phase timed rest) : holds phase = false := by
  cases h <;> rfl

/-- What a step does with the buffers, it does with those the borrower holds. -/
theorem acts_borrows {i : Nat} {phase next : Phase (List UInt8)} {s t : LoanPool} {notes : List (Note (List UInt8))}
    (h : Acts store i phase s next t notes) (hborrows : Borrows phase) :
    Borrows next ∧ t.state.length + (holds next).toNat = s.state.length + (holds phase).toNat := by
  cases h with
  | rests => exact ⟨hborrows, rfl⟩
  | @puts a rest =>
    generalize hphase : Phase.ready (.put a rest) = phase at hborrows
    cases hborrows with
    | between later => rcases later with _ | ⟨_ | _, later⟩ <;> cases hphase
    | holding buf later =>
      cases hphase
      exact ⟨.notifying later, by simp [store, release, holds]⟩
    | _ => cases hphase
  | notifies =>
    cases hborrows with
    | notifying later => exact ⟨.between later, by rw [holds_between]; rfl⟩
  | takes hasks htake =>
    obtain ⟨⟨used, later, rfl⟩, -⟩ := hborrows.asks hasks
    have hlen := (store.take_some htake).length_eq
    refine ⟨.holding _ later, ?_⟩
    rw [holds_of_asks hasks]
    exact hlen.symm
  | leaves hasks =>
    obtain ⟨⟨used, later, rfl⟩, -⟩ := hborrows.asks hasks
    exact ⟨.between later, by rw [holds_of_asks hasks, lent, holds_between]⟩
  | waits hasks htry hempty =>
    obtain ⟨⟨used, later, rfl⟩, rfl | heq⟩ := hborrows.asks hasks
    · exact ⟨.waiting used later, by rw [holds_of_asks hasks]; rfl⟩
    · exact absurd heq htry

/-- The borrowers before the first step. -/
def opened (count size : Nat) (borrowers : List (List Borrowing)) : Room (List UInt8) LoanPool :=
  ⟨new count size, borrowers.map fun loans => .ready (borrower loans)⟩

/-- Every buffer is in the pool or held, and every borrower is at one of its loans. -/
def Whole (count : Nat) (room : Room (List UInt8) LoanPool) : Prop :=
  room.store.state.length + room.threads.countP holds = count ∧ ∀ phase ∈ room.threads, Borrows phase

theorem borrows_wake_at {threads : List (Phase (List UInt8))} (h : ∀ phase ∈ threads, Borrows phase) (i : Nat) :
    ∀ phase ∈ wake_at i threads, Borrows phase := by
  unfold wake_at
  split
  next phase hi =>
    intro phase' hmem
    rcases List.mem_or_eq_of_mem_set hmem with hmem | rfl
    · exact h phase' hmem
    · exact (h phase (List.mem_of_getElem? hi)).wake
  next => exact h

theorem Whole.turn {count : Nat} {room : Room (List UInt8) LoanPool} (h : Whole count room) (t : Turn) :
    Whole count (Room.turn store room t) := by
  obtain ⟨hcount, hborrows⟩ := h
  obtain ⟨heq, -⟩ | ⟨k, heq, -⟩ | ⟨i, whom, phase, next, pool, hi, hacts, heq⟩ := Room.turn_cases (S := store) room t
  · rw [heq]
    exact ⟨hcount, hborrows⟩
  · rw [heq]
    refine ⟨?_, borrows_wake_at hborrows k⟩
    dsimp only
    rw [countP_wake_at holds_wake, hcount]
  · rw [heq]
    obtain ⟨hnext, hkept⟩ := acts_borrows hacts (hborrows phase (List.mem_of_getElem? hi))
    have hset := countP_set_add (p := holds) (rouse_getElem? whom hi) next
    rw [countP_rouse holds_wake] at hset
    refine ⟨?_, fun phase' hmem => ?_⟩
    · dsimp only
      omega
    · rcases List.mem_or_eq_of_mem_set hmem with hmem | rfl
      · cases phase with
        | notifying rest => exact borrows_wake_at hborrows _ phase' hmem
        | _ => exact hborrows phase' hmem
      · exact hnext

theorem whole_opened (count size : Nat) (borrowers : List (List Borrowing)) :
    Whole count (opened count size borrowers) := by
  have hnone : (opened count size borrowers).threads.countP holds = 0 := by
    rw [List.countP_eq_zero]
    intro phase hmem
    obtain ⟨loans, -, rfl⟩ := List.mem_map.1 hmem
    rw [holds_between]
    exact Bool.false_ne_true
  refine ⟨by rw [hnone]; simp [opened, new], fun phase hmem => ?_⟩
  obtain ⟨loans, -, rfl⟩ := List.mem_map.1 hmem
  exact .between loans

/-- No buffer is lost; a run goes on for ever only if borrowers come back unwoken again and again; and when it has
come to an end, every borrower has had its loans and the pool is as full as it was. -/
structure Served (count : Nat) (room : Room (List UInt8) LoanPool) : Prop where
  whole : room.store.state.length + room.threads.countP holds = count
  at_rest : (∀ phase ∈ room.threads, phase.Idle) → (∀ phase ∈ room.threads, phase = .ready .done) ∧
    room.store.state.length = count
  ends : ∀ rooms turns, Room.Endless store room rooms turns → ∀ n, ∃ m, n ≤ m ∧ ∃ i, turns m = .wake i

/-- Borrowers who hold one buffer at a time do not block one another. -/
theorem loans_served {count : Nat} (hcount : 0 < count) (size : Nat) (borrowers : List (List Borrowing))
    (schedule : List Turn) : Served count (Room.run store (opened count size borrowers) schedule).2 := by
  have hattended : Attended store (Room.run store (opened count size borrowers) schedule).2 :=
    Room.attended (attended_ready borrowers borrower) schedule
  have hwhole : Whole count (Room.run store (opened count size borrowers) schedule).2 :=
    Room.run_keeps (R := fun _ room => Whole count room) (whole_opened count size borrowers)
      (fun _ _ t h => h.turn t) schedule
  refine ⟨hwhole.1, fun hidle => ?_, ?_⟩
  · have hnone : (Room.run store (opened count size borrowers) schedule).2.threads.countP holds = 0 := by
      rw [List.countP_eq_zero]
      intro phase hmem
      obtain rfl | hwaits := hidle phase hmem
      · exact Bool.false_ne_true
      · cases phase with
        | waiting timed rest => exact Bool.false_ne_true
        | _ => cases hwaits
    have hfull := hwhole.1
    rw [hnone, Nat.add_zero] at hfull
    -- all buffers are in the pool, so nobody waits for one
    refine ⟨fun phase hmem => ?_, hfull⟩
    obtain hdone | hwaits := hidle phase hmem
    · exact hdone
    · have hempty : (Room.run store (opened count size borrowers) schedule).2.store.state = [] :=
        hattended.of_idle hidle ⟨phase, hmem, hwaits⟩
      rw [hempty] at hfull
      exact absurd hfull hcount.ne
  · exact fun rooms turns h => Room.endless_wakes h

/-- Two borrowers and one buffer: the second waits, is woken, and has its loan. -/
theorem loans_served_two :
    (Room.run store (opened 1 4 [[.acquire id], [.acquire id]]) [.step 0 false 0, .step 1 false 0, .step 0 false 0,
      .step 0 false 1, .step 1 false 0, .step 1 false 0, .step 1 false 0]).2.store.state.length = 1 := by
  refine ((loans_served Nat.one_pos 4 [[.acquire id], [.acquire id]] _).at_rest fun phase hmem => ?_).2
  have hdone : phase ∈ [Phase.ready Prog.done, .ready .done] := hmem
  rw [List.mem_pair, or_self] at hdone
  exact .inl hdone

end LoanPool

end RustRcp
