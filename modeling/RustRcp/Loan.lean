import RustRcp.Mock
import RustRcp.Lib.Threads
/-!
# Loaned buffers

The buffer pool and the endpoint that lends from it (`src/loan.rs`, `Loan` of
`src/lib.rs`). A buffer comes back as its borrower leaves it and is lent again as it is,
at its own length. `Ledger` keeps what has been done to each buffer, from who takes one
and who gives one back; what that means for the writes is `loaned_writes_clean`.
-/
open Stateful Threads

namespace RustRcp

/-! ## The pool -/

structure LoanPool where
  state : List (List UInt8)
  size : Nat

namespace LoanPool

def new (count size : Nat) : LoanPool where
  state := List.replicate count (List.replicate size 0)
  size

/-- The last buffer, or `none`: the caller waits until there is one. -/
def acquire (self : LoanPool) : Option (List UInt8 × LoanPool) :=
  self.state.getLast?.map fun buf => (buf, { self with state := self.state.dropLast })

/-- What `acquire` has a dropped loan do. -/
def release (self : LoanPool) (returned : List UInt8) : LoanPool := { self with state := self.state ++ [returned] }

def buffer_size (self : LoanPool) : Nat := self.size

end LoanPool

structure LoanPoolEndpoint (M : Type) where
  inner : Endpoint M
  pool : LoanPool
  /-- What the wrapped endpoint keeps. -/
  memory : M

namespace LoanPoolEndpoint
variable {M : Type}

def loan (self : LoanPoolEndpoint M) (size : Nat) : Except RcpError (Option (List UInt8 × LoanPoolEndpoint M)) :=
  if self.pool.buffer_size < size then .error .PayloadTooLarge
  else .ok (self.pool.acquire.map fun (buf, pool) => (buf, { self with pool }))

def release (self : LoanPoolEndpoint M) (payload : List UInt8) : LoanPoolEndpoint M :=
  { self with pool := self.pool.release payload }

def send (payload : List UInt8) : Stateful RcpError (LoanPoolEndpoint M) Unit := do
  let self ← get
  within LoanPoolEndpoint.memory (fun self memory => { self with memory }) (self.inner.write payload)

/-- The payload is copied, the loan dropped and the copy written. -/
def write_loaned (loan : List UInt8) : Stateful RcpError (LoanPoolEndpoint M) Unit := do
  let payload := loan
  modify fun self => self.release loan
  send payload

/-! ## Borrowers -/

/-- What a borrower does to its payload. -/
inductive Fill where
  | store (pos : Nat) (byte : UInt8)
  | truncate (len : Nat)
  deriving DecidableEq

/-- A byte outside the payload is a panic. -/
def Fill.apply (payload : List UInt8) : Fill → Option (List UInt8)
  | .store pos byte => if pos < payload.length then some (payload.set pos byte) else none
  | .truncate len => some (payload.take len)

structure Borrower where
  size : Nat
  fills : List Fill
  /-- It ends with `write_loaned`, or the loan is just dropped. -/
  sends : Bool

inductive Phase where
  | idle
  | holding (payload : List UInt8) (fills : List Fill)
  | sending (payload : List UInt8)
  | panicked
  | returned (result : Except RcpError Unit)

variable {ι : Type} (calls : ι → Borrower)

/-- A loan is taken, filled byte by byte, given back and, from its copy, written. A panic gives it back too. -/
def move : Move ι (LoanPoolEndpoint M) Phase := fun i self phase =>
  match phase with
  | .idle =>
    match self.loan (calls i).size with
    | .error e => some (self, .returned (.error e))
    | .ok none => none
    | .ok (some (buf, self)) => some (self, .holding buf (calls i).fills)
  | .holding payload (fill :: fills) =>
    match fill.apply payload with
    -- unwinding drops the loan
    | none => some (self.release payload, .panicked)
    | some payload => some (self, .holding payload fills)
  | .holding payload [] =>
    some (self.release payload, if (calls i).sends then .sending payload else .returned (.ok ()))
  | .sending payload =>
    let (result, self) := exec (send payload) self
    some (self, .returned result)
  | .panicked | .returned _ => none

/-- A buffer is taken from the pool, or comes back with these fills made, or bytes reach the wrapped endpoint. -/
inductive Event (ι : Type) where
  | taken (i : ι) (buf : List UInt8)
  | gave (i : ι) (made : List Fill)
  | forwarded (i : ι) (bytes : List UInt8)
  deriving DecidableEq

def seen : ι → LoanPoolEndpoint M → Phase → Option (Event ι) := fun i self phase =>
  match phase with
  | .idle =>
    match self.loan (calls i).size with
    | .error _ | .ok none => none
    | .ok (some (buf, _)) => some (.taken i buf)
  | .holding payload (fill :: fills) =>
    match fill.apply payload with
    | none => some (.gave i ((calls i).fills.take ((calls i).fills.length - (fills.length + 1))))
    | some _ => none
  | .holding _ [] => some (.gave i (calls i).fills)
  | .sending payload => some (.forwarded i payload)
  | .panicked | .returned _ => none

/-! ## What becomes of a payload -/

/-- The byte stored last at a position. -/
def stored : List Fill → Nat → Option UInt8
  | [], _ => none
  | .store pos byte :: fills, place => (stored fills place).or (if pos = place then some byte else none)
  | .truncate _ :: fills, place => stored fills place

/-- What truncations leave of a length. -/
def shortened : List Fill → Nat → Nat
  | [], len => len
  | .store _ _ :: fills, len => shortened fills len
  | .truncate cut :: fills, len => shortened fills (min cut len)

def fill_all (fills : List Fill) (buf : List UInt8) : Option (List UInt8) := fills.foldlM Fill.apply buf

def Untruncated (fills : List Fill) : Prop := ∀ len, .truncate len ∉ fills

theorem shortened_le (fills : List Fill) (len : Nat) : shortened fills len ≤ len := by
  induction fills generalizing len with
  | nil => exact Nat.le_refl len
  | cons fill fills ih =>
    cases fill with
    | store pos byte => exact ih len
    | truncate cut => exact (ih (min cut len)).trans (Nat.min_le_right cut len)

theorem shortened_untruncated {fills : List Fill} (h : Untruncated fills) (len : Nat) : shortened fills len = len := by
  induction fills with
  | nil => rfl
  | cons fill fills ih =>
    cases fill with
    | store pos byte => exact ih fun cut hmem => h cut (List.mem_cons_of_mem _ hmem)
    | truncate cut => exact absurd List.mem_cons_self (h cut)

/-- Filled in place, a buffer keeps the length that is not cut off and every byte there that is not stored over. -/
theorem fill_all_spec {fills : List Fill} {buf payload : List UInt8} (h : fill_all fills buf = some payload) :
    payload.length = shortened fills buf.length ∧
      ∀ pos < payload.length, payload[pos]? = some ((stored fills pos).getD (buf.getD pos 0)) := by
  induction fills generalizing buf with
  | nil =>
    cases h
    refine ⟨rfl, fun pos hpos => ?_⟩
    simp [stored, hpos]
  | cons fill fills ih =>
    simp only [fill_all, List.foldlM_cons] at h
    obtain ⟨next, hnext, h⟩ := Option.bind_eq_some_iff.1 h
    obtain ⟨hlen, hbytes⟩ := ih h
    cases fill with
    | truncate cut =>
      cases hnext
      rw [List.length_take] at hlen
      refine ⟨hlen, fun pos hpos => ?_⟩
      have hcut : pos < cut := by
        have := shortened_le fills (min cut buf.length)
        omega
      rw [hbytes pos hpos, stored]
      simp [List.getD_eq_getElem?_getD, hcut]
    | store place byte =>
      simp only [Fill.apply, Option.ite_none_right_eq_some, Option.some.injEq] at hnext
      obtain ⟨hplace, rfl⟩ := hnext
      rw [List.length_set] at hlen
      refine ⟨hlen, fun pos hpos => ?_⟩
      rw [hbytes pos hpos, stored]
      by_cases heq : place = pos
      · subst heq
        cases stored fills place <;> simp [hplace]
      · cases stored fills pos <;> simp [heq, List.getD_eq_getElem?_getD]

theorem fill_all_append {before fills : List Fill} {buf payload payload' : List UInt8}
    (h : fill_all before buf = some payload) (hfills : fill_all fills payload = some payload') :
    fill_all (before ++ fills) buf = some payload' := by
  rw [fill_all] at h
  rw [fill_all, List.foldlM_append, h]
  exact hfills

/-! ## What has been done to the buffers -/

/-- All fills since the pool was new: of the buffers in it, and of the one each borrower took. -/
structure Ledger (ι : Type) where
  pool : List (List Fill)
  took : ι → List Fill

section
variable [DecidableEq ι]

/-- The buffer that came back last is the next one taken. -/
def Ledger.next (self : Ledger ι) : Event ι → Ledger ι
  | .taken i _ =>
    { pool := self.pool.dropLast, took := Function.update self.took i (self.pool.getLast?.getD []) }
  | .gave i made => { self with pool := self.pool ++ [self.took i ++ made] }
  | .forwarded _ _ => self

def ledger (count : Nat) (events : List (Event ι)) : Ledger ι :=
  events.foldl Ledger.next { pool := List.replicate count [], took := fun _ => [] }

theorem ledger_concat (count : Nat) (events : List (Event ι)) (event : Event ι) :
    ledger count (events ++ [event]) = (ledger count events).next event := by
  rw [ledger, List.foldl_concat, ← ledger]

end

/-! ## Runs -/

/-- A payload is its own buffer with the fills made so far. -/
def Phase.At (events : List (Event ι)) (i : ι) : Phase → Prop
  | .idle => ∀ buf, .taken i buf ∉ events
  | .holding payload fills => ∃ buf before, .taken i buf ∈ events ∧ (calls i).fills = before ++ fills ∧
      fill_all before buf = some payload
  | .sending payload => (calls i).sends = true ∧ ∃ buf, .taken i buf ∈ events ∧
      fill_all (calls i).fills buf = some payload
  | .panicked | .returned _ => True

/-- A borrower has made these fills, on some buffer. -/
def Made (fills : List Fill) : Prop := ∀ fill ∈ fills, ∃ i, fill ∈ (calls i).fills

/-- The borrowers as the events have them: each takes one buffer, and what it forwards is that buffer filled.
The buffers are as the ledger has them: zeros with all the fills on record. -/
structure Tracks [DecidableEq ι] (count size : Nat) (events : List (Event ι))
    (race : Race ι (LoanPoolEndpoint M) Phase) : Prop where
  stage : ∀ i, (race.phase i).At calls events i
  once : ∀ i buf buf', .taken i buf ∈ events → .taken i buf' ∈ events → buf = buf'
  sent : ∀ i bytes, .forwarded i bytes ∈ events → (calls i).sends = true ∧
    ∃ buf, .taken i buf ∈ events ∧ fill_all (calls i).fills buf = some bytes
  pool : (ledger count events).pool.map (fill_all · (List.replicate size 0)) = race.shared.pool.state.map some
  took : ∀ i buf, .taken i buf ∈ events →
    fill_all ((ledger count events).took i) (List.replicate size 0) = some buf
  made : (∀ fills ∈ (ledger count events).pool, Made calls fills) ∧ ∀ i, Made calls ((ledger count events).took i)

variable {calls} {count size : Nat} {events : List (Event ι)} {race : Race ι (LoanPoolEndpoint M) Phase} {i k : ι}

/-- An event that is no buffer of the borrower's leaves it where it is. -/
theorem Phase.At.append {phase : Phase} {later : List (Event ι)} (h : phase.At calls events i)
    (hlater : ∀ buf, .taken i buf ∉ later) : phase.At calls (events ++ later) i := by
  cases phase with
  | idle => exact fun buf hmem => (List.mem_append.1 hmem).elim (h buf) (hlater buf)
  | holding payload fills =>
    obtain ⟨buf, before, htaken, hfills, hpayload⟩ := h
    exact ⟨buf, before, List.mem_append_left _ htaken, hfills, hpayload⟩
  | sending payload =>
    obtain ⟨hsends, buf, htaken, hpayload⟩ := h
    exact ⟨hsends, buf, List.mem_append_left _ htaken, hpayload⟩
  | panicked | returned result => trivial

variable [DecidableEq ι]

/-- The last two steps, when nobody comes between, are `write_loaned`. -/
theorem write_loaned_alone {payload : List UInt8} (hsends : (calls i).sends = true)
    (hphase : race.phase i = .holding payload []) :
    run (move calls) race (List.replicate 2 i) =
      ⟨(exec (write_loaned payload) race.shared).2,
        Function.update race.phase i (.returned (exec (write_loaned payload) race.shared).1)⟩ := by
  rw [run_replicate (race.shared, .holding payload []) hphase]
  simp [alone, move, hsends, write_loaned, exec_bind]

/-- A step that leaves the pool alone and forwards nothing. -/
theorem Tracks.quiet (h : Tracks calls count size events race) {next : Phase} (hnext : next.At calls events k) :
    Tracks calls count size events ⟨race.shared, Function.update race.phase k next⟩ :=
  { h with stage := update_all h.stage hnext }

/-- The borrower that moves, and the others, after events of its own. -/
theorem Tracks.stage_update (h : Tracks calls count size events race) {later : List (Event ι)} {next : Phase}
    (hlater : ∀ i buf, .taken i buf ∈ later → i = k) (hnext : next.At calls (events ++ later) k) (i : ι) :
    (Function.update race.phase k next i).At calls (events ++ later) i := by
  rcases eq_or_ne i k with rfl | hne
  · rwa [Function.update_self]
  · rw [Function.update_of_ne hne]
    exact (h.stage i).append fun buf hmem => hne (hlater i buf hmem)

/-- An idle borrower takes the buffer that came back last. -/
theorem Tracks.taken (h : Tracks calls count size events race) (hidle : race.phase k = .idle) {buf : List UInt8}
    {pool : LoanPool} (hacquire : race.shared.pool.acquire = some (buf, pool)) :
    Tracks calls count size (events ++ [.taken k buf])
      ⟨{ race.shared with pool }, Function.update race.phase k (.holding buf (calls k).fills)⟩ := by
  have hnone : ∀ buf, .taken k buf ∉ events := by simpa [hidle, Phase.At] using h.stage k
  obtain ⟨last, hlast, hpool⟩ := Option.map_eq_some_iff.1 hacquire
  cases hpool
  -- its fills are the last in the ledger
  obtain ⟨fills, hfills, hbuf⟩ : ∃ fills, (ledger count events).pool.getLast? = some fills ∧
      fill_all fills (List.replicate size 0) = some buf := by
    have hboth := congrArg List.getLast? h.pool
    rw [List.getLast?_map, List.getLast?_map, hlast] at hboth
    exact Option.map_eq_some_iff.1 hboth
  constructor
  · refine h.stage_update (fun i buf' hmem => ?_) ⟨buf, [], by simp, rfl, rfl⟩
    cases List.mem_singleton.1 hmem
    rfl
  · intro i buf₁ buf₂ h₁ h₂
    rw [List.mem_append, List.mem_singleton] at h₁ h₂
    rcases h₁ with h₁ | h₁ <;> rcases h₂ with h₂ | h₂
    · exact h.once i buf₁ buf₂ h₁ h₂
    · cases h₂
      exact absurd h₁ (hnone buf₁)
    · cases h₁
      exact absurd h₂ (hnone buf₂)
    · cases h₁
      cases h₂
      rfl
  · intro i bytes hmem
    obtain ⟨hsends, buf', htaken, hfilled⟩ := h.sent i bytes (by simpa using hmem)
    exact ⟨hsends, buf', List.mem_append_left _ htaken, hfilled⟩
  · rw [ledger_concat]
    simp only [Ledger.next, List.map_dropLast, h.pool]
  · intro i buf' htaken
    rw [ledger_concat]
    simp only [Ledger.next, hfills, Option.getD_some]
    rcases List.mem_append.1 htaken with hold | hnew
    · have hne : i ≠ k := by
        rintro rfl
        exact hnone buf' hold
      rw [Function.update_of_ne hne]
      exact h.took i buf' hold
    · cases List.mem_singleton.1 hnew
      rw [Function.update_self]
      exact hbuf
  · rw [ledger_concat]
    simp only [Ledger.next, hfills, Option.getD_some]
    refine ⟨fun fills hmem => h.made.1 fills (List.dropLast_subset _ hmem), fun i => ?_⟩
    rcases eq_or_ne i k with rfl | hne
    · rw [Function.update_self]
      exact h.made.1 fills (List.mem_of_getLast? hfills)
    · rw [Function.update_of_ne hne]
      exact h.made.2 i

/-- A borrower gives its buffer back, with the fills it has made. -/
theorem Tracks.gave (h : Tracks calls count size events race) {payload : List UInt8} {fills made : List Fill}
    (hholding : race.phase k = .holding payload fills) (hmade : (calls k).fills = made ++ fills) {next : Phase}
    (hnext : next.At calls events k) :
    Tracks calls count size (events ++ [.gave k made])
      ⟨race.shared.release payload, Function.update race.phase k next⟩ := by
  have hstage := h.stage k
  rw [hholding] at hstage
  obtain ⟨buf, before, htaken, hbefore, hpayload⟩ := hstage
  obtain rfl : before = made := List.append_cancel_right (hbefore.symm.trans hmade)
  constructor
  · exact h.stage_update (by simp) (hnext.append (by simp))
  · intro i buf₁ buf₂ h₁ h₂
    exact h.once i buf₁ buf₂ (by simpa using h₁) (by simpa using h₂)
  · intro i bytes hmem
    obtain ⟨hsends, buf', htaken', hfilled⟩ := h.sent i bytes (by simpa using hmem)
    exact ⟨hsends, buf', List.mem_append_left _ htaken', hfilled⟩
  · rw [ledger_concat]
    simp only [Ledger.next, release, LoanPool.release, List.map_append, List.map_cons, List.map_nil, h.pool,
      fill_all_append (h.took k buf htaken) hpayload]
  · intro i buf' htaken'
    rw [ledger_concat]
    exact h.took i buf' (by simpa using htaken')
  · rw [ledger_concat]
    refine ⟨fun fills' hmem => ?_, h.made.2⟩
    rcases List.mem_append.1 hmem with hmem | hmem
    · exact h.made.1 fills' hmem
    · cases List.mem_singleton.1 hmem
      intro fill hfill
      rcases List.mem_append.1 hfill with hfill | hfill
      · exact h.made.2 k fill hfill
      · exact ⟨k, hmade ▸ List.mem_append_left _ hfill⟩

/-- A borrower forwards the copy of its payload. -/
theorem Tracks.forwarded (h : Tracks calls count size events race) {payload : List UInt8}
    (hsending : race.phase k = .sending payload) (memory : M) (result : Except RcpError Unit) :
    Tracks calls count size (events ++ [.forwarded k payload])
      ⟨{ race.shared with memory }, Function.update race.phase k (.returned result)⟩ := by
  have hstage := h.stage k
  rw [hsending] at hstage
  obtain ⟨hsends, buf, htaken, hfilled⟩ := hstage
  have hledger : ledger count (events ++ [.forwarded k payload]) = ledger count events := ledger_concat ..
  constructor
  · exact h.stage_update (by simp) trivial
  · intro i buf₁ buf₂ h₁ h₂
    exact h.once i buf₁ buf₂ (by simpa using h₁) (by simpa using h₂)
  · intro i bytes hmem
    rcases List.mem_append.1 hmem with hmem | hmem
    · obtain ⟨hsends', buf', htaken', hfilled'⟩ := h.sent i bytes hmem
      exact ⟨hsends', buf', List.mem_append_left _ htaken', hfilled'⟩
    · cases List.mem_singleton.1 hmem
      exact ⟨hsends, buf, List.mem_append_left _ htaken, hfilled⟩
  · rw [hledger]
    exact h.pool
  · intro i buf' htaken'
    rw [hledger]
    exact h.took i buf' (by simpa using htaken')
  · rw [hledger]
    exact h.made

theorem tracks_turn (events : List (Event ι)) (race : Race ι (LoanPoolEndpoint M) Phase) (k : ι)
    (h : Tracks calls count size events race) :
    Tracks calls count size (events ++ noted (seen calls) race k) (turn (move calls) race k) := by
  have hstage := h.stage k
  cases hphase : race.phase k with
  | idle =>
    by_cases hlarge : race.shared.pool.buffer_size < (calls k).size
    · have hnoted : noted (seen calls) race k = [] := by simp [noted, seen, hphase, loan, hlarge]
      have hmove : move calls k race.shared (race.phase k) =
          some (race.shared, .returned (.error .PayloadTooLarge)) := by
        simp [move, hphase, loan, hlarge]
      rw [hnoted, turn_some hmove, List.append_nil]
      exact h.quiet trivial
    · cases hacquire : race.shared.pool.acquire with
      | none =>
        have hnoted : noted (seen calls) race k = [] := by simp [noted, seen, hphase, loan, hlarge, hacquire]
        rw [hnoted, turn_none (by simp [move, hphase, loan, hlarge, hacquire]), List.append_nil]
        exact h
      | some lent =>
        have hnoted : noted (seen calls) race k = [.taken k lent.1] := by
          simp [noted, seen, hphase, loan, hlarge, hacquire]
        have hmove : move calls k race.shared (race.phase k) =
            some ({ race.shared with pool := lent.2 }, .holding lent.1 (calls k).fills) := by
          simp [move, hphase, loan, hlarge, hacquire]
        rw [hnoted, turn_some hmove]
        exact h.taken hphase hacquire
  | holding payload fills =>
    rw [hphase] at hstage
    obtain ⟨buf, before, htaken, hfills, hpayload⟩ := hstage
    cases fills with
    | nil =>
      rw [List.append_nil] at hfills
      have hnoted : noted (seen calls) race k = [.gave k (calls k).fills] := by simp [noted, seen, hphase]
      rw [hnoted, turn_some (by rw [hphase]; rfl)]
      refine h.gave hphase (List.append_nil _).symm ?_
      split_ifs with hsends
      · exact ⟨hsends, buf, htaken, by rwa [hfills]⟩
      · trivial
    | cons fill fills =>
      cases hfill : fill.apply payload with
      | none =>
        -- it panics with the fills before this one made
        have hmade : (calls k).fills.take ((calls k).fills.length - (fills.length + 1)) = before := by
          simp [hfills]
        have hnoted : noted (seen calls) race k = [.gave k before] := by
          simp only [noted, seen, hphase, hfill, hmade, Option.toList_some]
        have hmove : move calls k race.shared (race.phase k) = some (race.shared.release payload, .panicked) := by
          simp [move, hphase, hfill]
        rw [hnoted, turn_some hmove]
        exact h.gave hphase hfills trivial
      | some payload' =>
        have hnoted : noted (seen calls) race k = [] := by simp [noted, seen, hphase, hfill]
        have hmove : move calls k race.shared (race.phase k) = some (race.shared, .holding payload' fills) := by
          simp [move, hphase, hfill]
        rw [hnoted, turn_some hmove, List.append_nil]
        have hone : fill_all [fill] payload = some payload' := by simpa [fill_all] using hfill
        exact h.quiet ⟨buf, before ++ [fill], htaken, by simp [hfills], fill_all_append hpayload hone⟩
  | sending payload =>
    have hnoted : noted (seen calls) race k = [.forwarded k payload] := by simp [noted, seen, hphase]
    rw [hnoted, turn_some (by rw [hphase]; rfl)]
    exact h.forwarded hphase _ _
  | panicked | returned result =>
    have hnoted : noted (seen calls) race k = [] := by simp [noted, seen, hphase]
    rw [hnoted, turn_none (by rw [hphase]; rfl), List.append_nil]
    exact h

/-! ## Residue -/

/-- Exactly the bytes asked for, each the one its borrower stored there last, or zero. -/
structure Clean (borrower : Borrower) (bytes : List UInt8) : Prop where
  length : bytes.length = borrower.size
  content : ∀ pos < borrower.size, bytes[pos]? = some ((stored borrower.fills pos).getD 0)

/-- What has been done to a buffer of a pool of this size before a borrower takes it: no truncation leaves it at
another length than the borrower asks for, and wherever the borrower stores nothing the last byte stored, if any,
is zero. -/
structure Spotless (size : Nat) (borrower : Borrower) (before : List Fill) : Prop where
  length : shortened before size = borrower.size
  zero : ∀ pos < borrower.size, stored borrower.fills pos = none → (stored before pos).getD 0 = 0

theorem clean_iff {borrower : Borrower} {before : List Fill} {buf bytes : List UInt8}
    (hbefore : fill_all before (List.replicate size 0) = some buf) (h : fill_all borrower.fills buf = some bytes)
    (huncut : Untruncated borrower.fills) : Clean borrower bytes ↔ Spotless size borrower before := by
  obtain ⟨hlen, hbytes⟩ := fill_all_spec h
  obtain ⟨hlen', hbytes'⟩ := fill_all_spec hbefore
  rw [shortened_untruncated huncut] at hlen
  rw [List.length_replicate] at hlen'
  have hheld : ∀ pos < buf.length, buf.getD pos 0 = (stored before pos).getD 0 := by
    intro pos hpos
    have hzero : (List.replicate size (0 : UInt8)).getD pos 0 = 0 := by
      rw [List.getD_eq_getElem?_getD, List.getElem?_replicate]
      split <;> rfl
    rw [List.getD_eq_getElem?_getD, hbytes' pos hpos, hzero, Option.getD_some]
  constructor
  · intro hclean
    have hsize : buf.length = borrower.size := hlen.symm.trans hclean.length
    refine ⟨hlen'.symm.trans hsize, fun pos hpos hstored => ?_⟩
    -- where nothing is stored the byte is the one that was there, and a clean one is zero
    have hsame := (hbytes pos (hlen ▸ hsize ▸ hpos)).symm.trans (hclean.content pos hpos)
    rw [← hheld pos (hsize ▸ hpos)]
    simpa [hstored] using hsame
  · intro hspotless
    have hsize : buf.length = borrower.size := hlen'.trans hspotless.length
    refine ⟨hlen.trans hsize, fun pos hpos => ?_⟩
    rw [hbytes pos (hlen ▸ hsize ▸ hpos)]
    cases hstored : stored borrower.fills pos with
    | none => rw [Option.getD_none, Option.getD_none, hheld pos (hsize ▸ hpos), hspotless.zero pos hpos hstored]
    | some byte => rfl

theorem Clean.unique {borrower : Borrower} {bytes bytes' : List UInt8} (h : Clean borrower bytes)
    (h' : Clean borrower bytes') : bytes = bytes' := by
  refine List.ext_getElem? fun pos => ?_
  by_cases hpos : pos < borrower.size
  · rw [h.content pos hpos, h'.content pos hpos]
  · rw [List.getElem?_eq_none (by rw [h.length]; omega), List.getElem?_eq_none (by rw [h'.length]; omega)]

variable (calls) in
/-- Who sends asks for the pool's size and stores every byte of it, and nobody truncates. -/
structure Wiping (size : Nat) : Prop where
  asked : ∀ i, (calls i).sends = true → (calls i).size = size
  wiped : ∀ i, (calls i).sends = true → ∀ pos < size, stored (calls i).fills pos ≠ none
  uncut : ∀ i, Untruncated (calls i).fills

omit [DecidableEq ι] in
theorem Wiping.spotless (h : Wiping calls size) (hsends : (calls i).sends = true) {before : List Fill}
    (hmade : Made calls before) : Spotless size (calls i) before where
  length := by
    rw [h.asked i hsends]
    refine shortened_untruncated (fun len hmem => ?_) size
    obtain ⟨j, hj⟩ := hmade _ hmem
    exact h.uncut j len hj
  zero pos hpos hstored := absurd hstored (h.wiped i hsends pos (h.asked i hsends ▸ hpos))

section
variable (calls : ι → Borrower) (inner : Endpoint M) (memory : M) (count size : Nat) (schedule : List ι)

/-- What a schedule of borrowers shows on a new pool. -/
def shown : List (Event ι) := trace (move calls) (seen calls) (fresh ⟨inner, .new count size, memory⟩ .idle) schedule

/-- Every write of a loan that nobody has cut short is clean. -/
def NoResidue : Prop :=
  ∀ i bytes, .forwarded i bytes ∈ shown calls inner memory count size schedule → Untruncated (calls i).fills →
    Clean (calls i) bytes

/-- Whoever forwards such a loan has got a buffer that those who had it before have left spotless. -/
def Unspoiled : Prop :=
  ∀ i bytes, .forwarded i bytes ∈ shown calls inner memory count size schedule → Untruncated (calls i).fills →
    Spotless size (calls i) ((ledger count (shown calls inner memory count size schedule)).took i)

end

theorem tracks_shown (calls : ι → Borrower) (inner : Endpoint M) (memory : M) (count size : Nat) (schedule : List ι) :
    Tracks calls count size (shown calls inner memory count size schedule)
      (run (move calls) (fresh ⟨inner, .new count size, memory⟩ .idle) schedule) := by
  have hstart : Tracks calls count size []
      (fresh ⟨inner, .new count size, memory⟩ .idle : Race ι (LoanPoolEndpoint M) Phase) := {
    stage := fun _ => by simp [fresh, Phase.At]
    once := by simp
    sent := by simp
    pool := by simp [fresh, ledger, LoanPool.new, fill_all]
    took := by simp
    made := by simp [ledger, Made] }
  exact run_follows hstart tracks_turn schedule

/-- The writes of a run are clean exactly when the buffers come to them unspoiled, for which it is enough that
who sends wipes a buffer of the pool's size, and two such runs forward the same bytes for a borrower, whatever the
others have written. -/
theorem loaned_writes_clean (calls : ι → Borrower) (inner : Endpoint M) (memory : M) (count size : Nat)
    (schedule : List ι) :
    (NoResidue calls inner memory count size schedule ↔ Unspoiled calls inner memory count size schedule) ∧
      (Wiping calls size → NoResidue calls inner memory count size schedule) ∧
      (Unspoiled calls inner memory count size schedule →
        ∀ calls' schedule', Unspoiled calls' inner memory count size schedule' →
          ∀ i bytes bytes', calls' i = calls i → Untruncated (calls i).fills →
            .forwarded i bytes ∈ shown calls inner memory count size schedule →
            .forwarded i bytes' ∈ shown calls' inner memory count size schedule' → bytes = bytes') := by
  have hiff : ∀ (calls : ι → Borrower) schedule i bytes,
      .forwarded i bytes ∈ shown calls inner memory count size schedule → Untruncated (calls i).fills →
      (Clean (calls i) bytes ↔
        Spotless size (calls i) ((ledger count (shown calls inner memory count size schedule)).took i)) := by
    intro calls schedule i bytes hsent huncut
    have htracks := tracks_shown calls inner memory count size schedule
    obtain ⟨-, buf, htaken, hfilled⟩ := htracks.sent i bytes hsent
    exact clean_iff (htracks.took i buf htaken) hfilled huncut
  refine ⟨?_, fun hwiping i bytes hsent huncut => ?_, ?_⟩
  · exact forall₂_congr fun i bytes => forall₂_congr fun hsent huncut => hiff calls schedule i bytes hsent huncut
  · have htracks := tracks_shown calls inner memory count size schedule
    exact (hiff calls schedule i bytes hsent huncut).2
      (hwiping.spotless (htracks.sent i bytes hsent).1 (htracks.made.2 i))
  · intro hclean calls' schedule' hclean' i bytes bytes' hsame huncut hsent hsent'
    have hbytes := (hiff calls schedule i bytes hsent huncut).2 (hclean i bytes hsent huncut)
    have huncut' : Untruncated (calls' i).fills := hsame ▸ huncut
    have hbytes' := (hiff calls' schedule' i bytes' hsent' huncut').2 (hclean' i bytes' hsent' huncut')
    rw [hsame] at hbytes'
    exact hbytes.unique hbytes'

/-- Two bytes are asked for and four are written, one of them another borrower's. -/
theorem stale_bytes :
    let calls : UInt8 → Bool → Borrower := fun secret i =>
      if i then ⟨2, [.store 0 1], true⟩ else ⟨4, [.store 1 secret], false⟩
    let schedule := [false, false, false, true, true, true, true]
    .forwarded true [1, 7, 0, 0] ∈ shown (calls 7) (MockEndpoint 0) [[]] 1 4 schedule ∧
      .forwarded true [1, 9, 0, 0] ∈ shown (calls 9) (MockEndpoint 0) [[]] 1 4 schedule ∧
      ¬ NoResidue (calls 7) (MockEndpoint 0) [[]] 1 4 schedule := by
  intro calls schedule
  have hseven : .forwarded true [1, 7, 0, 0] ∈ shown (calls 7) (MockEndpoint 0) [[]] 1 4 schedule := by decide
  refine ⟨hseven, by decide, fun h => ?_⟩
  have hlength := (h true [1, 7, 0, 0] hseven (by simp [calls, Untruncated])).length
  simp [calls] at hlength

end LoanPoolEndpoint

end RustRcp
