import Mathlib.Data.List.Perm.Basic
import RustRcp.Loan
/-!
# Who has which buffer

A pool and its borrowers over any run of what they do (`LoanPool` of `src/loan.rs`, `Loan` of
`src/lib.rs`), with a name for every buffer. However the runs interleave, no buffer is lost or
doubled; but a borrower owns the payload and may give back another, or a shorter one, and then
that is what the next borrower gets (`loans_conserved`).
-/
open Stateful

namespace RustRcp

/-- A vector of bytes, with a name to tell it from others. -/
structure Buffer where
  name : Nat
  bytes : List UInt8
  deriving DecidableEq, Repr

/-- A loan: its payload, and whether the closure that takes it back has yet to run. -/
structure Loan where
  ticket : Nat
  payload : Buffer
  release : Bool := true
  deriving DecidableEq, Repr

/-- A pool with the loans that are out, and the vectors its borrowers have besides. -/
structure Lending where
  size : Nat
  pool : List Buffer
  loans : List Loan := []
  own : List Buffer := []
  /-- The first name not yet used. -/
  next : Nat
  /-- Tickets so far. -/
  issued : Nat := 0
  /-- What the buffers held when they were handed out. -/
  handed : List (List UInt8) := []
  /-- The tickets of the loans whose closure has run, in its order. -/
  returned : List Nat := []
  deriving DecidableEq, Repr

namespace Lending

def new (count size : Nat) : Lending where
  size
  pool := (List.range count).map fun name => { name, bytes := List.replicate size 0 }
  next := count

/-- The last buffer of the pool becomes a loan's. -/
def lend (self : Lending) : Option Lending :=
  self.pool.getLast?.map fun buf => { self with
    pool := self.pool.dropLast
    loans := self.loans ++ [{ ticket := self.issued, payload := buf }]
    issued := self.issued + 1
    handed := self.handed ++ [buf.bytes] }

/-- `release.take()`, and the closure called on what `mem::take` takes: an empty vector is left. -/
def fire (self : Lending) (loan : Loan) : Lending × Loan :=
  if loan.release then
    ({ self with
        pool := self.pool ++ [loan.payload]
        next := self.next + 1
        returned := self.returned ++ [loan.ticket] },
      { loan with payload := { name := self.next, bytes := [] }, release := false })
  else (self, loan)

def drop (self : Lending) (loan : Loan) : Lending := (self.fire loan).1

/-- The loan is dropped where its scope ends. -/
def return_loan (self : Lending) (loan : Loan) : Lending :=
  let (self, loan) := self.fire loan
  self.drop loan

/-- What the wrapped endpoint is given to write is a copy. -/
def write_loaned (self : Lending) (loan : Loan) : Lending × List UInt8 :=
  let payload := loan.payload.bytes
  (self.drop loan, payload)

end Lending

/-- What borrowers do, one step each; a loan and a vector are given by their place. -/
inductive LoanOp where
  | acquire
  | try_acquire
  /-- The payload is overwritten, truncated or extended. -/
  | fill (i : Nat) (bytes : List UInt8)
  /-- Somebody makes a vector of these bytes. -/
  | make (bytes : List UInt8)
  /-- The payload is exchanged for a vector. -/
  | swap (i k : Nat)
  | drop (i : Nat)
  | return_loan (i : Nat)
  | write_loaned (i : Nat)

namespace Lending

/-- The loan at this place goes to whoever consumes it. -/
def consume (self : Lending) (i : Nat) (f : Lending → Loan → Lending) : Option Lending :=
  self.loans[i]?.map fun loan => f { self with loans := self.loans.eraseIdx i } loan

/-- No step where `acquire` waits, or where there is no such loan or vector. -/
def step (self : Lending) : LoanOp → Option Lending
  | .acquire => self.lend
  | .try_acquire => some (self.lend.getD self)
  | .fill i bytes =>
    self.loans[i]?.map fun loan =>
      { self with loans := self.loans.set i { loan with payload := { loan.payload with bytes } } }
  | .make bytes =>
    some { self with own := self.own ++ [{ name := self.next, bytes }], next := self.next + 1 }
  | .swap i k => do
    let loan ← self.loans[i]?
    let mine ← self.own[k]?
    some { self with loans := self.loans.set i { loan with payload := mine }, own := self.own.set k loan.payload }
  | .drop i => self.consume i drop
  | .return_loan i => self.consume i return_loan
  | .write_loaned i => self.consume i fun self loan => (self.write_loaned loan).1

def run (self : Lending) (ops : List LoanOp) : Option Lending := ops.foldlM step self

/-! ## The pool itself -/

/-- The pool without the names. -/
def unnamed (self : Lending) : LoanPool := { state := self.pool.map Buffer.bytes, size := self.size }

theorem unnamed_new (count size : Nat) : (new count size).unnamed = LoanPool.new count size := by
  simp [unnamed, new, LoanPool.new, Function.comp_def, List.map_const']

/-- Lending is what `LoanPool.acquire` does. -/
theorem lend_unnamed (self : Lending) :
    (self.lend.map fun lent => (lent.handed, lent.unnamed)) =
      self.unnamed.acquire.map fun (buf, pool) => (self.handed ++ [buf], pool) := by
  simp [lend, unnamed, LoanPool.acquire, Function.comp_def, List.map_dropLast]

/-- Firing the closure is what `LoanPool.release` does. -/
theorem fire_unnamed (self : Lending) {loan : Loan} (harmed : loan.release = true) :
    (self.fire loan).1.unnamed = self.unnamed.release loan.payload.bytes := by
  simp [fire, harmed, unnamed, LoanPool.release]

/-- The closure runs once. -/
theorem fire_fire (self : Lending) (loan : Loan) :
    (self.fire loan).1.fire (self.fire loan).2 = self.fire loan := by
  by_cases h : loan.release = true <;> simp [fire, h]

/-- The write of the copy, after the loan is dropped, does not come near the pool. -/
theorem write_loaned_pool {M : Type} (self : LoanPoolEndpoint M) (payload : List UInt8) :
    (exec (LoanPoolEndpoint.write_loaned payload) self).2.pool = self.pool.release payload := by
  simp [LoanPoolEndpoint.write_loaned, LoanPoolEndpoint.send, exec_bind, LoanPoolEndpoint.release]

theorem return_loan_eq (self : Lending) (loan : Loan) : self.return_loan loan = self.drop loan :=
  congrArg Prod.fst (self.fire_fire loan)

/-! ## Conservation -/

/-- The buffers there are: in the pool, as payloads, and besides. -/
def names (self : Lending) : List Nat :=
  self.pool.map Buffer.name ++ self.loans.map (·.payload.name) ++ self.own.map Buffer.name

/-- The buffers available and the loans outstanding are the pool's, no buffer is in two places, and every
ticket is that of a loan outstanding or of one whose closure has run, once. -/
structure Conserved (count : Nat) (s : Lending) : Prop where
  total : s.pool.length + s.loans.length = count
  distinct : s.names.Nodup
  tickets : ∀ t, (s.loans.map Loan.ticket).count t + s.returned.count t = if t < s.issued then 1 else 0

/-- What it takes to keep it so: no name is used that is yet to come, and outstanding loans have their closure. -/
structure Sound (count : Nat) (s : Lending) : Prop extends Conserved count s where
  named : ∀ name ∈ s.names, name < s.next
  armed : ∀ loan ∈ s.loans, loan.release = true

section Counting
variable {α : Type} {l : List α} {i : Nat} {x : α}

theorem count_map_eraseIdx (h : l[i]? = some x) (f : α → Nat) (t : Nat) :
    (l.map f).count t = ((l.eraseIdx i).map f).count t + if f x = t then 1 else 0 := by
  obtain ⟨hi, rfl⟩ := List.getElem?_eq_some_iff.1 h
  rw [← ((List.getElem_cons_eraseIdx_perm hi).map f).count_eq t, List.map_cons, List.count_cons]
  simp only [beq_iff_eq]

theorem count_map_set (h : l[i]? = some x) (y : α) (f : α → Nat) (t : Nat) :
    ((l.set i y).map f).count t = ((l.eraseIdx i).map f).count t + if f y = t then 1 else 0 := by
  obtain ⟨hi, rfl⟩ := List.getElem?_eq_some_iff.1 h
  rw [((List.set_perm_cons_eraseIdx hi y).map f).count_eq t, List.map_cons, List.count_cons]
  simp only [beq_iff_eq]

end Counting

/-- Buffers that only change places stay distinct and named. -/
theorem Sound.of_names {count : Nat} {self after : Lending} (h : Sound count self)
    (hnames : ∀ name, after.names.count name = self.names.count name) (hnext : self.next ≤ after.next)
    (htotal : after.pool.length + after.loans.length = count)
    (htickets : ∀ t, (after.loans.map Loan.ticket).count t + after.returned.count t = if t < after.issued then 1 else 0)
    (harmed : ∀ loan ∈ after.loans, loan.release = true) : Sound count after where
  total := htotal
  distinct := by
    rw [List.nodup_iff_count_le_one]
    intro name
    rw [hnames]
    exact List.nodup_iff_count_le_one.1 h.distinct name
  tickets := htickets
  named := by
    intro name hname
    have hcount := List.count_pos_iff.2 hname
    rw [hnames] at hcount
    exact Nat.lt_of_lt_of_le (h.named name (List.count_pos_iff.1 hcount)) hnext
  armed := harmed

theorem sound_new (count size : Nat) : Sound count (new count size) where
  total := by simp [new]
  distinct := by simpa [names, new, Function.comp_def] using List.nodup_range
  tickets := by simp [new]
  named := by simp [names, new]
  armed := by simp [new]

theorem Sound.lend {count : Nat} {self after : Lending} (h : Sound count self) (hlend : self.lend = some after) :
    Sound count after := by
  obtain ⟨buf, hlast, rfl⟩ := Option.map_eq_some_iff.1 hlend
  have hpool := List.dropLast_append_getLast? buf hlast
  refine h.of_names ?_ (Nat.le_refl _) ?_ ?_ ?_
  · intro name
    have hcount := congrArg (fun pool : List Buffer => (pool.map Buffer.name).count name) hpool
    simp only [List.map_append, List.count_append, List.map_cons, List.map_nil] at hcount
    simp only [names, List.map_append, List.count_append, List.map_cons, List.map_nil]
    omega
  · have htotal := h.total
    have hlength := congrArg List.length hpool
    simp only [List.length_append, List.length_singleton] at hlength ⊢
    omega
  · intro t
    have htickets := h.tickets t
    simp only [List.map_append, List.count_append, List.map_cons, List.map_nil, List.count_singleton, beq_iff_eq]
    split_ifs at * <;> omega
  · intro loan hloan
    rcases List.mem_append.1 hloan with hloan | hloan
    · exact h.armed loan hloan
    · rw [List.mem_singleton.1 hloan]

/-- A loan that is consumed gives its buffer back. -/
theorem Sound.drop {count : Nat} {self : Lending} (h : Sound count self) {i : Nat} {loan : Loan}
    (hloan : self.loans[i]? = some loan) :
    Sound count (Lending.drop { self with loans := self.loans.eraseIdx i } loan) := by
  have harmed := h.armed loan (List.mem_of_getElem? hloan)
  have hi := (List.getElem?_eq_some_iff.1 hloan).1
  simp only [Lending.drop, fire, harmed, if_true]
  refine h.of_names ?_ (Nat.le_succ _) ?_ ?_ ?_
  · intro name
    have hcount := count_map_eraseIdx hloan (·.payload.name) name
    simp only [names, List.map_append, List.count_append, List.map_cons, List.map_nil, List.count_singleton, beq_iff_eq]
    omega
  · have htotal := h.total
    rw [List.length_append, List.length_singleton, List.length_eraseIdx_of_lt hi]
    omega
  · intro t
    have htickets := h.tickets t
    have hcount := count_map_eraseIdx hloan Loan.ticket t
    simp only [List.count_append, List.count_singleton, beq_iff_eq]
    omega
  · exact fun other hother => h.armed other (List.mem_of_mem_eraseIdx hother)

/-- The loan at a place has another payload, and what buffers there are is as before. -/
theorem Sound.set {count : Nat} {self : Lending} (h : Sound count self) {i : Nat} {loan : Loan}
    (hloan : self.loans[i]? = some loan) (buf : Buffer) (own : List Buffer)
    (hown : ∀ name, (own.map Buffer.name).count name + (if buf.name = name then 1 else 0) =
      (self.own.map Buffer.name).count name + if loan.payload.name = name then 1 else 0) :
    Sound count { self with loans := self.loans.set i { loan with payload := buf }, own } := by
  refine h.of_names ?_ (Nat.le_refl _) ?_ ?_ ?_
  · intro name
    have herase := count_map_eraseIdx hloan (·.payload.name) name
    have hset := count_map_set hloan { loan with payload := buf } (·.payload.name) name
    have hsame := hown name
    simp only [names, List.count_append] at *
    omega
  · rw [List.length_set]
    exact h.total
  · intro t
    have herase := count_map_eraseIdx hloan Loan.ticket t
    have hset := count_map_set hloan { loan with payload := buf } Loan.ticket t
    rw [hset, ← h.tickets t, herase]
  · intro other hother
    rcases List.mem_or_eq_of_mem_set hother with hother | rfl
    · exact h.armed other hother
    · exact h.armed loan (List.mem_of_getElem? hloan)

theorem Sound.make {count : Nat} {self : Lending} (h : Sound count self) (bytes : List UInt8) :
    Sound count { self with own := self.own ++ [{ name := self.next, bytes }], next := self.next + 1 } where
  total := h.total
  distinct := by
    have hnew : self.next ∉ self.names := fun hmem => Nat.lt_irrefl _ (h.named _ hmem)
    have hnames := List.nodup_append.2 ⟨h.distinct, List.nodup_singleton self.next, fun name hname next hnext heq =>
      hnew (List.mem_singleton.1 hnext ▸ heq ▸ hname)⟩
    simpa [names] using hnames
  tickets := h.tickets
  named := by
    intro name hname
    have hcases : name ∈ self.names ∨ name = self.next := by
      simpa only [names, List.map_append, List.map_cons, List.map_nil, List.mem_append, List.mem_singleton,
        or_assoc] using hname
    rcases hcases with hold | rfl
    · exact Nat.lt_succ_of_lt (h.named name hold)
    · exact Nat.lt_succ_self _
  armed := h.armed

/-! ## Sizes -/

/-- A step that gives a loan back gives back a buffer of this size. -/
def Restores (size : Nat) (self : Lending) : LoanOp → Prop
  | .drop i | .return_loan i | .write_loaned i => ∀ loan, self.loans[i]? = some loan → loan.payload.bytes.length = size
  | _ => True

def Restoring (size : Nat) : Lending → List LoanOp → Prop
  | _, [] => True
  | self, op :: ops => Restores size self op ∧ ∀ next, self.step op = some next → Restoring size next ops

/-- Buffers in the pool are of this size, and so were those handed out. -/
structure Sized (size : Nat) (s : Lending) : Prop where
  pool : ∀ buf ∈ s.pool, buf.bytes.length = size
  handed : ∀ bytes ∈ s.handed, bytes.length = size

theorem Sized.lend {size : Nat} {self after : Lending} (h : Sized size self) (hlend : self.lend = some after) :
    Sized size after := by
  obtain ⟨buf, hlast, rfl⟩ := Option.map_eq_some_iff.1 hlend
  refine ⟨fun other hother => h.pool other (List.dropLast_subset _ hother), fun bytes hbytes => ?_⟩
  rcases List.mem_append.1 hbytes with hbytes | hbytes
  · exact h.handed bytes hbytes
  · rw [List.mem_singleton.1 hbytes]
    exact h.pool buf (List.mem_of_getLast? hlast)

theorem Sized.drop {size : Nat} {self : Lending} (h : Sized size self) {loan : Loan}
    (hsize : loan.payload.bytes.length = size) : Sized size (self.drop loan) := by
  simp only [Lending.drop, fire]
  split_ifs
  · refine ⟨fun buf hbuf => ?_, h.handed⟩
    rcases List.mem_append.1 hbuf with hbuf | hbuf
    · exact h.pool buf hbuf
    · rwa [List.mem_singleton.1 hbuf]
  · exact h

theorem sized_new (count size : Nat) : Sized size (new count size) := by
  constructor <;> simp [new]

/-! ## Runs -/

/-- Every step there is: nothing is lent, or a buffer is, or a loan is consumed, or has another payload, or
a vector is made. -/
theorem step_cases {self after : Lending} {op : LoanOp} (hstep : self.step op = some after) :
    after = self ∨ self.lend = some after ∨
    (∃ i loan, self.loans[i]? = some loan ∧ (∀ size, Restores size self op → loan.payload.bytes.length = size) ∧
      after = Lending.drop { self with loans := self.loans.eraseIdx i } loan) ∨
    (∃ i loan buf own, self.loans[i]? = some loan ∧
      (∀ name, (own.map Buffer.name).count name + (if buf.name = name then 1 else 0) =
        (self.own.map Buffer.name).count name + if loan.payload.name = name then 1 else 0) ∧
      after = { self with loans := self.loans.set i { loan with payload := buf }, own }) ∨
    ∃ bytes, after = { self with own := self.own ++ [{ name := self.next, bytes }], next := self.next + 1 } := by
  cases op with
  | acquire => exact .inr (.inl hstep)
  | try_acquire =>
    cases hstep
    cases hlend : self.lend with
    | none => exact .inl rfl
    | some lent => exact .inr (.inl rfl)
  | fill i bytes =>
    obtain ⟨loan, hloan, rfl⟩ := Option.map_eq_some_iff.1 hstep
    exact .inr (.inr (.inr (.inl ⟨i, loan, { loan.payload with bytes }, self.own, hloan, fun _ => rfl, rfl⟩)))
  | make bytes =>
    cases hstep
    exact .inr (.inr (.inr (.inr ⟨bytes, rfl⟩)))
  | swap i k =>
    obtain ⟨loan, hloan, hstep⟩ := Option.bind_eq_some_iff.1 hstep
    obtain ⟨mine, hmine, hstep⟩ := Option.bind_eq_some_iff.1 hstep
    cases hstep
    refine .inr (.inr (.inr (.inl ⟨i, loan, mine, self.own.set k loan.payload, hloan, fun name => ?_, rfl⟩)))
    rw [count_map_set hmine loan.payload, count_map_eraseIdx hmine]
    omega
  | drop i | write_loaned i =>
    obtain ⟨loan, hloan, rfl⟩ := Option.map_eq_some_iff.1 hstep
    exact .inr (.inr (.inl ⟨i, loan, hloan, fun _ hrestores => hrestores loan hloan, rfl⟩))
  | return_loan i =>
    obtain ⟨loan, hloan, rfl⟩ := Option.map_eq_some_iff.1 hstep
    exact .inr (.inr (.inl ⟨i, loan, hloan, fun _ hrestores => hrestores loan hloan, return_loan_eq _ loan⟩))

theorem Sound.step {count : Nat} {self after : Lending} (h : Sound count self) {op : LoanOp}
    (hstep : self.step op = some after) : Sound count after := by
  obtain rfl | hlend | ⟨i, loan, hloan, -, rfl⟩ | ⟨i, loan, buf, own, hloan, hown, rfl⟩ | ⟨bytes, rfl⟩ :=
    step_cases hstep
  · exact h
  · exact h.lend hlend
  · exact h.drop hloan
  · exact h.set hloan buf own hown
  · exact h.make bytes

/-- What every step keeps for the operations after it, a run keeps. -/
theorem run_keeps {P : Lending → List LoanOp → Prop}
    (hstep : ∀ self op ops next, P self (op :: ops) → self.step op = some next → P next ops)
    {self after : Lending} {ops : List LoanOp} (h : P self ops) (hrun : self.run ops = some after) : P after [] := by
  induction ops generalizing self with
  | nil =>
    cases hrun
    exact h
  | cons op ops ih =>
    obtain ⟨next, hnext, hrest⟩ := Option.bind_eq_some_iff.1 hrun
    exact ih (hstep self op ops next h hnext) hrest

theorem Sound.run {count : Nat} {self after : Lending} (h : Sound count self) {ops : List LoanOp}
    (hrun : self.run ops = some after) : Sound count after :=
  run_keeps (P := fun self _ => Sound count self) (fun _ _ _ _ h hstep => h.step hstep) h hrun

theorem Sized.step {size : Nat} {self after : Lending} (h : Sized size self) {op : LoanOp}
    (hrestores : Restores size self op) (hstep : self.step op = some after) : Sized size after := by
  obtain rfl | hlend | ⟨i, loan, -, hsize, rfl⟩ | ⟨i, loan, buf, own, -, -, rfl⟩ | ⟨bytes, rfl⟩ := step_cases hstep
  · exact h
  · exact h.lend hlend
  · have herased : Sized size { self with loans := self.loans.eraseIdx i } := ⟨h.pool, h.handed⟩
    exact herased.drop (hsize size hrestores)
  · exact ⟨h.pool, h.handed⟩
  · exact ⟨h.pool, h.handed⟩

theorem Sized.run {size : Nat} {self after : Lending} (h : Sized size self) {ops : List LoanOp}
    (hrestoring : Restoring size self ops) (hrun : self.run ops = some after) : Sized size after := by
  have hkept : Sized size after ∧ Restoring size after [] := by
    refine run_keeps (P := fun self ops => Sized size self ∧ Restoring size self ops) ?_ ⟨h, hrestoring⟩ hrun
    rintro self op ops next ⟨h, hrestores, hrest⟩ hstep
    exact ⟨h.step hrestores hstep, hrest next hstep⟩
  exact hkept.1

/-- No run loses or doubles a buffer; and every buffer handed out is of the pool's size as long as what is
given back is. -/
theorem loans_conserved (count size : Nat) (ops : List LoanOp) (after : Lending)
    (hrun : (new count size).run ops = some after) :
    Conserved count after ∧
      (Restoring size (new count size) ops → ∀ bytes ∈ after.handed, bytes.length = size) :=
  ⟨((sound_new count size).run hrun).toConserved,
    fun hrestoring => ((sized_new count size).run hrestoring hrun).handed⟩

/-- Of two loans one is filled and written, and its buffer lent again, of one byte still. -/
theorem loans_conserved_written : ∃ after, (new 2 1).run [.acquire, .acquire, .fill 0 [7], .write_loaned 0, .acquire] =
    some after ∧ Conserved 2 after ∧ after.handed = [[0], [0], [7]] ∧ ∀ bytes ∈ after.handed, bytes.length = 1 := by
  obtain ⟨hconserved, hsizes⟩ :=
    loans_conserved 2 1 [.acquire, .acquire, .fill 0 [7], .write_loaned 0, .acquire] _ rfl
  refine ⟨_, rfl, hconserved, rfl, hsizes ?_⟩
  simp [Restoring, Restores, step, lend, consume, new, List.range_succ]

/-- A payload that is truncated before the loan is dropped is lent as it is. -/
theorem loans_truncated : ¬ ∀ (count size : Nat) (ops : List LoanOp) (after : Lending),
    (new count size).run ops = some after → Conserved count after ∧ ∀ bytes ∈ after.handed, bytes.length = size := by
  intro h
  have hsize := (h 1 4 [.acquire, .fill 0 [], .drop 0, .acquire] _ rfl).2 [] (by decide)
  exact absurd hsize (by decide)

end Lending

end RustRcp
