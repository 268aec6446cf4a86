import Mathlib.Data.Finset.Basic
import RustRcp.Lib.Threads
/-!
# Reader-writer locks

A lock that any number hold to read, or one holds to write. Calls that run side by side hold it
in some of their phases (`Held`); what taking it and giving it back make of that, and that
nobody reads while somebody writes (`Held.alone`), is all that a proof about such calls needs.
-/

/-- Who holds a lock to read, and who to write. -/
structure RwLock (ι : Type) where
  readers : Finset ι
  writer : Option ι
  exclusive : writer ≠ none → readers = ∅

namespace RwLock

variable {ι ρ : Type}

def free : RwLock ι := ⟨∅, none, fun h => absurd rfl h⟩

section
variable [DecidableEq ι] (lock : RwLock ι) (i : ι)

/-- Not while somebody writes. -/
def read : Option (RwLock ι) :=
  if lock.writer = none then some ⟨insert i lock.readers, none, fun h => absurd rfl h⟩ else none

def unread : RwLock ι where
  readers := lock.readers.erase i
  writer := lock.writer
  exclusive h := by rw [lock.exclusive h, Finset.erase_empty]

/-- Not while somebody reads or writes. -/
def write : Option (RwLock ι) := if lock.writer = none ∧ lock.readers = ∅ then some ⟨∅, some i, fun _ => rfl⟩ else none

end

def unwrite (lock : RwLock ι) : RwLock ι := ⟨lock.readers, none, fun h => absurd rfl h⟩

/-- The lock is held by the calls in a phase that reads, and by the one in a phase that writes. -/
structure Held (Reads Writes : ρ → Prop) (lock : RwLock ι) (phase : ι → ρ) : Prop where
  readers : ∀ i, i ∈ lock.readers ↔ Reads (phase i)
  writer : ∀ i, lock.writer = some i ↔ Writes (phase i)

variable {Reads Writes : ρ → Prop} {lock after : RwLock ι} {phase : ι → ρ} {i : ι} {next : ρ}

/-- Nobody reads while somebody writes. -/
theorem Held.alone (h : Held Reads Writes lock phase) {j : ι} (hwrites : Writes (phase j)) (i : ι) :
    ¬ Reads (phase i) := by
  have hwriter := (h.writer j).2 hwrites
  have hnone := lock.exclusive (by simp [hwriter])
  rw [← h.readers, hnone]
  exact Finset.notMem_empty i

theorem held_free (hreads : ∀ i, ¬ Reads (phase i)) (hwrites : ∀ i, ¬ Writes (phase i)) :
    Held Reads Writes free phase where
  readers i := iff_of_false (Finset.notMem_empty i) (hreads i)
  writer i := iff_of_false nofun (hwrites i)

variable [DecidableEq ι]

theorem Held.keep (h : Held Reads Writes lock phase) (hreads : Reads next ↔ Reads (phase i))
    (hwrites : Writes next ↔ Writes (phase i)) : Held Reads Writes lock (Function.update phase i next) where
  readers j := (h.readers j).trans (Threads.phase_iff Reads hreads j).symm
  writer j := (h.writer j).trans (Threads.phase_iff Writes hwrites j).symm

/-- The lock is another for `i` alone. -/
theorem Held.change (h : Held Reads Writes lock phase) (hreads : i ∈ after.readers ↔ Reads next)
    (hwrites : after.writer = some i ↔ Writes next) (hreaders : ∀ j ≠ i, (j ∈ after.readers ↔ j ∈ lock.readers))
    (hwriter : ∀ j ≠ i, (after.writer = some j ↔ lock.writer = some j)) :
    Held Reads Writes after (Function.update phase i next) := by
  constructor
  · intro j
    rcases eq_or_ne j i with rfl | hne
    · rw [Function.update_self, hreads]
    · rw [Function.update_of_ne hne, hreaders j hne, h.readers]
  · intro j
    rcases eq_or_ne j i with rfl | hne
    · rw [Function.update_self, hwrites]
    · rw [Function.update_of_ne hne, hwriter j hne, h.writer]

theorem Held.read (h : Held Reads Writes lock phase) (hread : lock.read i = some after) (hreads : Reads next)
    (hwrites : ¬ Writes next) : Held Reads Writes after (Function.update phase i next) := by
  obtain ⟨hnone, hafter⟩ := Option.ite_none_right_eq_some.1 hread
  cases hafter
  refine h.change (by simpa using hreads) (by simpa using hwrites) (fun j hne => ?_) fun j _ => ?_
  · simp [hne]
  · simp [hnone]

theorem Held.unread (h : Held Reads Writes lock phase) (hwrote : ¬ Writes (phase i)) (hreads : ¬ Reads next)
    (hwrites : ¬ Writes next) : Held Reads Writes (lock.unread i) (Function.update phase i next) := by
  refine h.change ?_ ?_ (fun j hne => ?_) fun j _ => Iff.rfl
  · simpa [RwLock.unread] using hreads
  · simpa [RwLock.unread, h.writer, hwrites] using hwrote
  · simp [RwLock.unread, hne]

theorem Held.write (h : Held Reads Writes lock phase) (hwrite : lock.write i = some after) (hreads : ¬ Reads next)
    (hwrites : Writes next) : Held Reads Writes after (Function.update phase i next) := by
  obtain ⟨⟨hnone, hempty⟩, hafter⟩ := Option.ite_none_right_eq_some.1 hwrite
  cases hafter
  refine h.change (by simpa using hreads) (by simpa using hwrites) (fun j _ => ?_) fun j hne => ?_
  · simp [hempty]
  · simp [hne.symm, hnone]

theorem Held.unwrite (h : Held Reads Writes lock phase) (hwrote : Writes (phase i)) (hreads : ¬ Reads next)
    (hwrites : ¬ Writes next) : Held Reads Writes lock.unwrite (Function.update phase i next) := by
  have hwriter := (h.writer i).2 hwrote
  have hread := h.alone hwrote i
  rw [← h.readers] at hread
  refine h.change ?_ (by simpa [RwLock.unwrite] using hwrites) (fun j _ => Iff.rfl) fun j hne => ?_
  · simp [RwLock.unwrite, hread, hreads]
  · simp [RwLock.unwrite, hwriter, hne.symm]

end RwLock
