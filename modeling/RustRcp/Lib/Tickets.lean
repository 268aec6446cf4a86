import Mathlib.Data.List.Nodup
import Mathlib.Data.List.Perm.Subperm
import Mathlib.Data.List.TakeWhile
/-!
# Tickets from a shared counter

Everybody reads a counter, and some raise it by one later on: what somebody read is
their ticket. Reading and raising are two events, so others can come in between.
`tickets_distinct_iff` says when those who raise the counter have tickets that differ
modulo `N`: exactly when each of them reads it with nobody else between reading and
raising it (`Alone`), and there are no more than `N` of them.
-/

namespace Tickets

inductive Event (ι : Type) where
  | take (i : ι)
  | bump (i : ι)
  deriving DecidableEq

variable {ι : Type}

def Event.bumper : Event ι → Option ι
  | .take _ => none
  | .bump i => some i

/-- Those who have raised the counter, in that order. -/
def bumpers (log : List (Event ι)) : List ι := log.filterMap Event.bumper

/-- What `i` reads: how often the counter was raised before. -/
def ticket [DecidableEq ι] (log : List (Event ι)) (i : ι) : Nat :=
  (bumpers (log.takeWhile fun e => e ≠ .take i)).length

/-- Everybody reads the counter once at most, and raises it once at most and after reading it. -/
structure Legal (log : List (Event ι)) : Prop where
  nodup : log.Nodup
  ordered : ∀ before i after, log = before ++ .bump i :: after → .take i ∈ before

/-- Whoever raises the counter reads it while nobody else has read it and not raised it yet. -/
def Alone (log : List (Event ι)) : Prop :=
  ∀ before i after, log = before ++ .take i :: after → .bump i ∈ log →
    ∀ j, .bump j ∈ log → .take j ∈ before → .bump j ∈ before

theorem mem_bumpers {log : List (Event ι)} {i : ι} : i ∈ bumpers log ↔ .bump i ∈ log := by
  rw [bumpers, List.mem_filterMap]
  constructor
  · rintro ⟨e, he, hbump⟩
    cases e with
    | take => cases hbump
    | bump =>
      cases hbump
      exact he
  · intro h
    exact ⟨_, h, rfl⟩

@[simp] theorem bumpers_append (log log' : List (Event ι)) : bumpers (log ++ log') = bumpers log ++ bumpers log' :=
  List.filterMap_append

@[simp] theorem bumpers_nil : bumpers ([] : List (Event ι)) = [] := rfl

@[simp] theorem bumpers_take (i : ι) (log : List (Event ι)) : bumpers (.take i :: log) = bumpers log := rfl

@[simp] theorem bumpers_bump (i : ι) (log : List (Event ι)) : bumpers (.bump i :: log) = i :: bumpers log := rfl

theorem nodup_bumpers {log : List (Event ι)} (h : log.Nodup) : (bumpers log).Nodup := by
  refine h.filterMap ?_
  intro e e' k he he'
  cases e <;> cases e' <;> cases he
  · cases he'
  · exact congrArg Event.bump (Option.some.inj he').symm

/-! ## Logs that grow -/

section Grow
variable {log : List (Event ι)} {i : ι}

theorem legal_nil : Legal ([] : List (Event ι)) where
  nodup := .nil
  ordered _ _ _ h := by simp at h

theorem Legal.concat (h : Legal log) {e : Event ι} (hnew : e ∉ log) (hread : ∀ i, e = .bump i → .take i ∈ log) :
    Legal (log ++ [e]) where
  nodup := by
    refine List.nodup_append.2 ⟨h.nodup, List.nodup_singleton e, ?_⟩
    intro a ha b hb heq
    rw [List.mem_singleton.1 hb] at heq
    exact hnew (heq ▸ ha)
  ordered before j after hsplit := by
    rcases List.eq_nil_or_concat after with rfl | ⟨after, last, rfl⟩
    · obtain ⟨rfl, hlast⟩ := List.append_inj' hsplit rfl
      exact hread j (List.cons.inj hlast).1
    · rw [List.concat_eq_append, ← List.cons_append, ← List.append_assoc] at hsplit
      exact h.ordered before j after (List.append_inj' hsplit rfl).1

/-- A ticket is not changed by what comes later. -/
theorem ticket_append [DecidableEq ι] (h : .take i ∈ log) (log' : List (Event ι)) :
    ticket (log ++ log') i = ticket log i := by
  rw [ticket, ticket, List.takeWhile_append, if_neg]
  intro hlength
  have hall : log.takeWhile (fun e => e ≠ .take i) = log := (List.takeWhile_prefix _).eq_of_length hlength
  simpa using List.takeWhile_eq_self_iff.1 hall _ h

end Grow

/-! ## Distinct tickets -/

/-- As many different things as have different numbers below `k`. -/
theorem length_le_of_inj {l : List ι} (hl : l.Nodup) {f : ι → Nat} {k : Nat} (hlt : ∀ i ∈ l, f i < k)
    (hinj : ∀ i ∈ l, ∀ j ∈ l, f i = f j → i = j) : l.length ≤ k := by
  have hmap : (l.map f).Nodup := hl.map_on hinj
  have hsub : l.map f ⊆ List.range k := by
    intro n hn
    obtain ⟨i, hi, rfl⟩ := List.mem_map.1 hn
    exact List.mem_range.2 (hlt i hi)
  have hle := (hmap.subperm hsub).length_le
  rwa [List.length_map, List.length_range] at hle

section Legal
variable {log before after : List (Event ι)} {i j : ι} (h : Legal log)
include h

/-- Nobody reads the counter twice. -/
theorem Legal.once (hlog : log = before ++ .take i :: after) : .take i ∉ before := by
  have hnodup := h.nodup
  rw [hlog] at hnodup
  exact fun hmem => (List.nodup_append.1 hnodup).2.2 _ hmem _ List.mem_cons_self rfl

/-- Nobody raises the counter before reading it. -/
theorem Legal.not_before (hlog : log = before ++ .take i :: after) : .bump i ∉ before := by
  intro hmem
  obtain ⟨start, rest, rfl⟩ := List.append_of_mem hmem
  have hread : .take i ∈ start := h.ordered start i (rest ++ .take i :: after) (by rw [hlog]; simp)
  exact h.once hlog (List.mem_append_left _ hread)

theorem Legal.taken (hi : .bump i ∈ log) : ∃ before after, log = before ++ .take i :: after ∧ .bump i ∈ after := by
  obtain ⟨upto, rest, rfl⟩ := List.append_of_mem hi
  obtain ⟨before, between, rfl⟩ := List.append_of_mem (h.ordered _ _ _ rfl)
  exact ⟨before, between ++ .bump i :: rest, by simp, List.mem_append_right _ List.mem_cons_self⟩

variable [DecidableEq ι]

theorem Legal.ticket_eq (hlog : log = before ++ .take i :: after) : ticket log i = (bumpers before).length := by
  have hpos : ∀ e ∈ before, decide (e ≠ .take i) = true := by
    intro e he
    rw [decide_eq_true_iff]
    rintro rfl
    exact h.once hlog he
  rw [ticket, hlog, List.takeWhile_append_of_pos hpos, List.takeWhile_cons_of_neg (by simp), List.append_nil]

theorem Legal.ticket_lt (hi : .bump i ∈ log) : ticket log i < (bumpers log).length := by
  obtain ⟨before, after, hlog, hafter⟩ := h.taken hi
  rw [h.ticket_eq hlog, hlog, bumpers_append, bumpers_take, List.length_append]
  exact Nat.lt_add_of_pos_right (List.length_pos_of_mem (mem_bumpers.2 hafter))

/-- Of two who read the counter alone, the later one has the larger ticket. -/
theorem Legal.ticket_lt_ticket (halone : Alone log) {between : List (Event ι)}
    (hlog : log = (before ++ .take i :: between) ++ .take j :: after) (hi : .bump i ∈ log) (hj : .bump j ∈ log) :
    ticket log i < ticket log j := by
  have hlog' : log = before ++ .take i :: (between ++ .take j :: after) := by rw [hlog]; simp
  have hbumped : .bump i ∈ before ++ .take i :: between :=
    halone _ j after hlog hj i hi (List.mem_append_right _ List.mem_cons_self)
  have hmem : .bump i ∈ between := by
    rcases List.mem_append.1 hbumped with hmem | hmem
    · exact absurd hmem (h.not_before hlog')
    · exact (List.mem_cons.1 hmem).resolve_left nofun
  rw [h.ticket_eq hlog', h.ticket_eq hlog, bumpers_append, bumpers_take, List.length_append]
  exact Nat.lt_add_of_pos_right (List.length_pos_of_mem (mem_bumpers.2 hmem))

/-- Those who read the counter alone have different tickets. -/
theorem Legal.ticket_inj (halone : Alone log) (hi : .bump i ∈ log) (hj : .bump j ∈ log)
    (heq : ticket log i = ticket log j) : i = j := by
  obtain ⟨before, after, hlog, -⟩ := h.taken hi
  obtain ⟨before', after', hlog', -⟩ := h.taken hj
  -- one of the two reads the counter first
  rcases List.append_eq_append_iff.1 (hlog.symm.trans hlog') with ⟨gap, hbefore, hafter⟩ | ⟨gap, hbefore, hafter⟩
  · cases gap with
    | nil =>
      simp only [List.nil_append, List.cons.injEq, Event.take.injEq] at hafter
      exact hafter.1
    | cons e gap =>
      rw [List.cons_append, List.cons.injEq] at hafter
      obtain ⟨rfl, rfl⟩ := hafter
      rw [hbefore] at hlog'
      exact absurd heq (Nat.ne_of_lt (h.ticket_lt_ticket halone hlog' hi hj))
  · cases gap with
    | nil =>
      simp only [List.nil_append, List.cons.injEq, Event.take.injEq] at hafter
      exact hafter.1.symm
    | cons e gap =>
      rw [List.cons_append, List.cons.injEq] at hafter
      obtain ⟨rfl, rfl⟩ := hafter
      rw [hbefore] at hlog
      exact absurd heq (Nat.ne_of_gt (h.ticket_lt_ticket halone hlog hj hi))

/-- Who reads the counter while somebody else has read it and not raised it yet: then there are more
of them than values they can have read. -/
theorem Legal.alone_of_inj (hinj : ∀ i j, .bump i ∈ log → .bump j ∈ log → ticket log i = ticket log j → i = j) :
    Alone log := by
  intro before i after hlog hi j hj htake
  by_contra hnot
  have hlater : ∀ {e}, e ∈ before → e ∈ log := fun he => by
    rw [hlog]
    exact List.mem_append_left _ he
  have hne : i ≠ j := by
    rintro rfl
    exact h.once hlog htake
  -- the two, and everybody who has raised the counter
  have hnodup : (i :: j :: bumpers before).Nodup := by
    have hbefore : before.Nodup := by
      have hnodup := h.nodup
      rw [hlog] at hnodup
      exact (List.nodup_append.1 hnodup).1
    simp only [List.nodup_cons, List.mem_cons, mem_bumpers, not_or]
    exact ⟨⟨hne, h.not_before hlog⟩, hnot, nodup_bumpers hbefore⟩
  have hbumps : ∀ k ∈ i :: j :: bumpers before, .bump k ∈ log := by
    simp only [List.forall_mem_cons, mem_bumpers]
    exact ⟨hi, hj, fun k hk => hlater hk⟩
  have hread : ∀ k, .take k ∈ before → ticket log k < (bumpers before).length + 1 := by
    intro k hk
    obtain ⟨start, rest, rfl⟩ := List.append_of_mem hk
    have hsplit : log = start ++ .take k :: (rest ++ .take i :: after) := by rw [hlog]; simp
    rw [h.ticket_eq hsplit, bumpers_append, List.length_append]
    omega
  have hlt : ∀ k ∈ i :: j :: bumpers before, ticket log k < (bumpers before).length + 1 := by
    simp only [List.forall_mem_cons, mem_bumpers]
    refine ⟨?_, hread j htake, ?_⟩
    · rw [h.ticket_eq hlog]
      exact Nat.lt_succ_self _
    · intro k hk
      apply hread
      obtain ⟨start, rest, rfl⟩ := List.append_of_mem hk
      have hearlier := h.ordered start k (rest ++ .take i :: after) (by rw [hlog]; simp)
      exact List.mem_append_left _ hearlier
  have hle := length_le_of_inj hnodup hlt fun k hk l hl => hinj k l (hbumps k hk) (hbumps l hl)
  simp only [List.length_cons] at hle
  omega

/-- When the tickets of those who raise the counter differ modulo `N`. -/
theorem tickets_distinct_iff {N : Nat} (hN : 0 < N) :
    (∀ i j, .bump i ∈ log → .bump j ∈ log → ticket log i % N = ticket log j % N → i = j) ↔
      Alone log ∧ (bumpers log).length ≤ N := by
  constructor
  · intro hinj
    refine ⟨h.alone_of_inj fun i j hi hj heq => hinj i j hi hj (by rw [heq]), ?_⟩
    refine length_le_of_inj (nodup_bumpers h.nodup) (fun i _ => Nat.mod_lt (ticket log i) hN) ?_
    intro i hi j hj
    exact hinj i j (mem_bumpers.1 hi) (mem_bumpers.1 hj)
  · rintro ⟨halone, hfew⟩ i j hi hj heq
    have hi' := h.ticket_lt hi
    have hj' := h.ticket_lt hj
    rw [Nat.mod_eq_of_lt (by omega), Nat.mod_eq_of_lt (by omega)] at heq
    exact h.ticket_inj halone hi hj heq

end Legal

end Tickets
