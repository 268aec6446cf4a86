import RustRcp.Lib.Threads
/-!
# Check, then act

Agents that look up a guard and act on what they saw, while others replace the guard.
A log notes each replacement, each check that passes and each act. `Follows` says that
nobody acts without a check of its own; then every act is allowed by the guard in force
exactly when no guard set between an agent's check and its act, the last of them,
disallows it (`enforced_iff`). That a guard binds from when it is set until the next
one is comes to the same (`binding_iff`). Calls side by side whose every step is one of
four kinds (`Step`) leave such a log (`follows_run`).
-/

namespace Guarded

inductive Event (ι G : Type) where
  | set (g : G)
  | check (i : ι)
  | act (i : ι)
  deriving DecidableEq

variable {ι G : Type}

/-- The guard set last. -/
def lastSet : List (Event ι G) → Option G
  | [] => none
  | .set g :: log => some ((lastSet log).getD g)
  | _ :: log => lastSet log

def inForce (g : G) (log : List (Event ι G)) : G := (lastSet log).getD g

theorem lastSet_check (i : ι) (log : List (Event ι G)) : lastSet (.check i :: log) = lastSet log := rfl

theorem inForce_append (g : G) (log later : List (Event ι G)) :
    inForce g (log ++ later) = inForce (inForce g log) later := by
  induction log generalizing g with
  | nil => rfl
  | cons event log ih =>
    cases event with
    | set h => simpa [inForce, lastSet] using ih h
    | check i => exact ih g
    | act i => exact ih g

theorem lastSet_set (log : List (Event ι G)) (g : G) : lastSet (log ++ [.set g]) = some g := by
  induction log with
  | nil => rfl
  | cons event log ih => cases event <;> simp [lastSet, ih]

theorem lastSet_other (log : List (Event ι G)) {event : Event ι G} (h : ∀ g, event ≠ .set g) :
    lastSet (log ++ [event]) = lastSet log := by
  induction log with
  | nil =>
    cases event with
    | set g => exact absurd rfl (h g)
    | check i | act i => rfl
  | cons head log ih => cases head <;> simp [lastSet, ih]

theorem lastSet_eq_none {log : List (Event ι G)} (h : ∀ g, .set g ∉ log) : lastSet log = none := by
  induction log with
  | nil => rfl
  | cons event log ih =>
    have hrest := ih fun g hg => h g (List.mem_cons_of_mem _ hg)
    cases event with
    | set g => exact absurd List.mem_cons_self (h g)
    | check i => exact hrest
    | act i => exact hrest

/-- Nothing is set after the guard set last. -/
theorem lastSet_eq_some {log : List (Event ι G)} {g : G} (h : lastSet log = some g) :
    ∃ before after, log = before ++ .set g :: after ∧ ∀ g', .set g' ∉ after := by
  induction log using List.reverseRecOn with
  | nil => cases h
  | append_singleton log event ih =>
    by_cases hset : ∃ g', event = .set g'
    · obtain ⟨g', rfl⟩ := hset
      rw [lastSet_set] at h
      cases h
      exact ⟨log, [], rfl, by simp⟩
    · have hother : ∀ g', event ≠ .set g' := fun g' heq => hset ⟨g', heq⟩
      rw [lastSet_other log hother] at h
      obtain ⟨before, after, rfl, hafter⟩ := ih h
      refine ⟨before, after ++ [event], by simp, fun g' hmem => ?_⟩
      rcases List.mem_append.1 hmem with hmem | hmem
      · exact hafter g' hmem
      · exact hother g' (List.mem_singleton.1 hmem).symm

variable (allowed : G → ι → Prop) (g₀ : G)

/-- Every act is allowed by the guard in force when it happens. -/
def Enforced (log : List (Event ι G)) : Prop :=
  ∀ before i after, log = before ++ .act i :: after → allowed (inForce g₀ before) i

/-- Once a guard is set and until the next is, it allows every act. -/
def Binding (log : List (Event ι G)) : Prop :=
  ∀ before g between i after, log = before ++ .set g :: (between ++ .act i :: after) →
    (∀ g', .set g' ∉ between) → allowed g i

/-- Between an agent's check and its act, the guard set last, if any is set, allows the act. -/
def Undisturbed (log : List (Event ι G)) : Prop :=
  ∀ before between i after, log = before ++ .check i :: (between ++ .act i :: after) → .check i ∉ between →
    ∀ g, lastSet between = some g → allowed g i

/-- The agent has checked, and has not acted on it yet. -/
def Checked (i : ι) (log : List (Event ι G)) : Prop :=
  ∃ before between, log = before ++ .check i :: between ∧ .check i ∉ between ∧ .act i ∉ between ∧
    allowed (inForce g₀ before) i

/-- The log of agents that check before they act, with the guard in force and who may act now. -/
structure Follows (log : List (Event ι G)) (g : G) (ready : ι → Prop) : Prop where
  guard : inForce g₀ log = g
  checked : ∀ i, ready i → Checked allowed g₀ i log
  legal : ∀ before i after, log = before ++ .act i :: after → Checked allowed g₀ i before

variable {allowed g₀} {log : List (Event ι G)} {g : G} {ready ready' : ι → Prop} {i : ι}

theorem Checked.concat (h : Checked allowed g₀ i log) {event : Event ι G} (hcheck : event ≠ .check i)
    (hact : event ≠ .act i) : Checked allowed g₀ i (log ++ [event]) := by
  obtain ⟨before, between, rfl, hnocheck, hnoact, hallowed⟩ := h
  refine ⟨before, between ++ [event], by simp, ?_, ?_, hallowed⟩
  · simpa [hcheck.symm] using hnocheck
  · simpa [hact.symm] using hnoact

/-- Where an act stands in a log that is one event longer. -/
theorem legal_concat {event : Event ι G}
    (hlegal : ∀ before i after, log = before ++ .act i :: after → Checked allowed g₀ i before)
    (hevent : ∀ i, event = .act i → Checked allowed g₀ i log) :
    ∀ before i after, log ++ [event] = before ++ .act i :: after → Checked allowed g₀ i before := by
  intro before i after h
  rcases List.eq_nil_or_concat after with rfl | ⟨after, last, rfl⟩
  · obtain ⟨rfl, hlast⟩ := List.append_inj' h rfl
    exact hevent i (by simpa using hlast)
  · rw [List.concat_eq_append, ← List.cons_append, ← List.append_assoc] at h
    obtain ⟨rfl, -⟩ := List.append_inj' h rfl
    exact hlegal _ _ _ rfl

theorem Follows.start (hnobody : ∀ i, ¬ ready i) : Follows allowed g₀ [] g₀ ready where
  guard := rfl
  checked i h := absurd h (hnobody i)
  legal before i after h := by simp at h

/-- Somebody replaces the guard. -/
theorem Follows.set (h : Follows allowed g₀ log g ready) (g' : G) (hready : ∀ i, ready' i → ready i) :
    Follows allowed g₀ (log ++ [.set g']) g' ready' where
  guard := by rw [inForce_append]; rfl
  checked i hi := (h.checked i (hready i hi)).concat (by simp) (by simp)
  legal := legal_concat h.legal (by simp)

/-- An agent looks the guard up, and may act. -/
theorem Follows.check (h : Follows allowed g₀ log g ready) (hallowed : allowed g i)
    (hready : ∀ j, ready' j → j = i ∨ ready j) : Follows allowed g₀ (log ++ [.check i]) g ready' where
  guard := by rw [inForce_append, h.guard]; rfl
  checked j hj := by
    by_cases heq : j = i
    · subst heq
      exact ⟨log, [], rfl, by simp, by simp, by rwa [h.guard]⟩
    · exact (h.checked j ((hready j hj).resolve_left heq)).concat (by simpa using Ne.symm heq) (by simp)
  legal := legal_concat h.legal (by simp)

/-- An agent that may act does, and has to check again. -/
theorem Follows.act (h : Follows allowed g₀ log g ready) (hi : ready i)
    (hready : ∀ j, ready' j → j ≠ i ∧ ready j) : Follows allowed g₀ (log ++ [.act i]) g ready' where
  guard := by rw [inForce_append, h.guard]; rfl
  checked j hj := (h.checked j (hready j hj).2).concat (by simp) (by simpa using (hready j hj).1.symm)
  legal := legal_concat h.legal fun j hj => by cases hj; exact h.checked i hi

/-- Nothing that counts happens. -/
theorem Follows.idle (h : Follows allowed g₀ log g ready) (hready : ∀ i, ready' i → ready i) :
    Follows allowed g₀ log g ready' :=
  { h with checked := fun i hi => h.checked i (hready i hi) }

theorem Enforced.binding (h : Enforced allowed g₀ log) : Binding allowed log := by
  rintro before g between i after rfl hbetween
  have hallowed := h (before ++ .set g :: between) i after (by simp)
  rwa [inForce_append, inForce, lastSet, lastSet_eq_none hbetween] at hallowed

theorem Binding.undisturbed (h : Binding allowed log) : Undisturbed allowed log := by
  rintro before between i after rfl - g hset
  obtain ⟨start, rest, rfl, hrest⟩ := lastSet_eq_some hset
  exact h (before ++ .check i :: start) g rest i after (by simp) hrest

/-- Acting on what was seen is acting under the guard in force when nobody has disallowed it since. -/
theorem Follows.enforced (h : Follows allowed g₀ log g ready) (hcalm : Undisturbed allowed log) :
    Enforced allowed g₀ log := by
  rintro before i after rfl
  obtain ⟨start, between, rfl, hcheck, -, hallowed⟩ := h.legal before i after rfl
  rw [inForce_append, inForce, lastSet_check]
  cases hset : lastSet between with
  | none => exact hallowed
  | some g' => exact hcalm start between i after (by simp) hcheck g' hset

theorem Follows.enforced_iff (h : Follows allowed g₀ log g ready) :
    Enforced allowed g₀ log ↔ Undisturbed allowed log :=
  ⟨fun henforced => henforced.binding.undisturbed, h.enforced⟩

theorem Follows.binding_iff (h : Follows allowed g₀ log g ready) : Binding allowed log ↔ Undisturbed allowed log :=
  ⟨Binding.undisturbed, fun hcalm => (h.enforced hcalm).binding⟩

/-! ## Calls side by side -/

variable {σ ρ : Type}

variable (allowed) in
/-- What a call's step may be: how the guard and whether the call may act change, and what is noted. -/
inductive Step (i : ι) (g : G) (ready ready' : Prop) : List (Event ι G) → G → Prop where
  | set (g' : G) : (ready' → ready) → Step i g ready ready' [.set g'] g'
  | check : allowed g i → Step i g ready ready' [.check i] g
  | act : ready → ¬ ready' → Step i g ready ready' [.act i] g
  | idle : (ready' → ready) → Step i g ready ready' [] g

variable [DecidableEq ι]

theorem Follows.step {Ready : ι → ρ → Prop} {phase : ι → ρ} (h : Follows allowed g₀ log g fun j => Ready j (phase j))
    {next : ρ} {events : List (Event ι G)} {g' : G}
    (hstep : Step allowed i g (Ready i (phase i)) (Ready i next) events g') :
    Follows allowed g₀ (log ++ events) g' fun j => Ready j (Function.update phase i next j) := by
  have hmoved : ∀ j, Ready j (Function.update phase i next j) → j = i ∧ Ready i next ∨ j ≠ i ∧ Ready j (phase j) :=
    fun j hj => Threads.of_update hj
  have hkept : (Ready i next → Ready i (phase i)) →
      ∀ j, Ready j (Function.update phase i next j) → Ready j (phase j) := by
    intro hready j hj
    rcases hmoved j hj with ⟨rfl, hnext⟩ | ⟨-, hj⟩
    · exact hready hnext
    · exact hj
  cases hstep with
  | set g' hready => exact h.set g' (hkept hready)
  | check hallowed => exact h.check hallowed fun j hj => (hmoved j hj).imp And.left And.right
  | act hready hnext =>
    refine h.act hready fun j hj => ?_
    exact (hmoved j hj).resolve_left fun hself => hnext hself.2
  | idle hready => simpa using h.idle (hkept hready)

/-- Any schedule of calls whose steps are of these kinds leaves a log that follows the checks. -/
theorem follows_run (guard : σ → G) (Ready : ι → ρ → Prop) (I : σ → Prop) {move : Threads.Move ι σ ρ}
    {seen : ι → σ → ρ → Option (Event ι G)}
    (hmove : ∀ i s p s' p', I s → move i s p = some (s', p') →
      I s' ∧ Step allowed i (guard s) (Ready i p) (Ready i p') (seen i s p).toList (guard s'))
    (hstop : ∀ i s p, move i s p = none → seen i s p = none) {race : Threads.Race ι σ ρ} (hstart : I race.shared)
    (hidle : ∀ i, ¬ Ready i (race.phase i)) (schedule : List ι) :
    Follows allowed (guard race.shared) (Threads.trace move seen race schedule)
      (guard (Threads.run move race schedule).shared) fun i => Ready i ((Threads.run move race schedule).phase i) := by
  have hturn : ∀ (log : List (Event ι G)) (r : Threads.Race ι σ ρ) (i : ι),
      (I r.shared ∧ Follows allowed (guard race.shared) log (guard r.shared) fun i => Ready i (r.phase i)) →
      I (Threads.turn move r i).shared ∧
        Follows allowed (guard race.shared) (log ++ Threads.noted seen r i) (guard (Threads.turn move r i).shared)
          fun j => Ready j ((Threads.turn move r i).phase j) := by
    rintro log r i ⟨hI, hfollows⟩
    rw [Threads.noted]
    cases hnext : move i r.shared (r.phase i) with
    | none =>
      rw [Threads.turn_none hnext, hstop _ _ _ hnext]
      exact ⟨hI, by simpa using hfollows⟩
    | some next =>
      obtain ⟨hI', hstep⟩ := hmove _ _ _ _ _ hI hnext
      rw [Threads.turn_some hnext]
      exact ⟨hI', hfollows.step hstep⟩
  exact (Threads.run_follows (R := fun log r => I r.shared ∧
    Follows allowed (guard race.shared) log (guard r.shared) fun i => Ready i (r.phase i))
    ⟨hstart, .start hidle⟩ hturn schedule).2

end Guarded
