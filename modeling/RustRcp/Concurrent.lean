import RustRcp.Endpoints
/-!
# Registrations at the same time

`register_endpoint` takes four steps that are atomic each, and calls of it run side by
side: a schedule says who moves when. `Follows` says what any schedule makes of the
calls, the endpoint table and the implementations (`follows_run`).
-/
open Stateful

namespace RustRcp.RcServer

/-! ## Steps -/

/-- The arguments of one call. -/
structure RegisterCall (M : Type) where
  stream_id : StreamId
  byte_bus_id : UInt16
  endpoint : Endpoint M

/-- How far a call has come, with the id it has loaded. -/
inductive Phase where
  | idle
  | loaded (id : EndpointId)
  | registered (id : EndpointId)
  | counted (id : EndpointId)
  | returned (result : Except RcpError EndpointId)
  deriving DecidableEq

structure Race (ι M : Type) where
  server : RcServer M
  phase : ι → Phase

variable {ι M : Type} [DecidableEq ι] (calls : ι → RegisterCall M)

/-- The next step of one call's `register_endpoint`. -/
def turn (race : Race ι M) (i : ι) : Race ι M :=
  let ⟨self, phase⟩ := race
  let ⟨stream_id, byte_bus_id, endpoint⟩ := calls i
  match phase i with
  -- `load`: the id is read here and raised two steps later
  | .idle => ⟨self, Function.update phase i (.loaded self.next_endpoint_id)⟩
  | .loaded id =>
    match self.endpoints.register stream_id byte_bus_id id with
    | .error e => ⟨self, Function.update phase i (.returned (.error e))⟩
    | .ok endpoints => ⟨{ self with endpoints }, Function.update phase i (.registered id)⟩
  | .registered id =>
    ⟨{ self with next_endpoint_id := self.next_endpoint_id + 1 }, Function.update phase i (.counted id)⟩
  | .counted id =>
    ⟨{ self with endpoint_impls := Function.update self.endpoint_impls id (some endpoint) },
      Function.update phase i (.returned (.ok id))⟩
  | .returned _ => race

/-- A call that is left alone does what `register_endpoint` does. -/
theorem turns_alone (race : Race ι M) {i : ι} (hidle : race.phase i = .idle) :
    [i, i, i, i].foldl (turn calls) race =
      let run := exec (register_endpoint (calls i).stream_id (calls i).byte_bus_id (calls i).endpoint) race.server
      ⟨run.2, Function.update race.phase i (.returned run.1)⟩ := by
  rw [register_spec]
  cases hreg : race.server.endpoints.register (calls i).stream_id (calls i).byte_bus_id
    race.server.next_endpoint_id with
  | error e => simp [turn, hidle, hreg]
  | ok endpoints => simp [turn, hidle, hreg]

/-- No call has begun. -/
def start (general : GeneralRegisters) (memory : M) : Race ι M := ⟨new general memory, fun _ => .idle⟩

/-- What a schedule leads to. -/
def raced (general : GeneralRegisters) (memory : M) (schedule : List ι) : Race ι M :=
  schedule.foldl (turn calls) (start general memory)

/-! ## Schedules -/

/-- The call that gets its address: the address is valid, and at the call's second step no other
call for it has made one. -/
structure Wins (schedule : List ι) (i : ι) : Prop where
  fits : (calls i).byte_bus_id ≤ BYTE_MESSAGE_INFO_11BIT_MAX
  first : ∃ before after, schedule = before ++ i :: after ∧ before.count i = 1 ∧
    ∀ j, (calls j).stream_id = (calls i).stream_id → (calls j).byte_bus_id = (calls i).byte_bus_id →
      before.count j ≤ 1

/-- The calls that get their addresses load one at a time, none while another is between its first
step and its third, there are no more of them than ids, and none of them is for the registers'
address, which the table takes and no request reaches an implementation by. -/
structure OneByOne (schedule : List ι) : Prop where
  alone : ∀ before i after, schedule = before ++ i :: after → before.count i = 0 → Wins calls schedule i →
    ∀ j, Wins calls schedule j → before.count j = 0 ∨ 3 ≤ before.count j
  few : ∀ winners : List ι, winners.Nodup → (∀ i ∈ winners, Wins calls schedule i) → winners.length ≤ 2 ^ 32
  device : ∀ i, Wins calls schedule i → (calls i).byte_bus_id ≠ EP0_BYTE_BUS_ID

variable {calls} {schedule : List ι} {i k : ι}

theorem Wins.steps (h : Wins calls schedule i) : 2 ≤ schedule.count i := by
  obtain ⟨before, after, rfl, hone, -⟩ := h.first
  rw [List.count_append, List.count_cons_self, hone]
  omega

theorem Wins.append (h : Wins calls schedule i) (rest : List ι) : Wins calls (schedule ++ rest) i := by
  obtain ⟨before, after, rfl, hfirst⟩ := h.first
  exact ⟨h.fits, before, after ++ rest, by simp, hfirst⟩

/-- One more step makes its own call win, or nobody. -/
theorem wins_concat : Wins calls (schedule ++ [k]) i ↔ Wins calls schedule i ∨
    k = i ∧ (calls i).byte_bus_id ≤ BYTE_MESSAGE_INFO_11BIT_MAX ∧ schedule.count i = 1 ∧
      ∀ j, (calls j).stream_id = (calls i).stream_id → (calls j).byte_bus_id = (calls i).byte_bus_id →
        schedule.count j ≤ 1 := by
  constructor
  · rintro ⟨hfits, before, after, hsplit, hfirst⟩
    rcases List.eq_nil_or_concat after with rfl | ⟨after, last, rfl⟩
    · obtain ⟨rfl, hlast⟩ := List.append_inj' hsplit rfl
      cases hlast
      exact .inr ⟨rfl, hfits, hfirst⟩
    · rw [List.concat_eq_append, ← List.cons_append, ← List.append_assoc] at hsplit
      obtain ⟨rfl, -⟩ := List.append_inj' hsplit rfl
      exact .inl ⟨hfits, before, after, rfl, hfirst⟩
  · rintro (h | ⟨rfl, hfits, hfirst⟩)
    · exact h.append [k]
    · exact ⟨hfits, schedule, [], rfl, hfirst⟩

theorem wins_concat_of_ne (h : i ≠ k) : Wins calls (schedule ++ [k]) i ↔ Wins calls schedule i := by
  rw [wins_concat]
  exact ⟨fun hwins => hwins.resolve_right fun hk => h hk.1.symm, .inl⟩

/-! ## What a schedule makes of a call -/

/-- The phase of a call that has made so many steps. -/
def Phase.At (steps : Nat) (wins : Prop) : Phase → Prop
  | .idle => steps = 0
  | .loaded _ => steps = 1
  | .registered _ => steps = 2 ∧ wins
  | .counted _ => steps = 3 ∧ wins
  | .returned (.ok _) => 4 ≤ steps ∧ wins
  | .returned (.error _) => 2 ≤ steps ∧ ¬ wins

/-- The call has registered its address, under this id. -/
def Phase.Holds (id : EndpointId) : Phase → Prop
  | .registered id' | .counted id' | .returned (.ok id') => id' = id
  | _ => False

variable (calls) in
/-- The race is as the schedule has left it. -/
structure Follows (schedule : List ι) (race : Race ι M) : Prop where
  stage : ∀ i, (race.phase i).At (schedule.count i) (Wins calls schedule i)
  asked : ∀ i, (calls i).byte_bus_id ≤ BYTE_MESSAGE_INFO_11BIT_MAX → 2 ≤ schedule.count i →
    race.server.endpoints.lookup (calls i).stream_id (calls i).byte_bus_id ≠ none
  held : ∀ i id, (race.phase i).Holds id →
    race.server.endpoints.lookup (calls i).stream_id (calls i).byte_bus_id = some id
  owner : ∀ stream bus id, race.server.endpoints.lookup stream bus = some id →
    ∃ i, (calls i).stream_id = stream ∧ (calls i).byte_bus_id = bus ∧ (race.phase i).Holds id
  implemented : ∀ i id, race.phase i = .returned (.ok id) →
    ∃ j, race.phase j = .returned (.ok id) ∧ race.server.endpoint_impls id = some (calls j).endpoint

theorem follows_start (general : GeneralRegisters) (memory : M) : Follows calls [] (start general memory) where
  stage _ := rfl
  asked _ _ h := by simp at h
  held _ _ h := h.elim
  owner _ _ _ h := nomatch h
  implemented _ _ h := nomatch h

theorem stage_concat {phase : ι → Phase} (h : ∀ i, (phase i).At (schedule.count i) (Wins calls schedule i))
    {next : Phase} (hnext : next.At (schedule.count k + 1) (Wins calls (schedule ++ [k]) k)) (i : ι) :
    (Function.update phase k next i).At ((schedule ++ [k]).count i) (Wins calls (schedule ++ [k]) i) := by
  rcases eq_or_ne i k with rfl | hne
  · rw [Function.update_self]
    simpa using hnext
  · rw [Function.update_of_ne hne]
    simpa [hne.symm, wins_concat_of_ne hne] using h i

/-- A step of `k` keeps what it keeps of the phase of `k`. -/
theorem update_iff (p : Phase → Prop) {phase : ι → Phase} {next : Phase} (h : p next ↔ p (phase k)) (i : ι) :
    p (Function.update phase k next i) ↔ p (phase i) := by
  rcases eq_or_ne i k with rfl | hne
  · rw [Function.update_self, h]
  · rw [Function.update_of_ne hne]

/-- A call that holds an address has won it. -/
theorem Phase.wins_of_holds {p : Phase} {steps : Nat} {wins : Prop} (h : p.At steps wins) {id : EndpointId}
    (hholds : p.Holds id) : 2 ≤ steps ∧ wins := by
  rcases p with _ | _ | _ | _ | _ | _
  · cases hholds
  · cases hholds
  · exact ⟨h.1.ge, h.2⟩
  · exact ⟨by rw [h.1]; decide, h.2⟩
  · cases hholds
  · exact ⟨Nat.le_trans (by decide) h.1, h.2⟩

/-- A step that registers nothing and returns no id. -/
theorem Follows.quiet {self self' : RcServer M} {phase : ι → Phase} (h : Follows calls schedule ⟨self, phase⟩)
    (htable : self'.endpoints = self.endpoints) (himpls : self'.endpoint_impls = self.endpoint_impls) {next : Phase}
    (hstage : next.At (schedule.count k + 1) (Wins calls (schedule ++ [k]) k))
    (hasked : (calls k).byte_bus_id ≤ BYTE_MESSAGE_INFO_11BIT_MAX → 2 ≤ schedule.count k + 1 →
      self.endpoints.lookup (calls k).stream_id (calls k).byte_bus_id ≠ none)
    (hholds : ∀ id, next.Holds id ↔ (phase k).Holds id)
    (hdone : ∀ id, next = .returned (.ok id) ↔ phase k = .returned (.ok id)) :
    Follows calls (schedule ++ [k]) ⟨self', Function.update phase k next⟩ := by
  have hsame : ∀ i id, (Function.update phase k next i).Holds id ↔ (phase i).Holds id :=
    fun i id => update_iff (Phase.Holds id) (hholds id) i
  have hreturned : ∀ i id, Function.update phase k next i = .returned (.ok id) ↔ phase i = .returned (.ok id) :=
    fun i id => update_iff (· = .returned (.ok id)) (hdone id) i
  constructor
  · exact stage_concat h.stage hstage
  · intro i hfits hsteps
    simp only [htable]
    rcases eq_or_ne i k with rfl | hne
    · exact hasked hfits (by simpa using hsteps)
    · exact h.asked i hfits (by simpa [hne.symm] using hsteps)
  · intro i id hid
    simp only [htable]
    exact h.held i id ((hsame i id).1 hid)
  · intro stream bus id hid
    simp only [htable] at hid
    obtain ⟨i, hstream, hbus, hi⟩ := h.owner stream bus id hid
    exact ⟨i, hstream, hbus, (hsame i id).2 hi⟩
  · intro i id hid
    simp only [himpls, hreturned] at hid ⊢
    exact h.implemented i id hid

/-- A valid address is registered exactly when the call wins. -/
theorem Follows.wins_iff {self : RcServer M} {phase : ι → Phase} (h : Follows calls schedule ⟨self, phase⟩)
    (hone : schedule.count k = 1) (id : EndpointId) : Wins calls (schedule ++ [k]) k ↔
      ∃ table, self.endpoints.register (calls k).stream_id (calls k).byte_bus_id id = .ok table := by
  rw [EndpointTable.register_ok_iff, wins_concat]
  constructor
  · rintro (hwins | ⟨-, hfits, -, hfirst⟩)
    · have := hwins.steps
      omega
    · refine ⟨hfits, Option.eq_none_iff_forall_ne_some.2 fun id hid => ?_⟩
      obtain ⟨j, hstream, hbus, hholds⟩ := h.owner _ _ id hid
      have hle := hfirst j hstream hbus
      have hge := (Phase.wins_of_holds (h.stage j) hholds).1
      omega
  · rintro ⟨hfits, hnone⟩
    refine .inr ⟨rfl, hfits, hone, fun j hstream hbus => ?_⟩
    by_contra hmany
    refine h.asked j (hbus ▸ hfits) (by omega) ?_
    rw [hstream, hbus]
    exact hnone

/-- An implementation is that of a call that has returned, so not of one that is under way. -/
theorem Follows.implemented_elsewhere {self : RcServer M} {phase : ι → Phase}
    (h : Follows calls schedule ⟨self, phase⟩) (hunder : ∀ id, phase k ≠ .returned (.ok id)) (next : Phase)
    {i : ι} {id : EndpointId} (hid : phase i = .returned (.ok id)) :
    ∃ j, Function.update phase k next j = .returned (.ok id) ∧ self.endpoint_impls id = some (calls j).endpoint := by
  obtain ⟨j, hj, himpl⟩ := h.implemented i id hid
  have hne : j ≠ k := by
    rintro rfl
    exact hunder id hj
  exact ⟨j, by rwa [Function.update_of_ne hne], himpl⟩

/-- The step that registers an address. -/
theorem Follows.register {self : RcServer M} {phase : ι → Phase} (h : Follows calls schedule ⟨self, phase⟩)
    {id : EndpointId} (hphase : phase k = .loaded id) {endpoints : EndpointTable}
    (hreg : self.endpoints.register (calls k).stream_id (calls k).byte_bus_id id = .ok endpoints) :
    Follows calls (schedule ++ [k]) ⟨{ self with endpoints }, Function.update phase k (.registered id)⟩ := by
  have hone : schedule.count k = 1 := by simpa [hphase, Phase.At] using h.stage k
  have hwins := (h.wins_iff hone id).2 ⟨_, hreg⟩
  have hfree : self.endpoints.lookup (calls k).stream_id (calls k).byte_bus_id = none :=
    (EndpointTable.register_ok_iff.1 ⟨_, hreg⟩).2
  have hlookup := EndpointTable.lookup_register hreg
  -- nobody else holds this address
  have hother : ∀ i id, i ≠ k → (phase i).Holds id →
      endpoints.lookup (calls i).stream_id (calls i).byte_bus_id = some id := by
    intro i id hne hid
    have hheld := h.held i id hid
    rw [hlookup, if_neg]
    · exact hheld
    · rintro ⟨hstream, hbus⟩
      rw [hstream, hbus, hfree] at hheld
      cases hheld
  constructor
  · exact stage_concat h.stage ⟨by rw [hone], hwins⟩
  · intro i hfits hsteps
    simp only [hlookup]
    split_ifs with heq
    · exact Option.some_ne_none id
    · have hne : i ≠ k := by
        rintro rfl
        exact heq ⟨rfl, rfl⟩
      exact h.asked i hfits (by simpa [hne.symm] using hsteps)
  · intro i id' hid
    simp only [] at hid ⊢
    rcases eq_or_ne i k with rfl | hne
    · rw [Function.update_self] at hid
      rw [hlookup, if_pos ⟨rfl, rfl⟩]
      exact congrArg some hid
    · rw [Function.update_of_ne hne] at hid
      exact hother i id' hne hid
  · intro stream bus id' hid
    simp only [hlookup] at hid ⊢
    split_ifs at hid with heq
    · cases hid
      exact ⟨k, heq.1.symm, heq.2.symm, by rw [Function.update_self]; rfl⟩
    · obtain ⟨i, hstream, hbus, hi⟩ := h.owner stream bus id' hid
      have hne : i ≠ k := by
        rintro rfl
        exact heq ⟨hstream.symm, hbus.symm⟩
      exact ⟨i, hstream, hbus, by rwa [Function.update_of_ne hne]⟩
  · intro i id' hid
    simp only [] at hid ⊢
    have hne : i ≠ k := by
      rintro rfl
      rw [Function.update_self] at hid
      cases hid
    rw [Function.update_of_ne hne] at hid
    exact h.implemented_elsewhere (by simp [hphase]) _ hid

/-- The step that stores an implementation and returns. -/
theorem Follows.finish {self : RcServer M} {phase : ι → Phase} (h : Follows calls schedule ⟨self, phase⟩)
    {id : EndpointId} (hphase : phase k = .counted id) : Follows calls (schedule ++ [k])
      ⟨{ self with endpoint_impls := Function.update self.endpoint_impls id (some (calls k).endpoint) },
        Function.update phase k (.returned (.ok id))⟩ := by
  have hstage : schedule.count k = 3 ∧ Wins calls schedule k := by simpa [hphase, Phase.At] using h.stage k
  have hsame : ∀ i id', (Function.update phase k (.returned (.ok id)) i).Holds id' ↔ (phase i).Holds id' :=
    fun i id' => update_iff (Phase.Holds id') (by rw [hphase]; rfl) i
  constructor
  · exact stage_concat h.stage ⟨by rw [hstage.1], hstage.2.append [k]⟩
  · intro i hfits hsteps
    rcases eq_or_ne i k with rfl | hne
    · exact h.asked i hfits hstage.2.steps
    · exact h.asked i hfits (by simpa [hne.symm] using hsteps)
  · intro i id' hid
    exact h.held i id' ((hsame i id').1 hid)
  · intro stream bus id' hid
    obtain ⟨i, hstream, hbus, hi⟩ := h.owner stream bus id' hid
    exact ⟨i, hstream, hbus, (hsame i id').2 hi⟩
  · intro i id' hid
    simp only [] at hid ⊢
    by_cases heq : id' = id
    · subst heq
      exact ⟨k, by rw [Function.update_self], by rw [Function.update_self]⟩
    · have hne : i ≠ k := by
        rintro rfl
        rw [Function.update_self] at hid
        cases hid
        exact heq rfl
      rw [Function.update_of_ne hne] at hid
      rw [Function.update_of_ne heq]
      exact h.implemented_elsewhere (by simp [hphase]) _ hid

theorem follows_turn {race : Race ι M} (h : Follows calls schedule race) (k : ι) :
    Follows calls (schedule ++ [k]) (turn calls race k) := by
  obtain ⟨self, phase⟩ := race
  have hstage := h.stage k
  cases hphase : phase k with
  | idle =>
    simp only [turn, hphase, Phase.At] at hstage ⊢
    exact h.quiet rfl rfl (by rw [hstage]; rfl) (by omega) (by simp [hphase, Phase.Holds]) (by simp [hphase])
  | loaded id =>
    simp only [turn, hphase, Phase.At] at hstage ⊢
    cases hreg : self.endpoints.register (calls k).stream_id (calls k).byte_bus_id id with
    | ok endpoints => exact h.register hphase hreg
    | error e =>
      have hlost : ¬ ∃ table, self.endpoints.register (calls k).stream_id (calls k).byte_bus_id id = .ok table := by
        simp [hreg]
      refine h.quiet rfl rfl ?_ ?_ (by simp [hphase, Phase.Holds]) (by simp [hphase])
      · exact ⟨by rw [hstage], by rwa [h.wins_iff hstage id]⟩
      · intro hfits _ hnone
        exact hlost (EndpointTable.register_ok_iff.2 ⟨hfits, hnone⟩)
  | registered id =>
    simp only [turn, hphase, Phase.At] at hstage ⊢
    refine h.quiet (by rfl) (by rfl) ?_ ?_ (by simp [hphase, Phase.Holds]) (by simp [hphase])
    · exact ⟨by rw [hstage.1], hstage.2.append [k]⟩
    · exact fun hfits _ => h.asked k hfits hstage.2.steps
  | counted id =>
    simp only [turn, hphase]
    exact h.finish hphase
  | returned result =>
    have hsteps : 2 ≤ schedule.count k := by
      cases result <;> simp only [hphase, Phase.At] at hstage <;> omega
    have hnext : (phase k).At (schedule.count k + 1) (Wins calls (schedule ++ [k]) k) := by
      rw [hphase]
      cases result with
      | ok id =>
        simp only [hphase, Phase.At] at hstage
        exact ⟨by omega, hstage.2.append [k]⟩
      | error e =>
        simp only [hphase, Phase.At] at hstage
        refine ⟨by omega, fun hwins => ?_⟩
        rcases wins_concat.1 hwins with hwins | ⟨-, -, hone, -⟩
        · exact hstage.2 hwins
        · omega
    -- the call has returned, and stays as it is
    have hquiet := h.quiet (k := k) rfl rfl hnext (fun hfits _ => h.asked k hfits hsteps) (fun _ => .rfl) fun _ => .rfl
    rw [Function.update_eq_self] at hquiet
    simpa only [turn, hphase] using hquiet

variable (calls) in
theorem follows_run (general : GeneralRegisters) (memory : M) (schedule : List ι) :
    Follows calls schedule (raced calls general memory schedule) := by
  induction schedule using List.reverseRecOn with
  | nil => exact follows_start general memory
  | append_singleton schedule k ih =>
    rw [raced, List.foldl_concat]
    exact follows_turn ih k

end RustRcp.RcServer
