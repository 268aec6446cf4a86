import Mathlib.Data.List.Nodup
/-!
# Requests and responses over a channel

A client makes calls one after another. A call sends a packet and waits until some
packet arrives, which it accepts or not, or gives up waiting. A server answers packets
as they reach it. Packets are on their way in both directions, and what a channel does
with them is its `Discipline`. The number a packet is tagged with is the call it
belongs to; nobody in the exchange sees it. `Reachable.kept` says where an accepted
response comes from, in every order of events.
-/

namespace Exchange

/-! ## Channels -/

/-- What a channel may make of the packets on their way, besides delivering the first of them. -/
structure Discipline (α : Type) where
  moves : List α → List α → Prop
  kept : ∀ {sent left}, moves sent left → left ⊆ sent

variable {α : Type}

/-- First in, first out. -/
def fifo : Discipline α where
  moves _ _ := False
  kept := False.elim

/-- A loss, a duplication or a change of order. -/
inductive Disturbed : List α → List α → Prop where
  | lose (before : List α) (p : α) (after : List α) : Disturbed (before ++ p :: after) (before ++ after)
  | duplicate (before : List α) (p : α) (after : List α) : Disturbed (before ++ p :: after) (before ++ p :: p :: after)
  | reorder {sent left : List α} (h : sent.Perm left) : Disturbed sent left

theorem Disturbed.kept {sent left : List α} (h : Disturbed sent left) : left ⊆ sent := by
  intro q hq
  cases h with
  | lose before p after =>
    rcases List.mem_append.1 hq with hq | hq
    · exact List.mem_append_left _ hq
    · exact List.mem_append_right _ (List.mem_cons_of_mem p hq)
  | duplicate before p after => simpa using hq
  | reorder h => exact h.mem_iff.2 hq

def datagram : Discipline α where
  moves := Disturbed
  kept := Disturbed.kept

/-! ## The exchange -/

/-- What a call sends, which answers a server may give to a packet and in which packet, what a call
makes of a packet that arrives, and how it may end when none does. -/
structure Protocol (C P R E : Type) where
  sends : C → Except E P
  serves : P → R → P → Prop
  accepts : C → P → Except E R
  expires : C → E → Prop

/-- The calls so far, the last of which may be waiting, the packets on their way, the server's
answers, and how the calls have ended. -/
structure State (C P R E : Type) where
  calls : List C := []
  waiting : Bool := false
  requests : List (Nat × P) := []
  responses : List (Nat × P) := []
  answers : List (Nat × R) := []
  results : List (Nat × Except E R) := []

variable {C P R E : Type} (d : Discipline (Nat × P)) (proto : Protocol C P R E)

inductive Step : State C P R E → State C P R E → Prop where
  | refuse {s : State C P R E} {c : C} {e : E} (hidle : s.waiting = false) (hsend : proto.sends c = .error e) :
    Step s { s with calls := s.calls ++ [c], results := s.results ++ [(s.calls.length, .error e)] }
  | call {s : State C P R E} {c : C} {p : P} (hidle : s.waiting = false) (hsend : proto.sends c = .ok p) :
    Step s { s with
      calls := s.calls ++ [c]
      waiting := true
      requests := s.requests ++ [(s.calls.length, p)] }
  | carryRequests {s : State C P R E} {left : List (Nat × P)} (hmoves : d.moves s.requests left) :
    Step s { s with requests := left }
  | carryResponses {s : State C P R E} {left : List (Nat × P)} (hmoves : d.moves s.responses left) :
    Step s { s with responses := left }
  | serve {s : State C P R E} {n : Nat} {p q : P} {r : R} {rest : List (Nat × P)}
    (hnext : s.requests = (n, p) :: rest) (hserve : proto.serves p r q) :
    Step s { s with
      requests := rest
      responses := s.responses ++ [(n, q)]
      answers := s.answers ++ [(n, r)] }
  | receive {s : State C P R E} {earlier : List C} {c : C} {n : Nat} {q : P} {rest : List (Nat × P)}
    (hwaiting : s.waiting = true) (hcalls : s.calls = earlier ++ [c]) (hnext : s.responses = (n, q) :: rest) :
    Step s { s with
      waiting := false
      responses := rest
      results := s.results ++ [(earlier.length, proto.accepts c q)] }
  | expire {s : State C P R E} {earlier : List C} {c : C} {e : E} (hwaiting : s.waiting = true)
    (hcalls : s.calls = earlier ++ [c]) (hexpires : proto.expires c e) :
    Step s { s with waiting := false, results := s.results ++ [(earlier.length, .error e)] }

inductive Reachable : State C P R E → Prop where
  | start : Reachable {}
  | step {s t : State C P R E} (h : Reachable s) (hstep : Step d proto s t) : Reachable t

/-! ## Where packets come from -/

/-- The packet `q` carries the server's answer `r` to the request of call `n`. -/
def Answers (calls : List C) (n : Nat) (r : R) (q : P) : Prop :=
  ∃ c p, calls[n]? = some c ∧ proto.sends c = .ok p ∧ proto.serves p r q

/-- Every packet is a call's request or an answer to one, and what a call accepts is an answer to
its own request or to an earlier call's. -/
structure Kept (s : State C P R E) : Prop where
  requested : ∀ n p, (n, p) ∈ s.requests → ∃ c, s.calls[n]? = some c ∧ proto.sends c = .ok p
  answered : ∀ n r, (n, r) ∈ s.answers → ∃ q, Answers proto s.calls n r q
  responded : ∀ n q, (n, q) ∈ s.responses → ∃ r, (n, r) ∈ s.answers ∧ Answers proto s.calls n r q
  accepted : ∀ m r', (m, .ok r') ∈ s.results → ∃ n r q c, n ≤ m ∧ (n, r) ∈ s.answers ∧
    Answers proto s.calls n r q ∧ s.calls[m]? = some c ∧ proto.accepts c q = .ok r'

variable {d proto} {s t : State C P R E}

theorem getElem?_call {calls : List C} {n : Nat} {c : C} (h : calls[n]? = some c) (c' : C) :
    (calls ++ [c'])[n]? = some c := by
  rwa [List.getElem?_append_left (List.getElem?_eq_some_iff.1 h).1]

theorem Answers.call {calls : List C} {n : Nat} {r : R} {q : P} (h : Answers proto calls n r q) (c : C) :
    Answers proto (calls ++ [c]) n r q := by
  obtain ⟨c', p, hc', hsend, hserve⟩ := h
  exact ⟨c', p, getElem?_call hc' c, hsend, hserve⟩

/-- One more call changes nothing about the packets that are on their way. -/
theorem Kept.call (h : Kept proto s) (c : C) : Kept proto { s with calls := s.calls ++ [c] } where
  requested n p hp := by
    obtain ⟨c', hc', hsend⟩ := h.requested n p hp
    exact ⟨c', getElem?_call hc' c, hsend⟩
  answered n r hr := by
    obtain ⟨q, hq⟩ := h.answered n r hr
    exact ⟨q, hq.call c⟩
  responded n q hq := by
    obtain ⟨r, hr, hanswers⟩ := h.responded n q hq
    exact ⟨r, hr, hanswers.call c⟩
  accepted m r' hr' := by
    obtain ⟨n, r, q, c', hle, hr, hanswers, hc', haccepts⟩ := h.accepted m r' hr'
    exact ⟨n, r, q, c', hle, hr, hanswers.call c, getElem?_call hc' c, haccepts⟩

/-- A call that ends in an error accepts nothing. -/
theorem Kept.fail (h : Kept proto s) (m : Nat) (e : E) (waiting : Bool) :
    Kept proto { s with waiting, results := s.results ++ [(m, .error e)] } where
  requested := h.requested
  answered := h.answered
  responded := h.responded
  accepted m' r' hr' := by
    rcases List.mem_append.1 hr' with hr' | hr'
    · exact h.accepted m' r' hr'
    · cases List.mem_singleton.1 hr'

theorem Kept.step (h : Kept proto s) (hstep : Step d proto s t) : Kept proto t := by
  cases hstep with
  | refuse _ _ => exact (h.call _).fail _ _ _
  | @call c p hidle hsend =>
    obtain ⟨hrequested, hanswered, hresponded, haccepted⟩ := h.call c
    refine ⟨fun n p' hp' => ?_, hanswered, hresponded, haccepted⟩
    rcases List.mem_append.1 hp' with hp' | hp'
    · exact hrequested n p' hp'
    · cases List.mem_singleton.1 hp'
      exact ⟨c, List.getElem?_concat_length, hsend⟩
  | carryRequests hmoves => exact { h with requested := fun n p hp => h.requested n p (d.kept hmoves hp) }
  | carryResponses hmoves => exact { h with responded := fun n q hq => h.responded n q (d.kept hmoves hq) }
  | @serve n p q r rest hnext hserve =>
    have hmem : ∀ {x}, x ∈ rest → x ∈ s.requests := fun hx => by
      rw [hnext]
      exact List.mem_cons_of_mem _ hx
    obtain ⟨c, hc, hsend⟩ := h.requested n p (by rw [hnext]; exact List.mem_cons_self)
    have hanswers : Answers proto s.calls n r q := ⟨c, p, hc, hsend, hserve⟩
    constructor
    · exact fun n' p' hp' => h.requested n' p' (hmem hp')
    · intro n' r' hr'
      rcases List.mem_append.1 hr' with hr' | hr'
      · exact h.answered n' r' hr'
      · cases List.mem_singleton.1 hr'
        exact ⟨q, hanswers⟩
    · intro n' q' hq'
      rcases List.mem_append.1 hq' with hq' | hq'
      · obtain ⟨r', hr', hanswers'⟩ := h.responded n' q' hq'
        exact ⟨r', List.mem_append_left _ hr', hanswers'⟩
      · cases List.mem_singleton.1 hq'
        exact ⟨r, List.mem_append_right _ List.mem_cons_self, hanswers⟩
    · intro m r' hr'
      obtain ⟨n', r'', q', c', hle, hr'', hrest⟩ := h.accepted m r' hr'
      exact ⟨n', r'', q', c', hle, List.mem_append_left _ hr'', hrest⟩
  | @receive earlier c n q rest hwaiting hcalls hnext =>
    obtain ⟨r, hr, hanswers⟩ := h.responded n q (by rw [hnext]; exact List.mem_cons_self)
    refine ⟨h.requested, h.answered, fun n' q' hq' => ?_, fun m r' hr' => ?_⟩
    · exact h.responded n' q' (by rw [hnext]; exact List.mem_cons_of_mem _ hq')
    · rcases List.mem_append.1 hr' with hr' | hr'
      · exact h.accepted m r' hr'
      · -- the packet answers a call that was made, so this one or an earlier one
        obtain ⟨rfl, hok⟩ := Prod.mk.inj (List.mem_singleton.1 hr')
        have hlt : n < s.calls.length := by
          obtain ⟨c', p, hc', -⟩ := hanswers
          exact (List.getElem?_eq_some_iff.1 hc').1
        rw [hcalls, List.length_append, List.length_singleton] at hlt
        refine ⟨n, r, q, c, Nat.le_of_lt_succ hlt, hr, hanswers, ?_, hok.symm⟩
        simp only [hcalls]
        exact List.getElem?_concat_length
  | expire _ _ _ => exact h.fail _ _ _

theorem Reachable.kept (h : Reachable d proto s) : Kept proto s := by
  induction h with
  | start => exact ⟨nofun, nofun, nofun, nofun⟩
  | step _ hstep ih => exact ih.step hstep

/-- Where answers repeat a key of their requests and the calls have different keys, the key says
which call an answer is for. -/
theorem Kept.own_iff {K : Type} (h : Kept proto s) {key : C → K} {key' : R → K}
    (hecho : ∀ c p r q, proto.sends c = .ok p → proto.serves p r q → key' r = key c)
    (hdistinct : (s.calls.map key).Nodup) {n m : Nat} {r : R} {c : C} (hr : (n, r) ∈ s.answers)
    (hc : s.calls[m]? = some c) : n = m ↔ key' r = key c := by
  obtain ⟨q, c', p, hc', hsend, hserve⟩ := h.answered n r hr
  rw [hecho c' p r q hsend hserve]
  constructor
  · rintro rfl
    rw [Option.some.inj (hc'.symm.trans hc)]
  · intro hkey
    have hn : (s.calls.map key)[n]? = some (key c') := by rw [List.getElem?_map, hc', Option.map_some]
    have hm : (s.calls.map key)[m]? = some (key c) := by rw [List.getElem?_map, hc, Option.map_some]
    have hlt := (List.getElem?_eq_some_iff.1 hn).1
    exact (List.getElem?_inj hlt hdistinct).1 (by rw [hn, hm, hkey])

end Exchange
