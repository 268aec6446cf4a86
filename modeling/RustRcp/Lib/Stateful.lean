import Mathlib.Data.List.Forall2
/-!
# Fallible computations on a state

`Stateful ε σ α` is what a method with interior mutability and a `Result` does:
it may fail, and what it changed before failing stays changed. `exec` runs one,
and the `exec_` lemmas take a `do` block apart. `collect` is the loop that runs
one such computation per item and joins the outputs; `visits` lists the states
its items meet, and `executed` the items a run gets to.
-/

/-- A fallible computation on a state whose effects survive a failure. -/
abbrev Stateful (ε σ α : Type) := ExceptT ε (StateM σ) α

namespace Stateful

variable {ε σ τ α β ρ : Type}

/-- The outcome and the state left behind. -/
def exec (x : Stateful ε σ α) (s : σ) : Except ε α × σ := x.run s

/-- Run `x` on the part of the state that `view` shows and `store` replaces. -/
def within (view : σ → τ) (store : σ → τ → σ) (x : Stateful ε τ α) : Stateful ε σ α :=
  ExceptT.mk fun s => let (r, t) := exec x (view s); (r, store s t)

/-- The same with another error, as `map_err` and `?` have it. -/
def mapError (g : ε → ρ) (x : Stateful ε σ α) : Stateful ρ σ α :=
  ExceptT.mk fun s => let (r, t) := exec x s; (r.mapError g, t)

/-- The outcome as a value: nothing fails. -/
def attempt (x : Stateful ε σ α) : Stateful ε σ (Except ε α) :=
  ExceptT.mk fun s => let (r, t) := exec x s; (.ok r, t)

/-! ## Running a block -/

@[simp] theorem ok_map (g : α → β) (a : α) : g <$> (.ok a : Except ε α) = .ok (g a) := rfl

@[simp] theorem error_map (g : α → β) (e : ε) : g <$> (.error e : Except ε α) = .error e := rfl

@[simp] theorem exec_pure (a : α) (s : σ) : exec (pure a : Stateful ε σ α) s = (.ok a, s) := rfl

@[simp] theorem exec_throw (e : ε) (s : σ) : exec (throw e : Stateful ε σ α) s = (.error e, s) := rfl

@[simp] theorem exec_get (s : σ) : exec (get : Stateful ε σ σ) s = (.ok s, s) := rfl

@[simp] theorem exec_set (t s : σ) : exec (set t : Stateful ε σ PUnit) s = (.ok ⟨⟩, t) := rfl

@[simp] theorem exec_modify (g : σ → σ) (s : σ) :
    exec (modify g : Stateful ε σ PUnit) s = (.ok ⟨⟩, g s) := rfl

@[simp] theorem exec_map (g : α → β) (x : Stateful ε σ α) (s : σ) :
    exec (g <$> x) s = (g <$> (exec x s).1, (exec x s).2) := by
  simp only [exec, ExceptT.run, Functor.map, ExceptT.map, ExceptT.mk, bind, StateT.bind]
  rcases x s with ⟨_ | _, _⟩ <;> rfl

@[simp] theorem exec_ofExcept (r : Except ε α) (s : σ) :
    exec (MonadExcept.ofExcept r : Stateful ε σ α) s = (r, s) := by
  cases r <;> rfl

theorem exec_bind (x : Stateful ε σ α) (f : α → Stateful ε σ β) (s : σ) :
    exec (x >>= f) s = match exec x s with
      | (.ok a, t) => exec (f a) t
      | (.error e, t) => (.error e, t) := by
  simp only [exec, ExceptT.run, bind, ExceptT.bind, ExceptT.mk, StateT.bind]
  rcases x s with ⟨_ | _, _⟩ <;> rfl

theorem exec_bind_ok {x : Stateful ε σ α} {f : α → Stateful ε σ β} {s t : σ} {a : α}
    (h : exec x s = (.ok a, t)) : exec (x >>= f) s = exec (f a) t := by
  rw [exec_bind, h]

theorem exec_bind_error {x : Stateful ε σ α} {f : α → Stateful ε σ β} {s t : σ} {e : ε}
    (h : exec x s = (.error e, t)) : exec (x >>= f) s = (.error e, t) := by
  rw [exec_bind, h]

/-- A step that only computes, before others that only compute. -/
theorem exec_ofExcept_bind {x : Except ε α} {g : α → Stateful ε σ β} {f : α → Except ε β} {s : σ}
    (h : ∀ a, exec (g a) s = (f a, s)) : exec (MonadExcept.ofExcept x >>= g) s = (x >>= f, s) := by
  cases x with
  | error e => rfl
  | ok a => exact h a

theorem exec_tryCatch (x : Stateful ε σ α) (f : ε → Stateful ε σ α) (s : σ) :
    exec (tryCatch x f) s = match exec x s with
      | (.ok a, t) => (.ok a, t)
      | (.error e, t) => exec (f e) t := by
  simp only [exec, ExceptT.run, tryCatch, tryCatchThe, MonadExceptOf.tryCatch, ExceptT.tryCatch, ExceptT.mk, bind,
    StateT.bind]
  rcases x s with ⟨_ | _, _⟩ <;> rfl

@[simp] theorem exec_within (view : σ → τ) (store : σ → τ → σ) (x : Stateful ε τ α) (s : σ) :
    exec (within view store x) s = ((exec x (view s)).1, store s (exec x (view s)).2) := rfl

@[simp] theorem exec_attempt (x : Stateful ε σ α) (s : σ) : exec (attempt x) s = (.ok (exec x s).1, (exec x s).2) := rfl

@[simp] theorem exec_mapError (g : ε → ρ) (x : Stateful ε σ α) (s : σ) :
    exec (mapError g x) s = ((exec x s).1.mapError g, (exec x s).2) := rfl

/-! ## One computation per item -/

section Collect
variable (next : σ → ρ → σ)

/-- Each item with the state it meets. -/
def visits : σ → List ρ → List (σ × ρ)
  | _, [] => []
  | s, r :: rs => (s, r) :: visits (next s r) rs

/-- Every state of a run, the first and the last included. -/
def states : σ → List ρ → List σ
  | s, [] => [s]
  | s, r :: rs => s :: states (next s r) rs

theorem mem_states_self (s : σ) (rs : List ρ) : s ∈ states next s rs := by
  cases rs <;> exact List.mem_cons_self

/-- The state after an item a run meets is one of its states. -/
theorem next_mem_states {p : σ × ρ} {s : σ} {rs : List ρ} (h : p ∈ visits next s rs) :
    next p.1 p.2 ∈ states next s rs := by
  induction rs generalizing s with
  | nil => cases h
  | cons r rs ih =>
    rcases List.mem_cons.1 h with rfl | h
    · exact List.mem_cons_of_mem _ (mem_states_self next _ _)
    · exact List.mem_cons_of_mem _ (ih h)

/-- What holds at the start and is kept by each item in the state it meets holds in every state. -/
theorem states_inv {I : σ → Prop} {s : σ} {rs : List ρ} (h0 : I s)
    (hstep : ∀ p ∈ visits next s rs, I p.1 → I (next p.1 p.2)) : ∀ t ∈ states next s rs, I t := by
  induction rs generalizing s with
  | nil => simpa [states] using h0
  | cons r rs ih =>
    simp only [visits, List.forall_mem_cons] at hstep
    simp only [states, List.forall_mem_cons]
    exact ⟨h0, ih (hstep.1 h0) hstep.2⟩

/-- A state of a run is what some first part of it leads to. -/
theorem mem_states {s t : σ} {rs : List ρ} (h : t ∈ states next s rs) :
    ∃ before after, rs = before ++ after ∧ before.foldl next s = t := by
  induction rs generalizing s with
  | nil => exact ⟨[], [], rfl, (List.mem_singleton.1 h).symm⟩
  | cons r rs ih =>
    rcases List.mem_cons.1 h with rfl | h
    · exact ⟨[], r :: rs, rfl, rfl⟩
    · obtain ⟨before, after, rfl, ht⟩ := ih h
      exact ⟨r :: before, after, rfl, ht⟩

/-- A run seen through `view`, where `view` of the next state depends only on `view` of this one
as long as `I` holds. -/
theorem visits_view {next' : τ → ρ → τ} {view : σ → τ} {I : σ → Prop}
    (hstep : ∀ s r, I s → I (next s r) ∧ view (next s r) = next' (view s) r) {s : σ} (h0 : I s) (rs : List ρ) :
    visits next' (view s) rs = (visits next s rs).map (fun p => (view p.1, p.2)) ∧ ∀ p ∈ visits next s rs, I p.1 := by
  induction rs generalizing s with
  | nil => exact ⟨rfl, nofun⟩
  | cons r rs ih =>
    obtain ⟨hI, hview⟩ := hstep s r h0
    obtain ⟨hmap, hall⟩ := ih hI
    rw [hview] at hmap
    simp only [visits, List.map_cons, hmap, List.forall_mem_cons]
    exact ⟨trivial, h0, hall⟩

/-- The items a run gets to: all of them up to and including the first that is not `fine`. -/
def executed (fine : σ → ρ → Prop) [∀ s r, Decidable (fine s r)] : σ → List ρ → List ρ
  | _, [] => []
  | s, r :: rs => if fine s r then r :: executed fine (next s r) rs else [r]

theorem executed_all {fine : σ → ρ → Prop} [∀ s r, Decidable (fine s r)] {s : σ} {rs : List ρ}
    (h : ∀ p ∈ visits next s rs, fine p.1 p.2) : executed next fine s rs = rs := by
  induction rs generalizing s with
  | nil => rfl
  | cons r rs ih =>
    simp only [visits, List.forall_mem_cons] at h
    simp [executed, h.1, ih h.2]

/-- A relation every step makes between two states holds across the items. -/
theorem foldl_rel {R : σ → σ → Prop} (hrefl : ∀ s, R s s) (htrans : ∀ {s t u}, R s t → R t u → R s u)
    (rs : List ρ) (hstep : ∀ s, ∀ r ∈ rs, R s (next s r)) (s : σ) : R s (rs.foldl next s) := by
  induction rs generalizing s with
  | nil => exact hrefl s
  | cons r rs ih =>
    exact htrans (hstep s r (by simp)) (ih (fun t u hu => hstep t u (by simp [hu])) _)

theorem visits_append (s : σ) (rs rs' : List ρ) :
    visits next s (rs ++ rs') = visits next s rs ++ visits next (rs.foldl next s) rs' := by
  induction rs generalizing s with
  | nil => rfl
  | cons r rs ih => rw [List.cons_append, visits, visits, ih, List.cons_append, List.foldl_cons]

/-- Where a run meets an item is after the items before it. -/
theorem visits_split {s t : σ} {rs : List ρ} {r : ρ} {ps qs : List (σ × ρ)}
    (h : visits next s rs = ps ++ (t, r) :: qs) :
    ∃ before after, rs = before ++ r :: after ∧ ps = visits next s before ∧ t = before.foldl next s := by
  induction ps generalizing s rs with
  | nil =>
    cases rs with
    | nil => cases h
    | cons r' rs =>
      rw [visits, List.nil_append, List.cons.injEq, Prod.mk.injEq] at h
      obtain ⟨⟨rfl, rfl⟩, -⟩ := h
      exact ⟨[], rs, rfl, rfl, rfl⟩
  | cons p ps ih =>
    cases rs with
    | nil => cases h
    | cons r' rs =>
      rw [visits, List.cons_append, List.cons.injEq] at h
      obtain ⟨rfl, h⟩ := h
      obtain ⟨before, after, rfl, rfl, rfl⟩ := ih h
      exact ⟨r' :: before, after, rfl, rfl, rfl⟩

theorem visits_snd (s : σ) (rs : List ρ) : (visits next s rs).map Prod.snd = rs := by
  induction rs generalizing s with
  | nil => rfl
  | cons r rs ih => rw [visits, List.map_cons, ih]

theorem executed_view {next' : τ → ρ → τ} {view : σ → τ} {I : σ → Prop} {fine : σ → ρ → Prop} {fine' : τ → ρ → Prop}
    [∀ s r, Decidable (fine s r)] [∀ t r, Decidable (fine' t r)]
    (hstep : ∀ s r, I s → I (next s r) ∧ view (next s r) = next' (view s) r) {rs : List ρ}
    (hfine : ∀ s, ∀ r ∈ rs, I s → (fine s r ↔ fine' (view s) r)) {s : σ} (h0 : I s) :
    executed next' fine' (view s) rs = executed next fine s rs := by
  induction rs generalizing s with
  | nil => rfl
  | cons r rs ih =>
    obtain ⟨hI, hview⟩ := hstep s r h0
    have hrest := ih (fun t u hu => hfine t u (List.mem_cons_of_mem _ hu)) hI
    rw [hview] at hrest
    simp only [executed, hfine s r List.mem_cons_self h0, hrest]

/-- Run `f` on each item in order and join what it puts out, stopping at the first failure. -/
def collect (f : ρ → Stateful ε σ (List β)) (items : List ρ) (out : List β) : Stateful ε σ (List β) :=
  items.foldlM (fun out r => do return out ++ (← f r)) out

variable {next} {f : ρ → Stateful ε σ (List β)}

theorem exec_collect_cons (r : ρ) (rs : List ρ) (out : List β) (s : σ) :
    exec (collect f (r :: rs) out) s = match exec (f r) s with
      | (.ok o, t) => exec (collect f rs (out ++ o)) t
      | (.error e, t) => (.error e, t) := by
  simp only [collect, List.foldlM_cons, exec_bind]
  rcases exec (f r) s with ⟨_ | _, _⟩ <;> rfl

/-- Every item succeeds on the state it meets: the outputs are joined in order. -/
theorem exec_collect_ok (hnext : ∀ s r, (exec (f r) s).2 = next s r) {rs : List ρ} {s : σ} {outs : List (List β)}
    (h : List.Forall₂ (fun p o => (exec (f p.2) p.1).1 = .ok o) (visits next s rs) outs) (out : List β) :
    exec (collect f rs out) s = (.ok (out ++ outs.flatten), rs.foldl next s) := by
  induction rs generalizing s outs out with
  | nil =>
    cases h
    simp [collect]
  | cons r rs ih =>
    cases h with
    | cons hr hrs =>
      have hrun : exec (f r) s = (.ok _, next s r) := Prod.ext hr (hnext s r)
      rw [exec_collect_cons, hrun]
      simp [ih hrs, List.append_assoc]

/-- Some item fails on the state it meets: so does the loop, where the first such item left it. -/
theorem exec_collect_error (hnext : ∀ s r, (exec (f r) s).2 = next s r) {fine : σ → ρ → Prop}
    [∀ s r, Decidable (fine s r)] {rs : List ρ} (hfine : ∀ s, ∀ r ∈ rs, (fine s r ↔ ∃ o, (exec (f r) s).1 = .ok o))
    {s : σ} (h : ∃ p ∈ visits next s rs, ¬ fine p.1 p.2) (out : List β) :
    ∃ e, exec (collect f rs out) s = (.error e, (executed next fine s rs).foldl next s) := by
  induction rs generalizing s out with
  | nil => simp [visits] at h
  | cons r rs ih =>
    rw [exec_collect_cons]
    by_cases hr : fine s r
    · obtain ⟨o, ho⟩ := (hfine s r List.mem_cons_self).1 hr
      have hrun : exec (f r) s = (.ok o, next s r) := Prod.ext ho (hnext s r)
      have hrest : ∃ p ∈ visits next (next s r) rs, ¬ fine p.1 p.2 := by
        obtain ⟨p, hp, hbad⟩ := h
        rcases List.mem_cons.1 hp with rfl | hp
        · exact absurd hr hbad
        · exact ⟨p, hp, hbad⟩
      rw [hrun]
      simpa [executed, hr] using ih (fun t u hu => hfine t u (List.mem_cons_of_mem _ hu)) hrest (out ++ o)
    · cases ho : (exec (f r) s).1 with
      | ok o => exact absurd ((hfine s r List.mem_cons_self).2 ⟨o, ho⟩) hr
      | error e =>
        have hrun : exec (f r) s = (.error e, next s r) := Prod.ext ho (hnext s r)
        rw [hrun]
        exact ⟨e, by simp [executed, hr]⟩

/-- A relation each item makes between two states holds across the loop, however far it gets. -/
theorem exec_collect_rel {R : σ → σ → Prop} (hrefl : ∀ s, R s s) (htrans : ∀ {s t u}, R s t → R t u → R s u)
    {rs : List ρ} (hstep : ∀ s, ∀ r ∈ rs, R s (exec (f r) s).2) (out : List β) (s : σ) :
    R s (exec (collect f rs out) s).2 := by
  induction rs generalizing out s with
  | nil => exact hrefl s
  | cons r rs ih =>
    have hfirst := hstep s r List.mem_cons_self
    rw [exec_collect_cons]
    rcases hrun : exec (f r) s with ⟨e | o, t⟩
    · rwa [hrun] at hfirst
    · rw [hrun] at hfirst
      exact htrans hfirst (ih (fun t u hu => hstep t u (List.mem_cons_of_mem _ hu)) _ t)

/-- A loop whose items act on a part of the state acts on that part. -/
theorem exec_collect_within (view : σ → τ) (store : σ → τ → σ) (hself : ∀ s, store s (view s) = s)
    (hview : ∀ s t, view (store s t) = t) (hstore : ∀ s t t', store (store s t) t' = store s t')
    {g : ρ → Stateful ε τ (List β)} {rs : List ρ}
    (h : ∀ s, ∀ r ∈ rs, exec (f r) s = exec (within view store (g r)) s) (out : List β) (s : σ) :
    exec (collect f rs out) s = exec (within view store (collect g rs out)) s := by
  induction rs generalizing out s with
  | nil => simp [collect, hself]
  | cons r rs ih =>
    rw [exec_within, exec_collect_cons, exec_collect_cons, h s r List.mem_cons_self, exec_within]
    rcases exec (g r) (view s) with ⟨e | o, t⟩
    · rfl
    · simp only
      rw [ih fun t u hu => h t u (List.mem_cons_of_mem _ hu), exec_within, hview, hstore]

end Collect

end Stateful
