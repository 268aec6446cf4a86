import RustRcp.Server
/-!
# Batches of requests

A frame's requests are answered in turn until one has no answer. What a request's
answer takes up on the wire is `octets`: nothing when its error has no code or its
payload does not fit a message. `batch_answered` and `batch_failed` say what the
loop does in either case, for any way to dispatch a request, and `Summed.batch_ok`
and `Summed.batch_error` say it of a part of the state that requests change.
-/
open Stateful

namespace RustRcp

/-! ## One answer -/

/-- Octets of an encoded message with `n` octets of payload. -/
def encodedLength (n : Nat) : Nat := ACF_ABB_HEADER_LEN + n + padTo (ACF_ABB_HEADER_LEN + n)

theorem encoded_length {m : AcfAbbMessage} {b : List UInt8} (h : encode_acf_abb m = .ok b) :
    b.length = encodedLength m.payload.length := by
  obtain ⟨-, -, rfl⟩ := encode_acf_abb_ok.1 h
  rw [List.length_append, List.length_append, info_octets_length, List.length_replicate, encodedLength,
    ACF_ABB_HEADER_LEN]

instance (n : Nat) : Decidable (FitsLength n) := inferInstanceAs (Decidable (_ ≤ _))

/-- Octets of the answer to a request that was dispatched with this result, if it gets one. -/
def answerOctets : Except RcpError (List UInt8) → Option Nat
  | .ok payload =>
    if FitsLength (ACF_ABB_HEADER_LEN + payload.length) then some (encodedLength payload.length) else none
  | .error e => if e.tc18_wire_code.isSome then some (encodedLength 1) else none

/-- The encoded answer to a request that was dispatched with this result. -/
def answered (request : AcfAbbMessage) : Except RcpError AcfAbbMessage → Except RcpError (List UInt8)
  | .ok response => encode_acf_abb response
  | .error e => match build_error_response request.info e with
    | some response => encode_acf_abb response
    | none => .error e

theorem exec_answer {S : Type} (dispatch : AcfAbbMessage → Stateful RcpError S AcfAbbMessage) (request : AcfAbbMessage)
    (s : S) : exec (answer dispatch request) s =
      (answered request (exec (dispatch request) s).1, (exec (dispatch request) s).2) := by
  unfold answer answered
  rw [exec_bind, exec_tryCatch]
  rcases exec (dispatch request) s with ⟨e | response, t⟩
  · cases hbuild : build_error_response request.info e <;> simp [hbuild]
  · simp

/-- `m` is the answer to a request dispatched with this result. -/
def AnswerTo (request : AcfAbbMessage) (result : Except RcpError AcfAbbMessage) (m : AcfAbbMessage) : Prop :=
  result = .ok m ∨ ∃ e, result = .error e ∧ build_error_response request.info e = some m

theorem error_response_iff {request : ByteMessageInfo} {e : RcpError} :
    (∃ m, build_error_response request e = some m) ↔ e.tc18_wire_code.isSome = true := by
  unfold build_error_response
  cases e.tc18_wire_code <;> simp

theorem error_response_fields {request : ByteMessageInfo} {e : RcpError} {m : AcfAbbMessage}
    (h : build_error_response request e = some m) :
    m.info = { request with rsp := true, err := true } ∧ m.payload.length = 1 := by
  unfold build_error_response at h
  cases hcode : e.tc18_wire_code with
  | none => simp [hcode] at h
  | some code =>
    simp [hcode] at h
    subst h
    exact ⟨rfl, rfl⟩

theorem answered_ok {request : AcfAbbMessage} {result : Except RcpError AcfAbbMessage} {o : List UInt8}
    (h : answered request result = .ok o) : ∃ m, encode_acf_abb m = .ok o ∧ AnswerTo request result m := by
  cases result with
  | ok m => exact ⟨m, h, .inl rfl⟩
  | error e =>
    rw [answered] at h
    cases hbuild : build_error_response request.info e with
    | none =>
      rw [hbuild] at h
      cases h
    | some m =>
      rw [hbuild] at h
      exact ⟨m, h, .inr ⟨e, rfl, hbuild⟩⟩

theorem answered_some {request : AcfAbbMessage} (hr : request.info.FieldsFit) {result : Except RcpError AcfAbbMessage}
    (hfields : ∀ m, result = .ok m → m.info.FieldsFit) {n : Nat}
    (h : answerOctets (AcfAbbMessage.payload <$> result) = some n) :
    ∃ m o, answered request result = .ok o ∧ encode_acf_abb m = .ok o ∧ o.length = n ∧ AnswerTo request result m := by
  cases result with
  | ok m =>
    simp only [ok_map, answerOctets, Option.ite_none_right_eq_some, Option.some.injEq] at h
    obtain ⟨hfit, rfl⟩ := h
    have henc := encode_acf_abb_ok.2 ⟨hfit, hfields m rfl, rfl⟩
    exact ⟨m, _, henc, henc, encoded_length henc, .inl rfl⟩
  | error e =>
    simp only [error_map, answerOctets, Option.ite_none_right_eq_some, Option.some.injEq] at h
    obtain ⟨hcode, rfl⟩ := h
    obtain ⟨m, hm⟩ : ∃ m, build_error_response request.info e = some m := error_response_iff.2 hcode
    obtain ⟨hinfo, hlen⟩ := error_response_fields hm
    have hfits : m.info.FieldsFit := by
      rw [hinfo]
      exact ⟨hr.1, hr.2, hr.3⟩
    have henc := encode_acf_abb_ok.2 ⟨by rw [hlen]; decide, hfits, rfl⟩
    refine ⟨m, _, ?_, henc, by rw [encoded_length henc, hlen], .inr ⟨e, rfl, hm⟩⟩
    simp only [answered, hm]
    exact henc

theorem answered_none {request : AcfAbbMessage} {result : Except RcpError AcfAbbMessage}
    (h : answerOctets (AcfAbbMessage.payload <$> result) = none) : ∃ e, answered request result = .error e := by
  cases result with
  | ok m =>
    simp only [ok_map, answerOctets, ite_eq_right_iff, reduceCtorEq, imp_false] at h
    exact ⟨_, encode_acf_abb_error fun hboth => h hboth.1⟩
  | error e =>
    simp only [error_map, answerOctets, ite_eq_right_iff, reduceCtorEq, imp_false] at h
    refine ⟨e, ?_⟩
    cases hm : build_error_response request.info e with
    | none => simp only [answered, hm]
    | some m => exact absurd (error_response_iff.1 ⟨m, hm⟩) h

/-! ## The loop -/

section Dispatch
variable {S : Type} (dispatch : AcfAbbMessage → Stateful RcpError S AcfAbbMessage)

/-- The state after a request. -/
def dispatched (s : S) (request : AcfAbbMessage) : S := (exec (dispatch request) s).2

/-- Octets of the answer to a request in state `s`, if it gets one. -/
def octets (s : S) (request : AcfAbbMessage) : Option Nat :=
  answerOctets (AcfAbbMessage.payload <$> (exec (dispatch request) s).1)

/-- Responses have fields that fit where their requests do. -/
def FieldsKept : Prop :=
  ∀ s request m, request.info.FieldsFit → (exec (dispatch request) s).1 = .ok m → m.info.FieldsFit

variable {dispatch}

/-- The answers of requests that all get one. -/
theorem answers_exist (hkept : FieldsKept dispatch) {ps : List (S × AcfAbbMessage)}
    (h : ∀ p ∈ ps, p.2.info.FieldsFit ∧ (octets dispatch p.1 p.2).isSome = true) :
    ∃ msgs outs, List.Forall₂ (fun p o => (exec (answer dispatch p.2) p.1).1 = .ok o) ps outs ∧
      List.Forall₂ (fun m o => encode_acf_abb m = .ok o) msgs outs ∧
      List.Forall₂ (fun p m => AnswerTo p.2 (exec (dispatch p.2) p.1).1 m) ps msgs ∧
      outs.flatten.length = (ps.map fun p => (octets dispatch p.1 p.2).getD 0).sum := by
  induction ps with
  | nil => exact ⟨[], [], .nil, .nil, .nil, rfl⟩
  | cons p ps ih =>
    obtain ⟨⟨hfit, hsome⟩, hrest⟩ := List.forall_mem_cons.1 h
    obtain ⟨msgs, outs, hrun, henc, hans, hlen⟩ := ih hrest
    obtain ⟨n, hn⟩ := Option.isSome_iff_exists.1 hsome
    obtain ⟨m, o, ho, hm, ho_len, hp⟩ := answered_some hfit (fun m => hkept p.1 p.2 m hfit) hn
    refine ⟨m :: msgs, o :: outs, .cons (by rw [exec_answer, ho]) hrun, .cons hm henc, .cons hp hans, ?_⟩
    rw [List.flatten_cons, List.length_append, hlen, List.map_cons, List.sum_cons, hn, ho_len, Option.getD_some]

/-- Every request gets an answer: the loop joins the answers, in order. -/
theorem batch_answered (hkept : FieldsKept dispatch) {rs : List AcfAbbMessage}
    (hrs : ∀ r ∈ rs, r.info.FieldsFit) {s : S}
    (h : ∀ p ∈ visits (dispatched dispatch) s rs, (octets dispatch p.1 p.2).isSome = true) :
    ∃ msgs outs, exec (collect (answer dispatch) rs []) s = (.ok outs.flatten, rs.foldl (dispatched dispatch) s) ∧
      List.Forall₂ (fun m o => encode_acf_abb m = .ok o) msgs outs ∧
      List.Forall₂ (fun p m => AnswerTo p.2 (exec (dispatch p.2) p.1).1 m) (visits (dispatched dispatch) s rs) msgs ∧
      outs.flatten.length =
        ((visits (dispatched dispatch) s rs).map fun p => (octets dispatch p.1 p.2).getD 0).sum := by
  have hboth : ∀ p ∈ visits (dispatched dispatch) s rs,
      p.2.info.FieldsFit ∧ (octets dispatch p.1 p.2).isSome = true := by
    intro p hp
    have hmem : p.2 ∈ rs := by
      rw [← visits_snd (dispatched dispatch) s rs]
      exact List.mem_map_of_mem hp
    exact ⟨hrs _ hmem, h p hp⟩
  obtain ⟨msgs, outs, hrun, henc, hans, hlen⟩ := answers_exist hkept hboth
  have hnext : ∀ s r, (exec (answer dispatch r) s).2 = dispatched dispatch s r := by
    intro s r
    rw [exec_answer]
    rfl
  have hexec := exec_collect_ok hnext hrun []
  rw [List.nil_append] at hexec
  exact ⟨msgs, outs, hexec, henc, hans, hlen⟩

/-- What holds of each answer and its request holds down the whole batch. -/
theorem answers_in_order {P : AcfAbbMessage → AcfAbbMessage → Prop}
    (hanswer : ∀ s r m, AnswerTo r (exec (dispatch r) s).1 m → P r m.onWire) {s : S} {rs msgs : List AcfAbbMessage}
    (h : List.Forall₂ (fun p m => AnswerTo p.2 (exec (dispatch p.2) p.1).1 m) (visits (dispatched dispatch) s rs)
      msgs) :
    List.Forall₂ P rs (msgs.map AcfAbbMessage.onWire) := by
  have hpairs : List.Forall₂ (fun p m => P p.2 m.onWire) (visits (dispatched dispatch) s rs) msgs :=
    h.imp fun p m hm => hanswer p.1 p.2 m hm
  rw [← visits_snd (dispatched dispatch) s rs]
  exact List.forall₂_map_left_iff.2 (List.forall₂_map_right_iff.2 hpairs)

/-- Some request gets no answer: the loop fails there. -/
theorem batch_failed (hkept : FieldsKept dispatch) {rs : List AcfAbbMessage} (hrs : ∀ r ∈ rs, r.info.FieldsFit) {s : S}
    (h : ∃ p ∈ visits (dispatched dispatch) s rs, ¬ (octets dispatch p.1 p.2).isSome = true) :
    ∃ e, exec (collect (answer dispatch) rs []) s = (.error e,
      (executed (dispatched dispatch) (fun s r => (octets dispatch s r).isSome = true) s rs).foldl
        (dispatched dispatch) s) := by
  refine exec_collect_error ?_ ?_ h []
  · intro s r
    rw [exec_answer]
    rfl
  · -- the answer exists exactly where its octets are counted
    intro s r hr
    rw [exec_answer]
    constructor
    · intro hsome
      obtain ⟨n, hn⟩ := Option.isSome_iff_exists.1 hsome
      obtain ⟨m, o, ho, -⟩ := answered_some (hrs r hr) (fun m => hkept s r m (hrs r hr)) hn
      exact ⟨o, ho⟩
    · rintro ⟨o, ho⟩
      by_contra hnone
      obtain ⟨e, he⟩ : ∃ e, answered r (exec (dispatch r) s).1 = .error e :=
        answered_none (Option.not_isSome_iff_eq_none.1 hnone)
      rw [he] at ho
      cases ho

end Dispatch

/-! ## Through a view -/

/-- Every request of a batch has an answer, and the answers together fit a frame. -/
structure Answerable {V : Type} (next : V → AcfAbbMessage → V) (size : V → AcfAbbMessage → Option Nat) (v : V)
    (requests : List AcfAbbMessage) : Prop where
  each : ∀ p ∈ visits next v requests, (size p.1 p.2).isSome = true
  together : ((visits next v requests).map fun p => (size p.1 p.2).getD 0).sum ≤ NTSCF_DATA_LENGTH_MAX.toNat

/-- In a state with `I`, `next` and `size` say what a request makes of the part that `view` shows and
how long its answer is. -/
structure Summed {S V : Type} (dispatch : AcfAbbMessage → Stateful RcpError S AcfAbbMessage) (I : S → Prop)
    (view : S → V) (next : V → AcfAbbMessage → V) (size : V → AcfAbbMessage → Option Nat) : Prop where
  step : ∀ s r, I s → I (dispatched dispatch s r) ∧ view (dispatched dispatch s r) = next (view s) r
  size : ∀ s r, I s → octets dispatch s r = size (view s) r
  kept : FieldsKept dispatch

namespace Summed
variable {S V : Type} {dispatch : AcfAbbMessage → Stateful RcpError S AcfAbbMessage} {I : S → Prop} {view : S → V}
  {next : V → AcfAbbMessage → V} {size : V → AcfAbbMessage → Option Nat} {s : S}

/-- The answers to a batch, at the states the loop itself meets. -/
theorem visited (h : Summed dispatch I view next size) (h0 : I s) (rs : List AcfAbbMessage) :
    ((∀ p ∈ visits next (view s) rs, (size p.1 p.2).isSome = true) ↔
      ∀ p ∈ visits (dispatched dispatch) s rs, (octets dispatch p.1 p.2).isSome = true) ∧
    ((visits next (view s) rs).map fun p => (size p.1 p.2).getD 0) =
      (visits (dispatched dispatch) s rs).map fun p => (octets dispatch p.1 p.2).getD 0 := by
  obtain ⟨hmap, hall⟩ := visits_view (dispatched dispatch) h.step h0 rs
  have hsize : ∀ p ∈ visits (dispatched dispatch) s rs, octets dispatch p.1 p.2 = size (view p.1) p.2 :=
    fun p hp => h.size p.1 p.2 (hall p hp)
  constructor
  · rw [hmap, List.forall_mem_map]
    exact forall₂_congr fun p hp => by rw [hsize p hp]
  · rw [hmap, List.map_map]
    exact List.map_congr_left fun p hp => by rw [Function.comp_apply, hsize p hp]

/-- The requests a batch gets to: all of them up to and including the first without an answer. -/
theorem executed_eq (h : Summed dispatch I view next size) (h0 : I s) (rs : List AcfAbbMessage) :
    executed next (fun v r => (size v r).isSome = true) (view s) rs =
      executed (dispatched dispatch) (fun s r => (octets dispatch s r).isSome = true) s rs :=
  executed_view (dispatched dispatch) h.step (fun s r _ hs => by rw [h.size s r hs]) h0

/-- A batch that is answerable comes to the encoded answers, in order, that fit a frame. -/
theorem batch_ok (h : Summed dispatch I view next size) (h0 : I s) {rs : List AcfAbbMessage} (hne : rs ≠ [])
    (hrs : ∀ r ∈ rs, r.info.FieldsFit) (hgood : Answerable next size (view s) rs) :
    ∃ bytes msgs, exec (collect (answer dispatch) rs []) s = (.ok bytes, rs.foldl (dispatched dispatch) s) ∧
      bytes.length ≤ NTSCF_DATA_LENGTH_MAX.toNat ∧
      decode_acf_abb_messages bytes = .ok (msgs.map AcfAbbMessage.onWire) ∧
      List.Forall₂ (fun p m => AnswerTo p.2 (exec (dispatch p.2) p.1).1 m)
        (visits (dispatched dispatch) s rs) msgs := by
  obtain ⟨heach, hsizes⟩ := h.visited h0 rs
  obtain ⟨msgs, outs, hrun, henc, hans, hlen⟩ := batch_answered h.kept hrs (heach.1 hgood.each)
  have hfit : outs.flatten.length ≤ NTSCF_DATA_LENGTH_MAX.toNat := by
    rw [hlen, ← hsizes]
    exact hgood.together
  have hmsgs : msgs ≠ [] := by
    rintro rfl
    have hnil := List.forall₂_nil_right_iff.1 hans
    rw [← visits_snd (dispatched dispatch) s rs, hnil] at hne
    exact hne rfl
  exact ⟨_, msgs, hrun, hfit, decode_messages_encoded hmsgs henc, hans⟩

/-- A batch that is not answerable fails, or comes to answers no frame has room for. -/
theorem batch_error (h : Summed dispatch I view next size) (h0 : I s) {rs : List AcfAbbMessage}
    (hrs : ∀ r ∈ rs, r.info.FieldsFit) (hbad : ¬ Answerable next size (view s) rs) :
    ∃ result, exec (collect (answer dispatch) rs []) s = (result,
        (executed next (fun v r => (size v r).isSome = true) (view s) rs).foldl (dispatched dispatch) s) ∧
      ∀ bytes, result = .ok bytes → NTSCF_DATA_LENGTH_MAX.toNat < bytes.length := by
  obtain ⟨heach, hsizes⟩ := h.visited h0 rs
  by_cases hall : ∀ p ∈ visits next (view s) rs, (size p.1 p.2).isSome = true
  · -- all are answered, so it is the frame that has no room for the answers
    obtain ⟨msgs, outs, hrun, -, -, hlen⟩ := batch_answered h.kept hrs (heach.1 hall)
    have hlong : NTSCF_DATA_LENGTH_MAX.toNat < outs.flatten.length := by
      rw [hlen, ← hsizes]
      exact Nat.lt_of_not_le fun hfit => hbad ⟨hall, hfit⟩
    refine ⟨_, by rw [hrun, executed_all _ hall], ?_⟩
    rintro bytes hbytes
    cases hbytes
    exact hlong
  · rw [heach] at hall
    simp only [not_forall, exists_prop] at hall
    obtain ⟨e, he⟩ := batch_failed h.kept hrs hall
    rw [h.executed_eq h0]
    exact ⟨_, he, nofun⟩

end Summed

end RustRcp
