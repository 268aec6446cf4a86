import RustRcp.Serve
/-!
# What responses say

Whether a response names the request it answers (`responses_correlated_iff`), and
whether the kind its receiver reads off it is what happened (`response_kind_iff`).
Most responses copy the request's header; a discovery response and the grant of a
configure request start from a blank one.
-/
open Stateful

namespace RustRcp

/-! ## Correlation -/

/-- A response names the request it answers. -/
structure Correlated (request response : AcfAbbMessage) : Prop where
  rsp : response.info.rsp = true
  byte_bus_id : response.info.byte_bus_id = request.info.byte_bus_id
  op : response.info.op = request.info.op
  transaction_num : response.info.transaction_num = request.info.transaction_num

theorem error_correlated {request m : AcfAbbMessage} {e : RcpError}
    (h : build_error_response request.info e = some m) : Correlated request m := by
  obtain ⟨hinfo, -⟩ := error_response_fields h
  constructor <;> rw [hinfo]

theorem refusal_correlated {request m : AcfAbbMessage} {e : RcpError} (h : AnswerTo request (.error e) m) :
    Correlated request m := by
  rcases h with h | ⟨e', -, hm⟩
  · cases h
  · exact error_correlated hm

/-- What `handle_abb` answers with, or the error response in its place. -/
theorem handle_abb_correlated {M : Type} {s : RcServer M} {stream : StreamId} {request m : AcfAbbMessage}
    (h : AnswerTo request (exec (RcServer.handle_abb stream request) s).1 m) : Correlated request m := by
  rcases h with h | ⟨e, -, hm⟩
  · constructor <;> rw [RcServer.handle_abb_info _ _ h]
  · exact error_correlated hm

theorem discovery_request_op {request : AcfAbbMessage} (h : is_discovery_request request = true) :
    request.info.op = false := by
  unfold is_discovery_request access_kind at h
  cases hop : request.info.op with
  | false => rfl
  | true => simp [hop] at h

theorem configure_request_op {request : AcfAbbMessage} (h : is_discovery_configure_request request = true) :
    request.info.op = true := by
  unfold is_discovery_configure_request access_kind at h
  cases hop : request.info.op with
  | false => simp [hop] at h
  | true => rfl

theorem not_discovery_of_configure {request : AcfAbbMessage} (h : is_discovery_configure_request request = true) :
    is_discovery_request request = false := by
  rw [Bool.eq_false_iff]
  intro hread
  have hop := discovery_request_op hread
  rw [configure_request_op h] at hop
  cases hop

namespace UdpRcServer
variable {M Peer : Type}

/-- `handle_abb` always names its request. Over UDP a discovery response does when the request's
number is the blank header's zero, and the grant of a configure request never does. -/
theorem responses_correlated_iff (u : UdpRcServer M Peer) (stream : StreamId) (now : Instant) (timeout : Duration)
    (request : AcfAbbMessage) :
    (∀ m, AnswerTo request (exec (RcServer.handle_abb stream request) u.server).1 m → Correlated request m) ∧
    ((∀ m, AnswerTo request (exec (dispatch_request stream now timeout request) u).1 m → Correlated request m) ↔
      ¬ (is_discovery_request request = true ∧ request.info.transaction_num ≠ 0) ∧
      ¬ (is_discovery_configure_request request = true ∧ granted stream now timeout u.discovery_claim = true)) := by
  refine ⟨fun m => handle_abb_correlated, ?_⟩
  rw [dispatch_spec]
  by_cases hread : is_discovery_request request = true
  · have hconf : is_discovery_configure_request request = false := by
      rw [Bool.eq_false_iff]
      intro hconf
      rw [not_discovery_of_configure hconf] at hread
      cases hread
    simp only [hread, hconf, if_true, Bool.false_eq_true, true_and, false_and, not_false_eq_true, and_true, not_not]
    constructor
    · intro h
      exact (h _ (.inl rfl)).transaction_num.symm
    · rintro hzero m (h | ⟨e, h, -⟩)
      · cases h
        exact ⟨rfl, rfl, (discovery_request_op hread).symm, hzero.symm⟩
      · cases h
  · by_cases hconf : is_discovery_configure_request request = true
    · by_cases hgranted : granted stream now timeout u.discovery_claim = true
      · -- the grant comes back as the answer to a read
        rw [if_neg hread, if_pos hconf, if_pos hgranted]
        refine iff_of_false (fun h => ?_) fun h => h.2 ⟨hconf, hgranted⟩
        have hop := (h _ (.inl rfl)).op
        rw [configure_request_op hconf] at hop
        cases hop
      · rw [if_neg hread, if_pos hconf, if_neg hgranted]
        exact iff_of_true (fun m => refusal_correlated) ⟨fun h => hread h.1, fun h => hgranted h.2⟩
    · rw [if_neg hread, if_neg hconf]
      refine iff_of_true ?_ ⟨fun h => hread h.1, fun h => hconf h.1⟩
      split_ifs with hbroadcast
      · exact fun m => refusal_correlated
      · intro m hm
        have hserved : AnswerTo request (exec (RcServer.handle_abb stream request) u.server).1 m := by
          rw [RcServer.handle_abb_spec]
          exact hm
        exact handle_abb_correlated hserved

/-- A discovery read with a number other than zero is answered under number zero. -/
theorem discovery_response_unnumbered :
    ¬ ∀ (u : UdpRcServer Heap Nat) (stream : StreamId) (now : Instant) (timeout : Duration) (request : AcfAbbMessage),
      ∀ m, AnswerTo request (exec (dispatch_request stream now timeout request) u).1 m → Correlated request m := by
  intro h
  have hbad := h (.new ⟨#v[2, 0, 0, 0, 0, 9], 9⟩ (.new {} [])) ⟨#v[2, 0, 0, 0, 0, 1], 1⟩ 0 DISCOVERY_TIME_OUT
    { info := { transaction_num := 7 }, payload := [0, 0] }
    { info := { rsp := true }, payload := GeneralRegisters.encode {} } (.inl (by decide +kernel))
  exact absurd hbad.transaction_num (by decide)

end UdpRcServer

/-! ## Kinds -/

/-- `received` is what the receiver of `response` decodes. -/
def Received (response received : AcfAbbMessage) : Prop :=
  ∃ b, encode_acf_abb response = .ok b ∧ decode_acf_abb b = .ok received

/-- The kind of a response that reports success. -/
def successKind (op : Bool) : ResponseKind := if op then .Write else .Read

theorem received_kind {response received : AcfAbbMessage} (h : Received response received) :
    received.info.response_kind = response.info.response_kind := by
  obtain ⟨b, henc, hdec⟩ := h
  rw [decode_acf_abb_encoded henc] at hdec
  cases hdec
  rfl

theorem kind_error_iff (info : ByteMessageInfo) :
    info.response_kind = .Error ↔ info.evt.raw_nibble ≠ EVT_RESPONSE_ACKNOWLEDGE ∧ info.err = true := by
  unfold ByteMessageInfo.response_kind
  split_ifs <;> simp_all

theorem kind_success_iff (info : ByteMessageInfo) :
    info.response_kind = successKind info.op ↔
      info.evt.raw_nibble ≠ EVT_RESPONSE_ACKNOWLEDGE ∧ info.err = false := by
  unfold ByteMessageInfo.response_kind successKind
  split_ifs <;> simp_all

/-- A response is taken for what it is exactly when the request's `evt` is not the acknowledge
marker and, for a success, the request's own error flag is clear. -/
theorem response_kind_iff {M : Type} (s : RcServer M) (stream : StreamId) (request : AcfAbbMessage) :
    (∀ e response received, build_error_response request.info e = some response → Received response received →
      (received.info.response_kind = .Error ↔ request.info.evt.raw_nibble ≠ EVT_RESPONSE_ACKNOWLEDGE)) ∧
    ∀ response received, (exec (RcServer.handle_abb stream request) s).1 = .ok response → Received response received →
      (received.info.response_kind = successKind request.info.op ↔
        request.info.evt.raw_nibble ≠ EVT_RESPONSE_ACKNOWLEDGE ∧ request.info.err = false) := by
  constructor
  · intro e response received hbuild hreceived
    rw [received_kind hreceived, kind_error_iff, (error_response_fields hbuild).1]
    exact and_iff_left rfl
  · intro response received hok hreceived
    have hinfo := RcServer.handle_abb_info s stream hok
    have hkind := kind_success_iff response.info
    rw [hinfo] at hkind
    rw [received_kind hreceived, hinfo]
    exact hkind

/-- A read of an endpoint that is not there, on a fresh server. -/
theorem response_kind_iff_missing :
    ({ info := { acf_msg_type := 0x0E, acf_msg_length := 3, pad := 3, byte_bus_id := 5, rsp := true, err := true },
        payload := [8] } : AcfAbbMessage).info.response_kind = .Error :=
  ((response_kind_iff (.new {} [] : RcServer Heap) ⟨#v[2, 0, 0, 0, 0, 1], 1⟩ { info := { byte_bus_id := 5 } }).1
    .EpNotFound { info := { byte_bus_id := 5, rsp := true, err := true }, payload := [8] } _ rfl
    ⟨[0x1C, 3, 0xC0, 5, 0, 0, 0x60, 0, 8, 0, 0, 0], by decide, by decide +kernel⟩).2 (by decide)

/-- The same read with the acknowledge marker as its `evt`: the error passes for an acknowledgement. -/
theorem error_taken_for_acknowledge :
    ¬ ∀ (s : RcServer Heap) (stream : StreamId) (request : AcfAbbMessage),
      (∀ e response received, (exec (RcServer.handle_abb stream request) s).1 = .error e →
        build_error_response request.info e = some response → Received response received →
          received.info.response_kind = .Error) ∧
      ∀ response received, (exec (RcServer.handle_abb stream request) s).1 = .ok response →
        Received response received → received.info.response_kind = successKind request.info.op := by
  intro h
  have hbad := (h (.new {} []) ⟨#v[2, 0, 0, 0, 0, 1], 1⟩
    { info := { byte_bus_id := 5, evt := { ack := true, sub_opcode := 7 } } }).1 .EpNotFound _
    { info := { acf_msg_type := 0x0E, acf_msg_length := 3, pad := 3, byte_bus_id := 5,
                evt := { ack := true, sub_opcode := 7 }, rsp := true, err := true }, payload := [8] }
    (by decide +kernel) rfl ⟨[0x1C, 3, 0xC0, 5, 0xF0, 0, 0x60, 0, 8, 0, 0, 0], by decide +kernel, by decide +kernel⟩
  exact absurd hbad (by decide)

end RustRcp
