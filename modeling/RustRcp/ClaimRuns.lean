import RustRcp.Response
import RustRcp.Lib.Lease
/-!
# Who holds the discovery stream

Configure requests compete for the discovery stream. To them the server is a lease:
`lease_refined` says a run of such requests does to the claim what it does to a lease,
and `claim_exclusion` draws from it who may configure when.
-/
open Stateful

namespace RustRcp

/-- A configure request, with the stream it comes under and the instant it is served at. -/
structure Attempt where
  stream : StreamId
  now : Instant
  request : AcfAbbMessage
  configure : is_discovery_configure_request request = true

/-- A claim as the grant of a lease. -/
def DiscoveryClaim.grant (claim : DiscoveryClaim) : Lease.Grant StreamId :=
  { holder := claim.claimant, since := claim.claimed_at }

def Attempt.grant (a : Attempt) : Lease.Grant StreamId := { holder := a.stream, since := a.now }

/-- The broadcast stream may never hold the discovery stream. -/
def MayClaim (stream : StreamId) : Prop := is_discovery_broadcast_stream_id stream = false

section Permits
variable (claim : Option DiscoveryClaim) (who : StreamId) (now : Instant) (timeout : Duration)

theorem permits_iff_open :
    claim_permits claim who now timeout = true ↔ Lease.Open timeout (claim.map DiscoveryClaim.grant) who now := by
  cases claim with
  | none => exact iff_of_true rfl (Lease.open_unheld timeout who now)
  | some c => simp [claim_permits, DiscoveryClaim.has_lapsed, Lease.Open, DiscoveryClaim.grant]

theorem granted_iff_open :
    UdpRcServer.granted who now timeout claim = true ↔
      MayClaim who ∧ Lease.Open timeout (claim.map DiscoveryClaim.grant) who now := by
  simp only [UdpRcServer.granted, Bool.and_eq_true, permits_iff_open, Bool.not_eq_true', MayClaim]

theorem granted_iff (a : Attempt) :
    UdpRcServer.granted a.stream a.now timeout claim = true ↔
      Lease.Granted MayClaim timeout (claim.map DiscoveryClaim.grant) a.grant :=
  granted_iff_open claim a.stream a.now timeout

instance (current : Option (Lease.Grant StreamId)) (a : Lease.Grant StreamId) :
    Decidable (Lease.Granted MayClaim timeout current a) :=
  inferInstanceAs (Decidable (is_discovery_broadcast_stream_id a.holder = false ∧
    ∀ g ∈ current, g.holder = a.holder ∨ timeout ≤ a.since - g.since))

/-- A configure request passes the check exactly when the claim is granted to it. -/
theorem checks_agree :
    (check_discovery_access claim who .Configure now timeout).isOk =
        (try_claim_discovery_stream claim who now timeout).isOk ∧
      (check_discovery_access claim who .Configure now timeout).isOk = UdpRcServer.granted who now timeout claim := by
  unfold check_discovery_access try_claim_discovery_stream UdpRcServer.granted
  by_cases hbroadcast : is_discovery_broadcast_stream_id who = true
  · simp [hbroadcast, Except.isOk, Except.toBool]
  · by_cases hpermits : claim_permits claim who now timeout = true
    · simp [hbroadcast, hpermits, Except.isOk, Except.toBool]
    · simp [hbroadcast, hpermits, Except.isOk, Except.toBool]

/-- Who may configure: anyone but the broadcast stream to whom the lease is open. -/
theorem configure_permitted_iff :
    (check_discovery_access claim who .Configure now timeout).isOk = true ↔
      MayClaim who ∧ Lease.Open timeout (claim.map DiscoveryClaim.grant) who now := by
  rw [(checks_agree claim who now timeout).2, granted_iff_open]

end Permits

namespace UdpRcServer
variable {M Peer : Type} (timeout : Duration)

/-! ## Runs of attempts -/

/-- The server once an attempt is served. -/
def attempted (u : UdpRcServer M Peer) (a : Attempt) : UdpRcServer M Peer :=
  (exec (dispatch_request a.stream a.now timeout a.request) u).2

/-- Whether an attempt is answered without an error. -/
def succeeds (u : UdpRcServer M Peer) (a : Attempt) : Bool :=
  (exec (dispatch_request a.stream a.now timeout a.request) u).1.isOk

/-- The attempts of a run that succeed. -/
def successes : UdpRcServer M Peer → List Attempt → List Attempt
  | _, [] => []
  | u, a :: rest => if succeeds timeout u a then a :: successes (attempted timeout u a) rest
    else successes (attempted timeout u a) rest

theorem attempt_spec (u : UdpRcServer M Peer) (a : Attempt) :
    succeeds timeout u a = granted a.stream a.now timeout u.discovery_claim ∧
      attempted timeout u a = if granted a.stream a.now timeout u.discovery_claim then
        { u with discovery_claim := some { claimant := a.stream, claimed_at := a.now } } else u := by
  unfold succeeds attempted
  rw [dispatch_spec, if_neg (by rw [not_discovery_of_configure a.configure]; exact Bool.false_ne_true),
    if_pos a.configure]
  by_cases h : granted a.stream a.now timeout u.discovery_claim = true
  · simp [h, Except.isOk, Except.toBool]
  · simp [h, Except.isOk, Except.toBool]

/-- An attempt does to the claim what it does to a lease. -/
theorem attempted_lease (u : UdpRcServer M Peer) (a : Attempt) :
    (attempted timeout u a).discovery_claim.map DiscoveryClaim.grant =
      Lease.attempt MayClaim timeout (u.discovery_claim.map DiscoveryClaim.grant) a.grant := by
  rw [(attempt_spec timeout u a).2]
  unfold Lease.attempt
  by_cases h : granted a.stream a.now timeout u.discovery_claim = true
  · rw [if_pos h, if_pos ((granted_iff _ timeout a).1 h)]
    rfl
  · rw [if_neg h, if_neg (mt (granted_iff _ timeout a).2 h)]

/-- So does a run, and the same attempts succeed. -/
theorem lease_refined (u : UdpRcServer M Peer) (as : List Attempt) :
    (as.foldl (attempted timeout) u).discovery_claim.map DiscoveryClaim.grant =
        (as.map Attempt.grant).foldl (Lease.attempt MayClaim timeout) (u.discovery_claim.map DiscoveryClaim.grant) ∧
      (successes timeout u as).map Attempt.grant =
        Lease.grants MayClaim timeout (u.discovery_claim.map DiscoveryClaim.grant) (as.map Attempt.grant) := by
  induction as generalizing u with
  | nil => exact ⟨rfl, rfl⟩
  | cons a rest ih =>
    obtain ⟨hclaim, hgrants⟩ := ih (attempted timeout u a)
    rw [attempted_lease] at hclaim hgrants
    refine ⟨hclaim, ?_⟩
    rw [List.map_cons, Lease.grants, successes, (attempt_spec timeout u a).1]
    by_cases h : granted a.stream a.now timeout u.discovery_claim = true
    · rw [if_pos h, if_pos ((granted_iff _ timeout a).1 h), List.map_cons, hgrants, Lease.attempt,
        if_pos ((granted_iff _ timeout a).1 h)]
    · rw [if_neg h, if_neg (mt (granted_iff _ timeout a).2 h), hgrants, Lease.attempt,
        if_neg (mt (granted_iff _ timeout a).2 h)]

/-! ## Exclusion -/

/-- What `now` finds when `last` is the last attempt that succeeded. -/
structure Exclusive (u : UdpRcServer M Peer) (last : Option Attempt) (now : Instant) : Prop where
  held : u.discovery_claim = last.map fun h => { claimant := h.stream, claimed_at := h.now }
  live : ∀ h ∈ last, now < h.now + timeout → ∀ who,
    (check_discovery_access u.discovery_claim who .Configure now timeout).isOk = true ↔ who = h.stream
  lapsed : (∀ h ∈ last, h.now + timeout ≤ now) → ∀ who,
    (check_discovery_access u.discovery_claim who .Configure now timeout).isOk = true ↔
      is_discovery_broadcast_stream_id who = false
  taken : ∀ a : Attempt, a.now = now → succeeds timeout u a = true →
    ∀ h ∈ last, a.stream ≠ h.stream → h.now + timeout ≤ now
  refused : ∀ a : Attempt, succeeds timeout u a = false → attempted timeout u a = u
  named : ∀ h ∈ last, is_discovery_broadcast_stream_id h.stream = false
  checked : ∀ who, (check_discovery_access u.discovery_claim who .Configure now timeout).isOk =
    (try_claim_discovery_stream u.discovery_claim who now timeout).isOk

theorem claim_of_grant {claim : Option DiscoveryClaim} {last : Option Attempt}
    (h : claim.map DiscoveryClaim.grant = last.map Attempt.grant) :
    claim = last.map fun a => { claimant := a.stream, claimed_at := a.now } := by
  cases claim <;> cases last <;> simp_all [DiscoveryClaim.grant, Attempt.grant]
  rename_i c a
  cases c
  simp_all

/-- After any run of attempts, at any instant none of them comes after: while the last success
is fresh its stream alone may configure, and otherwise every stream but the broadcast stream. -/
theorem claim_exclusion (local_stream : StreamId) (server : RcServer M) (as : List Attempt) (now : Instant)
    (hnow : ∀ a ∈ as, a.now ≤ now) :
    Exclusive timeout (as.foldl (attempted timeout) (.new local_stream server : UdpRcServer M Peer))
      (successes timeout (.new local_stream server : UdpRcServer M Peer) as).getLast? now := by
  obtain ⟨hclaim, hgrants⟩ := lease_refined timeout (.new local_stream server : UdpRcServer M Peer) as
  generalize as.foldl (attempted timeout) (.new local_stream server : UdpRcServer M Peer) = u at hclaim ⊢
  generalize hlast : (successes timeout (.new local_stream server : UdpRcServer M Peer) as).getLast? = last
  -- the claim is the lease, and that belongs to the last success
  have hheld : u.discovery_claim.map DiscoveryClaim.grant = last.map Attempt.grant := by
    rw [hclaim, Lease.held_by_last, ← hgrants, List.getLast?_map, hlast]
    exact Option.or_none
  have hgranted : ∀ h ∈ last, h.grant ∈ Lease.grants MayClaim timeout none (as.map Attempt.grant) := by
    intro h hh
    have hsuccess : h ∈ successes timeout (.new local_stream server : UdpRcServer M Peer) as :=
      List.mem_of_getLast? (hlast.trans hh)
    exact hgrants ▸ List.mem_map_of_mem hsuccess
  have hnamed : ∀ h ∈ last, MayClaim h.stream :=
    fun h hh => (Lease.mem_grants MayClaim timeout (hgranted h hh)).2
  have hbefore : ∀ h ∈ last, h.now ≤ now := by
    intro h hh
    obtain ⟨a, ha, hag⟩ := List.mem_map.1 (Lease.mem_grants MayClaim timeout (hgranted h hh)).1
    rw [← (Lease.Grant.mk.inj hag).2]
    exact hnow a ha
  constructor
  · exact claim_of_grant hheld
  · rintro h rfl hfresh who
    have hfresh' : now - h.now < timeout := Nat.sub_lt_left_of_lt_add (hbefore h rfl) hfresh
    rw [configure_permitted_iff, hheld]
    refine (and_congr_right fun _ => Lease.only_holder (g := h.grant) hfresh' who).trans (and_iff_right_of_imp ?_)
    rintro rfl
    exact hnamed h rfl
  · intro hout who
    rw [configure_permitted_iff, hheld]
    refine and_iff_left ?_
    cases last with
    | none => exact Lease.open_unheld timeout who now
    | some h => exact Lease.open_lapsed (hout h rfl) who
  · -- another stream is granted the claim only where the lease has lapsed
    rintro a rfl hok h rfl hne
    rw [(attempt_spec timeout u a).1, granted_iff, hheld] at hok
    exact Lease.lapsed_of_granted MayClaim hok hne (hbefore h rfl)
  · intro a hno
    obtain ⟨hsucceeds, hstate⟩ := attempt_spec timeout u a
    rw [hstate, if_neg]
    rw [← hsucceeds, hno]
    exact Bool.false_ne_true
  · exact hnamed
  · intro who
    exact (checks_agree u.discovery_claim who now timeout).1

/-- Two attempts, the second of them within the timeout of the first. -/
theorem claim_exclusion_two :
    Exclusive DISCOVERY_TIME_OUT
      (([⟨⟨#v[2, 0, 0, 0, 0, 1], 1⟩, 5, { info := { op := true }, payload := [0, 0] }, by decide⟩,
        ⟨⟨#v[2, 0, 0, 0, 0, 2], 2⟩, 9, { info := { op := true }, payload := [0, 0] }, by decide⟩] : List Attempt).foldl
          (attempted DISCOVERY_TIME_OUT) (.new ⟨#v[2, 0, 0, 0, 0, 9], 9⟩ (.new {} []) : UdpRcServer Heap Nat))
      (successes DISCOVERY_TIME_OUT (.new ⟨#v[2, 0, 0, 0, 0, 9], 9⟩ (.new {} []) : UdpRcServer Heap Nat)
        [⟨⟨#v[2, 0, 0, 0, 0, 1], 1⟩, 5, { info := { op := true }, payload := [0, 0] }, by decide⟩,
        ⟨⟨#v[2, 0, 0, 0, 0, 2], 2⟩, 9, { info := { op := true }, payload := [0, 0] }, by decide⟩]).getLast? 9 :=
  claim_exclusion DISCOVERY_TIME_OUT ⟨#v[2, 0, 0, 0, 0, 9], 9⟩ (.new {} []) _ 9 (by decide)

/-- On a fresh server two streams are permitted at once. -/
theorem unclaimed_permits_two :
    ¬ ∀ (timeout : Duration) (local_stream : StreamId) (server : RcServer Heap) (as : List Attempt) (now : Instant),
      (∀ a ∈ as, a.now ≤ now) → ∀ who who',
      (check_discovery_access (as.foldl (attempted timeout)
        (.new local_stream server : UdpRcServer Heap Nat)).discovery_claim who .Configure now timeout).isOk = true →
      (check_discovery_access (as.foldl (attempted timeout)
        (.new local_stream server : UdpRcServer Heap Nat)).discovery_claim who' .Configure now timeout).isOk = true →
      who = who' := by
  intro h
  have hsame := h DISCOVERY_TIME_OUT ⟨#v[2, 0, 0, 0, 0, 9], 9⟩ (.new {} []) [] 0 (by simp) ⟨#v[2, 0, 0, 0, 0, 1], 1⟩
    ⟨#v[2, 0, 0, 0, 0, 2], 2⟩ (by decide +kernel) (by decide +kernel)
  exact absurd (congrArg StreamId.unique_id hsame) (by decide)

end UdpRcServer

end RustRcp
