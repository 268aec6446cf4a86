import RustRcp.Discovery
import RustRcp.Lib.Since
import RustRcp.Lib.Objects
import RustRcp.Lib.Stateful
import Mathlib.Data.List.AList
/-!
# What has been discovered

The cache of servers a client has heard of (`src/discovery.rs`), the router that finds the
cache of a vehicle by its name (`src/federation.rs`), and the server that reports on one of
them (`src/admin.rs`). Caches are shared: a `CacheRef` is the `Arc`, and any number of
vehicles may have the same one. Each cache has a lock, and the router's table has one.
-/
open Stateful Threads Stages Objects

namespace RustRcp

/-! ## A cache -/

structure DiscoveryCacheEntry where
  svr_oa_tc18_magic_nr : UInt32
  svr_version : UInt32
  svr_vendor_id : UInt16
  svr_device_id : UInt16
  svr_ep_count : UInt16
  cached_at : Instant
  deriving DecidableEq, Repr

namespace DiscoveryCacheEntry

def from_general_registers (general : GeneralRegisters) (cached_at : Instant) : DiscoveryCacheEntry where
  svr_oa_tc18_magic_nr := general.svr_oa_tc18_magic_nr
  svr_version := general.svr_version
  svr_vendor_id := general.svr_vendor_id
  svr_device_id := general.svr_device_id
  svr_ep_count := general.svr_ep_count
  cached_at

/-- `saturating_duration_since`: an earlier `now` counts as no time at all. -/
def is_stale (self : DiscoveryCacheEntry) (now : Instant) (max_age : Duration) : Bool :=
  decide (now - self.cached_at ≥ max_age)

def «matches» (self : DiscoveryCacheEntry) (general : GeneralRegisters) : Bool :=
  self.svr_oa_tc18_magic_nr == general.svr_oa_tc18_magic_nr && self.svr_version == general.svr_version &&
    self.svr_vendor_id == general.svr_vendor_id && self.svr_device_id == general.svr_device_id &&
    self.svr_ep_count == general.svr_ep_count

end DiscoveryCacheEntry

structure DiscoveryCache where
  entries : AList fun _ : StreamId => DiscoveryCacheEntry := ∅

namespace DiscoveryCache

def new : DiscoveryCache := {}

def remember (stream_id : StreamId) (general : GeneralRegisters) (now : Instant) :
    Stateful RcpError DiscoveryCache Unit := do
  if is_discovery_broadcast_stream_id stream_id then throw .InvalidParameter
  modify fun self =>
    { self with entries := self.entries.insert stream_id (.from_general_registers general now) }

def lookup (self : DiscoveryCache) (stream_id : StreamId) : Option DiscoveryCacheEntry := self.entries.lookup stream_id

def is_known (self : DiscoveryCache) (stream_id : StreamId) (now : Instant) (max_age : Duration) : Bool :=
  (self.entries.lookup stream_id).any fun entry => !entry.is_stale now max_age

/-- Whether there was an entry to take out. -/
def invalidate (self : DiscoveryCache) (stream_id : StreamId) : Bool × DiscoveryCache :=
  ((self.entries.lookup stream_id).isSome, { self with entries := self.entries.erase stream_id })

theorem remember_spec (stream_id : StreamId) (general : GeneralRegisters) (now : Instant) (self : DiscoveryCache) :
    exec (remember stream_id general now) self =
      if is_discovery_broadcast_stream_id stream_id then (.error .InvalidParameter, self)
      else (.ok (), ⟨self.entries.insert stream_id (.from_general_registers general now)⟩) := by
  unfold remember
  split <;> simp

def len (self : DiscoveryCache) : Nat := self.entries.entries.length

def is_empty (self : DiscoveryCache) : Bool := self.len == 0

end DiscoveryCache

/-! ## The router and the admin server -/

abbrev CacheRef := Nat

structure FederationRouter where
  peers : AList fun _ : String => CacheRef := ∅

namespace FederationRouter

def new : FederationRouter := {}

def add_peer (self : FederationRouter) (vehicle_id : String) (cache : CacheRef) : FederationRouter :=
  { self with peers := self.peers.insert vehicle_id cache }

def remove_peer (self : FederationRouter) (vehicle_id : String) : Option CacheRef × FederationRouter :=
  (self.peers.lookup vehicle_id, { self with peers := self.peers.erase vehicle_id })

def peer_ids (self : FederationRouter) : List String := self.peers.keys

/-- The table is let go of before the cache is asked. -/
def lookup_peer (self : FederationRouter) (caches : CacheRef → DiscoveryCache) (vehicle_id : String)
    (stream_id : StreamId) : Except RcpError DiscoveryCacheEntry := do
  let cache ← ok_or (self.peers.lookup vehicle_id) .NotFound
  ok_or ((caches cache).lookup stream_id) .NotFound

end FederationRouter

structure AdminServer where
  cache : CacheRef
  req_count : UInt64 := 0
  shutdown : Bool := false
  deriving DecidableEq, Repr

namespace AdminServer

def new (cache : CacheRef) : AdminServer := { cache }

def record_request (self : AdminServer) : AdminServer := { self with req_count := self.req_count + 1 }

def is_healthy (self : AdminServer) (caches : CacheRef → DiscoveryCache) : Bool := !(caches self.cache).is_empty

def is_peer_healthy (self : AdminServer) (caches : CacheRef → DiscoveryCache) (stream_id : StreamId) (now : Instant)
    (max_age : Duration) : Bool := (caches self.cache).is_known stream_id now max_age

def peer_count (self : AdminServer) (caches : CacheRef → DiscoveryCache) : Nat := (caches self.cache).len

/-- The flag goes up before the cache is asked, whether or not the peer is known. -/
def shutdown_peer (self : AdminServer) (caches : CacheRef → DiscoveryCache) (stream_id : StreamId) :
    AdminServer × (CacheRef → DiscoveryCache) :=
  ({ self with shutdown := true },
    Function.update caches self.cache ((caches self.cache).invalidate stream_id).2)

end AdminServer

/-! ## Calls side by side -/

/-- The router, every cache, and an admin server. -/
structure Federation where
  router : FederationRouter := .new
  caches : CacheRef → DiscoveryCache := fun _ => .new
  admin : AdminServer

namespace Federation

inductive Job where
  | add_peer (vehicle_id : String) (cache : CacheRef)
  | remove_peer (vehicle_id : String)
  | peer_ids
  | lookup_peer (vehicle_id : String) (stream_id : StreamId)
  | remember (cache : CacheRef) (stream_id : StreamId) (general : GeneralRegisters) (now : Instant)
  | invalidate (cache : CacheRef) (stream_id : StreamId)
  | record_request
  | is_healthy
  | is_peer_healthy (stream_id : StreamId) (now : Instant) (max_age : Duration)
  | peer_count
  | shutdown_peer (stream_id : StreamId)

inductive Answer where
  | done
  | removed (cache : Option CacheRef)
  | ids (vehicle_ids : List String)
  | entry (entry : DiscoveryCacheEntry)
  | held (held : Bool)
  | count (count : Nat)

/-- Either of them, on its own. -/
def perform (self : Federation) : Job → Except RcpError Answer × Federation
  | .add_peer vehicle_id cache => (.ok .done, { self with router := self.router.add_peer vehicle_id cache })
  | .remove_peer vehicle_id =>
    let (cache, router) := self.router.remove_peer vehicle_id
    (.ok (.removed cache), { self with router })
  | .peer_ids => (.ok (.ids self.router.peer_ids), self)
  | .lookup_peer vehicle_id stream_id => (.entry <$> self.router.lookup_peer self.caches vehicle_id stream_id, self)
  | .remember cache stream_id general now =>
    let (result, remembered) := exec (DiscoveryCache.remember stream_id general now) (self.caches cache)
    ((fun _ => .done) <$> result, { self with caches := Function.update self.caches cache remembered })
  | .invalidate cache stream_id =>
    let (held, invalidated) := (self.caches cache).invalidate stream_id
    (.ok (.held held), { self with caches := Function.update self.caches cache invalidated })
  | .record_request => (.ok .done, { self with admin := self.admin.record_request })
  | .is_healthy => (.ok (.held (self.admin.is_healthy self.caches)), self)
  | .is_peer_healthy stream_id now max_age =>
    (.ok (.held (self.admin.is_peer_healthy self.caches stream_id now max_age)), self)
  | .peer_count => (.ok (.count (self.admin.peer_count self.caches)), self)
  | .shutdown_peer stream_id =>
    let (admin, caches) := self.admin.shutdown_peer self.caches stream_id
    (.ok .done, { self with admin, caches })

/-- A call that has found the cache it is to ask waits for that cache's lock. -/
inductive Phase where
  | idle
  | found (cache : CacheRef)
  | returned (result : Except RcpError Answer)

/-- The lock of the router's table, of each cache, and the admin server's two atomics. -/
inductive Stage where
  | table
  | cache (cache : CacheRef)
  | count
  | flag
  deriving DecidableEq

/-- What a job does under the lock of the table. -/
def Job.route (job : Job) (router : FederationRouter) : Phase × FederationRouter :=
  match job with
  | .add_peer vehicle_id cache => (.returned (.ok .done), router.add_peer vehicle_id cache)
  | .remove_peer vehicle_id =>
    let (cache, router) := router.remove_peer vehicle_id
    (.returned (.ok (.removed cache)), router)
  | .peer_ids => (.returned (.ok (.ids router.peer_ids)), router)
  | .lookup_peer vehicle_id _ => (match router.peers.lookup vehicle_id with
      | some cache => .found cache
      | none => .returned (.error .NotFound), router)
  | _ => (.idle, router)

/-- What it does under the lock of a cache. -/
def Job.visit (job : Job) (cache : DiscoveryCache) : Except RcpError Answer × DiscoveryCache :=
  match job with
  | .lookup_peer _ stream_id => (.entry <$> ok_or (cache.lookup stream_id) .NotFound, cache)
  | .remember _ stream_id general now =>
    let (result, remembered) := exec (DiscoveryCache.remember stream_id general now) cache
    ((fun _ => .done) <$> result, remembered)
  | .invalidate _ stream_id =>
    let (held, invalidated) := cache.invalidate stream_id
    (.ok (.held held), invalidated)
  | .is_healthy => (.ok (.held (!cache.is_empty)), cache)
  | .is_peer_healthy stream_id now max_age => (.ok (.held (cache.is_known stream_id now max_age)), cache)
  | .peer_count => (.ok (.count cache.len), cache)
  | .shutdown_peer stream_id => (.ok .done, (cache.invalidate stream_id).2)
  | _ => (.ok .done, cache)

/-- What is under a lock, or is an atomic. -/
abbrev Stage.Part : Stage → Type
  | .table => FederationRouter
  | .cache _ => DiscoveryCache
  | .count => UInt64
  | .flag => Bool

def part : ∀ stage : Stage, Federation → stage.Part
  | .table, self => self.router
  | .cache cache, self => self.caches cache
  | .count, self => self.admin.req_count
  | .flag, self => self.admin.shutdown

def store (self : Federation) : ∀ stage : Stage, stage.Part → Federation
  | .table, router => { self with router }
  | .cache cache, held => { self with caches := Function.update self.caches cache held }
  | .count, req_count => { self with admin := { self.admin with req_count } }
  | .flag, shutdown => { self with admin := { self.admin with shutdown } }

variable {ι : Type} (jobs : ι → Job) (admin_cache : CacheRef)

/-- What a call does at a stage: its next phase, and what it leaves there. -/
def op : ∀ stage : Stage, ι → stage.Part → Phase × stage.Part
  | .table, i, router => (jobs i).route router
  | .cache _, i, held => let (result, held) := (jobs i).visit held; (.returned result, held)
  | .count, _, req_count =>
    (.returned (.ok .done), (AdminServer.record_request ⟨admin_cache, req_count, false⟩).req_count)
  | .flag, _, _ => (.found admin_cache, true)

/-- Which stage a call comes past next. -/
def stage (i : ι) (phase : Phase) : Option Stage :=
  match jobs i, phase with
  | .add_peer .., .idle | .remove_peer _, .idle | .peer_ids, .idle | .lookup_peer .., .idle => some .table
  | .remember cache _ _ _, .idle | .invalidate cache _, .idle => some (.cache cache)
  | .is_healthy, .idle | .is_peer_healthy _ _ _, .idle | .peer_count, .idle => some (.cache admin_cache)
  | .record_request, .idle => some .count
  | .shutdown_peer _, .idle => some .flag
  | .lookup_peer .., .found cache | .shutdown_peer _, .found cache => some (.cache cache)
  | _, _ => none

def move : Move ι Federation Phase := fun i self phase =>
  (stage jobs admin_cache i phase).map fun stage =>
    let (next, left) := op jobs admin_cache stage i (part stage self)
    (self.store stage left, next)

def seen : ι → Federation → Phase → Option (Stage × ι) := fun i _ phase => (stage jobs admin_cache i phase).map (·, i)

/-- A call that is left alone does what its method does. -/
theorem turns_alone [DecidableEq ι] {race : Race ι Federation Phase} {i : ι} (hidle : race.phase i = .idle)
    (hadmin : race.shared.admin.cache = admin_cache) :
    run (move jobs admin_cache) race (List.replicate 2 i) =
      ⟨(race.shared.perform (jobs i)).2,
        Function.update race.phase i (.returned (race.shared.perform (jobs i)).1)⟩ := by
  subst hadmin
  rw [run_replicate (race.shared, .idle) hidle]
  cases hjob : jobs i with
  | lookup_peer vehicle_id stream_id =>
    cases hlookup : race.shared.router.peers.lookup vehicle_id with
    | none =>
      simp [alone, move, stage, op, part, store, hjob, Job.route, hlookup, perform, FederationRouter.lookup_peer, ok_or]
      rfl
    | some cache =>
      simp [alone, move, stage, op, part, store, hjob, Job.route, Job.visit, hlookup, perform,
        FederationRouter.lookup_peer, ok_or]
      rfl
  | _ =>
    simp [alone, move, stage, op, part, store, hjob, Job.route, Job.visit, perform, AdminServer.record_request,
      AdminServer.is_healthy, AdminServer.is_peer_healthy, AdminServer.peer_count, AdminServer.shutdown_peer]

theorem passing : Passing part (op jobs admin_cache) (stage jobs admin_cache) (move jobs admin_cache)
    (seen jobs admin_cache) where
  waits i s phase h := by simp [move, seen, h]
  passes i s phase k h := by
    refine ⟨s.store k (op jobs admin_cache k i (part k s)).2, by simp [move, h], by simp [seen, h], ?_, ?_⟩
    · cases k with
      | cache cache => exact Function.update_self ..
      | table | count | flag => rfl
    · intro k' hne
      cases k with
      | cache cache =>
        cases k' with
        | cache cache' => exact Function.update_of_ne (fun heq => hne (congrArg _ heq)) ..
        | table | count | flag => rfl
      | table | count | flag => cases k' <;> first | rfl | exact absurd rfl hne

variable {jobs admin_cache} {i : ι} {k : Stage} {phase : Phase} {way : List Stage}

theorem stage_found {cache : CacheRef} (h : stage jobs admin_cache i (.found cache) = some k) : k = .cache cache := by
  unfold stage at h
  cases hjob : jobs i <;> rw [hjob] at h <;> cases h <;> rfl

theorem stage_returned {result : Except RcpError Answer} : stage jobs admin_cache i (.returned result) = none := by
  unfold stage
  cases jobs i <;> rfl

/-- A call that comes past its first stage has found a cache, or returns. -/
theorem op_first (h : stage jobs admin_cache i .idle = some k) (s : k.Part) :
    ((k = .table ∨ k = .flag) ∧ ∃ cache, (op jobs admin_cache k i s).1 = .found cache) ∨
      ∃ result, (op jobs admin_cache k i s).1 = .returned result := by
  unfold stage at h
  cases hjob : jobs i <;> rw [hjob] at h <;> cases h
  case lookup_peer vehicle_id stream_id =>
    simp only [op, Job.route, hjob]
    cases AList.lookup vehicle_id s.peers with
    | none => exact .inr ⟨_, rfl⟩
    | some cache => exact .inl ⟨.inl trivial, cache, rfl⟩
  case shutdown_peer stream_id => exact .inl ⟨.inr rfl, admin_cache, rfl⟩
  all_goals
    simp only [op, Job.route, hjob]
    exact .inr ⟨_, rfl⟩

/-- A call comes to one lock or atomic, or to the table or the flag and then to the lock of a cache. -/
theorem canPass_cases (h : CanPass (op jobs admin_cache) (stage jobs admin_cache) .idle i way phase) :
    (way = [] ∧ phase = .idle) ∨ (∃ cache, (way = [.table] ∨ way = [.flag]) ∧ phase = .found cache) ∨
      ∃ result, phase = .returned result := by
  induction h with
  | begins => exact .inl ⟨rfl, rfl⟩
  | passes h hstage s ih =>
    rcases ih with ⟨rfl, rfl⟩ | ⟨cache, hway, rfl⟩ | ⟨result, rfl⟩
    · rcases op_first hstage s with ⟨hk, cache, hfound⟩ | ⟨result, hreturned⟩
      · refine .inr (.inl ⟨cache, ?_, hfound⟩)
        rcases hk with rfl | rfl
        · exact .inl rfl
        · exact .inr rfl
      · exact .inr (.inr ⟨result, hreturned⟩)
    · obtain rfl := stage_found hstage
      exact .inr (.inr ⟨_, rfl⟩)
    · rw [stage_returned] at hstage
      cases hstage

theorem once : Once (op jobs admin_cache) (stage jobs admin_cache) .idle := by
  intro i way phase k h hstage
  rcases canPass_cases h with ⟨rfl, rfl⟩ | ⟨cache, hway, rfl⟩ | ⟨result, rfl⟩
  · exact List.not_mem_nil
  · obtain rfl := stage_found hstage
    rcases hway with rfl | rfl <;> simp
  · rw [stage_returned] at hstage
    cases hstage

/-! ## What is on record -/

namespace Job

/-- The job changes what a name stands for. -/
def Renames (vehicle_id : String) : Job → Prop
  | .add_peer renamed _ | .remove_peer renamed => renamed = vehicle_id
  | _ => False

/-- The job puts an entry into the cache it comes to. The stream that stands for everyone is never put in. -/
def Remembers (stream_id : StreamId) (entry : DiscoveryCacheEntry) : Job → Prop
  | .remember _ remembered general now => remembered = stream_id ∧
    is_discovery_broadcast_stream_id stream_id = false ∧ entry = .from_general_registers general now
  | _ => False

def Forgets (stream_id : StreamId) : Job → Prop
  | .invalidate _ forgotten | .shutdown_peer forgotten => forgotten = stream_id
  | _ => False

/-- The job changes what the cache it comes to has for a stream. -/
def Touches (stream_id : StreamId) (job : Job) : Prop := job.Forgets stream_id ∨ ∃ entry, job.Remembers stream_id entry

theorem lookup_route (job : Job) (router : FederationRouter) (vehicle_id : String) (cache : CacheRef) :
    (job.route router).2.peers.lookup vehicle_id = some cache ↔
      job = .add_peer vehicle_id cache ∨ (¬ job.Renames vehicle_id ∧ router.peers.lookup vehicle_id = some cache) := by
  cases job with
  | add_peer renamed cache' =>
    simp only [route, FederationRouter.add_peer, Renames, add_peer.injEq]
    by_cases h : renamed = vehicle_id
    · subst h
      simp [AList.lookup_insert]
    · simp [AList.lookup_insert_ne (Ne.symm h), h]
  | remove_peer renamed =>
    simp only [route, FederationRouter.remove_peer, Renames]
    by_cases h : renamed = vehicle_id
    · subst h
      simp [AList.lookup_erase]
    · simp [AList.lookup_erase_ne (Ne.symm h), h]
  | _ => simp [route, Renames]

theorem lookup_visit (job : Job) (cache : DiscoveryCache) (stream_id : StreamId) (entry : DiscoveryCacheEntry) :
    (job.visit cache).2.lookup stream_id = some entry ↔
      job.Remembers stream_id entry ∨ (¬ job.Touches stream_id ∧ cache.lookup stream_id = some entry) := by
  have hforget (forgotten : StreamId) : (cache.invalidate forgotten).2.lookup stream_id = some entry ↔
      forgotten ≠ stream_id ∧ cache.lookup stream_id = some entry := by
    rw [DiscoveryCache.invalidate, DiscoveryCache.lookup, DiscoveryCache.lookup]
    by_cases h : forgotten = stream_id
    · subst h
      simp [AList.lookup_erase]
    · simp [AList.lookup_erase_ne (Ne.symm h), h]
  cases job with
  | invalidate cache' forgotten | shutdown_peer forgotten => simp [visit, hforget, Remembers, Touches, Forgets]
  | remember cache' remembered general now =>
    simp only [visit, DiscoveryCache.remember_spec, Remembers, Touches, Forgets, false_or, DiscoveryCache.lookup]
    by_cases h : remembered = stream_id
    · subst h
      cases is_discovery_broadcast_stream_id remembered <;> simp [AList.lookup_insert, eq_comm]
    · cases is_discovery_broadcast_stream_id remembered <;> simp [AList.lookup_insert_ne (Ne.symm h), h]
  | _ => simp [visit, Remembers, Touches, Forgets]

end Job

section
variable (jobs)

/-- The name has been given to the cache, and not given or taken back since. -/
def Named (vehicle_id : String) (cache : CacheRef) : List ι → Prop :=
  Since (fun _ i => jobs i = .add_peer vehicle_id cache) fun i => ¬ (jobs i).Renames vehicle_id

/-- The entry has been put in, and not replaced or taken out since. -/
def Cached (stream_id : StreamId) (entry : DiscoveryCacheEntry) : List ι → Prop :=
  Since (fun _ i => (jobs i).Remembers stream_id entry) fun i => ¬ (jobs i).Touches stream_id

variable (admin_cache)

theorem lookup_after_table (vehicle_id : String) (cache : CacheRef) (order : List ι) :
    (after (op jobs admin_cache .table) FederationRouter.new order).peers.lookup vehicle_id = some cache ↔
      Named jobs vehicle_id cache order := by
  apply past_run (I := fun order (router : FederationRouter) => router.peers.lookup vehicle_id = some cache ↔
    Named jobs vehicle_id cache order)
  · simp [Named, FederationRouter.new]
  · intro order router i ih
    rw [Named, since_concat, ← Named, ← ih]
    exact Job.lookup_route ..

theorem lookup_after_cache (stream_id : StreamId) (entry : DiscoveryCacheEntry) (cache : CacheRef) (order : List ι) :
    (after (op jobs admin_cache (.cache cache)) DiscoveryCache.new order).lookup stream_id = some entry ↔
      Cached jobs stream_id entry order := by
  apply past_run (I := fun order (held : DiscoveryCache) => held.lookup stream_id = some entry ↔
    Cached jobs stream_id entry order)
  · simp [Cached, DiscoveryCache.new, DiscoveryCache.lookup]
  · intro order held i ih
    rw [Cached, since_concat, ← Cached, ← ih]
    exact Job.lookup_visit ..

end

/-! ## Every schedule -/

section
variable (jobs : ι → Job) (admin_cache : CacheRef)

/-- No vehicle is known and nothing cached. -/
def start : Federation := { admin := .new admin_cache }

theorem after_count (order : List ι) :
    after (op jobs admin_cache .count) (0 : UInt64) order = UInt64.ofNat order.length := by
  induction order using List.reverseRecOn with
  | nil => rfl
  | append_singleton order i ih =>
    rw [after_concat, ih, List.length_append, UInt64.ofNat_add]
    rfl

variable [DecidableEq ι] (log : List (Stage × ι)) (i : ι)

/-- What a call is told at a stage. -/
abbrev toldAt (stage : Stage) : Phase := answer part (op jobs admin_cache) (start admin_cache) log i stage

/-- Those that come past a stage before a call does. -/
abbrev ahead (stage : Stage) : List ι := upTo i (passed stage log)

/-- A call is told its result at its first stage, or at the cache that it finds there. -/
def ToldResult (result : Except RcpError Answer) : Prop :=
  ∃ k, stage jobs admin_cache i .idle = some k ∧ (toldAt jobs admin_cache log i k = .returned result ∨
    ∃ cache, toldAt jobs admin_cache log i k = .found cache ∧
      toldAt jobs admin_cache log i (.cache cache) = .returned result)

variable {jobs admin_cache log i} in
theorem way_cases (h : Way part (op jobs admin_cache) (stage jobs admin_cache) (start admin_cache) .idle log i
    way phase) : phase = .idle ∨
    (∃ k cache, stage jobs admin_cache i .idle = some k ∧ toldAt jobs admin_cache log i k = .found cache ∧
      phase = .found cache) ∨
    ∃ result, ToldResult jobs admin_cache log i result ∧ phase = .returned result := by
  induction h with
  | begins => exact .inl rfl
  | @passes way phase k h hstage ih =>
    rcases ih with rfl | ⟨k', cache, hfirst, hfound, rfl⟩ | ⟨result, htold, rfl⟩
    · rcases op_first hstage (after (op jobs admin_cache k) (part k (start admin_cache)) (ahead log i k)) with
        ⟨-, cache, hfound⟩ | ⟨result, hreturned⟩
      · exact .inr (.inl ⟨k, cache, hstage, hfound, hfound⟩)
      · exact .inr (.inr ⟨result, ⟨k, hstage, .inl hreturned⟩, hreturned⟩)
    · obtain rfl := stage_found hstage
      exact .inr (.inr ⟨_, ⟨k', hfirst, .inr ⟨cache, hfound, rfl⟩⟩, rfl⟩)
    · rw [stage_returned] at hstage
      cases hstage

/-- What every schedule keeps to. -/
structure Settled (race : Race ι Federation Phase) : Prop where
  names : ∀ vehicle_id cache, race.shared.router.peers.lookup vehicle_id = some cache ↔
    Named jobs vehicle_id cache (passed .table log)
  entries : ∀ cache stream_id entry, (race.shared.caches cache).lookup stream_id = some entry ↔
    Cached jobs stream_id entry (passed (.cache cache) log)
  requests : race.shared.admin.req_count = UInt64.ofNat (passed .count log).length
  /-- A lookup finds the cache the name stood for when it came to the table, and there what the cache had when it
  came to that. -/
  lookup : ∀ i vehicle_id stream_id result, jobs i = .lookup_peer vehicle_id stream_id →
    race.phase i = .returned result →
      (∃ cache entry, Named jobs vehicle_id cache (ahead log i .table) ∧
        Cached jobs stream_id entry (ahead log i (.cache cache)) ∧ result = .ok (.entry entry)) ∨
      (result = .error .NotFound ∧ ∀ cache entry, Named jobs vehicle_id cache (ahead log i .table) →
        ¬ Cached jobs stream_id entry (ahead log i (.cache cache)))
  healthy : ∀ i stream_id now max_age result, jobs i = .is_peer_healthy stream_id now max_age →
    race.phase i = .returned result → ∃ held, result = .ok (.held held) ∧
      (held = true ↔ ∃ entry, Cached jobs stream_id entry (ahead log i (.cache admin_cache)) ∧
        now - entry.cached_at < max_age)

variable {jobs admin_cache log i} in
theorem lookup_told {vehicle_id : String} {stream_id : StreamId} {result : Except RcpError Answer}
    (hjob : jobs i = .lookup_peer vehicle_id stream_id) (htold : ToldResult jobs admin_cache log i result) :
    (∃ cache entry, Named jobs vehicle_id cache (ahead log i .table) ∧
      Cached jobs stream_id entry (ahead log i (.cache cache)) ∧ result = .ok (.entry entry)) ∨
    (result = .error .NotFound ∧ ∀ cache entry, Named jobs vehicle_id cache (ahead log i .table) →
      ¬ Cached jobs stream_id entry (ahead log i (.cache cache))) := by
  obtain ⟨k, hstage, htold⟩ := htold
  obtain rfl : .table = k := by
    unfold stage at hstage
    rw [hjob] at hstage
    exact Option.some.inj hstage
  have hnamed (cache : CacheRef) := lookup_after_table jobs admin_cache vehicle_id cache (ahead log i .table)
  have hcached (cache : CacheRef) (entry : DiscoveryCacheEntry) :=
    lookup_after_cache jobs admin_cache stream_id entry cache (ahead log i (.cache cache))
  have htable : toldAt jobs admin_cache log i .table = (match (after (op jobs admin_cache .table) FederationRouter.new
      (ahead log i .table)).peers.lookup vehicle_id with
      | some cache => .found cache
      | none => .returned (.error .NotFound)) := by
    rw [toldAt, answer, told, op, hjob]
    rfl
  have hcache (cache : CacheRef) : toldAt jobs admin_cache log i (.cache cache) = .returned (.entry <$> ok_or
      ((after (op jobs admin_cache (.cache cache)) DiscoveryCache.new (ahead log i (.cache cache))).lookup stream_id)
      .NotFound) := by
    rw [toldAt, answer, told, op, hjob]
    rfl
  rw [htable] at htold
  cases hlookup : (after (op jobs admin_cache .table) FederationRouter.new (ahead log i .table)).peers.lookup
      vehicle_id with
  | none =>
    rw [hlookup] at htold
    rcases htold with htold | ⟨cache, hfound, -⟩
    · cases htold
      refine .inr ⟨rfl, fun cache entry h => ?_⟩
      rw [← hnamed, hlookup] at h
      cases h
    · cases hfound
  | some cache =>
    rw [hlookup] at htold
    rcases htold with htold | ⟨found, hfound, htold⟩
    · cases htold
    · cases hfound
      rw [hcache] at htold
      cases hentry : (after (op jobs admin_cache (.cache cache)) DiscoveryCache.new
          (ahead log i (.cache cache))).lookup stream_id with
      | some entry =>
        rw [hentry] at htold
        cases htold
        exact .inl ⟨cache, entry, (hnamed cache).1 hlookup, (hcached cache entry).1 hentry, rfl⟩
      | none =>
        rw [hentry] at htold
        cases htold
        refine .inr ⟨rfl, fun cache' entry h hmem => ?_⟩
        rw [← hnamed, hlookup] at h
        cases h
        rw [← hcached, hentry] at hmem
        cases hmem

variable {jobs admin_cache log i} in
theorem healthy_told {stream_id : StreamId} {now : Instant} {max_age : Duration} {result : Except RcpError Answer}
    (hjob : jobs i = .is_peer_healthy stream_id now max_age) (htold : ToldResult jobs admin_cache log i result) :
    ∃ held, result = .ok (.held held) ∧ (held = true ↔
      ∃ entry, Cached jobs stream_id entry (ahead log i (.cache admin_cache)) ∧ now - entry.cached_at < max_age) := by
  obtain ⟨k, hstage, htold⟩ := htold
  obtain rfl : .cache admin_cache = k := by
    unfold stage at hstage
    rw [hjob] at hstage
    exact Option.some.inj hstage
  have hcache : toldAt jobs admin_cache log i (.cache admin_cache) = .returned (.ok (.held
      ((after (op jobs admin_cache (.cache admin_cache)) DiscoveryCache.new
        (ahead log i (.cache admin_cache))).is_known stream_id now max_age))) := by
    rw [toldAt, answer, told, op, hjob]
    rfl
  rw [hcache] at htold
  rcases htold with htold | ⟨cache, hfound, -⟩
  · cases htold
    refine ⟨_, rfl, ?_⟩
    rw [DiscoveryCache.is_known, Option.any_eq_true]
    simp only [← lookup_after_cache jobs admin_cache stream_id _ admin_cache, DiscoveryCache.lookup,
      DiscoveryCacheEntry.is_stale, Bool.not_eq_true', decide_eq_false_iff_not, Nat.not_le, ge_iff_le]
  · cases hfound

variable (schedule : List ι)

/-- What a schedule makes of the federation and the calls. -/
def federated : Race ι Federation Phase := run (move jobs admin_cache) (fresh (start admin_cache) .idle) schedule

/-- What it shows. -/
def shown : List (Stage × ι) :=
  trace (move jobs admin_cache) (seen jobs admin_cache) (fresh (start admin_cache) .idle) schedule

theorem lookups_settled :
    Settled jobs admin_cache (shown jobs admin_cache schedule) (federated jobs admin_cache schedule) := by
  obtain ⟨hpart, hway⟩ := (passing jobs admin_cache).run (s := start admin_cache) once schedule
  have htold {i : ι} {result : Except RcpError Answer}
      (hreturned : (federated jobs admin_cache schedule).phase i = .returned result) :
      ToldResult jobs admin_cache (shown jobs admin_cache schedule) i result := by
    rcases way_cases (hway i) with hidle | ⟨k, cache, -, -, hfound⟩ | ⟨result', htold, hphase⟩
    · cases hidle.symm.trans hreturned
    · cases hfound.symm.trans hreturned
    · cases hphase.symm.trans hreturned
      exact htold
  constructor
  · intro vehicle_id cache
    have htable : (federated jobs admin_cache schedule).shared.router = after (op jobs admin_cache .table)
        FederationRouter.new (passed .table (shown jobs admin_cache schedule)) := hpart .table
    rw [htable, lookup_after_table]
  · intro cache stream_id entry
    have hcache : (federated jobs admin_cache schedule).shared.caches cache = after (op jobs admin_cache (.cache cache))
        DiscoveryCache.new (passed (.cache cache) (shown jobs admin_cache schedule)) := hpart (.cache cache)
    rw [hcache, lookup_after_cache]
  · exact (hpart .count).trans (after_count ..)
  · exact fun i vehicle_id stream_id result hjob hreturned => lookup_told hjob (htold hreturned)
  · exact fun i stream_id now max_age result hjob hreturned => healthy_told hjob (htold hreturned)

end

end Federation

end RustRcp
