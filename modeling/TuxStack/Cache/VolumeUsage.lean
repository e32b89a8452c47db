import TuxStack.Cache.Persistent

/-!
# The cache of volume usage

`VolumeUsageCache` of `crates/docker-core/src/cache/volume_usage.rs` with a persistent cache.
A measurement is in memory with the instant of its insertion, and on disk with the second in
which it was stored. What is read back from the disk is inserted with a new instant, so its
age is forgotten, and so is that of what is seeded.

A value that was put is never returned late. `gets_fresh` is about runs in which no `get`
returns another: neither one that was seeded or loaded nor a row of the store. With those
expired and invalidated values come back (`stored_values_come_back`).
-/

namespace TuxStack.Cache

open Runs TableCall Std

inductive VolumeUsageSource where
  | systemDf
  | volumeList
  | volumeInspect
  | persistentCache
deriving DecidableEq, Repr

/-- `CachedVolumeUsage`; times are in nanoseconds since the epoch. -/
structure CachedVolumeUsage where
  sizeBytes : Option UInt64
  refCount : Option UInt64
  measuredAt : Int
  source : VolumeUsageSource
deriving DecidableEq, Repr

structure UsageEntry where
  usage : CachedVolumeUsage
  insertedAt : Int

/-- The cache, its clock, and what the cache itself does not keep: for every volume the time of
its last invalidation, and when the `put` of its last entry began, if that was put and not
seeded or loaded. -/
structure VolumeUsageCache where
  inner : TreeMap String UsageEntry
  ttl : Nat
  persistent : PersistentCache
  endpoint : EndpointKey
  now : Int
  invalidatedAt : String → Option Int
  putAt : String → Option Int

/-- `DateTime::from_timestamp` with no nanoseconds: a time, for the seconds that have one. -/
class FromTimestamp where
  fromTimestamp : Int64 → Option Int

namespace VolumeUsageCache

/-- `with_ttl`, where nothing has been invalidated. -/
def withTtl (persistent : PersistentCache) (endpoint : EndpointKey) (ttl : Nat) (now : Int) :
    VolumeUsageCache :=
  ⟨∅, ttl, persistent, endpoint, now, fun _ => none, fun _ => none⟩

def pass (s : VolumeUsageCache) (time : Nat) : VolumeUsageCache := { s with now := s.now + time }

def insert (s : VolumeUsageCache) (name : String) (usage : CachedVolumeUsage)
    (putAt : Option Int) : VolumeUsageCache :=
  { s with
    inner := s.inner.insert name ⟨usage, s.now⟩
    putAt := Function.update s.putAt name putAt }

def nowUnix (s : VolumeUsageCache) : Int64 := Int64.ofInt (max 0 (s.now / 1000000000))

def seed (s : VolumeUsageCache) (entries : List (String × CachedVolumeUsage)) :
    VolumeUsageCache :=
  entries.foldl (fun s entry => s.insert entry.1 entry.2 none) s

/-- `entry.inserted_at.elapsed() < self.ttl`. -/
def isLive (s : VolumeUsageCache) (entry : UsageEntry) : Bool := s.now - entry.insertedAt < s.ttl

/-- The entry of a volume that `get` returns from memory. -/
def liveEntry (s : VolumeUsageCache) (volumeName : String) : Option UsageEntry :=
  s.inner[volumeName]?.filter s.isLive

def row (s : VolumeUsageCache) (volumeName : String) :
    Option (String × Option UInt64 × Option UInt64 × Int64) :=
  (hydrateUsage s.persistent.db s.endpoint).find? fun row => row.1 = volumeName

section

variable [FromTimestamp]

def measuredAt (row : String × Option UInt64 × Option UInt64 × Int64) (now : Int) : Int :=
  (FromTimestamp.fromTimestamp row.2.2.2).getD now

/-- `get_persistent`, which is there again after some time. -/
def getPersistent (s : VolumeUsageCache) (volumeName : String) (time : Nat) :
    Option CachedVolumeUsage × VolumeUsageCache :=
  match s.row volumeName with
  | none => (none, s.pass time)
  | some row =>
    let usage :=
      ⟨row.2.1, row.2.2.1, measuredAt row (s.now + time), .persistentCache⟩
    (some usage, (s.pass time).insert volumeName usage none)

def get (s : VolumeUsageCache) (volumeName : String) (time : Nat) :
    Option CachedVolumeUsage × VolumeUsageCache :=
  match s.liveEntry volumeName with
  | some entry => (some entry.usage, s)
  | none => s.getPersistent volumeName time

end

def getStale (s : VolumeUsageCache) (volumeName : String) : Option CachedVolumeUsage :=
  s.inner[volumeName]?.map (·.usage)

/-- `put`, with the times from the measurement to the insertion and on to the clock of
`put_usage`. -/
def put (s : VolumeUsageCache) (volumeName : String) (sizeBytes refCount : Option UInt64)
    (source : VolumeUsageSource) (untilInserted untilStored : Nat) : VolumeUsageCache :=
  let usage := ⟨sizeBytes, refCount, s.now, source⟩
  let s := ((s.pass untilInserted).insert volumeName usage s.now).pass untilStored
  { s with
    persistent :=
      s.persistent.perform s.nowUnix (.putUsage s.endpoint volumeName sizeBytes refCount) }

def invalidate (s : VolumeUsageCache) (volumeName : String) : VolumeUsageCache :=
  { s with
    inner := s.inner.erase volumeName
    invalidatedAt := Function.update s.invalidatedAt volumeName (some s.now) }

/-- `prune_expired`, with the number of the entries that went. -/
def pruneExpired (s : VolumeUsageCache) : Nat × VolumeUsageCache :=
  let inner := s.inner.filter fun _ entry => s.isLive entry
  (s.inner.size - inner.size, { s with inner })

end VolumeUsageCache

/-- A call, the passing of time, or what the threads and the other users of the persistent
cache do. -/
inductive UsageCall where
  | put (volumeName : String) (sizeBytes refCount : Option UInt64) (source : VolumeUsageSource)
      (untilInserted untilStored : Nat)
  | seed (entries : List (String × CachedVolumeUsage))
  | get (volumeName : String) (time : Nat)
  | getStale (volumeName : String)
  | invalidate (volumeName : String)
  | pruneExpired
  | pass (time : Nat)
  | store (action : CacheAction)

namespace VolumeUsageCache

section Calls

variable [FromTimestamp]

def step (s : VolumeUsageCache) : UsageCall → Option VolumeUsageCache
  | .put volumeName sizeBytes refCount source untilInserted untilStored =>
    some (s.put volumeName sizeBytes refCount source untilInserted untilStored)
  | .seed entries => some (s.seed entries)
  | .get volumeName time => some (s.get volumeName time).2
  | .getStale _ => some s
  | .invalidate volumeName => some (s.invalidate volumeName)
  | .pruneExpired => some s.pruneExpired.2
  | .pass time => some (s.pass time)
  | .store action => (s.persistent.step action).map fun persistent => { s with persistent }

def machine : Machine VolumeUsageCache UsageCall where
  init s := ∃ persistent endpoint ttl now, s = withTtl persistent endpoint ttl now
  step := step

/-! ## Freshness -/

/-- At a time, a value measured at another is less than `ttl` old, and the volume has not
been invalidated since. -/
def Timely (s : VolumeUsageCache) (volumeName : String) (time measured : Int) : Prop :=
  time - measured < s.ttl ∧ ∀ invalidated ∈ s.invalidatedAt volumeName, invalidated ≤ measured

/-- What a `get` returns is timely at its return. -/
def Fresh (s : VolumeUsageCache) : UsageCall → Prop
  | .get volumeName time =>
    ∀ usage ∈ (s.get volumeName time).1,
      s.Timely volumeName (s.get volumeName time).2.now usage.measuredAt
  | _ => True

instance (s : VolumeUsageCache) (volumeName : String) (time measured : Int) :
    Decidable (s.Timely volumeName time measured) := by
  unfold Timely
  infer_instance

instance (s : VolumeUsageCache) : DecidablePred s.Fresh
  | .get _ _ => by
      unfold Fresh
      infer_instance
  | .put .. | .seed _ | .getStale _ | .invalidate _ | .pruneExpired | .pass _ | .store _ =>
    .isTrue trivial

/-- What a `get` is served with was put: an entry that was inserted when it was measured, or is
asked for in time after the `put` began. Without a live entry there is no row either. -/
def ServesPuts (s : VolumeUsageCache) : UsageCall → Prop
  | .get volumeName _ =>
    match s.liveEntry volumeName with
    | some entry => ∃ put ∈ s.putAt volumeName, entry.insertedAt = put ∨ s.now < put + s.ttl
    | none => s.row volumeName = none
  | _ => True

instance (s : VolumeUsageCache) : DecidablePred s.ServesPuts
  | .get _ _ => by
      unfold ServesPuts
      dsimp only
      split <;> infer_instance
  | .put .. | .seed _ | .getStale _ | .invalidate _ | .pruneExpired | .pass _ | .store _ =>
    .isTrue trivial

/-- **The invariant**: an entry that was put was measured when its `put` began, and its volume
has not been invalidated since. -/
structure Measured (s : VolumeUsageCache) : Prop where
  invalidated_le : ∀ name, ∀ invalidated ∈ s.invalidatedAt name, invalidated ≤ s.now
  put : ∀ (name : String) (entry : UsageEntry), s.inner[name]? = some entry →
    ∀ put ∈ s.putAt name, entry.usage.measuredAt = put ∧
      ∀ invalidated ∈ s.invalidatedAt name, invalidated ≤ put

end Calls

variable {s s' : VolumeUsageCache}

theorem invalidatedAt_invalidate (name : String) :
    (s.invalidate name).invalidatedAt = Function.update s.invalidatedAt name (some s.now) := rfl

theorem Measured.pass (h : Measured s) (time : Nat) : Measured (s.pass time) where
  invalidated_le name invalidated hi := by
    have hle := h.invalidated_le name invalidated hi
    show invalidated ≤ s.now + time
    omega
  put := h.put

theorem Measured.insert (h : Measured s) (name : String) (usage : CachedVolumeUsage)
    (putAt : Option Int) (hput : ∀ put ∈ putAt, usage.measuredAt = put ∧
      ∀ invalidated ∈ s.invalidatedAt name, invalidated ≤ put) :
    Measured (s.insert name usage putAt) where
  invalidated_le := h.invalidated_le
  put other entry he put hmem := by
    rw [VolumeUsageCache.insert, TreeMap.getElem?_insert] at he
    rw [VolumeUsageCache.insert] at hmem
    dsimp only at hmem
    by_cases heq : name = other
    · subst heq
      rw [if_pos ReflOrd.compare_self] at he
      cases he
      rw [Function.update_self] at hmem
      exact hput put hmem
    · rw [if_neg (fun hc => heq (LawfulEqOrd.eq_of_compare hc))] at he
      rw [Function.update_of_ne (Ne.symm heq)] at hmem
      exact h.put other entry he put hmem

theorem Measured.seed (entries : List (String × CachedVolumeUsage)) {s : VolumeUsageCache}
    (h : Measured s) : Measured (s.seed entries) := by
  unfold VolumeUsageCache.seed
  induction entries generalizing s with
  | nil => exact h
  | cons entry entries ih => exact ih (h.insert entry.1 entry.2 none (by simp))

theorem Measured.of_entries (h : Measured s) {inner : TreeMap String UsageEntry}
    (hsub : ∀ (name : String) (entry : UsageEntry), inner[name]? = some entry →
      s.inner[name]? = some entry) : Measured { s with inner } where
  invalidated_le := h.invalidated_le
  put name entry he := h.put name entry (hsub name entry he)

theorem Measured.invalidate (h : Measured s) (name : String) : Measured (s.invalidate name) where
  invalidated_le other invalidated hi := by
    by_cases hname : other = name
    · subst hname
      rw [invalidatedAt_invalidate, Function.update_self] at hi
      exact Int.le_of_eq (Option.some.inj hi).symm
    · rw [invalidatedAt_invalidate, Function.update_of_ne hname] at hi
      exact h.invalidated_le other invalidated hi
  put other entry he put hmem := by
    change (s.inner.erase name)[other]? = some entry at he
    rw [TreeMap.getElem?_erase] at he
    split at he
    · cases he
    · next hne =>
      have hname : other ≠ name := fun heq => hne (heq ▸ ReflOrd.compare_self)
      rw [invalidatedAt_invalidate, Function.update_of_ne hname]
      exact h.put other entry he put hmem

theorem measured_withTtl (persistent : PersistentCache) (endpoint : EndpointKey) (ttl : Nat)
    (now : Int) : Measured (withTtl persistent endpoint ttl now) where
  invalidated_le _ _ hi := by cases hi
  put _ _ _ _ hput := by cases hput

/-- **An entry that was put** is timely while it is live: it was measured when it was inserted,
or is asked for in time. -/
theorem Measured.timely (h : Measured s) {name : String} {entry : UsageEntry} {put : Int}
    (hlive : s.liveEntry name = some entry) (hput : put ∈ s.putAt name)
    (hasked : entry.insertedAt = put ∨ s.now < put + s.ttl) :
    s.Timely name s.now entry.usage.measuredAt := by
  obtain ⟨hentry, hlive⟩ := Option.filter_eq_some_iff.mp hlive
  obtain ⟨hmeasured, hafter⟩ := h.put name entry hentry put hput
  have hage : s.now - entry.insertedAt < s.ttl := of_decide_eq_true hlive
  rw [hmeasured]
  refine ⟨?_, hafter⟩
  rcases hasked with hsame | hsoon
  · omega
  · omega

variable [FromTimestamp]

theorem get_of_live {name : String} {entry : UsageEntry} (h : s.liveEntry name = some entry)
    (time : Nat) : s.get name time = (some entry.usage, s) := by
  unfold VolumeUsageCache.get
  rw [h]

theorem get_of_none {name : String} (h : s.liveEntry name = none) (time : Nat) :
    s.get name time = s.getPersistent name time := by
  unfold VolumeUsageCache.get
  rw [h]

theorem Measured.get (h : Measured s) (name : String) (time : Nat) :
    Measured (s.get name time).2 := by
  unfold VolumeUsageCache.get
  split
  · exact h
  · unfold getPersistent
    split
    · exact h.pass time
    · exact (h.pass time).insert name _ none (by simp)

/-- **Every step keeps the invariant.** -/
theorem Measured.step (h : Measured s) {call : UsageCall} (hs : s.step call = some s') :
    Measured s' := by
  cases call with
  | put name sizeBytes refCount source untilInserted untilStored =>
    cases hs
    have hput := ((h.pass untilInserted).insert name ⟨sizeBytes, refCount, s.now, source⟩
      (some s.now) (by rintro put ⟨⟩; exact ⟨rfl, h.invalidated_le name⟩)).pass untilStored
    exact { hput with }
  | seed entries =>
    cases hs
    exact h.seed entries
  | get name time =>
    cases hs
    exact h.get name time
  | getStale name =>
    cases hs
    exact h
  | invalidate name =>
    cases hs
    exact h.invalidate name
  | pruneExpired =>
    cases hs
    refine h.of_entries fun name entry he => ?_
    rw [TreeMap.getElem?_filter', Option.filter_eq_some_iff] at he
    exact he.1
  | pass time =>
    cases hs
    exact h.pass time
  | store action =>
    obtain ⟨persistent, -, rfl⟩ := Option.map_eq_some_iff.mp hs
    exact { h with }

theorem Measured.fresh (h : Measured s) {call : UsageCall} (hserves : s.ServesPuts call) :
    s.Fresh call := by
  cases call with
  | get name time =>
    unfold ServesPuts at hserves
    unfold Fresh
    dsimp only at hserves ⊢
    cases hlive : s.liveEntry name with
    | some entry =>
      rw [hlive] at hserves
      obtain ⟨put, hput, hasked⟩ := hserves
      rw [get_of_live hlive]
      rintro usage ⟨⟩
      exact h.timely hlive hput hasked
    | none =>
      rw [hlive] at hserves
      rw [get_of_none hlive, getPersistent, hserves]
      rintro usage ⟨⟩
  | _ => trivial

/-- **Freshness of the cache.** In every run from an empty cache, on any store, in which every
`get` is served with what was put, every `get` returns timely values. -/
theorem gets_fresh {persistent : PersistentCache} {endpoint : EndpointKey} {ttl : Nat} {now : Int}
    {calls : List UsageCall}
    (h : machine.AllSteps ServesPuts (withTtl persistent endpoint ttl now) calls) :
    machine.AllSteps Fresh (withTtl persistent endpoint ttl now) calls :=
  h.of_invariant (fun _ _ hi hserves => hi.fresh hserves) (fun _ _ _ hi _ hs => hi.step hs)
    (measured_withTtl persistent endpoint ttl now)

end VolumeUsageCache

/-! ## What comes back from the store -/

/-- Every second has its time. -/
abbrev allSeconds : FromTimestamp := ⟨fun seconds => some (seconds.toInt * 1000000000)⟩

/-- A volume is measured, and the measurement reaches the store. -/
def measuredAndStored : List UsageCall :=
  [.put "data" (some 2048) (some 2) .systemDf 0 0,
    .store (.thread (upsertUsage localEndpoint "data" (some 2048) (some 2) 1700000000))]

/-- A cache with the default `ttl`, on a store without rows. -/
def newUsageCache : VolumeUsageCache :=
  .withTtl (.opened (createSchema fun _ => none)) localEndpoint 45000000000 1700000000000000000

/-- What was measured is asked for after a second and invalidated after another; a second volume
is seeded, and a third is asked for. -/
def timelyCalls : List UsageCall :=
  measuredAndStored ++ [UsageCall.pass 1000000000, .get "data" 0, .pass 1000000000,
    .invalidate "data", .seed [("logs", ⟨some 1, some 1, 0, .persistentCache⟩)], .get "tmp" 7]

theorem timelyCalls_fresh : (@VolumeUsageCache.machine allSeconds).AllSteps
    (@VolumeUsageCache.Fresh allSeconds) newUsageCache timelyCalls := by
  have hserves : (@VolumeUsageCache.machine allSeconds).AllSteps
      VolumeUsageCache.ServesPuts newUsageCache timelyCalls := by
    decide +kernel
  exact @VolumeUsageCache.gets_fresh allSeconds _ _ _ _ _ hserves

/-- Neither does an expired value vanish nor an invalidated one: the first `get` after it finds
the row of the store. -/
theorem stored_values_come_back :
    ¬ (@VolumeUsageCache.machine allSeconds).AllSteps (@VolumeUsageCache.Fresh allSeconds)
        newUsageCache (measuredAndStored ++ [UsageCall.pass 45000000000, .get "data" 0]) ∧
      ¬ (@VolumeUsageCache.machine allSeconds).AllSteps (@VolumeUsageCache.Fresh allSeconds)
        newUsageCache
        (measuredAndStored ++ [UsageCall.pass 1000000000, .invalidate "data", .get "data" 0]) := by
  decide +kernel

end TuxStack.Cache
