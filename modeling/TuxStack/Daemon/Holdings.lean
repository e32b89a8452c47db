import TuxStack.Docker.Container
import TuxStack.Lib.Tasks

/-!
# What the daemon's providers hold

The providers behind the namespace (`crates/tuxstack-daemon/src/state.rs`,
`crates/docker-core/src/vfs_providers/`) and the data they keep between calls: the helper
providers a directory cache, the root filesystem of a container its snapshot, an image its
index, in memory and on disk. The archive and local bind providers keep nothing.

Only the age of the data is modelled: `asked` counts how often Docker or a helper has been
asked, and what is held carries the count from when it was asked for. A step is good or bad as
the world answers it. How sessions start and end is in `Docker.HelperCore`; a failing one here
raises the generation, a `u64` that is taken not to come back, and empties the cache.

Providers are shared by reference: a call keeps the one it was routed to, also when a rebuild
of the namespace has put a new, empty one in its place. What is on disk is there for both.
-/

namespace TuxStack.Daemon

open Vfs Runs Tasks Docker

/-! ## Resources and requests -/

inductive DockerResourceRef where
  | container (containerId : String)
  | image (imageId : String)
  | volume (volumeName : String)
deriving DecidableEq

structure ResourcePath where
  resource : DockerResourceRef
  components : List Bytes

inductive ResourceOperation where
  | refresh (path : ResourcePath)
  | rebuildIndex (resource : DockerResourceRef)
  | invalidateCache (resource : DockerResourceRef)
  | openResource (resource : DockerResourceRef)

def ResourceOperation.resource : ResourceOperation → DockerResourceRef
  | .refresh path => path.resource
  | .rebuildIndex resource | .invalidateCache resource | .openResource resource => resource

/-- Where the namespace sends a path of a resource: the key of a provider and a path in it. -/
abbrev Route := VirtualPath → Except VfsError (String × VirtualPath)

/-- A volume or an image has one provider. -/
def Route.direct (key : String) : Route := fun path => .ok (key, path)

/-! ## What is held -/

/-- `CachedDirectory`; `fetched` is from when it was asked for. -/
structure HeldListing where
  generation : Nat
  inserted : Nat
  fetched : Nat

/-- `HelperProviderCore`, of a volume or a bind. -/
structure HelperHoldings where
  generation : Nat
  directoryTtl : Nat
  directories : VirtualPath → Option HeldListing
  ttl_pos : 0 < directoryTtl

/-- `ContainerRootfsSnapshotProvider`: the task that holds `capture_lock`, and from when
the snapshot is. -/
structure SnapshotHoldings where
  captureLock : Option Nat
  state : Option Nat

/-- `ImageRootfsImmutableProvider`: the task that holds the mutex of `index`, and from when
the index is. -/
structure ImageHoldings where
  imageId : String
  indexLock : Option Nat
  index : Option Nat

inductive Holdings where
  | helper (h : HelperHoldings)
  | snapshot (h : SnapshotHoldings)
  | image (h : ImageHoldings)
  | direct

/-- A new provider in the place of one. -/
def Holdings.renewed : Holdings → Holdings
  | .helper h => .helper { h with generation := 1, directories := fun _ => none }
  | .snapshot _ => .snapshot ⟨none, none⟩
  | .image h => .image ⟨h.imageId, none, none⟩
  | .direct => .direct

structure DaemonCore where
  now : Nat
  asked : Nat
  /-- the providers by number, those no longer in the namespace too, and the next number -/
  heap : Nat → Holdings
  next : Nat
  /-- the provider that the namespace has for a key -/
  table : String → Nat
  /-- from when the index in the cache file of an image is, if `load_cache` accepts it -/
  disk : String → Option Nat
  routes : DockerResourceRef → Option Route

namespace DaemonCore

def ask (core : DaemonCore) : DaemonCore := { core with asked := core.asked + 1 }

def set (core : DaemonCore) (x : Nat) (held : Holdings) : DaemonCore :=
  { core with heap := Function.update core.heap x held }

end DaemonCore

/-! ## Calls -/

inductive DaemonCall where
  | readDir (resource : DockerResourceRef) (path : VirtualPath)
  | openFile (resource : DockerResourceRef) (path : VirtualPath)
  /-- `Request::PerformResourceOperation` -/
  | perform (operation : ResourceOperation)
  /-- time passes -/
  | wait (ticks : Nat)
  /-- a helper session of the provider `x` fails -/
  | sessionFails (x : Nat)
  /-- the namespace gets a new provider for a key -/
  | renew (key : String)

def DaemonCall.reads : DaemonCall → Option DockerResourceRef
  | .readDir resource _ | .openFile resource _ => some resource
  | _ => none

/-- How a call ended. `answered` says from when the data is that the listing or the file was
served from, or the refusal of it. -/
inductive DaemonOutcome where
  | answered (fetched : List Nat)
  | acknowledged
  | finished
  | failed

/-- Where a task is: what its next step will do. -/
inductive DaemonPhase where
  | called
  /-- helper `read_dir`: look into the cache, ask, store -/
  | looking (x : Nat) (path : VirtualPath) (generation : Nat)
  | missed (x : Nat) (path : VirtualPath) (generation : Nat)
  | asking (x : Nat) (path : VirtualPath) (generation fetched : Nat)
  /-- `snapshot`: read the state, take `capture_lock` and read it again, export -/
  | reading (x : Nat)
  | locking (x : Nat)
  | exporting (x fetched : Nat)
  /-- `ensure_index`: take the mutex, build -/
  | indexing (x : Nat)
  | building (x : Nat) (imageId : String) (fetched : Nat)
  /-- the file was found in an index, its content is asked for -/
  | opening (fetched : Nat)
  /-- a session has failed, the generation is raised -/
  | clearing (x : Nat)
  | returned (outcome : DaemonOutcome)

structure DaemonTask where
  call : DaemonCall
  phase : DaemonPhase

namespace DaemonTask

def goto (task : DaemonTask) (phase : DaemonPhase) : DaemonTask := { task with phase := phase }

def ends (task : DaemonTask) (outcome : DaemonOutcome) : DaemonTask :=
  task.goto (.returned outcome)

/-- A listing is answered from the index it has, an open looks its file up in it. -/
def serve (task : DaemonTask) (fetched : Nat) : DaemonTask :=
  match task.call with
  | .openFile .. => task.goto (.opening fetched)
  | _ => task.ends (.answered [fetched])

end DaemonTask

namespace DaemonCore

/-! ## The steps of a call -/

/-- Docker or a helper answers at once: an archive, a local directory, or the `stat` of a
helper's `open`. -/
def askOnce (core : DaemonCore) (task : DaemonTask) (good : Bool) : DaemonCore × DaemonTask :=
  (core.ask, if good then task.ends (.answered [core.asked]) else task.ends .failed)

def enter (core : DaemonCore) (task : DaemonTask) (x : Nat) (path : VirtualPath) (good : Bool) :
    DaemonCore × DaemonTask :=
  match core.heap x with
  | .helper h =>
    match task.call with
    | .openFile .. => core.askOnce task good
    | _ => (core, task.goto (.looking x path h.generation))
  | .snapshot _ => (core, task.goto (.reading x))
  | .image _ => (core, task.goto (.indexing x))
  | .direct => core.askOnce task good

def route (core : DaemonCore) (task : DaemonTask) (resource : DockerResourceRef)
    (path : VirtualPath) (good : Bool) : DaemonCore × DaemonTask :=
  match core.routes resource with
  | none => (core, task.ends .failed)
  | some route =>
    match route path with
    | .error _ => (core, task.ends .failed)
    | .ok (key, inner) => core.enter task (core.table key) inner good

/-- The first step. The arm of `dispatch_request` for `PerformResourceOperation` is
`Response::Acknowledged` and nothing else. -/
def start (core : DaemonCore) (task : DaemonTask) (good : Bool) : DaemonCore × DaemonTask :=
  match task.call with
  | .readDir resource path | .openFile resource path => core.route task resource path good
  | .perform _ => (core, task.ends .acknowledged)
  | .wait ticks => ({ core with now := core.now + ticks }, task.ends .finished)
  | .sessionFails x =>
    match core.heap x with
    | .helper h =>
      (core.set x (.helper { h with generation := h.generation + 1 }), task.goto (.clearing x))
    | _ => (core, task.ends .finished)
  | .renew key =>
    ({ core.set core.next (core.heap (core.table key)).renewed with
        table := Function.update core.table key core.next
        next := core.next + 1 },
      task.ends .finished)

/-- `read_dir` looks into the cache. -/
def look (core : DaemonCore) (task : DaemonTask) (x : Nat) (path : VirtualPath)
    (generation : Nat) : Option DaemonTask :=
  match core.heap x with
  | .helper h =>
    match h.directories path with
    | none => some (task.goto (.missed x path generation))
    | some hit =>
      if hit.generation = generation ∧ core.now - hit.inserted < h.directoryTtl then
        some (task.ends (.answered [hit.fetched]))
      else some (task.goto (.missed x path generation))
  | _ => none

/-- `read_dir` stores its listing under the generation it has loaded. -/
def store (core : DaemonCore) (task : DaemonTask) (x : Nat) (path : VirtualPath)
    (generation fetched : Nat) : Option (DaemonCore × DaemonTask) :=
  match core.heap x with
  | .helper h =>
    some (core.set x (.helper
        { h with
          directories :=
            Function.update h.directories path (some ⟨generation, core.now, fetched⟩) }),
      task.ends (.answered [fetched]))
  | _ => none

/-- `snapshot` reads the state. -/
def read (core : DaemonCore) (task : DaemonTask) (x : Nat) : Option DaemonTask :=
  match core.heap x with
  | .snapshot h =>
    match h.state with
    | some fetched => some (task.serve fetched)
    | none => some (task.goto (.locking x))
  | _ => none

/-- `snapshot` takes `capture_lock`, reads the state again, and exports. -/
def lock (core : DaemonCore) (i : Nat) (task : DaemonTask) (x : Nat) :
    Option (DaemonCore × DaemonTask) :=
  match core.heap x with
  | .snapshot h =>
    if h.captureLock ≠ none then none
    else
      match h.state with
      | some fetched => some (core, task.serve fetched)
      | none =>
        some (core.ask.set x (.snapshot { h with captureLock := some i }),
          task.goto (.exporting x core.asked))
  | _ => none

/-- The export has been read, or has failed. -/
def capture (core : DaemonCore) (task : DaemonTask) (x fetched : Nat) (good : Bool) :
    Option (DaemonCore × DaemonTask) :=
  match core.heap x with
  | .snapshot h =>
    if good then some (core.set x (.snapshot ⟨none, some fetched⟩), task.serve fetched)
    else some (core.set x (.snapshot ⟨none, h.state⟩), task.ends .failed)
  | _ => none

/-- `ensure_index`: the index in memory, or the one on disk if it can be read, or a new one. -/
def ensure (core : DaemonCore) (i : Nat) (task : DaemonTask) (x : Nat) (good : Bool) :
    Option (DaemonCore × DaemonTask) :=
  match core.heap x with
  | .image h =>
    if h.indexLock ≠ none then none
    else
      match h.index with
      | some fetched => some (core, task.serve fetched)
      | none =>
        match if good then core.disk h.imageId else none with
        | some fetched =>
          some (core.set x (.image { h with index := some fetched }), task.serve fetched)
        | none =>
          some (core.ask.set x (.image { h with indexLock := some i }),
            task.goto (.building x h.imageId core.asked))
  | _ => none

/-- `rebuild_index` has stored the new index on disk, or has failed. -/
def build (core : DaemonCore) (task : DaemonTask) (x : Nat) (imageId : String) (fetched : Nat)
    (good : Bool) : Option (DaemonCore × DaemonTask) :=
  match core.heap x with
  | .image h =>
    if good then
      some ({ core.set x (.image { h with indexLock := none, index := some fetched }) with
          disk := Function.update core.disk imageId (some fetched) },
        task.serve fetched)
    else some (core.set x (.image { h with indexLock := none }), task.ends .failed)
  | _ => none

/-- The cache is emptied after a session has failed. -/
def clear (core : DaemonCore) (task : DaemonTask) (x : Nat) : DaemonCore × DaemonTask :=
  match core.heap x with
  | .helper h =>
    (core.set x (.helper { h with directories := fun _ => none }), task.ends .finished)
  | _ => (core, task.ends .finished)

def advance (core : DaemonCore) (i : Nat) (task : DaemonTask) (good : Bool) :
    Option (DaemonCore × DaemonTask) :=
  match task.phase with
  | .called => some (core.start task good)
  | .looking x path generation => (core.look task x path generation).map fun task => (core, task)
  | .missed x path generation =>
    some (core.ask, task.goto (.asking x path generation core.asked))
  | .asking x path generation fetched =>
    if good then core.store task x path generation fetched
    else some (core, task.ends .failed)
  | .reading x => (core.read task x).map fun task => (core, task)
  | .locking x => core.lock i task x
  | .exporting x fetched => core.capture task x fetched good
  | .indexing x => core.ensure i task x good
  | .building x imageId fetched => core.build task x imageId fetched good
  | .opening fetched =>
    some (core.ask,
      if good then task.ends (.answered [fetched, core.asked]) else task.ends .failed)
  | .clearing x => some (core.clear task x)
  | .returned _ => none

end DaemonCore

def daemon : Program DaemonCore DaemonTask DaemonCall Bool where
  spawn _ call := ⟨call, .called⟩
  advance := DaemonCore.advance

def Holdings.Empty : Holdings → Prop
  | .helper h => h.directories = fun _ => none
  | .snapshot h => h.state = none ∧ h.captureLock = none
  | .image h => h.index = none ∧ h.indexLock = none
  | .direct => True

/-- A daemon that starts holds what its cache directory holds. -/
def DaemonCore.Init (core : DaemonCore) : Prop :=
  (∀ x, (core.heap x).Empty) ∧ (∀ key, core.table key < core.next) ∧
    ∀ imageId fetched, core.disk imageId = some fetched → fetched < core.asked

/-! ## What a step can do -/

inductive Took (core : DaemonCore) (i : Nat) (task : DaemonTask) : DaemonCore → DaemonTask → Prop
  | ended {outcome : DaemonOutcome} (h : ∀ fetched, outcome ≠ .answered fetched) :
      Took core i task core (task.ends outcome)
  | waited (ticks : Nat) :
      Took core i task { core with now := core.now + ticks } (task.ends .finished)
  | raised {x : Nat} {h : HelperHoldings} (hx : core.heap x = .helper h) :
      Took core i task (core.set x (.helper { h with generation := h.generation + 1 }))
        (task.goto (.clearing x))
  | renewed (key : String) :
      Took core i task
        { core.set core.next (core.heap (core.table key)).renewed with
          table := Function.update core.table key core.next
          next := core.next + 1 }
        (task.ends .finished)
  | routedHelper {resource : DockerResourceRef} {route : Route} {path inner : VirtualPath}
      {key : String} {h : HelperHoldings} (hcall : task.call.reads = some resource)
      (hroute : core.routes resource = some route) (hpath : route path = .ok (key, inner))
      (hx : core.heap (core.table key) = .helper h) :
      Took core i task core (task.goto (.looking (core.table key) inner h.generation))
  | routedIndex {resource : DockerResourceRef} {route : Route} {path inner : VirtualPath}
      {key : String} {phase : DaemonPhase} (hcall : task.call.reads = some resource)
      (hroute : core.routes resource = some route) (hpath : route path = .ok (key, inner))
      (hphase : phase = .reading (core.table key) ∨ phase = .indexing (core.table key)) :
      Took core i task core (task.goto phase)
  | askedOnce : Took core i task core.ask (task.ends (.answered [core.asked]))
  | askFailed : Took core i task core.ask (task.ends .failed)
  | hit {x : Nat} {path : VirtualPath} {generation : Nat} {h : HelperHoldings} {hit : HeldListing}
      (hphase : task.phase = .looking x path generation) (hx : core.heap x = .helper h)
      (hhit : h.directories path = some hit) (hgeneration : hit.generation = generation)
      (hyoung : core.now - hit.inserted < h.directoryTtl) :
      Took core i task core (task.ends (.answered [hit.fetched]))
  | missed {x : Nat} {path : VirtualPath} {generation : Nat}
      (hphase : task.phase = .looking x path generation) :
      Took core i task core (task.goto (.missed x path generation))
  | asks {x : Nat} {path : VirtualPath} {generation : Nat}
      (hphase : task.phase = .missed x path generation) :
      Took core i task core.ask (task.goto (.asking x path generation core.asked))
  | stored {x : Nat} {path : VirtualPath} {generation fetched : Nat} {h : HelperHoldings}
      (hphase : task.phase = .asking x path generation fetched) (hx : core.heap x = .helper h) :
      Took core i task
        (core.set x (.helper
          { h with
            directories :=
              Function.update h.directories path (some ⟨generation, core.now, fetched⟩) }))
        (task.ends (.answered [fetched]))
  | found {x fetched : Nat} {h : SnapshotHoldings}
      (hphase : task.phase = .reading x ∨ task.phase = .locking x)
      (hx : core.heap x = .snapshot h) (hstate : h.state = some fetched) :
      Took core i task core (task.serve fetched)
  | locks {x : Nat} (hphase : task.phase = .reading x) :
      Took core i task core (task.goto (.locking x))
  | exports {x : Nat} {h : SnapshotHoldings} (hphase : task.phase = .locking x)
      (hx : core.heap x = .snapshot h) (hstate : h.state = none) :
      Took core i task (core.ask.set x (.snapshot { h with captureLock := some i }))
        (task.goto (.exporting x core.asked))
  | captured {x fetched : Nat} {h : SnapshotHoldings} (hphase : task.phase = .exporting x fetched)
      (hx : core.heap x = .snapshot h) :
      Took core i task (core.set x (.snapshot ⟨none, some fetched⟩)) (task.serve fetched)
  | captureFailed {x fetched : Nat} {h : SnapshotHoldings}
      (hphase : task.phase = .exporting x fetched) (hx : core.heap x = .snapshot h) :
      Took core i task (core.set x (.snapshot ⟨none, h.state⟩)) (task.ends .failed)
  | indexed {x fetched : Nat} {h : ImageHoldings} (hphase : task.phase = .indexing x)
      (hx : core.heap x = .image h) (hindex : h.index = some fetched) :
      Took core i task core (task.serve fetched)
  | loaded {x fetched : Nat} {h : ImageHoldings} (hphase : task.phase = .indexing x)
      (hx : core.heap x = .image h) (hlock : h.indexLock = none) (hindex : h.index = none)
      (hdisk : core.disk h.imageId = some fetched) :
      Took core i task (core.set x (.image { h with index := some fetched })) (task.serve fetched)
  | builds {x : Nat} {h : ImageHoldings} (hphase : task.phase = .indexing x)
      (hx : core.heap x = .image h) (hlock : h.indexLock = none) (hindex : h.index = none) :
      Took core i task (core.ask.set x (.image { h with indexLock := some i }))
        (task.goto (.building x h.imageId core.asked))
  | built {x fetched : Nat} {imageId : String} {h : ImageHoldings}
      (hphase : task.phase = .building x imageId fetched) (hx : core.heap x = .image h) :
      Took core i task
        { core.set x (.image { h with indexLock := none, index := some fetched }) with
          disk := Function.update core.disk imageId (some fetched) }
        (task.serve fetched)
  | buildFailed {x fetched : Nat} {imageId : String} {h : ImageHoldings}
      (hphase : task.phase = .building x imageId fetched) (hx : core.heap x = .image h) :
      Took core i task (core.set x (.image { h with indexLock := none })) (task.ends .failed)
  | opened {fetched : Nat} (hphase : task.phase = .opening fetched) :
      Took core i task core.ask (task.ends (.answered [fetched, core.asked]))
  | cleared {x : Nat} {h : HelperHoldings} (hx : core.heap x = .helper h) :
      Took core i task (core.set x (.helper { h with directories := fun _ => none }))
        (task.ends .finished)

section Steps

variable {core core' : DaemonCore} {i : Nat} {task task' : DaemonTask} {good : Bool}

theorem askOnce_took (h : core.askOnce task good = (core', task')) :
    Took core i task core' task' := by
  unfold DaemonCore.askOnce at h
  obtain ⟨rfl, rfl⟩ := Prod.mk.inj h
  cases good with
  | true => exact .askedOnce
  | false => exact .askFailed

theorem route_took {resource : DockerResourceRef} {path : VirtualPath}
    (hcall : task.call.reads = some resource)
    (h : core.route task resource path good = (core', task')) : Took core i task core' task' := by
  unfold DaemonCore.route at h
  split at h
  · obtain ⟨rfl, rfl⟩ := Prod.mk.inj h
    exact .ended (by simp)
  · next route hroute =>
    split at h
    · obtain ⟨rfl, rfl⟩ := Prod.mk.inj h
      exact .ended (by simp)
    · next key inner hpath =>
      unfold DaemonCore.enter at h
      split at h
      · next held hx =>
        split at h
        · exact askOnce_took h
        · obtain ⟨rfl, rfl⟩ := Prod.mk.inj h
          exact .routedHelper hcall hroute hpath hx
      · obtain ⟨rfl, rfl⟩ := Prod.mk.inj h
        exact .routedIndex hcall hroute hpath (.inl rfl)
      · obtain ⟨rfl, rfl⟩ := Prod.mk.inj h
        exact .routedIndex hcall hroute hpath (.inr rfl)
      · exact askOnce_took h

theorem start_took (h : core.start task good = (core', task')) : Took core i task core' task' := by
  unfold DaemonCore.start at h
  split at h
  · next hcall => exact route_took (by rw [hcall]; rfl) h
  · next hcall => exact route_took (by rw [hcall]; rfl) h
  · obtain ⟨rfl, rfl⟩ := Prod.mk.inj h
    exact .ended (by simp)
  · next ticks _ =>
    obtain ⟨rfl, rfl⟩ := Prod.mk.inj h
    exact .waited ticks
  · split at h
    · next hx =>
      obtain ⟨rfl, rfl⟩ := Prod.mk.inj h
      exact .raised hx
    · obtain ⟨rfl, rfl⟩ := Prod.mk.inj h
      exact .ended (by simp)
  · next key _ =>
    obtain ⟨rfl, rfl⟩ := Prod.mk.inj h
    exact .renewed key

theorem look_took {x : Nat} {path : VirtualPath} {generation : Nat}
    (hphase : task.phase = .looking x path generation)
    (h : core.look task x path generation = some task') : Took core i task core task' := by
  unfold DaemonCore.look at h
  split at h
  · next held hx =>
    split at h
    · cases h
      exact .missed hphase
    · next hit hhit =>
      split at h
      · next hvalid =>
        cases h
        exact .hit hphase hx hhit hvalid.1 hvalid.2
      · cases h
        exact .missed hphase
  · cases h

theorem lock_took {x : Nat} (hphase : task.phase = .locking x)
    (h : core.lock i task x = some (core', task')) : Took core i task core' task' := by
  unfold DaemonCore.lock at h
  split at h
  · next held hx =>
    split at h
    · cases h
    · split at h
      · next fetched hstate =>
        cases h
        exact .found (.inr hphase) hx hstate
      · next hstate =>
        cases h
        exact .exports hphase hx hstate
  · cases h

theorem ensure_took {x : Nat} (hphase : task.phase = .indexing x)
    (h : core.ensure i task x good = some (core', task')) : Took core i task core' task' := by
  unfold DaemonCore.ensure at h
  split at h
  · next held hx =>
    split at h
    · cases h
    · next hlock =>
      split at h
      · next fetched hindex =>
        cases h
        exact .indexed hphase hx hindex
      · next hindex =>
        split at h
        · next fetched hdisk =>
          cases h
          refine .loaded hphase hx (not_not.mp hlock) hindex ?_
          cases good with
          | true => exact hdisk
          | false => cases hdisk
        · cases h
          exact .builds hphase hx (not_not.mp hlock) hindex
  · cases h

/-- **The inversion of a step.** -/
theorem advance_took (h : core.advance i task good = some (core', task')) :
    Took core i task core' task' := by
  unfold DaemonCore.advance at h
  -- one goal for each phase, in the order of `advance`
  split at h
  · exact start_took (Option.some.inj h)
  · next hphase =>
    obtain ⟨t, ht, heq⟩ := Option.map_eq_some_iff.mp h
    cases heq
    exact look_took hphase ht
  · next hphase =>
    cases h
    exact .asks hphase
  · next hphase =>
    split at h
    · unfold DaemonCore.store at h
      split at h
      · next hx =>
        cases h
        exact .stored hphase hx
      · cases h
    · cases h
      exact .ended (by simp)
  · next hphase =>
    obtain ⟨t, ht, heq⟩ := Option.map_eq_some_iff.mp h
    cases heq
    unfold DaemonCore.read at ht
    split at ht
    · next hx =>
      split at ht
      · next hstate =>
        cases ht
        exact .found (.inl hphase) hx hstate
      · cases ht
        exact .locks hphase
    · cases ht
  · next hphase => exact lock_took hphase h
  · next hphase =>
    unfold DaemonCore.capture at h
    split at h
    · next hx =>
      split at h
      · cases h
        exact .captured hphase hx
      · cases h
        exact .captureFailed hphase hx
    · cases h
  · next hphase => exact ensure_took hphase h
  · next hphase =>
    unfold DaemonCore.build at h
    split at h
    · next hx =>
      split at h
      · cases h
        exact .built hphase hx
      · cases h
        exact .buildFailed hphase hx
    · cases h
  · next hphase =>
    cases h
    cases good with
    | true => exact .opened hphase
    | false => exact .askFailed
  · next x hphase =>
    have hclear : core.clear task x = (core', task') := Option.some.inj h
    unfold DaemonCore.clear at hclear
    split at hclear
    · next hx =>
      obtain ⟨rfl, rfl⟩ := Prod.mk.inj hclear
      exact .cleared hx
    · obtain ⟨rfl, rfl⟩ := Prod.mk.inj hclear
      exact .ended (by simp)
  · cases h

theorem Took.call (h : Took core i task core' task') : task'.call = task.call := by
  have hserve : ∀ fetched, (task.serve fetched).call = task.call := by
    intro fetched
    unfold DaemonTask.serve
    split
    · rfl
    · rfl
  cases h with
  | found | captured | indexed | loaded | built => exact hserve _
  | _ => rfl

end Steps

end TuxStack.Daemon
