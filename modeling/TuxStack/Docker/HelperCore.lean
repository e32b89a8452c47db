import Mathlib.Data.Finset.Basic
import TuxStack.Lib.Tasks
import TuxStack.Vfs.Provider

/-!
# The helper provider

`HelperProviderCore` (`crates/docker-core/src/vfs_providers/support.rs`), shared by the
volume and the bind provider: directories and files are read by a helper container, the
session, that is started when a call needs it and dropped when a call shows it broken.

Any number of calls run at once. A task is one call, and a step takes one task to its next
atomic operation, lock-protected section or await. `session` is a mutex that is held while
a session is being started; the two maps are locked for one step at a time.

The world answers: what a helper call replies (errors mapped, listings converted and sorted),
whether a session starts or stops, and whether a cached directory is young enough. Containers
get unused ids. `lookup` and `read_link` run like `getattr` and are left out.

`bumps`, `fetched`, `began` and `loaded` are history variables: how often the generation
was raised, and by when a helper call, a provider call or the load of the generation took place.
-/

namespace TuxStack.Docker

open Vfs Runs Tasks

structure FilesystemSession where
  containerId : String
  readOnly : Bool
deriving DecidableEq

/-- `fetched` is from when the listing was asked for. -/
structure CachedDirectory where
  generation : Nat
  entries : List VirtualDirectoryEntry
  fetched : Nat

structure OpenRemoteFile where
  path : VirtualPath
  generation : Nat
deriving DecidableEq

structure HelperProviderCore where
  nodeNamespace : Bytes
  session : Option FilesystemSession
  directories : VirtualPath → Option CachedDirectory
  handles : Nat → Option OpenRemoteFile
  nextHandle : Nat
  generation : Nat
  sessionEpoch : Nat
  active : Bool
  /-- the task that holds the mutex of `session` across an await -/
  lock : Option Nat
  /-- the containers that were started for the provider, and those not stopped since -/
  started : Finset String
  running : Finset String
  bumps : Nat

inductive HelperCall where
  | getattr (path : VirtualPath)
  | readDir (path : VirtualPath)
  | openFile (path : VirtualPath) (flags : BitVec 32)
  | readAt (handle : ProviderFileHandle) (offset size : Nat)
  | close (handle : ProviderFileHandle)
  | refresh (path : Option VirtualPath)
  | shutdown

inductive HelperOutcome where
  | metadata (metadata : VirtualMetadata)
  | listing (entries : List VirtualDirectoryEntry) (fetched : Nat)
  | handle (handle : ProviderFileHandle)
  | content (bytes : Bytes)
  | finished
  | failed (error : VfsError)

inductive HelperPhase where
  | called
  /-- `read_dir`: look into the cache -/
  | looking
  /-- `read_at`: look the handle up, then compare its epoch -/
  | resolving
  | comparing (opened : OpenRemoteFile)
  /-- `session`: load the active flag, then take the lock -/
  | entering
  | waiting
  /-- the lock is held while a session is started, or one that is not read-only stopped -/
  | starting
  | refusing (session : FilesystemSession)
  /-- the helper call is under way -/
  | operating (session : FilesystemSession) (fetched : Nat)
  /-- `invalidate_failed_session`, step by step -/
  | failing (session : FilesystemSession) (error : VfsError)
  | stopping (session : FilesystemSession) (error : VfsError)
  | raising (error : VfsError)
  | aging (error : VfsError)
  | clearing (error : VfsError)
  /-- `read_dir`: put the listing into the cache -/
  | storing (entries : List VirtualDirectoryEntry) (fetched : Nat)
  /-- `open`: take a number, load the epoch, file the handle -/
  | numbering
  | loading (id : Nat)
  | filing (id generation : Nat)
  /-- `refresh`: the generation is raised, the cache comes next -/
  | retaining
  /-- `shutdown`, step by step -/
  | shutRaising
  | shutAging
  | shutClearing
  | shutClosing
  | shutTaking
  | shutStopping (session : FilesystemSession)
  | returned (outcome : HelperOutcome)

/-- A call; `generation` is what a `read_dir` has loaded. -/
structure HelperTask where
  call : HelperCall
  phase : HelperPhase
  generation : Nat
  began : Nat
  loaded : Nat

inductive HelperReply where
  | metadata (metadata : VirtualMetadata)
  | entries (result : Except VfsError (List VirtualDirectoryEntry))
  | content (result : Except VfsError Bytes)
  | failed (error : VfsError) (invalidatesSession : Bool)

/-- What a step needs from outside; `proceed` is nothing. -/
inductive HelperAnswer where
  | proceed
  | young (isYoung : Bool)
  | started (containerId : String) (readOnly : Bool)
  | notStarted (error : VfsError)
  | stopped (result : Except VfsError Unit)
  | replied (reply : HelperReply)

/-- `AtomicU64::fetch_add` of one. -/
def fetchAdd (a : Nat) : Nat := (a + 1) % 18446744073709551616

def maxRemoteReadBytes : Nat := 16 * 1024 * 1024

namespace HelperTask

def goto (task : HelperTask) (phase : HelperPhase) : HelperTask := { task with phase := phase }

def ends (task : HelperTask) (outcome : HelperOutcome) : HelperTask :=
  task.goto (.returned outcome)

end HelperTask

namespace HelperProviderCore

def new (nodeNamespace : Bytes) : HelperProviderCore where
  nodeNamespace := nodeNamespace
  session := none
  directories := fun _ => none
  handles := fun _ => none
  nextHandle := 1
  generation := 1
  sessionEpoch := 1
  active := true
  lock := none
  started := ∅
  running := ∅
  bumps := 0

def nodeId (s : HelperProviderCore) (path : VirtualPath) : Bytes :=
  s.nodeNamespace ++ 0 :: path.asBytes

def rootMetadata (s : HelperProviderCore) : VirtualMetadata :=
  { VirtualMetadata.directory (s.nodeId VirtualPath.root) with generation := s.generation }

/-- `generation.fetch_add`. -/
def raise (s : HelperProviderCore) : HelperProviderCore :=
  { s with generation := fetchAdd s.generation, bumps := s.bumps + 1 }

/-- `session_epoch.fetch_add`. -/
def age (s : HelperProviderCore) : HelperProviderCore :=
  { s with sessionEpoch := fetchAdd s.sessionEpoch }

def clearDirectories (s : HelperProviderCore) : HelperProviderCore :=
  { s with directories := fun _ => none }

/-- The cache after a `refresh`: what is above or below the path goes. -/
def retain (s : HelperProviderCore) : Option VirtualPath → HelperProviderCore
  | none => s.clearDirectories
  | some path =>
    { s with
      directories := fun cached =>
        if cached.startsWith path || path.startsWith cached then none
        else s.directories cached }

/-! ## The steps of a call -/

def enter (s : HelperProviderCore) (task : HelperTask) : HelperProviderCore × HelperTask :=
  match task.call with
  | .getattr path =>
    (s, if path.isRoot then task.ends (.metadata s.rootMetadata) else task.goto .entering)
  | .readDir _ =>
    (s, { task with phase := .looking, generation := s.generation, loaded := s.bumps })
  | .openFile path flags =>
    (s,
      if !isReadOnlyOpen flags then task.ends (.failed .readOnly)
      else if path.isRoot then task.ends (.failed .isDirectory)
      else task.goto .entering)
  | .readAt _ _ size =>
    (s,
      if size > maxRemoteReadBytes then
        task.ends (.failed (.invalidInput "helper read request is too large"))
      else if !s.active then task.ends (.failed .stale)
      else task.goto .resolving)
  | .close handle =>
    match s.handles handle.id with
    | none => (s, task.ends (.failed .badHandle))
    | some opened =>
      ({ s with handles := Function.update s.handles handle.id none },
        if opened.path = handle.path ∧ opened.generation = handle.contentGeneration then
          task.ends .finished
        else task.ends (.failed .badHandle))
  | .refresh _ => (s.raise, task.goto .retaining)
  | .shutdown => ({ s with active := false }, task.goto .shutRaising)

/-- `read_dir` looks into the cache. -/
def look (s : HelperProviderCore) (task : HelperTask) (isYoung : Bool) : Option HelperTask :=
  match task.call with
  | .readDir path =>
    match s.directories path with
    | none => some (task.goto .entering)
    | some hit =>
      if hit.generation = task.generation ∧ isYoung then
        some (task.ends (.listing hit.entries hit.fetched))
      else some (task.goto .entering)
  | _ => none

/-- `read_at` looks its handle up. -/
def resolve (s : HelperProviderCore) (task : HelperTask) : Option HelperTask :=
  match task.call with
  | .readAt handle _ _ =>
    match s.handles handle.id with
    | none => some (task.ends (.failed .badHandle))
    | some opened => some (task.goto (.comparing opened))
  | _ => none

/-- `read_at` compares what it found with its handle and the epoch. -/
def compare (s : HelperProviderCore) (task : HelperTask) (opened : OpenRemoteFile) :
    Option HelperTask :=
  match task.call with
  | .readAt handle _ _ =>
    if opened.path ≠ handle.path ∨ opened.generation ≠ handle.contentGeneration ∨
        opened.generation ≠ s.sessionEpoch then
      some (task.ends (.failed .stale))
    else some (task.goto .entering)
  | _ => none

/-- `session` once it has the lock: it has a session, or starts one and keeps the lock. -/
def acquire (s : HelperProviderCore) (i : Nat) (task : HelperTask) :
    Option (HelperProviderCore × HelperTask) :=
  if s.lock ≠ none then none
  else
    match s.session with
    | some session => some (s, task.goto (.operating session s.bumps))
    | none => some ({ s with lock := some i }, task.goto .starting)

/-- `factory.start` has answered. -/
def start (s : HelperProviderCore) (task : HelperTask) :
    HelperAnswer → Option (HelperProviderCore × HelperTask)
  | .started containerId readOnly =>
    if containerId ∈ s.started then none
    else
      let session : FilesystemSession := ⟨containerId, readOnly⟩
      let s :=
        { s with
          started := insert containerId s.started
          running := insert containerId s.running }
      if !readOnly then some (s, task.goto (.refusing session))
      else
        some ({ s with session := some session, lock := none },
          task.goto (.operating session s.bumps))
  | .notStarted error => some ({ s with lock := none }, task.ends (.failed error))
  | _ => none

def stop (s : HelperProviderCore) (session : FilesystemSession) (result : Except VfsError Unit) :
    HelperProviderCore :=
  match result with
  | .ok () => { s with running := s.running.erase session.containerId }
  | .error _ => s

/-- The helper call has replied. -/
def reply (task : HelperTask) (session : FilesystemSession) (fetched : Nat) :
    HelperReply → Option HelperTask
  | .failed error invalidatesSession =>
    some (if invalidatesSession then task.goto (.failing session error)
      else task.ends (.failed error))
  | .metadata metadata =>
    match task.call with
    | .getattr _ => some (task.ends (.metadata metadata))
    | .openFile .. =>
      match metadata.fileType with
      | .regularFile => some (task.goto .numbering)
      | .directory => some (task.ends (.failed .isDirectory))
      | .symlink => some (task.ends (.failed (.invalidInput "cannot open a symlink")))
      | _ => some (task.ends (.failed .specialFile))
    | _ => none
  | .entries result =>
    match task.call, result with
    | .readDir _, .ok entries => some (task.goto (.storing entries fetched))
    | .readDir _, .error error => some (task.ends (.failed error))
    | _, _ => none
  | .content result =>
    match task.call, result with
    | .readAt .., .ok bytes => some (task.ends (.content bytes))
    | .readAt .., .error error => some (task.ends (.failed error))
    | _, _ => none

/-- `invalidate_failed_session` once it has the lock: it takes the session out if it is
still the one that failed. -/
def discard (s : HelperProviderCore) (task : HelperTask) (failed : FilesystemSession)
    (error : VfsError) : Option (HelperProviderCore × HelperTask) :=
  if s.lock ≠ none then none
  else
    match s.session with
    | none => some (s, task.ends (.failed error))
    | some session =>
      if session.containerId = failed.containerId then
        some ({ s with session := none }, task.goto (.stopping session error))
      else some (s, task.ends (.failed error))

/-- `read_dir` stores its listing under the generation it has loaded. -/
def store (s : HelperProviderCore) (task : HelperTask) (entries : List VirtualDirectoryEntry)
    (fetched : Nat) : Option (HelperProviderCore × HelperTask) :=
  match task.call with
  | .readDir path =>
    some ({ s with directories :=
        Function.update s.directories path (some ⟨task.generation, entries, fetched⟩) },
      task.ends (.listing entries fetched))
  | _ => none

/-- `open` files its handle. -/
def file (s : HelperProviderCore) (task : HelperTask) (id generation : Nat) :
    Option (HelperProviderCore × HelperTask) :=
  match task.call with
  | .openFile path _ =>
    some ({ s with handles := Function.update s.handles id (some ⟨path, generation⟩) },
      task.ends (.handle ⟨id, path, generation⟩))
  | _ => none

/-- `shutdown` takes the session out. -/
def take (s : HelperProviderCore) (task : HelperTask) : Option (HelperProviderCore × HelperTask) :=
  if s.lock ≠ none then none
  else
    match s.session with
    | none => some (s, task.ends .finished)
    | some session => some ({ s with session := none }, task.goto (.shutStopping session))

def advance (s : HelperProviderCore) (i : Nat) (task : HelperTask) (answer : HelperAnswer) :
    Option (HelperProviderCore × HelperTask) :=
  match task.phase with
  | .called => some (s.enter task)
  | .looking =>
    match answer with
    | .young isYoung => (s.look task isYoung).map fun task => (s, task)
    | _ => none
  | .resolving => (s.resolve task).map fun task => (s, task)
  | .comparing opened => (s.compare task opened).map fun task => (s, task)
  | .entering =>
    some (s, if s.active then task.goto .waiting else task.ends (.failed .stale))
  | .waiting => s.acquire i task
  | .starting => s.start task answer
  | .refusing session =>
    match answer with
    | .stopped result =>
      some ({ s.stop session result with lock := none }, task.ends (.failed .readOnly))
    | _ => none
  | .operating session fetched =>
    match answer with
    | .replied answer => (reply task session fetched answer).map fun task => (s, task)
    | _ => none
  | .failing session error => s.discard task session error
  | .stopping session error =>
    match answer with
    | .stopped result => some (s.stop session result, task.goto (.raising error))
    | _ => none
  | .raising error => some (s.raise, task.goto (.aging error))
  | .aging error => some (s.age, task.goto (.clearing error))
  | .clearing error => some (s.clearDirectories, task.ends (.failed error))
  | .storing entries fetched => s.store task entries fetched
  | .numbering =>
    some ({ s with nextHandle := fetchAdd s.nextHandle }, task.goto (.loading s.nextHandle))
  | .loading id => some (s, task.goto (.filing id s.sessionEpoch))
  | .filing id generation => s.file task id generation
  | .retaining =>
    match task.call with
    | .refresh path => some (s.retain path, task.ends .finished)
    | _ => none
  | .shutRaising => some (s.raise, task.goto .shutAging)
  | .shutAging => some (s.age, task.goto .shutClearing)
  | .shutClearing => some (s.clearDirectories, task.goto .shutClosing)
  | .shutClosing => some ({ s with handles := fun _ => none }, task.goto .shutTaking)
  | .shutTaking => s.take task
  | .shutStopping session =>
    match answer with
    | .stopped (.ok ()) => some (s.stop session (.ok ()), task.ends .finished)
    | .stopped (.error error) => some (s, task.ends (.failed error))
    | _ => none
  | .returned _ => none

/-! ## What each section can do -/

section Stop

variable (s : HelperProviderCore) (session : FilesystemSession) (result : Except VfsError Unit)

@[simp] theorem stop_generation : (s.stop session result).generation = s.generation := by
  cases result with
  | ok => rfl
  | error => rfl

@[simp] theorem stop_bumps : (s.stop session result).bumps = s.bumps := by
  cases result with
  | ok => rfl
  | error => rfl

@[simp] theorem stop_directories : (s.stop session result).directories = s.directories := by
  cases result with
  | ok => rfl
  | error => rfl

end Stop

variable {s s' : HelperProviderCore} {i : Nat} {task task' : HelperTask} {answer : HelperAnswer}

theorem enter_cases (h : s.enter task = (s', task')) :
    (s' = s ∧ ((∃ outcome, (∀ entries fetched, outcome ≠ .listing entries fetched) ∧
        task' = task.ends outcome) ∨ task' = task.goto .entering ∨ task' = task.goto .resolving)) ∨
    (∃ path, task.call = .readDir path ∧ s' = s ∧
      task' = { task with phase := .looking, generation := s.generation, loaded := s.bumps }) ∨
    (∃ handles outcome, (∀ entries fetched, outcome ≠ .listing entries fetched) ∧
      s' = { s with handles := handles } ∧ task' = task.ends outcome) ∨
    (s' = s.raise ∧ task' = task.goto .retaining) ∨
    task.call = .shutdown ∧ s' = { s with active := false } ∧ task' = task.goto .shutRaising := by
  unfold enter at h
  split at h
  · next path =>
    obtain ⟨rfl, rfl⟩ := Prod.mk.inj h
    refine .inl ⟨rfl, ?_⟩
    split
    · exact .inl ⟨_, by simp, rfl⟩
    · exact .inr (.inl rfl)
  · next path hcall =>
    obtain ⟨rfl, rfl⟩ := Prod.mk.inj h
    exact .inr (.inl ⟨path, hcall, rfl, rfl⟩)
  · next path flags =>
    obtain ⟨rfl, rfl⟩ := Prod.mk.inj h
    refine .inl ⟨rfl, ?_⟩
    split
    · exact .inl ⟨_, by simp, rfl⟩
    · split
      · exact .inl ⟨_, by simp, rfl⟩
      · exact .inr (.inl rfl)
  · next handle offset size =>
    obtain ⟨rfl, rfl⟩ := Prod.mk.inj h
    refine .inl ⟨rfl, ?_⟩
    split
    · exact .inl ⟨_, by simp, rfl⟩
    · split
      · exact .inl ⟨_, by simp, rfl⟩
      · exact .inr (.inr rfl)
  · next handle =>
    split at h
    · obtain ⟨rfl, rfl⟩ := Prod.mk.inj h
      exact .inl ⟨rfl, .inl ⟨_, by simp, rfl⟩⟩
    · obtain ⟨rfl, rfl⟩ := Prod.mk.inj h
      refine .inr (.inr (.inl ?_))
      split
      · exact ⟨_, _, by simp, rfl, rfl⟩
      · exact ⟨_, _, by simp, rfl, rfl⟩
  · next path =>
    obtain ⟨rfl, rfl⟩ := Prod.mk.inj h
    exact .inr (.inr (.inr (.inl ⟨rfl, rfl⟩)))
  · next hcall =>
    obtain ⟨rfl, rfl⟩ := Prod.mk.inj h
    exact .inr (.inr (.inr (.inr ⟨hcall, rfl, rfl⟩)))

theorem reply_cases {session : FilesystemSession} {fetched : Nat} {answer : HelperReply}
    (h : reply task session fetched answer = some task') :
    (∃ outcome, (∀ entries fetched, outcome ≠ .listing entries fetched) ∧
      (outcome = .finished → False) ∧ task' = task.ends outcome) ∨
    (∃ error, task' = task.goto (.failing session error)) ∨
    (∃ path flags, task.call = .openFile path flags ∧ task' = task.goto .numbering) ∨
    ∃ path entries, task.call = .readDir path ∧ task' = task.goto (.storing entries fetched) := by
  unfold reply at h
  split at h
  · next error invalidatesSession =>
    cases h
    split
    · exact .inr (.inl ⟨error, rfl⟩)
    · exact .inl ⟨.failed error, by simp, by simp, rfl⟩
  · next metadata =>
    split at h
    · cases h
      exact .inl ⟨.metadata metadata, by simp, by simp, rfl⟩
    · next path flags hcall =>
      split at h
      · cases h
        exact .inr (.inr (.inl ⟨path, flags, hcall, rfl⟩))
      all_goals
        cases h
        exact .inl ⟨.failed _, by simp, by simp, rfl⟩
    · cases h
  · next result =>
    split at h
    · next path entries hcall =>
      cases h
      exact .inr (.inr (.inr ⟨path, entries, hcall, rfl⟩))
    · cases h
      exact .inl ⟨.failed _, by simp, by simp, rfl⟩
    · cases h
  · next result =>
    split at h
    · cases h
      exact .inl ⟨.content _, by simp, by simp, rfl⟩
    · cases h
      exact .inl ⟨.failed _, by simp, by simp, rfl⟩
    · cases h

/-- **What a step can do**, by the phase of the task: the guards it has passed, the core and
the task it leaves. -/
inductive Advances (s : HelperProviderCore) (i : Nat) (task : HelperTask) :
    HelperPhase → HelperProviderCore → HelperTask → Prop where
  | called {s' : _} {task' : _} (h : s.enter task = (s', task')) :
      Advances s i task .called s' task'
  | missed : Advances s i task .looking s (task.goto .entering)
  | hit {path hit} (hcall : task.call = .readDir path) (hhit : s.directories path = some hit)
      (hsame : hit.generation = task.generation) :
      Advances s i task .looking s (task.ends (.listing hit.entries hit.fetched))
  | unknown : Advances s i task .resolving s (task.ends (.failed .badHandle))
  | resolved {opened} : Advances s i task .resolving s (task.goto (.comparing opened))
  | differs {opened} : Advances s i task (.comparing opened) s (task.ends (.failed .stale))
  | compared {opened handle offset size} (hcall : task.call = .readAt handle offset size)
      (hpath : opened.path = handle.path) (hcontent : opened.generation = handle.contentGeneration)
      (hepoch : opened.generation = s.sessionEpoch) :
      Advances s i task (.comparing opened) s (task.goto .entering)
  | inactive : Advances s i task .entering s (task.ends (.failed .stale))
  | entered (hactive : s.active) : Advances s i task .entering s (task.goto .waiting)
  | shared {session} (hlock : s.lock = none) (hsession : s.session = some session) :
      Advances s i task .waiting s (task.goto (.operating session s.bumps))
  | locked (hlock : s.lock = none) (hsession : s.session = none) :
      Advances s i task .waiting { s with lock := some i } (task.goto .starting)
  | writable {containerId} (hfresh : containerId ∉ s.started) :
      Advances s i task .starting
        { s with
          started := insert containerId s.started
          running := insert containerId s.running }
        (task.goto (.refusing ⟨containerId, false⟩))
  | started {containerId} (hfresh : containerId ∉ s.started) :
      Advances s i task .starting
        { s with
          started := insert containerId s.started
          running := insert containerId s.running
          session := some ⟨containerId, true⟩
          lock := none }
        (task.goto (.operating ⟨containerId, true⟩ s.bumps))
  | notStarted {error} :
      Advances s i task .starting { s with lock := none } (task.ends (.failed error))
  | refused {session result} :
      Advances s i task (.refusing session) { s.stop session result with lock := none }
        (task.ends (.failed .readOnly))
  | replied {session fetched reply} {task' : _}
      (h : HelperProviderCore.reply task session fetched reply = some task') :
      Advances s i task (.operating session fetched) s task'
  | replaced {failed error} (hlock : s.lock = none) :
      Advances s i task (.failing failed error) s (task.ends (.failed error))
  | discarded {failed session error} (hlock : s.lock = none) (hsession : s.session = some session)
      (hsame : session.containerId = failed.containerId) :
      Advances s i task (.failing failed error) { s with session := none }
        (task.goto (.stopping session error))
  | stopped {session result error} :
      Advances s i task (.stopping session error) (s.stop session result)
        (task.goto (.raising error))
  | raised {error} : Advances s i task (.raising error) s.raise (task.goto (.aging error))
  | aged {error} : Advances s i task (.aging error) s.age (task.goto (.clearing error))
  | cleared {error} :
      Advances s i task (.clearing error) s.clearDirectories (task.ends (.failed error))
  | stored {path entries fetched} (hcall : task.call = .readDir path) :
      Advances s i task (.storing entries fetched)
        { s with directories :=
          Function.update s.directories path (some ⟨task.generation, entries, fetched⟩) }
        (task.ends (.listing entries fetched))
  | numbered :
      Advances s i task .numbering { s with nextHandle := fetchAdd s.nextHandle }
        (task.goto (.loading s.nextHandle))
  | loaded {id} : Advances s i task (.loading id) s (task.goto (.filing id s.sessionEpoch))
  | filed {path flags id generation} (hcall : task.call = .openFile path flags) :
      Advances s i task (.filing id generation)
        { s with handles := Function.update s.handles id (some ⟨path, generation⟩) }
        (task.ends (.handle ⟨id, path, generation⟩))
  | retained {path} (hcall : task.call = .refresh path) :
      Advances s i task .retaining (s.retain path) (task.ends .finished)
  | shutRaised : Advances s i task .shutRaising s.raise (task.goto .shutAging)
  | shutAged : Advances s i task .shutAging s.age (task.goto .shutClearing)
  | shutCleared : Advances s i task .shutClearing s.clearDirectories (task.goto .shutClosing)
  | shutClosed :
      Advances s i task .shutClosing { s with handles := fun _ => none } (task.goto .shutTaking)
  | empty (hlock : s.lock = none) (hsession : s.session = none) :
      Advances s i task .shutTaking s (task.ends .finished)
  | taken {session} (hlock : s.lock = none) (hsession : s.session = some session) :
      Advances s i task .shutTaking { s with session := none } (task.goto (.shutStopping session))
  | shutStopped {session} :
      Advances s i task (.shutStopping session) (s.stop session (.ok ())) (task.ends .finished)
  | shutFailed {session error} :
      Advances s i task (.shutStopping session) s (task.ends (.failed error))

theorem look_advances {isYoung : Bool} (h : s.look task isYoung = some task') :
    s.Advances i task .looking s task' := by
  unfold look at h
  split at h
  · next path hcall =>
    split at h
    · cases h
      exact .missed
    · next hit hhit =>
      split at h
      · next hsame =>
        cases h
        exact .hit hcall hhit hsame.1
      · cases h
        exact .missed
  · cases h

theorem compare_advances {opened : OpenRemoteFile} (h : s.compare task opened = some task') :
    s.Advances i task (.comparing opened) s task' := by
  unfold compare at h
  split at h
  · next handle offset size hcall =>
    split at h
    · cases h
      exact .differs
    · next hsame =>
      simp only [not_or, not_not] at hsame
      cases h
      exact .compared hcall hsame.1 hsame.2.1 hsame.2.2
  · cases h

theorem start_advances (h : s.start task answer = some (s', task')) :
    s.Advances i task .starting s' task' := by
  unfold start at h
  split at h
  · next containerId readOnly =>
    split at h
    · cases h
    · next hfresh =>
      cases readOnly with
      | false =>
        cases h
        exact .writable hfresh
      | true =>
        cases h
        exact .started hfresh
  · cases h
    exact .notStarted
  · cases h

theorem discard_advances {failed : FilesystemSession} {error : VfsError}
    (h : s.discard task failed error = some (s', task')) :
    s.Advances i task (.failing failed error) s' task' := by
  unfold discard at h
  split at h
  · cases h
  · next hlock =>
    have hfree := not_not.mp hlock
    split at h
    · cases h
      exact .replaced hfree
    · next session hsession =>
      split at h
      · next hsame =>
        cases h
        exact .discarded hfree hsession hsame
      · cases h
        exact .replaced hfree

theorem advance_cases {phase : HelperPhase} (hphase : task.phase = phase)
    (h : s.advance i task answer = some (s', task')) : s.Advances i task phase s' task' := by
  unfold advance at h
  rw [hphase] at h
  cases phase with
  | called => exact .called (Option.some.inj h)
  | looking =>
    cases answer with
    | young isYoung =>
      obtain ⟨looked, hlook, h⟩ := Option.map_eq_some_iff.mp h
      cases h
      exact look_advances hlook
    | _ => cases h
  | resolving =>
    obtain ⟨found, hfound, h⟩ := Option.map_eq_some_iff.mp h
    cases h
    unfold resolve at hfound
    split at hfound
    · split at hfound
      · cases hfound
        exact .unknown
      · cases hfound
        exact .resolved
    · cases hfound
  | comparing opened =>
    obtain ⟨compared, hcompare, h⟩ := Option.map_eq_some_iff.mp h
    cases h
    exact compare_advances hcompare
  | entering =>
    cases h
    split
    · next hactive => exact .entered hactive
    · exact .inactive
  | waiting =>
    dsimp only [acquire] at h
    split at h
    · cases h
    · next hlock =>
      split at h
      · next session hsession =>
        cases h
        exact .shared (not_not.mp hlock) hsession
      · next hsession =>
        cases h
        exact .locked (not_not.mp hlock) hsession
  | starting => exact start_advances h
  | refusing session =>
    cases answer with
    | stopped result =>
      cases h
      exact .refused
    | _ => cases h
  | operating session fetched =>
    cases answer with
    | replied answer =>
      obtain ⟨replied, hreply, h⟩ := Option.map_eq_some_iff.mp h
      cases h
      exact .replied hreply
    | _ => cases h
  | failing session error => exact discard_advances h
  | stopping session error =>
    cases answer with
    | stopped result =>
      cases h
      exact .stopped
    | _ => cases h
  | storing entries fetched =>
    dsimp only [store] at h
    split at h
    · next path hcall =>
      cases h
      exact .stored hcall
    · cases h
  | filing id generation =>
    dsimp only [file] at h
    split at h
    · next path flags hcall =>
      cases h
      exact .filed hcall
    · cases h
  | retaining =>
    dsimp only at h
    split at h
    · next path hcall =>
      cases h
      exact .retained hcall
    · cases h
  | shutTaking =>
    dsimp only [take] at h
    split at h
    · cases h
    · next hlock =>
      split at h
      · next hsession =>
        cases h
        exact .empty (not_not.mp hlock) hsession
      · next session hsession =>
        cases h
        exact .taken (not_not.mp hlock) hsession
  | shutStopping session =>
    dsimp only at h
    split at h
    · cases h
      exact .shutStopped
    · cases h
      exact .shutFailed
    · cases h
  | raising | aging | clearing | numbering | loading | shutRaising | shutAging | shutClearing
  | shutClosing =>
    cases h
    constructor
  | returned outcome => cases h

end HelperProviderCore

/-! ## The system -/

def helperProgram : Program HelperProviderCore HelperTask HelperCall HelperAnswer where
  spawn s call := ⟨call, .called, 0, s.bumps, s.bumps⟩
  advance := HelperProviderCore.advance

abbrev HelperSystem := Pool HelperProviderCore HelperTask

abbrev HelperAction := Action HelperCall HelperAnswer

def HelperSystem.machine : Machine HelperSystem HelperAction :=
  helperProgram.machine fun core => ∃ nodeNamespace, core = .new nodeNamespace

end TuxStack.Docker
