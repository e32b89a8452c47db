import TuxStack.Docker.Archive
import TuxStack.Docker.Container
import TuxStack.Lib.Tasks

/-!
# Snapshots and their generations

`ContainerRootfsSnapshotProvider` (`crates/docker-core/src/vfs_providers/container.rs`) under
concurrent calls. A task is one call, and a step takes it to its next atomic operation, lock
or await. `capture_lock` is held over a whole capture, the write lock of `state` from before
the generation is stored until the new state is in place.

`read_at` compares its handle with the generation first: this decides whether the content is
read, and no later refresh changes that (`served_after_refresh`).

What Docker exports, what its archives hold and whether a file can be read is answered from
outside. `lookup`, `read_dir` and `read_link` take their snapshot as `getattr` does and are
left out, and so are capture times.
-/

namespace TuxStack.Tar.TarIndex

open Vfs

def contentPath (index : TarIndex) (path : VirtualPath) : Except VfsError VirtualPath :=
  let path := TarPath.fromVirtual path
  match index.get path with
  | none => .error .notFound
  | some entry => do
      let content ← if entry.kind = .hardlink then index.resolveHardlink path else .ok entry
      match content.kind with
      | .regularFile => content.path.toVirtual
      | .directory => .error .isDirectory
      | .characterDevice | .blockDevice | .namedPipe | .other => .error .specialFile
      | _ => .error (.invalidInput "node is not a regular file")

end TuxStack.Tar.TarIndex

namespace TuxStack.Docker

open Vfs Tar Runs Tasks

structure SnapshotCore where
  provider : ContainerRootfsSnapshotProvider
  content : ContainerArchiveProvider
  /-- the task that holds `capture_lock` -/
  captureLock : Option Nat
  /-- the task that holds the write lock of `state` -/
  stateLock : Option Nat

inductive SnapshotCall where
  | capture
  | refresh
  | getattr (path : VirtualPath)
  | openFile (path : VirtualPath) (flags : BitVec 32)
  | readAt (handle : ProviderFileHandle) (offset size : Nat)
  | close (handle : ProviderFileHandle)

inductive SnapshotOutcome where
  | finished
  | metadata (metadata : VirtualMetadata)
  | handle (handle : ProviderFileHandle)
  | content (bytes : Bytes)
  | failed (error : VfsError)

inductive SnapshotPhase where
  | called
  /-- `root_metadata`: the generation is loaded once more -/
  | rooting (loaded : Nat)
  /-- `snapshot`: read the state, take `capture_lock`, read the state again -/
  | looking
  | locking
  | rechecking
  /-- load the generation to capture with -/
  | loading
  /-- `capture_generation`, step by step -/
  | exporting (generation : Nat)
  | awaiting (generation : Nat) (index : TarIndex)
  | storing (generation : Nat) (index : TarIndex)
  | publishing (generation : Nat) (index : TarIndex)
  | captured
  /-- the call has its snapshot -/
  | serving (snapshot : SnapshotState)
  | opening (generation : Nat) (contentPath : VirtualPath)
  /-- `read_at`: look the handle up, then read the content -/
  | resolving
  | reading (backing : ContentBacking)
  | returned (outcome : SnapshotOutcome)

/-- A call. `found` is the generation and the state from when it got `capture_lock`, `seen`
the generation that a `read_at` has compared its handle with; no step reads them. -/
structure SnapshotTask where
  call : SnapshotCall
  phase : SnapshotPhase
  found : Nat × Option SnapshotState
  seen : Nat

/-- What a step needs from outside; `proceed` is nothing. -/
inductive SnapshotAnswer where
  | proceed
  | exported (stream : Except VfsError ArchiveByteStream)
  | archived (stream : Except VfsError ArchiveByteStream)
  | read (result : Except VfsError Unit)

namespace SnapshotTask

def goto (task : SnapshotTask) (phase : SnapshotPhase) : SnapshotTask :=
  { task with phase := phase }

def ends (task : SnapshotTask) (outcome : SnapshotOutcome) : SnapshotTask :=
  task.goto (.returned outcome)

end SnapshotTask

namespace SnapshotCore

def release (s : SnapshotCore) : SnapshotCore := { s with captureLock := none }

/-- What an export becomes: the index of the stream with the mounts laid over it. -/
def exportedIndex (p : ContainerRootfsSnapshotProvider)
    (stream : Except VfsError ArchiveByteStream) : Except VfsError TarIndex := do
  let stream ← stream
  let index ← TarIndex.fromStream stream p.limits
  applyMountOverlays index p.mounts p.limits.maxEntries

/-- The archive provider opens a file that Docker answers with `stream`. -/
def openContent (content : ContainerArchiveProvider)
    (stream : Except VfsError ArchiveByteStream) (path : VirtualPath) (flags : BitVec 32) :
    Except VfsError (ProviderFileHandle × ContainerArchiveProvider) :=
  { content with source := fun _ _ => stream }.openFile path flags

/-! ## The steps of a call -/

def enter (s : SnapshotCore) (task : SnapshotTask) : SnapshotCore × SnapshotTask :=
  match task.call with
  | .capture | .refresh => (s, task.goto .locking)
  | .getattr path =>
    (s, if path.isRoot then task.goto (.rooting s.provider.generation) else task.goto .looking)
  | .openFile _ flags =>
    (s, if !isReadOnlyOpen flags then task.ends (.failed .readOnly) else task.goto .looking)
  | .readAt handle _ _ =>
    let task := { task with seen := s.provider.generation }
    (s,
      if handle.contentGeneration ≠ s.provider.generation then task.ends (.failed .stale)
      else task.goto .resolving)
  | .close handle =>
    match s.content.close handle with
    | .ok content => ({ s with content := content }, task.ends .finished)
    | .error error => (s, task.ends (.failed error))

/-- `capture_lock` is free: the task takes it. -/
def lock (s : SnapshotCore) (i : Nat) (task : SnapshotTask) :
    Option (SnapshotCore × SnapshotTask) :=
  if s.captureLock ≠ none then none
  else
    let task := { task with found := (s.provider.generation, s.provider.state) }
    some ({ s with captureLock := some i },
      match task.call with
      | .capture | .refresh => task.goto .loading
      | _ => task.goto .rechecking)

/-- The generation to capture with: the provider's own, or the next for a `refresh`. -/
def load (s : SnapshotCore) (task : SnapshotTask) : SnapshotCore × SnapshotTask :=
  match task.call with
  | .refresh =>
    if s.provider.generation + 1 ≤ u64Max then
      (s, task.goto (.exporting (s.provider.generation + 1)))
    else (s.release, task.ends (.failed (.unavailable "snapshot generation exhausted")))
  | _ => (s, task.goto (.exporting s.provider.generation))

/-- The export has been read, or has failed. -/
def index (s : SnapshotCore) (task : SnapshotTask) (generation : Nat)
    (stream : Except VfsError ArchiveByteStream) : SnapshotCore × SnapshotTask :=
  match exportedIndex s.provider stream with
  | .ok index => (s, task.goto (.awaiting generation index))
  | .error error => (s.release, task.ends (.failed error))

/-- `capture_generation` has returned; `snapshot` reads the state once more. -/
def finish (s : SnapshotCore) (task : SnapshotTask) : Option (SnapshotCore × SnapshotTask) :=
  match task.call with
  | .capture | .refresh => some (s.release, task.ends .finished)
  | _ =>
    if s.stateLock ≠ none then none
    else
      some (s.release,
        match s.provider.state with
        | some snapshot => task.goto (.serving snapshot)
        | none => task.ends (.failed (.unavailable "container snapshot capture failed")))

/-- A `getattr` or an `open` with its snapshot. -/
def serve (s : SnapshotCore) (task : SnapshotTask) (snapshot : SnapshotState) :
    Option SnapshotTask :=
  match task.call with
  | .getattr path =>
    match snapshot.index.getVirtual path with
    | none => some (task.ends (.failed .notFound))
    | some entry =>
      match snapshot.index.metadata entry.path
        (s.provider.identityPrefix snapshot.generation) snapshot.generation with
      | .ok metadata => some (task.ends (.metadata metadata))
      | .error error => some (task.ends (.failed error))
  | .openFile path _ =>
    match snapshot.index.contentPath path with
    | .ok contentPath => some (task.goto (.opening snapshot.generation contentPath))
    | .error error => some (task.ends (.failed error))
  | _ => none

/-- The archive provider has opened the content, or has failed to. -/
def opened (s : SnapshotCore) (task : SnapshotTask) (generation : Nat) (contentPath : VirtualPath)
    (stream : Except VfsError ArchiveByteStream) : Option (SnapshotCore × SnapshotTask) :=
  match task.call with
  | .openFile path flags =>
    match openContent s.content stream contentPath flags with
    | .ok (handle, content) =>
      some ({ s with content := content },
        task.ends (.handle { handle with path := path, contentGeneration := generation }))
    | .error error => some (s, task.ends (.failed error))
  | _ => none

/-- `read_at` looks its handle up in the archive provider. -/
def resolve (s : SnapshotCore) (task : SnapshotTask) : Option SnapshotTask :=
  match task.call with
  | .readAt handle _ _ =>
    match s.content.handles.lookup handle.id with
    | none => some (task.ends (.failed .badHandle))
    | some backing => some (task.goto (.reading backing))
  | _ => none

def read (task : SnapshotTask) (backing : ContentBacking) (result : Except VfsError Unit) :
    Option SnapshotTask :=
  match task.call, result with
  | .readAt _ offset size, .ok () => some (task.ends (.content (backing.readAt offset size)))
  | .readAt .., .error error => some (task.ends (.failed error))
  | _, _ => none

def advance (s : SnapshotCore) (i : Nat) (task : SnapshotTask) (answer : SnapshotAnswer) :
    Option (SnapshotCore × SnapshotTask) :=
  match task.phase with
  | .called => some (s.enter task)
  | .rooting loaded =>
    some (s, task.ends (.metadata
      { VirtualMetadata.directory (s.provider.identityPrefix loaded) with
        generation := s.provider.generation }))
  | .looking =>
    if s.stateLock ≠ none then none
    else
      some (s,
        match s.provider.state with
        | some snapshot => task.goto (.serving snapshot)
        | none => task.goto .locking)
  | .locking => s.lock i task
  | .rechecking =>
    if s.stateLock ≠ none then none
    else
      match s.provider.state with
      | some snapshot => some (s.release, task.goto (.serving snapshot))
      | none => some (s, task.goto .loading)
  | .loading => some (s.load task)
  | .exporting generation =>
    match answer with
    | .exported stream => some (s.index task generation stream)
    | _ => none
  | .awaiting generation index =>
    if s.stateLock ≠ none then none
    else some ({ s with stateLock := some i }, task.goto (.storing generation index))
  | .storing generation index =>
    some ({ s with provider := { s.provider with generation := generation } },
      task.goto (.publishing generation index))
  | .publishing generation index =>
    some ({ s with
        provider := { s.provider with state := some ⟨index, generation⟩ }
        stateLock := none },
      task.goto .captured)
  | .captured => s.finish task
  | .serving snapshot => (s.serve task snapshot).map fun task => (s, task)
  | .opening generation contentPath =>
    match answer with
    | .archived stream => s.opened task generation contentPath stream
    | _ => none
  | .resolving => (s.resolve task).map fun task => (s, task)
  | .reading backing =>
    match answer with
    | .read result => (read task backing result).map fun task => (s, task)
    | _ => none
  | .returned _ => none

/-- The steps of a capture, one after the other, are the capture of the provider. -/
theorem captureGeneration_eq (p : ContainerRootfsSnapshotProvider)
    (stream : Except VfsError ArchiveByteStream) (generation : Nat) :
    p.captureGeneration stream generation = (exportedIndex p stream).map fun index =>
      { p with generation := generation, state := some ⟨index, generation⟩ } := by
  unfold ContainerRootfsSnapshotProvider.captureGeneration exportedIndex
  cases stream with
  | error error => rfl
  | ok stream =>
    show (TarIndex.fromStream stream p.limits).bind _ =
      Except.map _ ((TarIndex.fromStream stream p.limits).bind _)
    cases TarIndex.fromStream stream p.limits with
    | error error => rfl
    | ok index =>
      show (applyMountOverlays index p.mounts p.limits.maxEntries).bind _ =
        Except.map _ (applyMountOverlays index p.mounts p.limits.maxEntries)
      cases applyMountOverlays index p.mounts p.limits.maxEntries with
      | error error => rfl
      | ok index => rfl

end SnapshotCore

/-! ## What a step does -/

/-- The task holds `capture_lock`. -/
def SnapshotPhase.Captures : SnapshotPhase → Prop
  | .rechecking | .loading | .exporting _ | .awaiting .. | .storing .. | .publishing ..
  | .captured => True
  | _ => False

namespace SnapshotCore

variable {s s' : SnapshotCore} {i : Nat} {task task' : SnapshotTask} {answer : SnapshotAnswer}

theorem enter_cases (h : s.enter task = (s', task')) :
    ∃ content, s' = { s with content := content } ∧
      ((task.call = .capture ∨ task.call = .refresh) ∧ task' = task.goto .locking ∨
        (∃ handle offset size, task.call = .readAt handle offset size ∧
          (handle.contentGeneration ≠ s.provider.generation ∧
              task' = { task with seen := s.provider.generation }.ends (.failed .stale) ∨
            handle.contentGeneration = s.provider.generation ∧
              task' = { task with seen := s.provider.generation }.goto .resolving)) ∨
        (∀ handle offset size, task.call ≠ .readAt handle offset size) ∧ task.call ≠ .refresh ∧
          ((∃ loaded, task' = task.goto (.rooting loaded)) ∨ task' = task.goto .looking ∨
            ∃ outcome, task' = task.ends outcome)) := by
  unfold enter at h
  split at h
  · next hcall =>
    cases h
    exact ⟨_, rfl, .inl ⟨.inl hcall, rfl⟩⟩
  · next hcall =>
    cases h
    exact ⟨_, rfl, .inl ⟨.inr hcall, rfl⟩⟩
  · next path hcall =>
    cases h
    refine ⟨_, rfl, .inr (.inr ⟨by simp [hcall], by simp [hcall], ?_⟩)⟩
    split
    · exact .inl ⟨_, rfl⟩
    · exact .inr (.inl rfl)
  · next path flags hcall =>
    cases h
    refine ⟨_, rfl, .inr (.inr ⟨by simp [hcall], by simp [hcall], ?_⟩)⟩
    split
    · exact .inr (.inr ⟨_, rfl⟩)
    · exact .inr (.inl rfl)
  · next handle offset size hcall =>
    cases h
    refine ⟨_, rfl, .inr (.inl ⟨handle, offset, size, hcall, ?_⟩)⟩
    split
    · next hstale => exact .inl ⟨hstale, rfl⟩
    · next hfresh => exact .inr ⟨not_not.mp hfresh, rfl⟩
  · next handle hcall =>
    split at h
    · cases h
      exact ⟨_, rfl, .inr (.inr ⟨by simp [hcall], by simp [hcall],
        .inr (.inr ⟨_, rfl⟩)⟩)⟩
    · cases h
      exact ⟨_, rfl, .inr (.inr ⟨by simp [hcall], by simp [hcall],
        .inr (.inr ⟨_, rfl⟩)⟩)⟩

/-- **What a step can do**, by the phase of the task: the locks it has found free, the core
and the task it leaves. -/
inductive Advances (s : SnapshotCore) (i : Nat) (task : SnapshotTask) :
    SnapshotPhase → SnapshotCore → SnapshotTask → Prop where
  | called {s' : _} {task' : _} (h : s.enter task = (s', task')) :
      Advances s i task .called s' task'
  | rooted {loaded} :
      Advances s i task (.rooting loaded) s (task.ends (.metadata
        { VirtualMetadata.directory (s.provider.identityPrefix loaded) with
          generation := s.provider.generation }))
  | found {snapshot} (hfree : s.stateLock = none) (hstate : s.provider.state = some snapshot) :
      Advances s i task .looking s (task.goto (.serving snapshot))
  | missing (hfree : s.stateLock = none) (hstate : s.provider.state = none) :
      Advances s i task .looking s (task.goto .locking)
  | locked (hfree : s.captureLock = none) :
      Advances s i task .locking { s with captureLock := some i }
        ({ task with found := (s.provider.generation, s.provider.state) }.goto .loading)
  | lockedAgain (hfree : s.captureLock = none) :
      Advances s i task .locking { s with captureLock := some i }
        ({ task with found := (s.provider.generation, s.provider.state) }.goto .rechecking)
  | foundAgain {snapshot} (hfree : s.stateLock = none) (hstate : s.provider.state = some snapshot) :
      Advances s i task .rechecking s.release (task.goto (.serving snapshot))
  | missingAgain (hfree : s.stateLock = none) (hstate : s.provider.state = none) :
      Advances s i task .rechecking s (task.goto .loading)
  | loaded :
      Advances s i task .loading s (task.goto (.exporting
        (match task.call with
          | .refresh => s.provider.generation + 1
          | _ => s.provider.generation)))
  | exhausted {error} : Advances s i task .loading s.release (task.ends (.failed error))
  | exported {generation index} :
      Advances s i task (.exporting generation) s (task.goto (.awaiting generation index))
  | notExported {generation error} :
      Advances s i task (.exporting generation) s.release (task.ends (.failed error))
  | awaited {generation index} (hfree : s.stateLock = none) :
      Advances s i task (.awaiting generation index) { s with stateLock := some i }
        (task.goto (.storing generation index))
  | stored {generation index} :
      Advances s i task (.storing generation index)
        { s with provider := { s.provider with generation := generation } }
        (task.goto (.publishing generation index))
  | published {generation index} :
      Advances s i task (.publishing generation index)
        { s with
          provider := { s.provider with state := some ⟨index, generation⟩ }
          stateLock := none }
        (task.goto .captured)
  | finished (hcall : task.call = .capture ∨ task.call = .refresh) :
      Advances s i task .captured s.release (task.ends .finished)
  | served {snapshot} (hcall : task.call ≠ .refresh) (hstate : s.provider.state = some snapshot) :
      Advances s i task .captured s.release (task.goto (.serving snapshot))
  | vanished {error} (hcall : task.call ≠ .refresh) :
      Advances s i task .captured s.release (task.ends (.failed error))
  | answered {snapshot outcome} (hcall : task.call ≠ .refresh) :
      Advances s i task (.serving snapshot) s (task.ends outcome)
  | located {snapshot contentPath} (hcall : task.call ≠ .refresh) :
      Advances s i task (.serving snapshot) s
        (task.goto (.opening snapshot.generation contentPath))
  | opened {generation contentPath content outcome} (hcall : task.call ≠ .refresh) :
      Advances s i task (.opening generation contentPath) { s with content := content }
        (task.ends outcome)
  | unknown (hcall : task.call ≠ .refresh) :
      Advances s i task .resolving s (task.ends (.failed .badHandle))
  | resolved {backing} : Advances s i task .resolving s (task.goto (.reading backing))
  | read {backing outcome} (hcall : task.call ≠ .refresh) :
      Advances s i task (.reading backing) s (task.ends outcome)

theorem load_advances (h : s.load task = (s', task')) : s.Advances i task .loading s' task' := by
  have hloaded : s.Advances i task .loading s _ := .loaded
  unfold load at h
  split at h
  · next hcall =>
    split at h
    · rw [hcall] at hloaded
      cases h
      exact hloaded
    · cases h
      exact .exhausted
  · next hother =>
    cases h
    convert hloaded using 3
    split
    · next hcall => exact absurd hcall hother
    · rfl

theorem finish_advances (h : s.finish task = some (s', task')) :
    s.Advances i task .captured s' task' := by
  unfold finish at h
  split at h
  · next hcall =>
    cases h
    exact .finished (.inl hcall)
  · next hcall =>
    cases h
    exact .finished (.inr hcall)
  · next hrefresh =>
    split at h
    · cases h
    · cases h
      split
      · next snapshot hstate => exact .served hrefresh hstate
      · exact .vanished hrefresh

theorem serve_advances {snapshot : SnapshotState} (h : s.serve task snapshot = some task') :
    s.Advances i task (.serving snapshot) s task' := by
  unfold serve at h
  split at h
  · next path hcall =>
    have hrefresh : task.call ≠ .refresh := by simp [hcall]
    split at h
    · cases h
      exact .answered hrefresh
    · split at h
      · cases h
        exact .answered hrefresh
      · cases h
        exact .answered hrefresh
  · next path flags hcall =>
    have hrefresh : task.call ≠ .refresh := by simp [hcall]
    split at h
    · cases h
      exact .located hrefresh
    · cases h
      exact .answered hrefresh
  · cases h

theorem opened_advances {generation : Nat} {contentPath : VirtualPath}
    {stream : Except VfsError ArchiveByteStream}
    (h : s.opened task generation contentPath stream = some (s', task')) :
    s.Advances i task (.opening generation contentPath) s' task' := by
  unfold opened at h
  split at h
  · next path flags hcall =>
    split at h
    · cases h
      exact .opened (by simp [hcall])
    · cases h
      exact .opened (by simp [hcall])
  · cases h

theorem advance_cases {phase : SnapshotPhase} (hphase : task.phase = phase)
    (h : s.advance i task answer = some (s', task')) : s.Advances i task phase s' task' := by
  unfold advance at h
  rw [hphase] at h
  cases phase with
  | called => exact .called (Option.some.inj h)
  | looking =>
    dsimp only at h
    split at h
    · cases h
    · next hlock =>
      cases h
      split
      · next snapshot hstate => exact .found (not_not.mp hlock) hstate
      · next hstate => exact .missing (not_not.mp hlock) hstate
  | locking =>
    dsimp only [lock] at h
    split at h
    · cases h
    · next hlock =>
      cases h
      split
      · exact .locked (not_not.mp hlock)
      · exact .locked (not_not.mp hlock)
      · exact .lockedAgain (not_not.mp hlock)
  | rechecking =>
    dsimp only at h
    split at h
    · cases h
    · next hlock =>
      split at h
      · next snapshot hstate =>
        cases h
        exact .foundAgain (not_not.mp hlock) hstate
      · next hstate =>
        cases h
        exact .missingAgain (not_not.mp hlock) hstate
  | loading => exact load_advances (Option.some.inj h)
  | exporting generation =>
    cases answer with
    | exported stream =>
      have h := Option.some.inj h
      unfold index at h
      split at h
      · cases h
        exact .exported
      · cases h
        exact .notExported
    | _ => cases h
  | awaiting generation index =>
    dsimp only at h
    split at h
    · cases h
    · next hlock =>
      cases h
      exact .awaited (not_not.mp hlock)
  | captured => exact finish_advances h
  | serving snapshot =>
    obtain ⟨next, hserve, h⟩ := Option.map_eq_some_iff.mp h
    cases h
    exact serve_advances hserve
  | opening generation contentPath =>
    cases answer with
    | archived stream => exact opened_advances h
    | _ => cases h
  | resolving =>
    obtain ⟨next, hresolve, h⟩ := Option.map_eq_some_iff.mp h
    cases h
    unfold resolve at hresolve
    split at hresolve
    · next handle offset size hcall =>
      split at hresolve
      · cases hresolve
        exact .unknown (by simp [hcall])
      · cases hresolve
        exact .resolved
    · cases hresolve
  | reading backing =>
    cases answer with
    | read result =>
      obtain ⟨next, hread, h⟩ := Option.map_eq_some_iff.mp h
      cases h
      unfold read at hread
      split at hread
      · next hcall =>
        cases hread
        exact .read (by simp [hcall])
      · next hcall =>
        cases hread
        exact .read (by simp [hcall])
      · cases hread
    | _ => cases h
  | rooting | storing | publishing =>
    cases h
    constructor
  | returned outcome => cases h

/-- **Who changes what**: the provider and the state's lock are changed under `capture_lock`,
which is taken when it is free. -/
theorem advance_core (h : s.advance i task answer = some (s', task')) :
    (s'.provider = s.provider ∧ s'.stateLock = s.stateLock ∧
      (s'.captureLock = s.captureLock ∨ s.captureLock = none)) ∨ task.phase.Captures := by
  generalize hphase : task.phase = phase
  cases advance_cases hphase h with
  | called h =>
    obtain ⟨content, rfl, -⟩ := enter_cases h
    exact .inl ⟨rfl, rfl, .inl rfl⟩
  | locked hfree | lockedAgain hfree => exact .inl ⟨rfl, rfl, .inr hfree⟩
  | rooted | found | missing | answered | located | opened | unknown | resolved | read =>
    exact .inl ⟨rfl, rfl, .inl rfl⟩
  | _ => exact .inr trivial

/-- **A task outside a capture**: it stays outside, unless it takes `capture_lock`. A
`refresh` gets no answer there. -/
theorem advance_idle (h : s.advance i task answer = some (s', task'))
    (hidle : ¬ task.phase.Captures) (hlocking : task.phase ≠ .locking) :
    ¬ task'.phase.Captures ∧ (task.call = .refresh → ∀ outcome, task'.phase = .returned outcome →
      ∃ metadata, outcome = .metadata metadata) := by
  generalize hphase : task.phase = phase at hidle hlocking
  cases advance_cases hphase h with
  | called h =>
    obtain ⟨content, -, ⟨-, rfl⟩ | ⟨handle, offset, size, hcall, ⟨-, rfl⟩ | ⟨-, rfl⟩⟩ |
      ⟨-, hcall, ⟨loaded, rfl⟩ | rfl | ⟨outcome, rfl⟩⟩⟩ := enter_cases h
    · exact ⟨id, nofun⟩
    · exact ⟨id, by simp [hcall]⟩
    · exact ⟨id, by simp [hcall]⟩
    · exact ⟨id, nofun⟩
    · exact ⟨id, nofun⟩
    · exact ⟨id, fun hrefresh => absurd hrefresh hcall⟩
  | rooted =>
    refine ⟨id, fun _ outcome houtcome => ?_⟩
    cases houtcome
    exact ⟨_, rfl⟩
  | found | missing | resolved => exact ⟨id, nofun⟩
  | answered hcall | located hcall | opened hcall | unknown hcall | read hcall =>
    exact ⟨id, fun hrefresh => absurd hrefresh hcall⟩
  | locked | lockedAgain => exact absurd rfl hlocking
  | _ => exact absurd trivial hidle

/-- Who holds `capture_lock` after a step captures, or has held it before. -/
theorem lock_of_advance {j : Nat} (h : s.advance i task answer = some (s', task'))
    (hlock : s'.captureLock = some j) : (j = i ∧ task'.phase.Captures) ∨
      (s.captureLock = some j ∧ (task.phase.Captures → task'.phase.Captures)) := by
  generalize hphase : task.phase = phase
  cases advance_cases hphase h with
  | called h =>
    obtain ⟨content, rfl, -⟩ := enter_cases h
    exact .inr ⟨hlock, False.elim⟩
  | locked | lockedAgain =>
    cases hlock
    exact .inl ⟨rfl, trivial⟩
  | foundAgain | exhausted | notExported | finished | served | vanished => cases hlock
  | missingAgain | loaded | exported | awaited | stored | published =>
    exact .inr ⟨hlock, fun _ => trivial⟩
  | _ => exact .inr ⟨hlock, False.elim⟩

/-- A step changes neither the call nor what a `read_at` has seen in its first step. -/
theorem advance_seen (h : s.advance i task answer = some (s', task'))
    (hcalled : task.phase ≠ .called) : task'.call = task.call ∧ task'.seen = task.seen := by
  generalize hphase : task.phase = phase at hcalled
  cases advance_cases hphase h with
  | called => exact absurd rfl hcalled
  | _ => exact ⟨rfl, rfl⟩

end SnapshotCore

/-! ## The invariant -/

/-- Whoever can read the state finds it to be of the provider's generation. -/
def SnapshotCore.Consistent (s : SnapshotCore) : Prop :=
  s.stateLock = none → ∀ snapshot, s.provider.state = some snapshot →
    snapshot.generation = s.provider.generation

/-- The generation a task captures with. -/
def SnapshotTask.target (task : SnapshotTask) : Nat :=
  match task.call with
  | .refresh => task.found.1 + 1
  | _ => task.found.1

/-- The task holds `capture_lock` and nothing has changed since it got it. -/
structure Untouched (s : SnapshotCore) (i : Nat) (found : Nat × Option SnapshotState) : Prop where
  lock : s.captureLock = some i
  generation : s.provider.generation = found.1
  state : s.provider.state = found.2

/-- What the phase of the task `i` says about the provider and its locks. -/
def PhaseSound (s : SnapshotCore) (i : Nat) (task : SnapshotTask) : SnapshotPhase → Prop
  | .rechecking | .loading => Untouched s i task.found
  | .exporting generation | .awaiting generation _ =>
    Untouched s i task.found ∧ generation = task.target
  | .storing generation _ =>
    Untouched s i task.found ∧ generation = task.target ∧ s.stateLock = some i
  | .publishing generation _ =>
    s.captureLock = some i ∧ s.provider.generation = generation ∧ generation = task.target
  | .captured =>
    s.captureLock = some i ∧ s.provider.generation = task.target ∧
      ∃ index, s.provider.state = some ⟨index, task.target⟩
  | _ => True

section Others

variable {s s' : SnapshotCore} {i : Nat} {task : SnapshotTask} {phase : SnapshotPhase}

theorem PhaseSound.lock (h : PhaseSound s i task phase) (hcaptures : phase.Captures) :
    s.captureLock = some i := by
  cases phase with
  | rechecking | loading => exact Untouched.lock h
  | exporting | awaiting | storing => exact h.1.lock
  | publishing | captured => exact h.1
  | _ => exact absurd hcaptures id

theorem PhaseSound.ofIdle (hidle : ¬ phase.Captures) : PhaseSound s i task phase := by
  cases phase with
  | rechecking | loading | exporting | awaiting | storing | publishing | captured =>
    exact absurd trivial hidle
  | _ => trivial

/-- A step that leaves the provider and its locks alone, or takes a free `capture_lock`. -/
theorem PhaseSound.ofFrame (h : PhaseSound s i task phase) (hprovider : s'.provider = s.provider)
    (hstate : s'.stateLock = s.stateLock)
    (hlock : s'.captureLock = s.captureLock ∨ s.captureLock = none) :
    PhaseSound s' i task phase := by
  by_cases hcaptures : phase.Captures
  · have hkept : s'.captureLock = s.captureLock := by
      rcases hlock with hsame | hfree
      · exact hsame
      · cases (h.lock hcaptures).symm.trans hfree
    have huntouched : Untouched s i task.found → Untouched s' i task.found := by
      rintro ⟨hlock, hgeneration, hsnapshot⟩
      exact ⟨hkept.trans hlock, by rw [hprovider, hgeneration], by rw [hprovider, hsnapshot]⟩
    cases phase with
    | rechecking | loading => exact huntouched h
    | exporting | awaiting => exact ⟨huntouched h.1, h.2⟩
    | storing => exact ⟨huntouched h.1, h.2.1, hstate.trans h.2.2⟩
    | publishing => exact ⟨hkept.trans h.1, by rw [hprovider, h.2.1], h.2.2⟩
    | captured =>
      obtain ⟨hcapture, hgeneration, hsnapshot⟩ := h
      exact ⟨hkept.trans hcapture, by rw [hprovider, hgeneration], by rwa [hprovider]⟩
    | _ => exact absurd hcaptures id
  · exact ofIdle hcaptures

end Others

section Own

variable {s s' : SnapshotCore} {i : Nat} {task task' : SnapshotTask} {answer : SnapshotAnswer}

theorem PhaseSound.advance (hconsistent : s.Consistent) (h : PhaseSound s i task task.phase)
    (hstep : s.advance i task answer = some (s', task')) :
    s'.Consistent ∧ PhaseSound s' i task' task'.phase := by
  by_cases hidle : ¬ task.phase.Captures ∧ task.phase ≠ .locking
  · have hnext := (SnapshotCore.advance_idle hstep hidle.1 hidle.2).1
    obtain ⟨hprovider, hlock, -⟩ := (SnapshotCore.advance_core hstep).resolve_right hidle.1
    refine ⟨fun hfree snapshot hsnapshot => ?_, PhaseSound.ofIdle hnext⟩
    rw [hprovider] at hsnapshot ⊢
    exact hconsistent (hlock.symm.trans hfree) snapshot hsnapshot
  generalize hphase : task.phase = phase at h hidle
  cases SnapshotCore.advance_cases hphase hstep with
  | locked | lockedAgain => exact ⟨hconsistent, rfl, rfl, rfl⟩
  | missingAgain | exported => exact ⟨hconsistent, h⟩
  | loaded =>
    refine ⟨hconsistent, h, ?_⟩
    show (match task.call with
      | .refresh => s.provider.generation + 1
      | _ => s.provider.generation) = task.target
    rw [h.generation]
    rfl
  | foundAgain | exhausted | notExported | finished | served | vanished =>
    exact ⟨hconsistent, trivial⟩
  | awaited => exact ⟨nofun, ⟨h.1.lock, h.1.generation, h.1.state⟩, h.2, rfl⟩
  | stored =>
    obtain ⟨huntouched, htarget, hlock⟩ := h
    refine ⟨fun hfree => ?_, huntouched.lock, rfl, htarget⟩
    -- the write lock is held, nobody can look at the old state now
    cases hlock.symm.trans hfree
  | @published generation index =>
    obtain ⟨hlock, hgeneration, htarget⟩ := h
    refine ⟨fun _ snapshot hsnapshot => ?_, hlock, hgeneration.trans htarget, index, ?_⟩
    · cases hsnapshot
      exact hgeneration.symm
    · rw [htarget]
      rfl
  | _ => exact absurd ⟨id, nofun⟩ hidle

/-- A `refresh` that fails has changed nothing, one that succeeds has taken the generation up
by one. -/
theorem refresh_returns (h : PhaseSound s i task task.phase) (hcall : task.call = .refresh)
    (hstep : s.advance i task answer = some (s', task')) :
    (∀ error, task'.phase = .returned (.failed error) →
      s'.provider.generation = task.found.1 ∧ s'.provider.state = task.found.2) ∧
    (task'.phase = .returned .finished → s'.provider.generation = task.found.1 + 1 ∧
      ∃ index, s'.provider.state = some ⟨index, task.found.1 + 1⟩) := by
  by_cases hidle : ¬ task.phase.Captures ∧ task.phase ≠ .locking
  · have hmetadata := (SnapshotCore.advance_idle hstep hidle.1 hidle.2).2 hcall
    refine ⟨fun error hreturned => ?_, fun hreturned => ?_⟩
    · obtain ⟨metadata, h⟩ := hmetadata _ hreturned
      cases h
    · obtain ⟨metadata, h⟩ := hmetadata _ hreturned
      cases h
  have htarget : task.target = task.found.1 + 1 := by
    rw [SnapshotTask.target, hcall]
  generalize hphase : task.phase = phase at h hidle
  cases SnapshotCore.advance_cases hphase hstep with
  | exhausted => exact ⟨fun _ _ => ⟨h.generation, h.state⟩, nofun⟩
  | notExported => exact ⟨fun _ _ => ⟨h.1.generation, h.1.state⟩, nofun⟩
  | finished =>
    obtain ⟨-, hgeneration, hstate⟩ := h
    rw [htarget] at hgeneration hstate
    exact ⟨nofun, fun _ => ⟨hgeneration, hstate⟩⟩
  | served hother | vanished hother => exact absurd hcall hother
  | locked | lockedAgain | foundAgain | missingAgain | loaded | exported | awaited | stored
  | published => exact ⟨nofun, nofun⟩
  | _ => exact absurd ⟨id, nofun⟩ hidle

/-- The generation is stored by a capture only, and that stores what it found or the next. -/
theorem generation_le (h : PhaseSound s i task task.phase)
    (hstep : s.advance i task answer = some (s', task')) :
    s.provider.generation ≤ s'.provider.generation := by
  generalize hphase : task.phase = phase at h
  cases SnapshotCore.advance_cases hphase hstep with
  | called h =>
    obtain ⟨content, rfl, -⟩ := SnapshotCore.enter_cases h
    exact le_rfl
  | @stored generation index =>
    obtain ⟨huntouched, htarget, -⟩ := h
    show s.provider.generation ≤ generation
    rw [huntouched.generation, htarget, SnapshotTask.target]
    split
    · exact Nat.le_succ _
    · exact le_rfl
  | _ => exact le_rfl

end Own

/-! ## Reads -/

/-- A `read_at` goes on only if it has seen the generation of its handle. -/
def ReadSound (task : SnapshotTask) : Prop :=
  ∀ handle offset size, task.call = .readAt handle offset size → task.phase ≠ .called →
    task.seen = handle.contentGeneration ∨ task.phase = .returned (.failed .stale)

theorem ReadSound.advance {s s' : SnapshotCore} {i : Nat} {task task' : SnapshotTask}
    {answer : SnapshotAnswer} (h : ReadSound task)
    (hstep : s.advance i task answer = some (s', task')) : ReadSound task' := by
  intro handle offset size hcall hcalled
  by_cases hphase : task.phase = .called
  · simp only [SnapshotCore.advance, hphase, Option.some.injEq] at hstep
    obtain ⟨content, -, ⟨hother, rfl⟩ | ⟨handle', offset', size', hread, hnext⟩ |
      ⟨hother, -, hnext⟩⟩ := SnapshotCore.enter_cases hstep
    · rcases hother with hother | hother
      · cases hother.symm.trans hcall
      · cases hother.symm.trans hcall
    · rcases hnext with ⟨-, rfl⟩ | ⟨hsame, rfl⟩
      · exact .inr rfl
      · cases hread.symm.trans hcall
        exact .inl hsame.symm
    · have hkept : task'.call = task.call := by
        rcases hnext with ⟨loaded, rfl⟩ | rfl | ⟨outcome, rfl⟩
        · rfl
        · rfl
        · rfl
      exact (hother _ _ _ (hkept.symm.trans hcall)).elim
  · obtain ⟨hsame, hseen⟩ := SnapshotCore.advance_seen hstep hphase
    rcases h handle offset size (hsame.symm.trans hcall) hphase with hfresh | hstale
    · exact .inl (hseen.trans hfresh)
    · simp only [SnapshotCore.advance, hstale] at hstep
      cases hstep

/-! ## Runs -/

def snapshotProgram : Program SnapshotCore SnapshotTask SnapshotCall SnapshotAnswer where
  spawn s call := ⟨call, .called, (s.provider.generation, s.provider.state), s.provider.generation⟩
  advance := SnapshotCore.advance

/-- The provider and all calls on it. -/
abbrev SnapshotSystem := Pool SnapshotCore SnapshotTask

namespace SnapshotSystem

def machine : Machine SnapshotSystem (Action SnapshotCall SnapshotAnswer) :=
  snapshotProgram.machine fun core => core.captureLock = none ∧ core.stateLock = none ∧
    ∃ id generation limits mounts,
      ContainerRootfsSnapshotProvider.new id generation limits mounts = .ok core.provider

variable {s : SnapshotSystem}

theorem state_of_new {id : String} {generation : Nat} {limits : TarLimits}
    {mounts : List VirtualPath} {p : ContainerRootfsSnapshotProvider}
    (h : ContainerRootfsSnapshotProvider.new id generation limits mounts = .ok p) :
    p.state = none := by
  unfold ContainerRootfsSnapshotProvider.new at h
  obtain ⟨-, -, h⟩ := Result.bind_eq_ok.mp h
  obtain ⟨-, -, h⟩ := Result.bind_eq_ok.mp h
  cases h
  rfl

theorem sound_of_reach (h : machine.Reach (fun _ _ => True) s) :
    s.core.Consistent ∧ ∀ i task, s.tasks i = some task →
      PhaseSound s.core i task task.phase ∧ ReadSound task := by
  refine Program.reach_invariant (C := SnapshotCore.Consistent)
    (T := fun core i task => PhaseSound core i task task.phase ∧ ReadSound task) ?_ ?_ ?_ ?_ h
  · rintro core ⟨-, -, id, generation, limits, mounts, hnew⟩ - snapshot hsnapshot
    rw [state_of_new hnew] at hsnapshot
    cases hsnapshot
  · intro core i call _
    exact ⟨trivial, fun _ _ _ _ hcalled => absurd rfl hcalled⟩
  · rintro core core' i task task' answer hconsistent ⟨hphase, hread⟩ hstep
    obtain ⟨hconsistent, hphase⟩ := hphase.advance hconsistent hstep
    exact ⟨hconsistent, hphase, hread.advance hstep⟩
  · rintro core core' i task task' answer j other - ⟨hphase, -⟩ ⟨hother, hread⟩ hne hstep
    refine ⟨?_, hread⟩
    rcases SnapshotCore.advance_core hstep with ⟨hprovider, hstate, hlock⟩ | hcaptures
    · exact hother.ofFrame hprovider hstate hlock
    · -- only one task holds `capture_lock`
      refine PhaseSound.ofIdle fun hboth => hne ?_
      exact Option.some.inj ((hother.lock hboth).symm.trans (hphase.lock hcaptures))

/-- **Snapshot generations.** In every state that is reached: a state that can be read is of
the provider's generation; no step takes the generation back; a `refresh` that fails in its
next step leaves generation and state as it found them under `capture_lock`, one that succeeds
has added one; and a `read_at` past its first step has seen the generation of its handle, or
has answered `Stale`. -/
theorem snapshot_generations (h : machine.Reach (fun _ _ => True) s) :
    s.core.Consistent ∧
    (∀ action s', snapshotProgram.step s action = some s' →
      s.core.provider.generation ≤ s'.core.provider.generation) ∧
    (∀ i task answer core task', s.tasks i = some task → task.call = .refresh →
      s.core.advance i task answer = some (core, task') →
        (∀ error, task'.phase = .returned (.failed error) →
          core.provider.generation = task.found.1 ∧ core.provider.state = task.found.2) ∧
        (task'.phase = .returned .finished →
          core.provider.generation = task.found.1 + 1 ∧
            ∃ index, core.provider.state = some ⟨index, task.found.1 + 1⟩)) ∧
    ∀ i task, s.tasks i = some task → ReadSound task := by
  obtain ⟨hconsistent, htasks⟩ := sound_of_reach h
  refine ⟨hconsistent, ?_, ?_, fun i task htask => (htasks i task htask).2⟩
  · intro action s' hstep
    cases action with
    | call i call =>
      obtain ⟨-, rfl⟩ := Program.step_call hstep
      exact le_rfl
    | advance i answer =>
      obtain ⟨task, core, task', htask, hadvance, rfl⟩ := Program.step_advance hstep
      exact generation_le (htasks i task htask).1 hadvance
  · intro i task answer core task' htask hcall hadvance
    exact refresh_returns (htasks i task htask).1 hcall hadvance

/-- **`capture_lock` is held by the one task that captures**: no two capture at once, and no
call that has ended or failed leaves the lock behind. -/
theorem holds_iff_captures (h : machine.Reach (fun _ _ => True) s) (i : Nat) :
    s.core.captureLock = some i ↔ ∃ task, s.tasks i = some task ∧ task.phase.Captures := by
  constructor
  · revert i
    refine h.invariant (I := fun s => ∀ i, s.core.captureLock = some i →
      ∃ task, s.tasks i = some task ∧ task.phase.Captures) ?_ ?_
    · rintro s ⟨⟨hlock, -⟩, -⟩ i hheld
      rw [hlock] at hheld
      cases hheld
    · intro s action s' hold _ hstep i hheld
      cases action with
      | call k call =>
        obtain ⟨hfree, rfl⟩ := Program.step_call hstep
        obtain ⟨task, htask, hcaptures⟩ := hold i hheld
        have hne : i ≠ k := by
          rintro rfl
          rw [hfree] at htask
          cases htask
        exact ⟨task, by rw [Pool.tasks_put, if_neg hne, htask], hcaptures⟩
      | advance k answer =>
        obtain ⟨task, core, task', htask, hadvance, rfl⟩ := Program.step_advance hstep
        by_cases hne : i = k
        · subst hne
          refine ⟨task', Pool.tasks_put_self .., ?_⟩
          rcases SnapshotCore.lock_of_advance hadvance hheld with ⟨-, hcaptures⟩ | ⟨hbefore, hkeep⟩
          · exact hcaptures
          · obtain ⟨old, hold, hcaptures⟩ := hold i hbefore
            cases htask.symm.trans hold
            exact hkeep hcaptures
        · rcases SnapshotCore.lock_of_advance hadvance hheld with ⟨heq, -⟩ | ⟨hbefore, -⟩
          · exact absurd heq hne
          · rw [Pool.tasks_put, if_neg hne]
            exact hold i hbefore
  · rintro ⟨task, htask, hcaptures⟩
    exact ((sound_of_reach h).2 i task htask).1.lock hcaptures

/-! ## A read that a refresh overtakes -/

/-- A container with one file, `/f`, before its first capture. -/
def sampleSystem : SnapshotSystem where
  core :=
    { provider := ⟨String.ofList (List.replicate 64 'a'), 1, TarLimits.standard, [], none⟩
      content :=
        { objectId := "a"
          source := fun _ _ => .error .notFound
          spool := ⟨.standard, ContentSpoolLimits.validate_standard, 0,
            ContentSpoolLimits.zero_le_standard⟩
          limits := TarLimits.standard
          valid := TarLimits.validate_standard
          nextHandle := 1
          handles := ∅ }
      captureLock := none
      stateLock := none }
  tasks := fun _ => none

def sampleArchive : ArchiveByteStream := [.ok (archive [member (ascii "f") 48 (ascii "hi")])]

/-- The steps of a `refresh` from `capture_lock` to its end. -/
def captureSteps (i : Nat) : List (Action SnapshotCall SnapshotAnswer) :=
  [.advance i .proceed, .advance i .proceed, .advance i (.exported (.ok sampleArchive)),
    .advance i .proceed, .advance i .proceed, .advance i .proceed, .advance i .proceed]

/-- Task 0 opens the file, task 1 starts to read it, and task 2 refreshes the container. -/
def overtakingSteps : List (Action SnapshotCall SnapshotAnswer) :=
  [Action.call 0 (.openFile (pathOf "/f") 0), .advance 0 .proceed, .advance 0 .proceed,
    .advance 0 .proceed] ++ captureSteps 0 ++
  [Action.advance 0 .proceed, .advance 0 (.archived (.ok sampleArchive)),
    .call 1 (.readAt ⟨1, pathOf "/f", 1⟩ 0 2), .advance 1 .proceed, .advance 1 .proceed,
    .call 2 .refresh, .advance 2 .proceed] ++ captureSteps 2

theorem initial_sampleSystem : machine.init sampleSystem := by
  have hid : validateIdentity (String.ofList (List.replicate 64 'a')) = .ok () := by
    decide +kernel
  refine ⟨⟨rfl, rfl, String.ofList (List.replicate 64 'a'), 1, TarLimits.standard, [], ?_⟩, rfl⟩
  unfold ContainerRootfsSnapshotProvider.new
  rw [hid, TarLimits.validate_standard, List.mergeSort_nil]
  rfl

/-- The read of task 1 is under way, with the handle of task 0, which is of another generation
than the provider. -/
def overtaken (s : SnapshotSystem) : Bool :=
  match s.tasks 0, s.tasks 1 with
  | some ⟨_, .returned (.handle handle), _, _⟩, some ⟨.readAt handle' _ _, .reading _, _, _⟩ =>
    handle = handle' && s.core.provider.generation ≠ handle.contentGeneration
  | _, _ => false

theorem overtaken_reached : ∃ s, machine.Reach (fun _ _ => True) s ∧ overtaken s = true := by
  have hrun : ∃ s ∈ machine.exec sampleSystem overtakingSteps, overtaken s = true := by
    decide +kernel
  obtain ⟨s, hs, hovertaken⟩ := hrun
  exact ⟨s, Machine.reach_of_exec (.init initial_sampleSystem)
    (Machine.allSteps_of_forall (fun _ _ => trivial) ..) hs, hovertaken⟩

/-- **A read that a refresh overtakes**: it has compared its handle with generation 1, the
refresh takes the provider to generation 2, and the content is served all the same. -/
theorem served_after_refresh : ∃ s, machine.Reach (fun _ _ => True) s ∧
    ∃ handle opening reading answer core reading' bytes,
      s.tasks 0 = some opening ∧ opening.phase = .returned (.handle handle) ∧
      s.tasks 1 = some reading ∧ (∃ offset size, reading.call = .readAt handle offset size) ∧
      s.core.advance 1 reading answer = some (core, reading') ∧
      reading'.phase = .returned (.content bytes) ∧
      core.provider.generation ≠ handle.contentGeneration := by
  obtain ⟨s, hreach, hovertaken⟩ := overtaken_reached
  unfold overtaken at hovertaken
  split at hovertaken
  · next call handle found seen handle' offset size backing found' seen' hopening hreading =>
    simp only [Bool.and_eq_true, decide_eq_true_eq] at hovertaken
    obtain ⟨rfl, hgeneration⟩ := hovertaken
    exact ⟨s, hreach, handle, _, _, .read (.ok ()), _, _, _, hopening, rfl, hreading,
      ⟨offset, size, rfl⟩, rfl, rfl, hgeneration⟩
  · cases hovertaken

/-- The same run, at the moment the refresh is over. -/
theorem generations_while_overtaken : ∃ s, overtaken s = true ∧ s.core.Consistent ∧
    ∀ i task, s.tasks i = some task → ReadSound task := by
  obtain ⟨s, hreach, hovertaken⟩ := overtaken_reached
  obtain ⟨hconsistent, -, -, hreads⟩ := snapshot_generations hreach
  exact ⟨s, hovertaken, hconsistent, hreads⟩

theorem holds_while_overtaken : ∃ s, overtaken s = true ∧
    (s.core.captureLock = some 1 ↔ ∃ task, s.tasks 1 = some task ∧ task.phase.Captures) := by
  obtain ⟨s, hreach, hovertaken⟩ := overtaken_reached
  exact ⟨s, hovertaken, holds_iff_captures hreach 1⟩

end SnapshotSystem

end TuxStack.Docker
