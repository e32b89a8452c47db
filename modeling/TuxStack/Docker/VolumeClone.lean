import TuxStack.Docker.Archive

/-!
# Cloning a volume

`VolumeService::clone_volume` (`crates/docker-core/src/services/volumes.rs`): check that
the target does not exist, create it, copy through a helper container, and on failure
remove the target again, by an explicit cleanup and by a drop guard. All of it goes by
name, and each step is a Docker call of its own.

A run interleaves the awaits of one `clone_volume` with the daemon, which executes a
request at some moment after it was sent, and with other clients. A call can be refused or
fail at the client, and the run can be cancelled or dropped at any await. Requests that nobody
waits for any more, and the removal of the drop guard, may be executed later or never.

Creating a volume that exists succeeds, so a volume that somebody else creates after the
last check is taken for the run's own; and the explicit cleanup does not disarm the guard,
so that a second removal follows (`foreign_volume_copied_into_and_removed`).
`clone_touches_own` says that these are the only ways.
-/

namespace TuxStack.Docker

open Runs

/-- The variants of `DockerError` that `clone_volume` tells apart; `other` is any other
one by its text. -/
inductive DockerError where
  | socketNotFound (path : String)
  | permissionDenied
  | engineUnavailable
  | operationTimeout
  | operationCancelled
  | volumeNotFound (message : String)
  | volumeAlreadyExists (message : String)
  | invalidVolumeName (message : String)
  | cloneFailed (message : String)
  | cleanupFailed (message : String)
  | other (text : String)
deriving DecidableEq, Repr

namespace DockerError

def display : DockerError → String
  | socketNotFound path => "Docker socket was not found at " ++ path
  | permissionDenied => "Permission denied while accessing Docker"
  | engineUnavailable => "Docker Engine is unavailable"
  | operationTimeout => "Docker operation timed out"
  | operationCancelled => "Operation was cancelled"
  | volumeNotFound message => "Volume was not found: " ++ message
  | volumeAlreadyExists message => "Volume already exists: " ++ message
  | invalidVolumeName message => "Invalid volume name or options: " ++ message
  | cloneFailed message => "Volume clone failed: " ++ message
  | cleanupFailed message => "Cleanup failed: " ++ message
  | other text => text

def isVolumeNotFound : DockerError → Bool
  | volumeNotFound _ => true
  | _ => false

def asCloneError : DockerError → DockerError
  | operationCancelled => operationCancelled
  | operationTimeout => operationTimeout
  | permissionDenied => permissionDenied
  | engineUnavailable => engineUnavailable
  | socketNotFound path => socketNotFound path
  | cleanupFailed message => cleanupFailed message
  | error => cloneFailed error.display

end DockerError

def requireName (name : String) : Except DockerError String :=
  if trim name = "" then .error (.invalidVolumeName "volume name cannot be empty")
  else .ok (trim name)

/-- `validate_map_keys`, on the keys of the map. -/
def validateMapKeys (keys : List String) : Except DockerError Unit :=
  if keys.any fun key => trim key == "" then
    .error (.invalidVolumeName "label and driver-option keys cannot be empty")
  else .ok ()

/-- `CloneVolumeRequest`, with the keys of the driver options. -/
structure CloneVolumeRequest where
  sourceVolume : String
  targetName : String
  targetDriverOptions : List String
  copyLabels : Bool
deriving DecidableEq, Repr

namespace CloneVolumeRequest

def source (request : CloneVolumeRequest) : String := trim request.sourceVolume

def target (request : CloneVolumeRequest) : String := trim request.targetName

def check (request : CloneVolumeRequest) (cancelled : Bool) : Except DockerError Unit := do
  if cancelled then throw .operationCancelled
  let source ← requireName request.sourceVolume
  let target ← requireName request.targetName
  if source = target then
    throw (.invalidVolumeName "source and target volume names must differ")
  validateMapKeys request.targetDriverOptions

end CloneVolumeRequest

/-! ## The awaits of a run -/

/-- The Docker calls that `clone_volume` awaits, in their order. `createInspect` and
`inspectCreated` are the two reads of `create_volume`; `removeHelper` keeps the error of
the operation, `cleanup` that of the clone. `guardRemoval` is the request of the task that
the drop guard spawns. -/
inductive CloneCall where
  | inspectSource
  | inspectTarget
  | createInspect
  | createVolume
  | inspectCreated
  | createHelper
  | startHelper
  | waitHelper
  | removeHelper (operation : Option DockerError)
  | cleanup (error : DockerError)
  | guardRemoval
deriving DecidableEq, Repr

/-- The calls made under `cancellable` or in a `select!` with the token. -/
def CloneCall.cancellable : CloneCall → Bool
  | inspectSource | inspectTarget | createHelper | startHelper | waitHelper => true
  | _ => false

def CloneCall.changes : CloneCall → Bool
  | createVolume | createHelper | startHelper | removeHelper _ | cleanup _
  | guardRemoval => true
  | _ => false

/-- How a run goes on: with another call, or with a return that has disarmed the guard
or not. -/
inductive CloneNext where
  | await (call : CloneCall)
  | return (result : Except DockerError Unit) (disarm : Bool)

def checkCreateVolume (request : CloneVolumeRequest) (labels : List String) :
    Except DockerError Unit := do
  validateMapKeys request.targetDriverOptions
  validateMapKeys (if request.copyLabels then labels else [])

def startCreateVolume (request : CloneVolumeRequest) (labels : List String) : CloneNext :=
  match checkCreateVolume request labels with
  | .ok () => .await .createInspect
  | .error e => .return (.error e) false

/-- From the answer to one call to the next, as `clone_volume` goes on. `labels` are the
keys of the labels that the inspection of the source has returned. -/
def goOn (request : CloneVolumeRequest) (labels : List String) (cancelled : Bool) :
    CloneCall → Except DockerError Unit → CloneNext
  | .inspectSource, .ok () => .await .inspectTarget
  | .inspectSource, .error e => .return (.error e) false
  | .inspectTarget, .ok () => .return (.error (.volumeAlreadyExists request.target)) false
  | .inspectTarget, .error (.volumeNotFound _) => startCreateVolume request labels
  | .inspectTarget, .error e => .return (.error e) false
  | .createInspect, .ok () => .return (.error (.volumeAlreadyExists request.target)) false
  | .createInspect, .error (.volumeNotFound _) => .await .createVolume
  | .createInspect, .error e => .return (.error e) false
  | .createVolume, .ok () => .await .inspectCreated
  | .createVolume, .error e => .return (.error e) false
  | .inspectCreated, _ =>
    if cancelled then .await (.cleanup .operationCancelled) else .await .createHelper
  | .createHelper, .ok () => .await .startHelper
  | .createHelper, .error e => .await (.cleanup e.asCloneError)
  | .startHelper, .ok () => .await .waitHelper
  | .startHelper, .error e => .await (.removeHelper (some e))
  | .waitHelper, .ok () => .await (.removeHelper none)
  | .waitHelper, .error e => .await (.removeHelper (some e))
  | .removeHelper (some e), .ok () => .await (.cleanup e.asCloneError)
  | .removeHelper (some _), .error c =>
    .await (.cleanup (.cleanupFailed
      ("clone failed and helper cleanup failed: " ++ c.display)))
  | .removeHelper none, .error c =>
    .await (.cleanup (.cleanupFailed ("clone helper cleanup failed: " ++ c.display)))
  | .removeHelper none, .ok () => .return (.ok ()) true
  | .cleanup e, .ok () => .return (.error e) false
  | .cleanup e, .error (.volumeNotFound _) => .return (.error e) false
  | .cleanup e, .error c =>
    .return (.error (.cleanupFailed ("incomplete clone volume cleanup failed after " ++
      e.display ++ ": " ++ c.display))) false
  | .guardRemoval, _ => .return (.ok ()) true

/-! ## The run, the daemon and the other clients -/

inductive Creator where
  | run
  | other
deriving DecidableEq, Repr

/-- What has happened to volumes under the target's name. -/
inductive CloneEvent where
  /-- The run sends a request to remove it. -/
  | removalIssued
  /-- A request of the run removes the volume. -/
  | removed (creator : Creator)
  /-- The helper copies into the volume. -/
  | copied (creator : Creator)
deriving DecidableEq, Repr

inductive ClonePhase where
  /-- The reply is there once the daemon has answered. -/
  | awaiting (call : CloneCall) (reply : Option (Except DockerError Unit))
  /-- With a result, or dropped without one. -/
  | ended (result : Option (Except DockerError Unit))

/-- The volumes by name with who created them, the helper container, the run with its
token and guard, requests that nobody waits for, and the events, latest first. -/
structure CloneState where
  volumes : String → Option Creator
  helper : Bool
  phase : ClonePhase
  cancelled : Bool
  armed : Bool
  late : List CloneCall
  log : List CloneEvent

inductive CloneAction where
  | cancel
  /-- The daemon executes the request of the run and answers. -/
  | execute
  /-- The daemon answers with an error and does nothing. -/
  | refuse (error : DockerError)
  /-- The run goes on with the answer. -/
  | resume
  /-- The call fails at the client: a timeout, a broken connection. -/
  | lose (error : DockerError)
  /-- The run notices that its token has been cancelled. -/
  | notice
  /-- The future of the run is dropped. -/
  | drop
  /-- The daemon executes a request that nobody waits for, or never will. -/
  | late (call : CloneCall)
  | forget (call : CloneCall)
  | otherCreate (name : String)
  | otherRemove (name : String)

section Daemon

variable (request : CloneVolumeRequest)

namespace CloneState

def ensure (s : CloneState) (name : String) : CloneState :=
  { s with volumes := Function.update s.volumes name (some ((s.volumes name).getD .run)) }

def removeTarget (s : CloneState) : CloneState × Except DockerError Unit :=
  match s.volumes request.target with
  | some creator =>
    ({ s with
      volumes := Function.update s.volumes request.target none
      log := .removed creator :: s.log }, .ok ())
  | none => (s, .error (.volumeNotFound request.target))

def inspect (s : CloneState) (name : String) : Except DockerError Unit :=
  if (s.volumes name).isSome then .ok () else .error (.volumeNotFound name)

/-- The daemon executes a request. A container is created with the volumes that its mounts
name; the helper copies when it is started. -/
def executeCall (s : CloneState) : CloneCall → CloneState × Except DockerError Unit
  | .inspectSource => (s, s.inspect request.source)
  | .inspectTarget => (s, s.inspect request.target)
  | .createInspect => (s, s.inspect request.target)
  | .createVolume => (s.ensure request.target, .ok ())
  | .inspectCreated => (s, s.inspect request.target)
  | .createHelper =>
    ({ (s.ensure request.source).ensure request.target with helper := true }, .ok ())
  | .startHelper =>
    if s.helper then
      match s.volumes request.target with
      | some creator => ({ s with log := .copied creator :: s.log }, .ok ())
      | none => (s, .error (.other "no such volume"))
    else (s, .error (.other "no such container"))
  | .waitHelper => (s, .ok ())
  | .removeHelper _ => ({ s with helper := false }, .ok ())
  | .cleanup _ => s.removeTarget request
  | .guardRemoval => s.removeTarget request

/-- The run returns or is dropped; the guard spawns the removal unless it is disarmed. -/
def finish (s : CloneState) (result : Option (Except DockerError Unit)) : CloneState :=
  if s.armed then
    { s with
      phase := .ended result
      armed := false
      late := s.late ++ [.guardRemoval]
      log := .removalIssued :: s.log }
  else { s with phase := .ended result }

/-- The run sends the next request. The guard is armed before the helper is created and
before the cleanup; the cleanup issues a removal. -/
def send (s : CloneState) (call : CloneCall) : CloneState :=
  match call with
  | .createHelper => { s with phase := .awaiting call none, armed := true }
  | .cleanup _ =>
    { s with
      phase := .awaiting call none
      armed := true
      log := .removalIssued :: s.log }
  | _ => { s with phase := .awaiting call none }

def follow (s : CloneState) : CloneNext → CloneState
  | .await call => s.send call
  | .return result true => { s with armed := false }.finish (some result)
  | .return result false => s.finish (some result)

/-- The request of the run stays with the daemon when it has not been answered. -/
def abandon (s : CloneState) (call : CloneCall)
    (reply : Option (Except DockerError Unit)) : CloneState :=
  if reply.isNone && call.changes then { s with late := s.late ++ [call] } else s

end CloneState

variable (labels : List String)

namespace CloneState

def stepRun (s : CloneState) (call : CloneCall) (reply : Option (Except DockerError Unit)) :
    CloneAction → Option CloneState
  | .execute =>
    if reply.isNone then
      let (s', answer) := s.executeCall request call
      some { s' with phase := .awaiting call (some answer) }
    else none
  | .refuse e =>
    if reply.isNone && !e.isVolumeNotFound then
      some { s with phase := .awaiting call (some (.error e)) }
    else none
  | .resume =>
    match reply with
    | some answer =>
      if s.cancelled && call.cancellable then none
      else some (s.follow (goOn request labels s.cancelled call answer))
    | none => none
  | .lose e =>
    if (s.cancelled && call.cancellable) || e.isVolumeNotFound then none
    else some ((s.follow (goOn request labels s.cancelled call (.error e))).abandon
      call reply)
  | .notice =>
    if s.cancelled && call.cancellable then
      some ((s.follow (goOn request labels s.cancelled call
        (.error .operationCancelled))).abandon call reply)
    else none
  | .drop => some ((s.finish none).abandon call reply)
  | _ => none

def step (s : CloneState) : CloneAction → Option CloneState
  | .cancel => some { s with cancelled := true }
  | .late call =>
    if call ∈ s.late then
      some (({ s with late := s.late.erase call } : CloneState).executeCall request call).1
    else none
  | .forget call =>
    if call ∈ s.late then some { s with late := s.late.erase call } else none
  | .otherCreate name =>
    match s.volumes name with
    | some _ => none
    | none => some { s with volumes := Function.update s.volumes name (some .other) }
  | .otherRemove name => some { s with volumes := Function.update s.volumes name none }
  | a =>
    match s.phase with
    | .awaiting call reply => s.stepRun request labels call reply a
    | .ended _ => none

def begin (volumes : String → Option Creator) (cancelled : Bool) : CloneState where
  volumes := volumes
  helper := false
  phase :=
    match request.check cancelled with
    | .ok () => .awaiting .inspectSource none
    | .error e => .ended (some (.error e))
  cancelled := cancelled
  armed := false
  late := []
  log := []

end CloneState

/-- One run of `clone_volume` among other clients. All volumes there are at first were
created by others. -/
def cloneVolume : Machine CloneState CloneAction where
  init s := ∃ volumes cancelled, (∀ name, volumes name ≠ some .run) ∧
    s = .begin request volumes cancelled
  step s a := s.step request labels a

/-! ## When the run keeps to its own -/

/-- The calls after the last check that the target does not exist. -/
def CloneCall.afterCheck : CloneCall → Bool
  | inspectSource | inspectTarget | createInspect => false
  | _ => true

namespace CloneState

/-- The last check has been answered "not found" and the run, or a request of it, can
still act on the target. -/
def engaged (s : CloneState) : Bool :=
  !s.late.isEmpty ||
    match s.phase with
    | .awaiting .createInspect (some (.error (.volumeNotFound _))) => true
    | .awaiting call _ => call.afterCheck
    | .ended _ => false

/-- Nobody else creates a volume under the target's name while the run is engaged, and
the explicit cleanup finds nothing to remove. -/
def undisturbed (s : CloneState) : CloneAction → Bool
  | .otherCreate name => name != request.target || !s.engaged
  | .execute =>
    match s.phase with
    | .awaiting (.cleanup _) none => (s.volumes request.target).isNone
    | _ => true
  | _ => true

end CloneState

/-- No removal is issued after one has succeeded; the latest event is first. -/
def NoFurtherRemoval (log : List CloneEvent) : Prop :=
  log.Pairwise fun later earlier =>
    later = .removalIssued → ∀ creator, earlier ≠ .removed creator

/-- The run has touched only what it created. -/
structure TouchesOwn (log : List CloneEvent) : Prop where
  removed : .removed .other ∉ log
  copied : .copied .other ∉ log
  once : NoFurtherRemoval log

def ClonePhase.isOver : ClonePhase → Bool
  | ended _ => true
  | awaiting _ _ => false

def CloneCall.removes : CloneCall → Bool
  | cleanup _ | guardRemoval => true
  | _ => false

/-! ### The log -/

namespace TouchesOwn

variable {log : List CloneEvent}

theorem nil : TouchesOwn [] := ⟨by simp, by simp, List.Pairwise.nil⟩

theorem issue (h : TouchesOwn log) (hnone : ∀ creator, .removed creator ∉ log) :
    TouchesOwn (.removalIssued :: log) := by
  refine ⟨?_, ?_, List.pairwise_cons.mpr ⟨?_, h.once⟩⟩
  · simpa using h.removed
  · simpa using h.copied
  · rintro event hevent - creator rfl
    exact hnone creator hevent

theorem remove (h : TouchesOwn log) {creator : Creator} (hown : creator ≠ .other) :
    TouchesOwn (.removed creator :: log) := by
  refine ⟨?_, ?_, List.pairwise_cons.mpr ⟨?_, h.once⟩⟩
  · simpa [hown.symm] using h.removed
  · simpa using h.copied
  · rintro event - hissued
    cases hissued

theorem copy (h : TouchesOwn log) {creator : Creator} (hown : creator ≠ .other) :
    TouchesOwn (.copied creator :: log) := by
  refine ⟨?_, ?_, List.pairwise_cons.mpr ⟨?_, h.once⟩⟩
  · simpa using h.removed
  · simpa [hown.symm] using h.copied
  · rintro event - hissued
    cases hissued

end TouchesOwn

/-! ### How a run goes on -/

variable {call next : CloneCall}

theorem startCreateVolume_await {request : CloneVolumeRequest} {labels : List String}
    (h : startCreateVolume request labels = .await next) : next = .createInspect := by
  unfold startCreateVolume at h
  split at h
  · cases h
    rfl
  · cases h

/-- Past the check the run stays past the check, and it gets there by the answer "not
found" alone. -/
theorem goOn_afterCheck {request : CloneVolumeRequest} {labels : List String} {cancelled : Bool}
    {answer : Except DockerError Unit}
    (h : goOn request labels cancelled call answer = .await next) :
    next ≠ .guardRemoval ∧ (call.afterCheck = true → next.afterCheck = true) ∧
      (next.afterCheck = true → call.afterCheck = true ∨
        call = .createInspect ∧ ∃ message, answer = .error (.volumeNotFound message)) := by
  unfold goOn at h
  split at h <;> try cases h <;> simp [CloneCall.afterCheck]
  · rw [startCreateVolume_await h]
    simp [CloneCall.afterCheck]
  · split at h <;> cases h <;> simp [CloneCall.afterCheck]

/-- The cleanup is the last call. -/
theorem goOn_cleanup {request : CloneVolumeRequest} {labels : List String} {cancelled : Bool}
    {answer : Except DockerError Unit}
    (h : goOn request labels cancelled call answer = .await next) :
    call.removes = false := by
  cases call with
  | cleanup e =>
    unfold goOn at h
    split at h <;> simp_all
  | guardRemoval => cases h
  | _ => rfl

theorem CloneCall.afterCheck_of_changes (h : call.changes = true) : call.afterCheck = true := by
  cases call <;> first | rfl | cases h

namespace CloneState

structure Inv (s : CloneState) : Prop where
  own : TouchesOwn s.log
  -- what is under the target's name is the run's, or nothing
  target : s.engaged = true → s.volumes request.target ≠ some .other
  removes : ∀ call ∈ s.late, call.removes = true → s.phase.isOver = true
  ended : ∀ creator, .removed creator ∈ s.log → s.phase.isOver = true
  armed : s.armed = true → ∃ call reply, s.phase = .awaiting call reply ∧
    call.afterCheck = true
  awaited : ∀ reply, s.phase ≠ .awaiting .guardRemoval reply

variable {s s' : CloneState} {call : CloneCall} {reply : Option (Except DockerError Unit)}

theorem engaged_of_afterCheck (hphase : s.phase = .awaiting call reply) (h : call.afterCheck = true)
    : s.engaged = true := by
  unfold engaged
  rw [hphase, Bool.or_eq_true]
  right
  split
  · rfl
  next hcall =>
    cases hcall
    exact h
  next hcall => cases hcall

theorem Inv.not_other (h : s.Inv request) (hphase : s.phase = .awaiting call reply)
    (hcall : call.afterCheck = true) : s.volumes request.target ≠ some .other :=
  h.target (engaged_of_afterCheck hphase hcall)

theorem Inv.no_removed (h : s.Inv request) (hphase : s.phase = .awaiting call reply) :
    ∀ creator, .removed creator ∉ s.log := by
  intro creator hmem
  have := h.ended creator hmem
  rw [hphase] at this
  cases this

theorem Inv.finish (h : s.Inv request) (hphase : s.phase = .awaiting call reply)
    (result : Option (Except DockerError Unit)) : (s.finish result).Inv request := by
  unfold CloneState.finish
  split
  next harmed =>
    obtain ⟨call', reply', hphase', hafter⟩ := h.armed harmed
    refine ⟨h.own.issue (h.no_removed request hphase), ?_, ?_, ?_, ?_, ?_⟩
    · intro _
      exact h.not_other request hphase' hafter
    · intro _ _ _
      rfl
    · intro _ _
      rfl
    · intro hfalse
      cases hfalse
    · intro _ hfalse
      cases hfalse
  next harmed =>
    refine ⟨h.own, ?_, ?_, ?_, ?_, ?_⟩
    · intro hengaged
      apply h.target
      unfold engaged at hengaged ⊢
      simp only [Bool.or_false] at hengaged
      rw [hengaged, Bool.true_or]
    · intro _ _ _
      rfl
    · intro _ _
      rfl
    · intro htrue
      exact absurd htrue harmed
    · intro _ hfalse
      cases hfalse

theorem Inv.send (h : s.Inv request) {next : CloneCall} (hphase : s.phase = .awaiting call reply)
    (hguard : next ≠ .guardRemoval) (hstays : call.afterCheck = true → next.afterCheck = true)
    (hengaged : next.afterCheck = true → s.engaged = true) : (s.send next).Inv request := by
  have hlate : ∀ c ∈ s.late, c.removes = false := by
    intro c hc
    rw [Bool.eq_false_iff]
    intro hremoves
    have := h.removes c hc hremoves
    rw [hphase] at this
    cases this
  have hsend : ∀ (armed : Bool) (log : List CloneEvent), TouchesOwn log →
      (∀ creator, .removed creator ∉ log) → (armed = true → next.afterCheck = true) →
      Inv request { s with phase := .awaiting next none, armed := armed, log := log } := by
    intro armed log hlog hnone harmed
    refine ⟨hlog, ?_, ?_, ?_, ?_, ?_⟩
    · intro hnow
      apply h.target
      unfold engaged at hnow
      rw [Bool.or_eq_true] at hnow
      rcases hnow with hnow | hnow
      · unfold engaged
        rw [hnow, Bool.true_or]
      · apply hengaged
        cases next <;> first | rfl | cases hnow
    · intro c hc hremoves
      rw [hlate c hc] at hremoves
      cases hremoves
    · intro creator hmem
      exact absurd hmem (hnone creator)
    · intro htrue
      exact ⟨next, none, rfl, harmed htrue⟩
    · intro _ heq
      cases heq
      exact hguard rfl
  have hkept : s.armed = true → next.afterCheck = true := by
    intro harmed
    obtain ⟨call', reply', hphase', hafter⟩ := h.armed harmed
    cases hphase.symm.trans hphase'
    exact hstays hafter
  have hnone := h.no_removed request hphase
  cases next with
  | createHelper => exact hsend true s.log h.own hnone fun _ => rfl
  | cleanup e =>
    refine hsend true (.removalIssued :: s.log) (h.own.issue hnone) ?_ fun _ => rfl
    intro creator hmem
    rcases List.mem_cons.mp hmem with heq | hmem
    · cases heq
    · exact hnone creator hmem
  | _ => exact hsend s.armed s.log h.own hnone hkept

theorem Inv.disarm (h : s.Inv request) : Inv request { s with armed := false } :=
  ⟨h.own, h.target, h.removes, h.ended, fun hfalse => (by cases hfalse), h.awaited⟩

/-- The run goes on after an answer, which says "not found" only if the daemon said so. -/
theorem Inv.follow (h : s.Inv request) (hphase : s.phase = .awaiting call reply)
    {answer : Except DockerError Unit}
    (htrue : ∀ message, answer = .error (.volumeNotFound message) → reply = some answer) :
    (s.follow (goOn request labels s.cancelled call answer)).Inv request := by
  cases hnext : goOn request labels s.cancelled call answer with
  | await next =>
    obtain ⟨hguard, hstays, hpast⟩ := goOn_afterCheck hnext
    apply h.send request hphase hguard hstays
    intro hafter
    rcases hpast hafter with hcall | ⟨rfl, message, rfl⟩
    · exact engaged_of_afterCheck hphase hcall
    · rw [htrue message rfl] at hphase
      simp [engaged, hphase]
  | «return» result disarm =>
    cases disarm with
    | true => exact (h.disarm request).finish request hphase (some result)
    | false => exact h.finish request hphase (some result)

theorem Inv.abandon (h : s.Inv request)
    (htarget : call.changes = true → s.volumes request.target ≠ some .other)
    (hover : call.removes = true → s.phase.isOver = true) : (s.abandon call reply).Inv request := by
  unfold CloneState.abandon
  split
  next hlate =>
    rw [Bool.and_eq_true] at hlate
    refine ⟨h.own, fun _ => htarget hlate.2, ?_, h.ended, h.armed, h.awaited⟩
    intro c hc hremoves
    rcases List.mem_append.mp hc with hc | hc
    · exact h.removes c hc hremoves
    · rw [List.mem_singleton.mp hc] at hremoves
      exact hover hremoves
  next => exact h

theorem finish_volumes (s : CloneState) (result : Option (Except DockerError Unit)) :
    (s.finish result).volumes = s.volumes ∧ (s.finish result).phase.isOver = true := by
  unfold CloneState.finish
  split <;> exact ⟨rfl, rfl⟩

theorem follow_volumes (s : CloneState) (next : CloneNext) :
    (s.follow next).volumes = s.volumes := by
  cases next with
  | await call => cases call <;> rfl
  | «return» result disarm =>
    cases disarm with
    | true | false => exact (finish_volumes _ _).1

theorem follow_isOver_of_removes {cancelled : Bool} {answer : Except DockerError Unit}
    (h : call.removes = true) :
    (s.follow (goOn request labels cancelled call answer)).phase.isOver = true := by
  cases hnext : goOn request labels cancelled call answer with
  | await next =>
    rw [goOn_cleanup hnext] at h
    cases h
  | «return» result disarm =>
    cases disarm with
    | true | false => exact (finish_volumes _ _).2

theorem Inv.giveUp (h : s.Inv request) (hphase : s.phase = .awaiting call reply) {e : DockerError}
    (he : e.isVolumeNotFound = false) :
    ((s.follow (goOn request labels s.cancelled call (.error e))).abandon call reply).Inv
      request := by
  apply Inv.abandon
  · apply h.follow request labels hphase
    rintro message ⟨⟩
    cases he
  · intro hchanges
    rw [follow_volumes]
    exact h.not_other request hphase (CloneCall.afterCheck_of_changes hchanges)
  · exact follow_isOver_of_removes request labels

/-! ### What the daemon does -/

/-- What the execution of a request of the run can do. -/
structure Executed (s s' : CloneState) (call : CloneCall) : Prop where
  phase : s'.phase = s.phase
  late : s'.late = s.late
  armed : s'.armed = s.armed
  target : s.volumes request.target ≠ some .other → s'.volumes request.target ≠ some .other
  log : s'.log = s.log ∨ ∃ creator, s.volumes request.target = some creator ∧
    (s'.log = .copied creator :: s.log ∨
      call.removes = true ∧ s'.log = .removed creator :: s.log)

theorem ensure_target (name : String) (h : s.volumes request.target ≠ some .other) :
    (s.ensure name).volumes request.target ≠ some .other := by
  by_cases hname : request.target = name
  · subst hname
    cases hvolume : s.volumes request.target with
    | none => simp [ensure, hvolume]
    | some creator => simpa [ensure, hvolume] using h
  · simpa [ensure, hname] using h

theorem Executed.refl (s : CloneState) (call : CloneCall) : Executed request s s call :=
  ⟨rfl, rfl, rfl, fun h => h, .inl rfl⟩

theorem Executed.ensure (h : Executed request s s' call) (name : String) :
    Executed request s (s'.ensure name) call :=
  ⟨h.phase, h.late, h.armed, fun hs => ensure_target request name (h.target hs), h.log⟩

theorem Executed.withHelper (h : Executed request s s' call) (helper : Bool) :
    Executed request s { s' with helper := helper } call :=
  { h with }

theorem executed_removeTarget (s : CloneState) (hremoves : call.removes = true) :
    Executed request s (s.removeTarget request).1 call := by
  unfold removeTarget
  split
  next creator hvolume =>
    refine ⟨rfl, rfl, rfl, ?_, .inr ⟨creator, hvolume, .inr ⟨hremoves, rfl⟩⟩⟩
    simp
  next => exact ⟨rfl, rfl, rfl, fun h => h, .inl rfl⟩

theorem executed (s : CloneState) (call : CloneCall) :
    Executed request s (s.executeCall request call).1 call := by
  have hrefl := Executed.refl request s call
  cases call with
  | createVolume => exact hrefl.ensure request request.target
  | createHelper =>
    exact ((hrefl.ensure request request.source).ensure request request.target).withHelper
      request true
  | startHelper =>
    simp only [executeCall]
    split
    · split
      next creator hvolume =>
        exact ⟨rfl, rfl, rfl, fun h => h, .inr ⟨creator, hvolume, .inl rfl⟩⟩
      next => exact hrefl
    · exact hrefl
  | removeHelper operation => exact hrefl.withHelper request false
  | cleanup e | guardRemoval => exact executed_removeTarget request s rfl
  | _ => exact hrefl

/-- A request past the check is executed, and if it removes the volume, the run is over. -/
theorem Inv.execute (h : s.Inv request) (hexecuted : Executed request s s' call)
    (htarget : s.volumes request.target ≠ some .other)
    (hover : call.removes = true → s.volumes request.target = none ∨
      s.phase.isOver = true) : s'.Inv request := by
  have hown : TouchesOwn s'.log ∧
      ∀ creator, .removed creator ∈ s'.log → s.phase.isOver = true := by
    rcases hexecuted.log with hlog | ⟨creator, hvolume, hlog | ⟨hremoves, hlog⟩⟩
    · exact hlog ▸ ⟨h.own, h.ended⟩
    · have hcreator : creator ≠ .other := fun heq => htarget (heq ▸ hvolume)
      refine hlog ▸ ⟨h.own.copy hcreator, ?_⟩
      intro c hc
      rcases List.mem_cons.mp hc with heq | hc
      · cases heq
      · exact h.ended c hc
    · have hcreator : creator ≠ .other := fun heq => htarget (heq ▸ hvolume)
      refine hlog ▸ ⟨h.own.remove hcreator, ?_⟩
      intro c _
      rcases hover hremoves with hnone | hover
      · rw [hnone] at hvolume
        cases hvolume
      · exact hover
  refine ⟨hown.1, ?_, ?_, ?_, ?_, ?_⟩
  · intro _
    exact hexecuted.target htarget
  · rw [hexecuted.late, hexecuted.phase]
    exact h.removes
  · rw [hexecuted.phase]
    exact hown.2
  · rw [hexecuted.armed, hexecuted.phase]
    exact h.armed
  · rw [hexecuted.phase]
    exact h.awaited

/-- The answer to a call. Only "not found" to the last check changes what the run may do. -/
theorem Inv.answer (h : s.Inv request) (hphase : s.phase = .awaiting call none)
    {answer : Except DockerError Unit}
    (htrue : ∀ message, call = .createInspect → answer = .error (.volumeNotFound message) →
      s.volumes request.target = none) :
    Inv request { s with phase := .awaiting call (some answer) } := by
  refine ⟨h.own, ?_, ?_, ?_, ?_, ?_⟩
  · intro hengaged
    unfold engaged at hengaged
    rw [Bool.or_eq_true] at hengaged
    rcases hengaged with hlate | hnow
    · apply h.target
      unfold engaged
      rw [hlate, Bool.true_or]
    · split at hnow
      next message heq =>
        cases heq
        show s.volumes request.target ≠ some .other
        rw [htrue message rfl rfl]
        simp
      next heq =>
        cases heq
        exact h.not_other request hphase hnow
      next => cases hnow
  · intro c hc hremoves
    have := h.removes c hc hremoves
    rw [hphase] at this
    cases this
  · intro creator hmem
    exact absurd hmem (h.no_removed request hphase creator)
  · intro harmed
    obtain ⟨call', reply', hphase', hafter⟩ := h.armed harmed
    cases hphase.symm.trans hphase'
    exact ⟨call, some answer, rfl, hafter⟩
  · intro reply heq
    cases heq
    exact h.awaited none hphase

theorem Inv.withLate (h : s.Inv request) {late : List CloneCall} (hsub : late ⊆ s.late) :
    Inv request { s with late := late } := by
  refine ⟨h.own, ?_, fun c hc => h.removes c (hsub hc), h.ended, h.armed, h.awaited⟩
  intro hengaged
  apply h.target
  unfold engaged at hengaged ⊢
  rw [Bool.or_eq_true] at hengaged ⊢
  rcases hengaged with hlate | hnow
  · left
    cases hs : s.late with
    | nil =>
      rw [hs] at hsub
      simp [List.subset_nil.mp hsub] at hlate
    | cons c rest => rfl
  · exact .inr hnow

theorem Inv.withVolumes (h : s.Inv request) {volumes : String → Option Creator}
    (htarget : s.engaged = true → volumes request.target ≠ some .other) :
    Inv request { s with volumes := volumes } :=
  ⟨h.own, htarget, h.removes, h.ended, h.armed, h.awaited⟩

theorem Inv.executeAwaited (h : s.Inv request) (hphase : s.phase = .awaiting call none)
    (hquiet : ∀ e, call = .cleanup e → s.volumes request.target = none) :
    Inv request { (s.executeCall request call).1 with
      phase := .awaiting call (some (s.executeCall request call).2) } := by
  by_cases hafter : call.afterCheck = true
  · have hexecuted := executed request s call
    have hinv : (s.executeCall request call).1.Inv request := by
      apply h.execute request hexecuted (h.not_other request hphase hafter)
      intro hremoves
      cases call with
      | cleanup e => exact .inl (hquiet e rfl)
      | guardRemoval => exact absurd hphase (h.awaited none)
      | _ => cases hremoves
    apply hinv.answer request (hexecuted.phase.trans hphase)
    rintro _ rfl
    cases hafter
  · have hread : (s.executeCall request call).1 = s := by
      cases call <;> first | rfl | exact absurd rfl hafter
    rw [hread]
    apply h.answer request hphase
    rintro message rfl hanswer
    simp only [executeCall, inspect] at hanswer
    split at hanswer
    · cases hanswer
    next hnone => simpa using hnone

theorem Inv.stepRun {a : CloneAction} (h : s.Inv request)
    (hquiet : s.undisturbed request a = true) (hphase : s.phase = .awaiting call reply)
    (hs : s.stepRun request labels call reply a = some s') : s'.Inv request := by
  cases a with
  | execute =>
    simp only [CloneState.stepRun] at hs
    split at hs
    next hnone =>
      cases hs
      obtain rfl := Option.isNone_iff_eq_none.mp hnone
      apply h.executeAwaited request hphase
      rintro e rfl
      simpa [undisturbed, hphase] using hquiet
    next => cases hs
  | refuse e =>
    simp only [CloneState.stepRun] at hs
    split at hs
    next hcond =>
      cases hs
      rw [Bool.and_eq_true] at hcond
      obtain rfl := Option.isNone_iff_eq_none.mp hcond.1
      apply h.answer request hphase
      rintro message rfl ⟨⟩
      exact absurd hcond.2 (by simp [DockerError.isVolumeNotFound])
    next => cases hs
  | resume =>
    simp only [CloneState.stepRun] at hs
    split at hs
    next answer =>
      split at hs
      next => cases hs
      next =>
        cases hs
        exact h.follow request labels hphase fun _ _ => rfl
    next => cases hs
  | lose e =>
    simp only [CloneState.stepRun] at hs
    split at hs
    next => cases hs
    next hcond =>
      cases hs
      rw [Bool.or_eq_true, not_or] at hcond
      exact h.giveUp request labels hphase (by simpa using hcond.2)
  | notice =>
    simp only [CloneState.stepRun] at hs
    split at hs
    next =>
      cases hs
      exact h.giveUp request labels hphase rfl
    next => cases hs
  | drop =>
    cases hs
    apply (h.finish request hphase none).abandon request
    · intro hchanges
      rw [(finish_volumes s none).1]
      exact h.not_other request hphase (CloneCall.afterCheck_of_changes hchanges)
    · intro _
      exact (finish_volumes s none).2
  | _ => cases hs

/-- **The step lemma**: an undisturbed step keeps the invariant. -/
theorem Inv.step {a : CloneAction} (h : s.Inv request) (hquiet : s.undisturbed request a = true)
    (hs : s.step request labels a = some s') : s'.Inv request := by
  cases a with
  | cancel =>
    cases hs
    exact { h with }
  | late call =>
    simp only [CloneState.step] at hs
    split at hs
    next hmem =>
      cases hs
      have hengaged : s.engaged = true := by
        unfold engaged
        cases hlate : s.late with
        | nil => simp [hlate] at hmem
        | cons c rest => rfl
      -- a late call removes only what the clone itself made
      have hinv := h.withLate request (List.erase_subset (a := call))
      apply hinv.execute request (executed request _ call) (h.target hengaged)
      intro hremoves
      exact .inr (h.removes call hmem hremoves)
    next => cases hs
  | forget call =>
    simp only [CloneState.step] at hs
    split at hs
    next =>
      cases hs
      exact h.withLate request List.erase_subset
    next => cases hs
  | otherCreate name =>
    simp only [CloneState.step] at hs
    split at hs
    next => cases hs
    next =>
      cases hs
      apply h.withVolumes request
      intro hengaged
      -- another create of the target would disturb the clone
      have hne : request.target ≠ name := by
        simp only [undisturbed, hengaged, Bool.not_true, Bool.or_false, bne_iff_ne] at hquiet
        exact Ne.symm hquiet
      rw [Function.update_of_ne hne]
      exact h.target hengaged
  | otherRemove name =>
    cases hs
    apply h.withVolumes request
    intro hengaged
    by_cases hname : request.target = name
    · subst hname
      simp
    · rw [Function.update_of_ne hname]
      exact h.target hengaged
  | _ =>
    simp only [CloneState.step] at hs
    split at hs
    next call reply hphase => exact h.stepRun request labels hquiet hphase hs
    next => cases hs

theorem inv_begin (volumes : String → Option Creator) (cancelled : Bool) :
    Inv request (begin request volumes cancelled) := by
  have hphase : (begin request volumes cancelled).engaged = false ∧
      ∀ reply, (begin request volumes cancelled).phase ≠ .awaiting .guardRemoval reply := by
    unfold begin engaged
    constructor
    · simp only
      split
      next heq =>
        split at heq <;> cases heq
      next call reply heq =>
        split at heq <;> cases heq
        rfl
      next => rfl
    · intro reply heq
      simp only at heq
      split at heq <;> cases heq
  refine ⟨TouchesOwn.nil, ?_, ?_, ?_, ?_, hphase.2⟩
  · intro hengaged
    rw [hphase.1] at hengaged
    cases hengaged
  · simp [begin]
  · simp [begin]
  · simp [begin]

end CloneState

/-- **A clone touches only what it created**, in every run in which nobody else creates a
volume under the target's name while the run is engaged and no explicit cleanup removes
the target. -/
theorem clone_touches_own {s : CloneState}
    (h : (cloneVolume request labels).Reach (fun s a => s.undisturbed request a = true) s) :
    TouchesOwn s.log := by
  have hinv : s.Inv request := by
    apply Machine.Reach.invariant _ _ h
    · rintro s ⟨volumes, cancelled, -, rfl⟩
      exact CloneState.inv_begin request volumes cancelled
    · intro s a s' hi hquiet hs
      exact hi.step request labels hquiet hs
  exact hinv.own

end Daemon

def sampleClone : CloneVolumeRequest := ⟨"data", "copy", [], false⟩

/-- A daemon with the source volume. -/
def sampleVolumes (name : String) : Option Creator :=
  if name = "data" then some .other else none

def answered : List CloneAction := [.execute, .resume]

/-- The run up to the answer of the last check. -/
def checkedTarget : List CloneAction := answered ++ answered ++ [CloneAction.execute]

/-- The run is dropped while the helper copies; its guard removes the target. -/
def droppedWhileCopying : List CloneAction :=
  checkedTarget ++ [CloneAction.resume] ++ answered ++ answered ++ answered ++
    [CloneAction.execute, .drop, .late .guardRemoval]

theorem init_sampleClone :
    (cloneVolume sampleClone []).init (.begin sampleClone sampleVolumes false) := by
  refine ⟨sampleVolumes, false, ?_, rfl⟩
  intro name
  unfold sampleVolumes
  split <;> simp

/-- The result for such a run. -/
theorem dropped_clone_touches_own :
    ∃ s, (cloneVolume sampleClone []).exec (.begin sampleClone sampleVolumes false)
        droppedWhileCopying = some s ∧
      s.log = [.removed .run, .removalIssued, .copied .run] ∧ TouchesOwn s.log := by
  have hrun : ∃ s ∈ (cloneVolume sampleClone []).exec
      (.begin sampleClone sampleVolumes false) droppedWhileCopying,
      s.log = [.removed .run, .removalIssued, .copied .run] := by
    decide +kernel
  have hsteps : (cloneVolume sampleClone []).AllSteps
      (fun s a => s.undisturbed sampleClone a = true)
      (.begin sampleClone sampleVolumes false) droppedWhileCopying := by
    decide +kernel
  obtain ⟨s, hs, hlog⟩ := hrun
  have hreach := Machine.reach_of_exec (.init init_sampleClone) hsteps (Option.mem_def.mp hs)
  exact ⟨s, Option.mem_def.mp hs, hlog, clone_touches_own sampleClone [] hreach⟩

/-- Somebody creates the target after the check, and the copy fails. -/
def createdInBetween : List CloneAction :=
  checkedTarget ++ [CloneAction.otherCreate "copy", .resume] ++ answered ++ answered ++ answered ++
    answered ++ [CloneAction.refuse (.other "helper exited with status 1"), .resume] ++ answered ++
    [CloneAction.execute]

/-- The helper cannot be created, and somebody uses the name after the cleanup. -/
def createdAfterCleanup : List CloneAction :=
  checkedTarget ++ [CloneAction.resume] ++ answered ++ answered ++
    [CloneAction.refuse (.other "Image was not found: alpine:3.20"), .resume] ++ answered ++
    [CloneAction.otherCreate "copy", .late .guardRemoval]

/-- The run copies into a volume of somebody else and removes it, and it issues a second
removal after its cleanup has removed the target. -/
theorem foreign_volume_copied_into_and_removed :
    (∃ s, (cloneVolume sampleClone []).Reach (fun _ _ => True) s ∧
      s.log = [.removed .other, .removalIssued, .copied .other]) ∧
    ∃ s, (cloneVolume sampleClone []).Reach (fun _ _ => True) s ∧
      s.log = [.removed .other, .removalIssued, .removed .run, .removalIssued] := by
  have hfree : ∀ as, (cloneVolume sampleClone []).AllSteps (fun _ _ => True)
      (.begin sampleClone sampleVolumes false) as :=
    fun as => Machine.allSteps_of_forall (fun _ _ => trivial) as _
  constructor
  · have hrun : ∃ s ∈ (cloneVolume sampleClone []).exec
        (.begin sampleClone sampleVolumes false) createdInBetween,
        s.log = [.removed .other, .removalIssued, .copied .other] := by
      decide +kernel
    obtain ⟨s, hs, hlog⟩ := hrun
    exact ⟨s, Machine.reach_of_exec (.init init_sampleClone) (hfree _) (Option.mem_def.mp hs),
      hlog⟩
  · have hrun : ∃ s ∈ (cloneVolume sampleClone []).exec
        (.begin sampleClone sampleVolumes false) createdAfterCleanup,
        s.log = [.removed .other, .removalIssued, .removed .run, .removalIssued] := by
      decide +kernel
    obtain ⟨s, hs, hlog⟩ := hrun
    exact ⟨s, Machine.reach_of_exec (.init init_sampleClone) (hfree _) (Option.mem_def.mp hs),
      hlog⟩

end TuxStack.Docker
