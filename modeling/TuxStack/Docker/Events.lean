import Mathlib.Data.Finset.Basic

/-!
# The event monitor

`crates/docker-core/src/cache/events.rs`: Docker events are classified and collected
in a batch, and a batch is published when its window has closed, when the stream
breaks or when the monitor is stopped. Time is the environment's: an event comes with
the answer to `batch.start.elapsed() >= debounce`, the timer fires when it does.
-/

namespace TuxStack.Docker

inductive ChangeKind where
  | images
  | containers
  | volumes
  | networks
  | daemon
deriving DecidableEq

structure ContainerChange where
  actorId : String
  action : String
deriving DecidableEq

def maxContainerChanges : Nat := 256

structure ChangeNotification where
  kinds : List ChangeKind
  containerChanges : List ContainerChange
  containerChangesTruncated : Bool
  burst : Nat
  reconnected : Bool
deriving DecidableEq

/-- `DockerEvent`, with the fields that the monitor reads. -/
structure DockerEvent where
  eventType : String
  action : String
  actorId : Option String
  actorAttributes : List (String × String)

/-! ## Batches -/

/-- `PendingBatch` without its clock. `seen_container_changes` is filled together with
`container_changes` and holds the same changes. -/
structure PendingBatch where
  kinds : Finset ChangeKind
  containerChanges : List ContainerChange
  containerChangesTruncated : Bool
  burst : Nat

namespace PendingBatch

def add (batch : PendingBatch) (kind : ChangeKind) (event : DockerEvent) : PendingBatch :=
  let batch := { batch with kinds := insert kind batch.kinds, burst := batch.burst + 1 }
  if kind ≠ .containers then batch
  else
    let change : ContainerChange := ⟨event.actorId.getD "", event.action⟩
    if change ∈ batch.containerChanges then batch
    else if maxContainerChanges ≤ batch.containerChanges.length then
      { batch with containerChangesTruncated := true }
    else { batch with containerChanges := batch.containerChanges ++ [change] }

def new (kind : ChangeKind) (event : DockerEvent) : PendingBatch :=
  add ⟨∅, [], false, 0⟩ kind event

end PendingBatch

/-- The fixed order in `flush`. -/
def kindOrder : List ChangeKind := [.images, .containers, .volumes, .networks, .daemon]

/-- The notification that `flush` sends. Sorting the elements of a set by their place
in the fixed order gives the part of that order that is in the set. -/
def PendingBatch.notification (batch : PendingBatch) (reconnected : Bool) : ChangeNotification where
  kinds := kindOrder.filter (· ∈ batch.kinds)
  containerChanges := batch.containerChanges
  containerChangesTruncated := batch.containerChangesTruncated
  burst := batch.burst
  reconnected := reconnected

/-! ## Classification -/

def hasStart (start text : String) : Bool := start.toList.isPrefixOf text.toList

def isInternalHelperEvent (event : DockerEvent) : Bool :=
  event.actorAttributes.any fun (key, value) =>
    (key = "name" &&
      (hasStart "tuxstack-fs-helper-" value || hasStart "tuxstack-bind-helper-" value ||
        hasStart "tuxstack-image-helper-" value || hasStart "tuxstack-volume-helper-" value)) ||
      (key = "io.github.tuxstack.managed" && value = "true")

def defaultClassify (event : DockerEvent) : Option ChangeKind := do
  let kind ←
    if event.eventType = "image" then some .images
    else if event.eventType = "container" then some .containers
    else if event.eventType = "volume" then some .volumes
    else if event.eventType = "network" then some .networks
    else if event.eventType = "daemon" then some .daemon
    else none
  if kind = .containers ∧ isInternalHelperEvent event then none
  else if kind = .containers ∧ hasStart "exec_" event.action then none
  else some kind

/-! ## The loop -/

inductive MonitorPhase where
  | watching
  | backingOff
  | stopped
deriving DecidableEq

structure Monitor where
  pending : Option PendingBatch
  reconnected : Bool
  phase : MonitorPhase

def Monitor.initial : Monitor := ⟨none, false, .watching⟩

/-- What the `select!` of `run_monitor` wakes up with. `broken` is an error or the end
of the stream, `resume` the end of the backoff with or without a client. -/
inductive MonitorInput where
  | event (event : DockerEvent) (elapsed : Bool)
  | broken
  | resume (client : Bool)
  | tick
  | cancel

variable (classify : DockerEvent → Option ChangeKind)

/-- One round of `run_monitor`, with the notification it publishes. -/
def Monitor.step (m : Monitor) : MonitorInput → Option (Monitor × Option ChangeNotification)
  | .event event elapsed =>
    match m.phase, classify event with
    | .watching, none => some (m, none)
    | .watching, some kind =>
      match m.pending with
      | none => some ({ m with pending := some (.new kind event) }, none)
      | some batch =>
        if elapsed then
          some ({ m with pending := some (.new kind event), reconnected := false },
            some (batch.notification m.reconnected))
        else some ({ m with pending := some (batch.add kind event) }, none)
    | _, _ => none
  | .broken =>
    match m.phase with
    | .watching =>
      some (⟨none, true, .backingOff⟩, m.pending.map fun batch => batch.notification m.reconnected)
    | _ => none
  | .resume client =>
    match m.phase with
    | .backingOff => some ({ m with phase := if client then .watching else .stopped }, none)
    | _ => none
  | .tick =>
    match m.phase, m.pending with
    | .watching, none => some (m, none)
    | .watching, some batch =>
      some (⟨none, false, .watching⟩, some (batch.notification m.reconnected))
    | _, _ => none
  | .cancel =>
    match m.phase with
    | .stopped => none
    | _ =>
      some (⟨none, m.reconnected, .stopped⟩,
        m.pending.map fun batch => batch.notification m.reconnected)

end TuxStack.Docker
