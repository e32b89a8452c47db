import Mathlib.Data.List.AList
import TuxStack.Gui.Compose
import TuxStack.Gui.DaemonError

/-!
# The Volumes page

`VolumesState` (`crates/gui/src/controllers/volumes.rs`): the list with its filter, the
selection and its details, the operations on volumes and the tasks that can be cancelled.
-/

namespace TuxStack.Gui

/-! ## Rows -/

structure VolumeContainerReference where
  id : String
  shortId : String
  name : String
  state : ContainerRuntimeState
  destination : String
  readOnly : Bool
  propagation : Option String
deriving DecidableEq

structure VolumeUsage where
  sizeBytes : Option UInt64
  refCount : Option UInt64
deriving DecidableEq

/-- `VolumeSummary`; the time of creation is in units since the epoch. -/
structure VolumeSummary where
  name : String
  driver : String
  scope : String
  mountpoint : Option String
  createdAt : Option Int
  labels : List (String × String)
  options : List (String × String)
  usage : VolumeUsage
  usedBy : List VolumeContainerReference
  anonymous : Bool
deriving DecidableEq

structure VolumeDetail where
  summary : VolumeSummary
  status : List (String × String)
deriving DecidableEq

/-- `VolumeRow` without the texts that are only displayed. -/
structure VolumeRow where
  volumeName : String
  driver : String
  scope : String
  mountpoint : String
  sizeBytes : Option UInt64
  sizeKnown : Bool
  sizeText : String
  createdAt : Option Int
  inUse : Bool
  usedByCount : Nat
  selected : Bool
  busy : Bool
  operation : String
  rowSection : String
  labels : List (String × String)
  options : List (String × String)
  containers : List VolumeContainerReference
deriving DecidableEq

def usageSection (inUse : Bool) : String := if inUse then "in_use" else "unused"

def shownSize [PageText] (sizeBytes : Option UInt64) : String :=
  (sizeBytes.map PageText.formatBytes).getD "Unknown size"

def VolumeRow.fromSummary [PageText] (summary : VolumeSummary) : VolumeRow where
  volumeName := summary.name
  driver := summary.driver
  scope := summary.scope
  mountpoint := summary.mountpoint.getD ""
  sizeBytes := summary.usage.sizeBytes
  sizeKnown := summary.usage.sizeBytes.isSome
  sizeText := shownSize summary.usage.sizeBytes
  createdAt := summary.createdAt
  inUse := summary.usedBy.length ≠ 0
  usedByCount := summary.usedBy.length
  selected := false
  busy := false
  operation := ""
  rowSection := if summary.usedBy.isEmpty then "unused" else "in_use"
  labels := summary.labels
  options := summary.options
  containers := summary.usedBy

/-- `VolumeDetailView` without its texts and tables. -/
structure VolumeDetailView where
  volumeName : String
  sizeBytes : Option UInt64
  refCount : Option UInt64
  anonymous : Bool
deriving DecidableEq

def VolumeDetailView.fromDetail (detail : VolumeDetail) : VolumeDetailView where
  volumeName := detail.summary.name
  sizeBytes := detail.summary.usage.sizeBytes
  refCount := detail.summary.usage.refCount
  anonymous := detail.summary.anonymous

/-! ## The state -/

inductive VolumesListState where
  | idle
  | loading
  | ready
  | empty
  | error
  | dockerUnavailable
  | permissionDenied
deriving DecidableEq

inductive VolumeDetailState where
  | none
  | loading
  | ready
  | error
deriving DecidableEq

inductive VolumeOperation where
  | removing
  | exporting
  | cloning
deriving DecidableEq

def VolumeOperation.asStr : VolumeOperation → String
  | removing => "removing"
  | exporting => "exporting"
  | cloning => "cloning"

inductive GlobalVolumeOperation where
  | creating
  | pruning
deriving DecidableEq

inductive VolumeSortMode where
  | nameAscending
  | nameDescending
  | newestFirst
  | oldestFirst
  | largestFirst
  | smallestFirst
  | mostContainers
  | fewestContainers
  | inUseFirst
  | unusedFirst
deriving DecidableEq

inductive CancellationState where
  | idle
  | cancellable
  | cancellationRequested
deriving DecidableEq

structure CancellableVolumeTask where
  active : Bool := false
  volumeName : String := ""
  generation : UInt64 := 0
  cancellation : CancellationState := .idle
deriving DecidableEq

structure VolumesState where
  sourceRows : List VolumeRow := []
  visibleRows : List VolumeRow := []
  searchQuery : String := ""
  sortMode : VolumeSortMode := .inUseFirst
  selectedVolumeName : String := ""
  detail : Option VolumeDetailView := none
  initialized : Bool := false
  listState : VolumesListState := .idle
  listErrorKind : String := ""
  listErrorMessage : String := ""
  detailState : VolumeDetailState := .none
  detailErrorKind : String := ""
  detailErrorMessage : String := ""
  refreshGeneration : UInt64 := 0
  detailGeneration : UInt64 := 0
  operationGeneration : UInt64 := 0
  globalGeneration : UInt64 := 0
  operations : AList fun _ : String => VolumeOperation := ∅
  operationGenerations : AList fun _ : String => UInt64 := ∅
  globalOperation : Option GlobalVolumeOperation := none
  exportTask : CancellableVolumeTask := {}
  cloneTask : CancellableVolumeTask := {}
  pruneCancellation : CancellationState := .idle
  operationErrorKind : String := ""
  operationErrorMessage : String := ""
  preferredVolumeName : String := ""
  selectionBeforeFilter : String := ""

inductive VolumeErrorContext where
  | list
  | detail
  | operation
deriving DecidableEq

def friendlyVolumeError (error : DaemonError) (context : VolumeErrorContext) :
    String × String × VolumesListState :=
  match error with
  | .socketNotFound _ | .engineUnavailable =>
    ("docker_unavailable",
      "Docker Engine is not available. Check that Docker is running and try again.",
      .dockerUnavailable)
  | .permissionDenied =>
    ("permission_denied",
      "Permission denied while accessing Docker volumes. Check Docker socket permissions.",
      .permissionDenied)
  | .connectionTimeout | .operationTimeout =>
    ("timeout", "The Docker volume request timed out. Try again.", .error)
  | .volumeNotFound _ =>
    ("volume_not_found", "This volume no longer exists. Refresh the volume list.", .error)
  | .volumeInUse _ | .conflict _ =>
    ("volume_in_use", "Volume is still used by a container and cannot be removed.", .error)
  | .volumeAlreadyExists _ =>
    ("volume_already_exists", "A volume with this name already exists.", .error)
  | .volumeDriverUnavailable _ =>
    ("volume_driver_unavailable", "The requested volume driver is unavailable.", .error)
  | .volumePluginError _ =>
    ("volume_plugin_error", "The volume plugin returned an error.", .error)
  | .invalidVolumeName _ => ("invalid_volume_name", "Docker rejected the volume name.", .error)
  | .exportFailed _ => ("export_failed", "Docker could not export the volume.", .error)
  | .cloneFailed _ => ("clone_failed", "Docker could not clone the volume.", .error)
  | .cleanupFailed _ =>
    ("cleanup_failed",
      "The volume operation failed and temporary resources could not be fully cleaned up.",
      .error)
  | .operationCancelled => ("cancelled", "The volume operation was cancelled.", .error)
  | .destinationPermissionDenied _ =>
    ("destination_permission_denied", "The export destination is not writable.", .error)
  | .diskFull _ =>
    ("disk_full", "There is not enough space at the export destination.", .error)
  | _ =>
    match context with
    | .list => ("docker", "Could not load Docker volumes. Try again.", .error)
    | .detail => ("docker", "Volume details are unavailable. Try again.", .error)
    | .operation =>
      ("volume_operation_failed",
        "Docker could not complete the volume operation. Try again.", .error)

/-! ## The list -/

/-- `compare_optional`: what is not there comes last. -/
def compareOptional {α : Type} [Ord α] (descending : Bool) : Option α → Option α → Ordering
  | some left, some right => if descending then compare right left else compare left right
  | some _, none => .lt
  | none, some _ => .gt
  | none, none => .eq

section

variable [PageText]

open PageText

def pairsMatch (pairs : List (String × String)) (query : String) : Bool :=
  pairs.any fun pair => contains (lowercase pair.1) query || contains (lowercase pair.2) query

namespace VolumeRow

def rowMatches (row : VolumeRow) (query : String) : Bool :=
  contains (lowercase row.volumeName) query ||
    contains (lowercase row.driver) query ||
    contains (lowercase row.scope) query ||
    contains (lowercase row.mountpoint) query ||
    pairsMatch row.labels query ||
    pairsMatch row.options query ||
    row.containers.any fun container =>
      contains (lowercase container.name) query || contains (lowercase container.id) query ||
        contains (lowercase container.shortId) query

def compareRows (mode : VolumeSortMode) (left right : VolumeRow) : Ordering :=
  let bySection :=
    if mode = .unusedFirst then compare left.inUse right.inUse
    else compare right.inUse left.inUse
  let nameAscending :=
    (compare (lowercase left.volumeName) (lowercase right.volumeName)).then
      (compare left.volumeName right.volumeName)
  bySection.then <|
    match mode with
    | .nameAscending | .inUseFirst | .unusedFirst => nameAscending
    | .nameDescending => nameAscending.swap
    | .newestFirst => (compareOptional true left.createdAt right.createdAt).then nameAscending
    | .oldestFirst => (compareOptional false left.createdAt right.createdAt).then nameAscending
    | .largestFirst => (compareOptional true left.sizeBytes right.sizeBytes).then nameAscending
    | .smallestFirst => (compareOptional false left.sizeBytes right.sizeBytes).then nameAscending
    | .mostContainers => (compare right.usedByCount left.usedByCount).then nameAscending
    | .fewestContainers => (compare left.usedByCount right.usedByCount).then nameAscending

/-- A row of a new list keeps what is known about the use of its volume. -/
def keepUse (known : Option Bool) (row : VolumeRow) : VolumeRow :=
  match known with
  | some inUse => { row with inUse, rowSection := usageSection inUse }
  | none => row

def patchReferences (references : Option (List VolumeContainerReference)) (row : VolumeRow) :
    Bool × VolumeRow :=
  match references with
  | none => (false, row)
  | some containers =>
    let inUse := !containers.isEmpty
    if row.inUse ≠ inUse ∨ row.usedByCount ≠ containers.length then
      (true, { row with
        inUse
        rowSection := usageSection inUse
        usedByCount := containers.length
        containers })
    else (false, row)

def patchSize (usage : Option VolumeUsage) (row : VolumeRow) : Bool × VolumeRow :=
  match usage with
  | none => (false, row)
  | some usage =>
    if row.sizeBytes ≠ usage.sizeBytes ∨ row.sizeText ≠ shownSize usage.sizeBytes then
      (true, { row with
        sizeBytes := usage.sizeBytes
        sizeKnown := usage.sizeBytes.isSome
        sizeText := shownSize usage.sizeBytes })
    else (false, row)

/-- What `patch_usage` does to one row, and whether that is a change. -/
def patch (references : AList fun _ : String => List VolumeContainerReference)
    (usage : AList fun _ : String => VolumeUsage) (row : VolumeRow) : Bool × VolumeRow :=
  let (changed, patched) := row.patchReferences (references.lookup row.volumeName)
  let (resized, patched) := patched.patchSize (usage.lookup row.volumeName)
  (changed || resized, patched)

end VolumeRow

namespace VolumesState

variable (s : VolumesState)

/-- What `sync_dynamic_roles` writes into a row. -/
def syncRow (row : VolumeRow) : VolumeRow :=
  let operation := ((s.operations.lookup row.volumeName).map (·.asStr)).getD ""
  { row with
    selected := row.volumeName = s.selectedVolumeName
    operation
    busy := operation ≠ "" }

def syncDynamicRoles : VolumesState :=
  { s with
    sourceRows := s.sourceRows.map s.syncRow
    visibleRows := s.visibleRows.map s.syncRow }

def shows (row : VolumeRow) : Bool :=
  let query := lowercase s.searchQuery
  query = "" || row.rowMatches query

def rebuildVisible : VolumesState :=
  { s with
    visibleRows := (s.sourceRows.filter s.shows).mergeSort fun left right =>
      (VolumeRow.compareRows s.sortMode left right).isLE }.syncDynamicRoles

def sourceRowExists (name : String) : Bool :=
  name ≠ "" && s.sourceRows.any (·.volumeName = name)

def visibleRowExists (name : String) : Bool :=
  name ≠ "" && s.visibleRows.any (·.volumeName = name)

/-! ## Selection and details -/

def startSelectedInspect : UInt64 × VolumesState :=
  (s.detailGeneration + 1,
    { s with
      detailGeneration := s.detailGeneration + 1
      detail := none
      detailState := .loading
      detailErrorKind := ""
      detailErrorMessage := "" })

def invalidateDetail (state : VolumeDetailState) : VolumesState :=
  { s with
    detailGeneration := s.detailGeneration + 1
    detail := none
    detailState := state
    detailErrorKind := ""
    detailErrorMessage := "" }

def setSelectionWithoutInspect (name : String) : VolumesState :=
  { s with
    selectedVolumeName := name
    detail := none
    detailState := .none
    detailErrorKind := ""
    detailErrorMessage := "" }

def clearSelection : VolumesState :=
  ({ s with selectedVolumeName := "" }.invalidateDetail .none).syncDynamicRoles

def inspectSelection (name : String) : Option UInt64 × VolumesState :=
  let (generation, s) := { s with selectedVolumeName := name }.syncDynamicRoles.startSelectedInspect
  (some generation, s)

def changeAutomaticSelection (desired : Option String) : Option UInt64 × VolumesState :=
  match desired with
  | some name =>
    if name = s.selectedVolumeName then (none, s.syncDynamicRoles) else s.inspectSelection name
  | none =>
    if s.selectedVolumeName = "" then (none, s.syncDynamicRoles) else (none, s.clearSelection)

def desiredAfterList (preferred previous : String) : Option String :=
  if preferred ≠ "" ∧ s.sourceRowExists preferred then some preferred
  else if s.visibleRowExists previous then some previous
  else if s.searchQuery = "" ∧ s.selectionBeforeFilter ≠ "" ∧
      s.sourceRowExists s.selectionBeforeFilter then some s.selectionBeforeFilter
  else s.visibleRows.head?.map (·.volumeName)

def receiveList (summaries : List VolumeSummary) : VolumesState :=
  let knownInUse := fun name => (s.sourceRows.reverse.find? (·.volumeName = name)).map (·.inUse)
  let s := { s with
    sourceRows := summaries.map fun summary =>
      (VolumeRow.fromSummary summary).keepUse (knownInUse summary.name) }.rebuildVisible
  { s with
    listState := if s.sourceRows.isEmpty then .empty else .ready
    listErrorKind := ""
    listErrorMessage := "" }

def applyList (generation : UInt64) (summaries : List VolumeSummary) : Bool × VolumesState :=
  if generation ≠ s.refreshGeneration then (false, s)
  else
    let previous := s.selectedVolumeName
    let s := s.receiveList summaries
    let preferred := s.preferredVolumeName
    let s := { s with preferredVolumeName := "" }
    let s := match s.desiredAfterList preferred previous with
      | some name => s.setSelectionWithoutInspect name
      | none => s.clearSelection
    (true, s.syncDynamicRoles)

def applyListError (generation : UInt64) (error : DaemonError) : Bool × VolumesState :=
  if generation ≠ s.refreshGeneration then (false, s)
  else
    let (kind, message, listState) := friendlyVolumeError error .list
    let s := { s with sourceRows := [], visibleRows := [] }.clearSelection
    (true, { s with listState, listErrorKind := kind, listErrorMessage := message })

/-- `patch_usage`, with the number of rows that changed. -/
def patchUsage (references : AList fun _ : String => List VolumeContainerReference)
    (usage : AList fun _ : String => VolumeUsage) : Nat × VolumesState :=
  (s.sourceRows.countP fun row : VolumeRow => (row.patch references usage).1,
    { s with
      sourceRows := s.sourceRows.map fun row : VolumeRow => (row.patch references usage).2
      visibleRows := s.visibleRows.map fun row : VolumeRow =>
        (row.patch references usage).2 }.rebuildVisible)

def setSearchQuery (query : String) : Option UInt64 × VolumesState :=
  let query := trim query
  let s :=
    if s.searchQuery = "" ∧ query ≠ "" then
      { s with selectionBeforeFilter := s.selectedVolumeName }
    else s
  let previous := s.selectedVolumeName
  let s := { s with searchQuery := query }.rebuildVisible
  let desired :=
    if query = "" ∧ s.selectionBeforeFilter ≠ "" ∧ s.sourceRowExists s.selectionBeforeFilter then
      some s.selectionBeforeFilter
    else if s.visibleRowExists previous then some previous
    else s.visibleRows.head?.map (·.volumeName)
  { s with
    selectionBeforeFilter :=
      if query = "" then "" else s.selectionBeforeFilter }.changeAutomaticSelection desired

def setSortMode (mode : VolumeSortMode) : VolumesState :=
  { s with sortMode := mode }.rebuildVisible.syncDynamicRoles

def select (name : String) : Option UInt64 × VolumesState :=
  if ¬ s.visibleRowExists name then (none, s)
  else if s.selectedVolumeName = name ∧ s.detailState ≠ .none then (none, s)
  else s.inspectSelection name

def beginSelectedInspect : Option UInt64 × VolumesState :=
  if s.selectedVolumeName = "" ∨ ¬ s.visibleRowExists s.selectedVolumeName then (none, s)
  else
    let (generation, s) := s.startSelectedInspect
    (some generation, s)

def replaceRow (name : String) (row : VolumeRow) : List VolumeRow → List VolumeRow
  | [] => []
  | first :: rest =>
    if first.volumeName = name then row :: rest else first :: replaceRow name row rest

def applyDetail (generation : UInt64) (detail : VolumeDetail) : Bool × VolumesState :=
  if generation ≠ s.detailGeneration ∨ detail.summary.name ≠ s.selectedVolumeName ∨
      ¬ s.sourceRowExists detail.summary.name then (false, s)
  else
    let s := { s with
      sourceRows := replaceRow detail.summary.name (VolumeRow.fromSummary detail.summary)
        s.sourceRows }.rebuildVisible
    (true, { s with
      detail := some (.fromDetail detail)
      detailState := .ready
      detailErrorKind := ""
      detailErrorMessage := "" }.syncDynamicRoles)

def applyDetailError (generation : UInt64) (error : DaemonError) : Bool × VolumesState :=
  if generation ≠ s.detailGeneration ∨ s.selectedVolumeName = "" then (false, s)
  else
    let (kind, message, _) := friendlyVolumeError error .detail
    (true, { s with
      detail := none
      detailState := .error
      detailErrorKind := kind
      detailErrorMessage := message })

/-- The list, the operations and the filter without a volume. -/
def forget (name : String) : VolumesState :=
  { s with
    sourceRows := s.sourceRows.filter (·.volumeName ≠ name)
    operations := s.operations.erase name
    operationGenerations := s.operationGenerations.erase name
    selectionBeforeFilter :=
      if s.selectionBeforeFilter = name then "" else s.selectionBeforeFilter }.rebuildVisible

def removeLocal (name : String) : Option UInt64 × VolumesState :=
  let oldVisibleIndex := (s.visibleRows.findIdx? (·.volumeName = name)).getD 0
  let s := s.forget name
  let (generation, s) :=
    if s.selectedVolumeName = name then
      match s.visibleRows[min oldVisibleIndex (s.visibleRows.length - 1)]? with
      | some neighbour => s.inspectSelection neighbour.volumeName
      | none => (none, s.clearSelection)
    else (none, s.syncDynamicRoles)
  (generation, { s with listState := if s.sourceRows.isEmpty then .empty else .ready })

def preferVolume (name : String) : VolumesState :=
  { s with
    preferredVolumeName := name
    searchQuery := ""
    selectionBeforeFilter := "" }.rebuildVisible

/-! ## Operations and tasks -/

def initializePage : Bool × VolumesState :=
  if s.initialized then (false, s) else (true, { s with initialized := true })

def beginRefresh : UInt64 × VolumesState :=
  let s := { s with refreshGeneration := s.refreshGeneration + 1 }.invalidateDetail .none
  (s.refreshGeneration,
    { s with
      listState := .loading
      listErrorKind := ""
      listErrorMessage := "" })

def setOperationError (error : DaemonError) : VolumesState :=
  let (kind, message, _) := friendlyVolumeError error .operation
  { s with operationErrorKind := kind, operationErrorMessage := message }

def clearOperationError : VolumesState :=
  { s with operationErrorKind := "", operationErrorMessage := "" }

def beginGlobalOperation (operation : GlobalVolumeOperation) : Option UInt64 × VolumesState :=
  if s.globalOperation.isSome then (none, s)
  else
    (some (s.globalGeneration + 1),
      { s with
        globalGeneration := s.globalGeneration + 1
        globalOperation := some operation }.clearOperationError)

def finishGlobalOperation (generation : UInt64) (operation : GlobalVolumeOperation) :
    Bool × VolumesState :=
  if generation ≠ s.globalGeneration ∨ s.globalOperation ≠ some operation then (false, s)
  else (true, { s with globalOperation := none })

def volumeOperationMatches (generation : UInt64) (name : String) (operation : VolumeOperation) :
    Bool :=
  s.operations.lookup name = some operation && s.operationGenerations.lookup name = some generation

/-- Both records of an operation are removed. -/
def dropOperation (name : String) : VolumesState :=
  { s with
    operations := s.operations.erase name
    operationGenerations := s.operationGenerations.erase name }

def beginVolumeOperation (name : String) (operation : VolumeOperation) :
    Option UInt64 × VolumesState :=
  if name = "" ∨ ¬ s.sourceRowExists name ∨ name ∈ s.operations then (none, s)
  else
    (some (s.operationGeneration + 1),
      { s with
        operationGeneration := s.operationGeneration + 1
        operations := s.operations.insert name operation
        operationGenerations :=
          s.operationGenerations.insert name
            (s.operationGeneration + 1) }.clearOperationError.syncDynamicRoles)

def finishVolumeOperation (generation : UInt64) (name : String) (operation : VolumeOperation) :
    Bool × VolumesState :=
  if ¬ s.volumeOperationMatches generation name operation then (false, s)
  else (true, (s.dropOperation name).syncDynamicRoles)

def beginCreate : Option UInt64 × VolumesState := s.beginGlobalOperation .creating

def finishCreate (generation : UInt64) (createdName : String) : Bool × VolumesState :=
  let (finished, s) := s.finishGlobalOperation generation .creating
  if finished then (true, s.preferVolume createdName) else (false, s)

def beginPrune : Option UInt64 × VolumesState :=
  let (generation, s) := s.beginGlobalOperation .pruning
  if generation.isSome then (generation, { s with pruneCancellation := .cancellable })
  else (none, s)

def requestCancelPrune : Bool × VolumesState :=
  if s.globalOperation ≠ some .pruning ∨ s.pruneCancellation ≠ .cancellable then (false, s)
  else (true, { s with pruneCancellation := .cancellationRequested })

def finishPrune (generation : UInt64) : Bool × VolumesState :=
  let (finished, s) := s.finishGlobalOperation generation .pruning
  if finished then (true, { s with pruneCancellation := .idle }) else (false, s)

def failGlobalOperation (generation : UInt64) (error : DaemonError) : Bool × VolumesState :=
  if s.globalOperation = none ∨ generation ≠ s.globalGeneration then (false, s)
  else
    (true, { s with
      pruneCancellation :=

        if s.globalOperation =
          some GlobalVolumeOperation.pruning then .idle else s.pruneCancellation
      globalOperation := none }.setOperationError error)

def beginRemove (name : String) : Option UInt64 × VolumesState :=
  if ¬ s.sourceRowExists name then (none, s) else s.beginVolumeOperation name .removing

def finishRemove (generation : UInt64) (name : String) : Bool × VolumesState :=
  s.finishVolumeOperation generation name .removing

end VolumesState

end

namespace CancellableVolumeTask

def requestCancellation (task : CancellableVolumeTask) : Bool × CancellableVolumeTask :=
  if ¬ task.active ∨ task.cancellation ≠ .cancellable then (false, task)
  else (true, { task with cancellation := .cancellationRequested })

def taskMatches (task : CancellableVolumeTask) (generation : UInt64) : Bool :=
  task.active && task.generation = generation

def begun (volumeName : String) (generation : UInt64) : CancellableVolumeTask :=
  { active := true, volumeName, generation, cancellation := .cancellable }

end CancellableVolumeTask

namespace VolumesState

variable [PageText] (s : VolumesState)

def failVolumeOperation (generation : UInt64) (name : String) (operation : VolumeOperation)
    (error : DaemonError) : Bool × VolumesState :=
  if ¬ s.volumeOperationMatches generation name operation then (false, s)
  else
    let s := s.dropOperation name
    let s :=
      if operation = .exporting ∧ s.exportTask.taskMatches generation then
        { s with exportTask := {} }
      else s
    let s :=
      if operation = .cloning ∧ s.cloneTask.taskMatches generation then
        { s with cloneTask := {} }
      else s
    (true, (s.setOperationError error).syncDynamicRoles)

def beginExport (name : String) : Option UInt64 × VolumesState :=
  if s.exportTask.active then (none, s)
  else
    match s.beginVolumeOperation name .exporting with
    | (some generation, s) => (some generation, { s with exportTask := .begun name generation })
    | (none, s) => (none, s)

def requestCancelExport : Bool × VolumesState :=
  (s.exportTask.requestCancellation.1, { s with exportTask := s.exportTask.requestCancellation.2 })

def finishExport (generation : UInt64) : Bool × VolumesState :=
  if ¬ s.exportTask.taskMatches generation then (false, s)
  else
    match s.finishVolumeOperation generation s.exportTask.volumeName .exporting with
    | (true, s) => (true, { s with exportTask := {} })
    | (false, s) => (false, s)

def failExport (generation : UInt64) (error : DaemonError) : Bool × VolumesState :=
  if ¬ s.exportTask.taskMatches generation then (false, s)
  else
    match s.finishVolumeOperation generation s.exportTask.volumeName .exporting with
    | (true, s) => (true, { s with exportTask := {} }.setOperationError error)
    | (false, s) => (false, s)

def beginClone (source : String) : Option UInt64 × VolumesState :=
  if s.cloneTask.active then (none, s)
  else
    match s.beginVolumeOperation source .cloning with
    | (some generation, s) => (some generation, { s with cloneTask := .begun source generation })
    | (none, s) => (none, s)

def requestCancelClone : Bool × VolumesState :=
  (s.cloneTask.requestCancellation.1, { s with cloneTask := s.cloneTask.requestCancellation.2 })

def finishClone (generation : UInt64) (createdName : Option String) : Bool × VolumesState :=
  if ¬ s.cloneTask.taskMatches generation then (false, s)
  else
    match s.finishVolumeOperation generation s.cloneTask.volumeName .cloning with
    | (true, s) =>
      let s := { s with cloneTask := {} }
      (true, match createdName with
        | some name => s.preferVolume name
        | none => s)
    | (false, s) => (false, s)

def failClone (generation : UInt64) (error : DaemonError) : Bool × VolumesState :=
  if ¬ s.cloneTask.taskMatches generation then (false, s)
  else
    match s.finishVolumeOperation generation s.cloneTask.volumeName .cloning with
    | (true, s) => (true, { s with cloneTask := {} }.setOperationError error)
    | (false, s) => (false, s)

end VolumesState

end TuxStack.Gui
