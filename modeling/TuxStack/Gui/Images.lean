import TuxStack.Gui.Volumes
import TuxStack.Lib.DetailPanel

/-!
# The Images page

`ImagesState` (`crates/gui/src/controllers/images.rs`), and the page as a `DetailPanel`: the
selection is an image of the list, and every operation that moves it gives up the details.
-/

namespace TuxStack.Gui

open Runs
open Guards (guarded)

/-! ## Rows -/

/-- `ImageContainerReference` as far as it is searched. -/
structure ImageContainerReference where
  id : String
  shortId : String
  name : String
deriving DecidableEq

/-- `ImageSummary`; the time of creation is in units since the epoch. -/
structure ImageSummary where
  id : String
  shortId : String
  repoTags : List String
  repoDigests : List String
  displayName : String
  createdAt : Option Int
  sizeBytes : UInt64
  labels : List (String × String)
  containers : List ImageContainerReference
  inUse : Bool
deriving DecidableEq

/-- `ImageDetail` as far as the page looks at it. -/
structure ImageDetail where
  summary : ImageSummary
  architecture : Option String
  os : Option String
  variant : Option String
deriving DecidableEq

/-- `ImageRow` without the texts that are only displayed. -/
structure ImageRow where
  imageId : String
  shortId : String
  displayName : String
  repoTags : List String
  repoDigests : List String
  sizeBytes : UInt64
  createdAt : Option Int
  architecture : String
  inUse : Bool
  containers : List ImageContainerReference
  labels : List (String × String)
deriving DecidableEq

def ImageRow.fromSummary (summary : ImageSummary) : ImageRow where
  imageId := summary.id
  shortId := summary.shortId
  displayName := summary.displayName
  repoTags := summary.repoTags
  repoDigests := summary.repoDigests
  sizeBytes := summary.sizeBytes
  createdAt := summary.createdAt
  architecture := "unknown"
  inUse := summary.inUse
  containers := summary.containers
  labels := summary.labels

/-- The architecture that a row shows once the image has been inspected. -/
def ImageDetail.architectureText (detail : ImageDetail) : String :=
  match detail.architecture, detail.variant with
  | some architecture, some variant =>
    if architecture ≠ "" ∧ variant ≠ "" then architecture ++ "/" ++ variant
    else if architecture ≠ "" then architecture
    else "unknown"
  | some architecture, none => if architecture ≠ "" then architecture else "unknown"
  | none, _ => "unknown"

/-- `ImageDetailView` without its texts and tables. -/
structure ImageDetailView where
  imageId : String
  shortId : String
  displayName : String
  repoTags : List String
deriving DecidableEq

def ImageDetailView.fromDetail (detail : ImageDetail) : ImageDetailView where
  imageId := detail.summary.id
  shortId := detail.summary.shortId
  displayName := detail.summary.displayName
  repoTags := detail.summary.repoTags

/-! ## Errors -/

inductive AppError where
  | daemonUnavailable (message : String)
  | dockerUnavailable
  | fuseUnavailable (message : String)
  | permissionDenied
  | operation (message : String)
  | config (message : String)
deriving DecidableEq

namespace AppError

def userMessage : AppError → String
  | daemonUnavailable _ => "TuxStack service is not running."
  | dockerUnavailable => "Docker Engine is unavailable."
  | fuseUnavailable _ => "Docker filesystem is unavailable."
  | permissionDenied => "Permission denied while accessing the TuxStack service."
  | operation message => message
  | config message => "Configuration error: " ++ message

def kind : AppError → String
  | daemonUnavailable _ => "daemon_unavailable"
  | dockerUnavailable => "docker_unavailable"
  | fuseUnavailable _ => "fuse_unavailable"
  | permissionDenied => "permission_denied"
  | operation _ => "daemon"
  | config _ => "config"

def fromDaemon : DaemonError → AppError
  | .daemonUnavailable message => daemonUnavailable message
  | .socketNotFound path => daemonUnavailable path
  | .engineUnavailable | .connectionTimeout => dockerUnavailable
  | .fuseUnavailable message => fuseUnavailable message
  | .permissionDenied | .destinationPermissionDenied _ => permissionDenied
  | other => operation other.display

end AppError

/-! ## The state -/

inductive SelectionChange where
  | selected (generation : UInt64)
  | deselected
  | ignored
deriving DecidableEq

inductive ImagesListState where
  | loading
  | ready
  | empty
  | error
deriving DecidableEq

inductive ImageDetailState where
  | none
  | loading
  | ready
  | error
deriving DecidableEq

inductive ImageSortMode where
  | nameAscending
  | nameDescending
  | newestFirst
  | oldestFirst
  | largestFirst
  | smallestFirst
  | usedFirst
  | unusedFirst
deriving DecidableEq

/-- `ImagePullProgress` without the percentage. -/
structure ImagePullProgress where
  imageReference : String
  layerId : Option String
  status : String
  current : Option UInt64
  total : Option UInt64
deriving DecidableEq

/-- `PullState` without the percentage. -/
structure PullState where
  active : Bool := false
  reference : String := ""
  layerId : String := ""
  status : String := ""
  current : UInt64 := 0
  total : UInt64 := 0
deriving DecidableEq

structure ExportState where
  active : Bool := false
  imageId : String := ""
  destination : String := ""
deriving DecidableEq

structure ImagesState where
  sourceRows : List ImageRow := []
  visibleRows : List ImageRow := []
  busy : AList fun _ : String => String := ∅
  busyGenerations : AList fun _ : String => UInt64 := ∅
  searchQuery : String := ""
  sortMode : ImageSortMode := .usedFirst
  selectedImageId : String := ""
  detail : Option ImageDetailView := none
  refreshGeneration : UInt64 := 0
  detailGeneration : UInt64 := 0
  operationGeneration : UInt64 := 0
  pullGeneration : UInt64 := 0
  exportGeneration : UInt64 := 0
  preferredReference : String := ""
  initialized : Bool := false
  status : ImagesListState := .loading
  statusText : String := ""
  errorKind : String := ""
  detailStatus : ImageDetailState := .none
  detailError : String := ""
  detailErrorKind : String := ""
  operationInProgress : Bool := false
  pull : PullState := {}
  exporting : ExportState := {}

section

variable [PageText]

open PageText

namespace ImageRow

def rowMatches (row : ImageRow) (query : String) : Bool :=
  contains (lowercase row.displayName) query ||
    contains (lowercase row.imageId) query ||
    contains (lowercase row.shortId) query ||
    (row.repoTags ++ row.repoDigests).any (fun value => contains (lowercase value) query) ||
    pairsMatch row.labels query ||
    contains (lowercase row.architecture) query ||
    row.containers.any fun container =>
      contains (lowercase container.name) query || contains (lowercase container.shortId) query

def compareRows (mode : ImageSortMode) (left right : ImageRow) : Ordering :=
  let bySection :=
    if mode = .unusedFirst then compare left.inUse right.inUse
    else compare right.inUse left.inUse
  let name := compare (lowercase left.displayName) (lowercase right.displayName)
  let newest := (compare right.createdAt left.createdAt).then name
  bySection.then <|
    match mode with
    | .nameAscending => name
    | .nameDescending => name.swap
    | .newestFirst => newest
    | .oldestFirst => (compare left.createdAt right.createdAt).then name
    | .largestFirst => (compare right.sizeBytes left.sizeBytes).then newest
    | .smallestFirst => (compare left.sizeBytes right.sizeBytes).then newest
    | .usedFirst | .unusedFirst => newest

end ImageRow

namespace ImagesState

variable (s : ImagesState)

/-- The filter passes a row. -/
def shows (row : ImageRow) : Bool :=
  let query := lowercase s.searchQuery
  query = "" || row.rowMatches query

def rebuildVisible : ImagesState :=
  { s with
    visibleRows := (s.sourceRows.filter s.shows).mergeSort fun left right =>
      (ImageRow.compareRows s.sortMode left right).isLE }

/-! ## Selection and details -/

def rowExists (imageId : String) : Bool := s.sourceRows.any (·.imageId = imageId)

def clearSelection : ImagesState :=
  { s with
    selectedImageId := ""
    detail := none
    detailStatus := .none
    detailError := ""
    detailErrorKind := ""
    detailGeneration := s.detailGeneration + 1 }

def setRefreshSelection (imageId : String) : ImagesState :=
  { s with
    selectedImageId := imageId
    detail := none
    detailStatus := .none
    detailError := ""
    detailErrorKind := "" }

def restoreSelection (selected : String) : ImagesState :=
  if selected ≠ "" ∧ s.rowExists selected then { s with selectedImageId := selected }
  else s.clearSelection

def restoreAfterRefresh (selected : String) : ImagesState :=
  if selected ≠ "" ∧ s.rowExists selected then { s with selectedImageId := selected }
  else
    match ((s.visibleRows.find? (·.inUse)).or s.visibleRows.head?) with
    | some fallback => s.setRefreshSelection fallback.imageId
    | none => s.clearSelection

def select (imageId : String) : Option UInt64 × ImagesState :=
  if ¬ s.rowExists imageId then (none, s)
  else
    (some (s.detailGeneration + 1), { s with
      selectedImageId := imageId
      detail := none
      detailStatus := .loading
      detailError := ""
      detailErrorKind := ""
      detailGeneration := s.detailGeneration + 1 })

def toggleSelection (imageId : String) : SelectionChange × ImagesState :=
  if s.selectedImageId = imageId then (.deselected, s.clearSelection)
  else
    let (generation, s) := s.select imageId
    (match generation with
      | some generation => .selected generation
      | none => .ignored, s)

/-! ## The operations -/

def initializePage : Bool × ImagesState :=
  if s.initialized then (false, s) else (true, { s with initialized := true })

def beginRefresh : UInt64 × ImagesState :=
  (s.refreshGeneration + 1, { s with
    refreshGeneration := s.refreshGeneration + 1
    detailGeneration := s.detailGeneration + 1
    status := .loading
    statusText := ""
    errorKind := ""
    detail := none
    detailStatus := .none
    detailError := ""
    detailErrorKind := "" })

def receiveList (summaries : List ImageSummary) : ImagesState :=
  let s := { s with sourceRows := summaries.map .fromSummary }.rebuildVisible
  { s with
    status := if s.sourceRows.isEmpty then .empty else .ready
    statusText := ""
    errorKind := "" }

/-- The image that was pulled. -/
def preferredRow : Option ImageRow :=
  s.sourceRows.find? fun row =>
    row.displayName = s.preferredReference || row.repoTags.any (· = s.preferredReference)

def applyList (generation : UInt64) (summaries : List ImageSummary) : Bool × ImagesState :=
  if generation ≠ s.refreshGeneration then (false, s)
  else
    let previous := s.selectedImageId
    let s := s.receiveList summaries
    (true,
      if s.preferredReference = "" then s.restoreAfterRefresh previous
      else
        match s.preferredRow with
        | some row => { s with preferredReference := "" }.setRefreshSelection row.imageId
        | none => { s with preferredReference := "" }.restoreAfterRefresh previous)

def applyListError (generation : UInt64) (error : DaemonError) : Bool × ImagesState :=
  if generation ≠ s.refreshGeneration then (false, s)
  else
    let error := AppError.fromDaemon error
    let s := { s with sourceRows := [], visibleRows := [] }.clearSelection
    (true, { s with status := .error, errorKind := error.kind, statusText := error.userMessage })

def patchRow (imageId architecture : String) (row : ImageRow) : ImageRow :=
  if row.imageId = imageId ∧ row.architecture ≠ architecture then { row with architecture } else row

def patchMetadata (imageId architecture : String) : Bool × ImagesState :=
  (s.sourceRows.any fun row => row.imageId = imageId && row.architecture ≠ architecture,
    { s with
      sourceRows := s.sourceRows.map (patchRow imageId architecture)
      visibleRows := s.visibleRows.map (patchRow imageId architecture) })

def setSearchQuery (query : String) : ImagesState :=
  { s with searchQuery := trim query }.rebuildVisible.restoreSelection s.selectedImageId

def setSortMode (mode : ImageSortMode) : ImagesState := { s with sortMode := mode }.rebuildVisible

/-- The first row of an image shows its architecture. -/
def setArchitecture (imageId architecture : String) : List ImageRow → List ImageRow
  | [] => []
  | first :: rest =>
    if first.imageId = imageId then { first with architecture } :: rest
    else first :: setArchitecture imageId architecture rest

def applyDetail (generation : UInt64) (detail : ImageDetail) : Bool × ImagesState :=
  if generation ≠ s.detailGeneration ∨ detail.summary.id ≠ s.selectedImageId then (false, s)
  else
    let s := { s with
      sourceRows :=
        setArchitecture detail.summary.id detail.architectureText s.sourceRows }.rebuildVisible
    (true, { s with
      detail := some (.fromDetail detail)
      detailStatus := .ready
      detailError := ""
      detailErrorKind := "" })

def applyDetailError (generation : UInt64) (kind message : String) : Bool × ImagesState :=
  if generation ≠ s.detailGeneration then (false, s)
  else
    (true, { s with
      detail := none
      detailStatus := .error
      detailErrorKind := kind
      detailError := message })

def beginOperation (imageId operation : String) : Option UInt64 × ImagesState :=
  if imageId ∈ s.busy then (none, s)
  else
    (some (s.operationGeneration + 1), { s with
      operationGeneration := s.operationGeneration + 1
      busy := s.busy.insert imageId operation
      busyGenerations := s.busyGenerations.insert imageId (s.operationGeneration + 1)
      operationInProgress := true })

def finishOperation (imageId : String) (generation : UInt64) : Bool × ImagesState :=
  if s.busyGenerations.lookup imageId ≠ some generation then (false, s)
  else
    (true, { s with
      busy := s.busy.erase imageId
      busyGenerations := s.busyGenerations.erase imageId
      operationInProgress :=
        !(s.busy.erase imageId).entries.isEmpty || s.pull.active || s.exporting.active })

def removeLocal (imageId : String) : ImagesState :=
  let oldIndex := (s.visibleRows.findIdx? (·.imageId = imageId)).getD 0
  let s := { s with sourceRows := s.sourceRows.filter (·.imageId ≠ imageId) }.rebuildVisible
  let s :=
    if s.selectedImageId = imageId then
      let selected :=
        (s.visibleRows[min oldIndex (s.visibleRows.length - 1)]?.map (·.imageId)).getD ""
      { s with
        detailGeneration := s.detailGeneration + 1
        detail := none
        detailError := ""
        detailErrorKind := ""
        selectedImageId := selected
        detailStatus := if selected = "" then .none else .loading }
    else s
  { s with status := if s.sourceRows.isEmpty then .empty else .ready }

def beginPull (reference : String) : Option UInt64 × ImagesState :=
  let reference := trim reference
  if reference = "" ∨ s.pull.active then (none, s)
  else
    (some (s.pullGeneration + 1), { s with
      pullGeneration := s.pullGeneration + 1
      pull := { active := true, reference, status := "Resolving" }
      operationInProgress := true })

def applyPullProgress (generation : UInt64) (progress : ImagePullProgress) : Bool × ImagesState :=
  if generation ≠ s.pullGeneration ∨ ¬ s.pull.active ∨
      progress.imageReference ≠ s.pull.reference then (false, s)
  else
    (true, { s with
      pull := { s.pull with
        layerId := progress.layerId.getD ""
        status := progress.status
        current := progress.current.getD 0
        total := progress.total.getD 0 } })

def finishPull (generation : UInt64) (preferPulledImage : Bool) : Bool × ImagesState :=
  if generation ≠ s.pullGeneration then (false, s)
  else
    (true, { s with
      preferredReference := if preferPulledImage then s.pull.reference else s.preferredReference
      pull := { s.pull with active := false }
      operationInProgress := !s.busy.entries.isEmpty || s.exporting.active })

def beginExport (imageId destination : String) : Option UInt64 × ImagesState :=
  if s.exporting.active ∨ imageId = "" ∨ destination = "" then (none, s)
  else
    (some (s.exportGeneration + 1), { s with
      exportGeneration := s.exportGeneration + 1
      exporting := { active := true, imageId, destination }
      operationInProgress := true })

def finishExport (generation : UInt64) : Bool × ImagesState :=
  if generation ≠ s.exportGeneration then (false, s)
  else
    (true, { s with
      exporting := { s.exporting with active := false }
      operationInProgress := !s.busy.entries.isEmpty || s.pull.active })

end ImagesState

end

inductive ImagesCall where
  | initializePage
  | beginRefresh
  | applyList (generation : UInt64) (summaries : List ImageSummary)
  | applyListError (generation : UInt64) (error : DaemonError)
  | patchMetadata (imageId architecture : String)
  | setSearchQuery (query : String)
  | setSortMode (mode : ImageSortMode)
  | select (imageId : String)
  | toggleSelection (imageId : String)
  | clearSelection
  | beginOperation (imageId operation : String)
  | finishOperation (imageId : String) (generation : UInt64)
  | removeLocal (imageId : String)
  | beginPull (reference : String)
  | applyPullProgress (generation : UInt64) (progress : ImagePullProgress)
  | finishPull (generation : UInt64) (preferPulledImage : Bool)
  | beginExport (imageId destination : String)
  | finishExport (generation : UInt64)

def ImagesCall.after [PageText] (s : ImagesState) : ImagesCall → ImagesState
  | .initializePage => s.initializePage.2
  | .beginRefresh => s.beginRefresh.2
  | .applyList generation summaries => (s.applyList generation summaries).2
  | .applyListError generation error => (s.applyListError generation error).2
  | .patchMetadata imageId architecture => (s.patchMetadata imageId architecture).2
  | .setSearchQuery query => s.setSearchQuery query
  | .setSortMode mode => s.setSortMode mode
  | .select imageId => (s.select imageId).2
  | .toggleSelection imageId => (s.toggleSelection imageId).2
  | .clearSelection => s.clearSelection
  | .beginOperation imageId operation => (s.beginOperation imageId operation).2
  | .finishOperation imageId generation => (s.finishOperation imageId generation).2
  | .removeLocal imageId => s.removeLocal imageId
  | .beginPull reference => (s.beginPull reference).2
  | .applyPullProgress generation progress => (s.applyPullProgress generation progress).2
  | .finishPull generation preferPulledImage => (s.finishPull generation preferPulledImage).2
  | .beginExport imageId destination => (s.beginExport imageId destination).2
  | .finishExport generation => (s.finishExport generation).2

/-! ## The panel -/

def imageIds (rows : List ImageRow) : List String := rows.map (·.imageId)

namespace ImagesState

def Showing (s : ImagesState) : Prop := s.detailStatus = .ready ∨ s.detailStatus = .error

/-- This result is shown; an error is its kind and its message. -/
def Shows (s : ImagesState) : ImageDetail ⊕ (String × String) → Prop
  | .inl detail => s.detailStatus = .ready ∧ s.detail = some (.fromDetail detail)
  | .inr error =>
    s.detailStatus = .error ∧ s.detail = none ∧ (s.detailErrorKind, s.detailError) = error

/-- The selected id is empty or names a row. -/
def SelectionKnown (s : ImagesState) : Prop :=
  s.selectedImageId = "" ∨ s.selectedImageId ∈ imageIds s.sourceRows

structure Named (s : ImagesState) : Prop where
  selected : s.SelectionKnown
  visible : ∀ imageId ∈ imageIds s.visibleRows, imageId ∈ imageIds s.sourceRows

def inspects (s : ImagesState) : ImagesCall → Option UInt64
  | .select imageId => (s.select imageId).1
  | .toggleSelection imageId =>
    match (s.toggleSelection imageId).1 with
    | .selected generation => some generation
    | _ => none
  | _ => none

def panel [PageText] : DetailPanel ImagesState ImagesCall UInt64 String ImageDetail
    (String × String) where
  call s call := call.after s
  starts := inspects
  applyDetail := applyDetail
  applyError s generation error := s.applyDetailError generation error.1 error.2
  selected := selectedImageId
  resource detail := detail.summary.id
  showing := Showing
  shows := Shows
  takesError s generation := generation = s.detailGeneration

/-- What an operation makes of `s`: the selection stays known, and the details go with it. -/
abbrev Follows [PageText] (s t : ImagesState) : Prop := panel.Follows Named s t

variable {s t : ImagesState} {imageId : String}

theorem neighbour_known (rows : List ImageRow) (index : ℕ) :
    (rows[index]?.map (·.imageId)).getD "" = "" ∨
      (rows[index]?.map (·.imageId)).getD "" ∈ imageIds rows := by
  cases hrow : rows[index]? with
  | none => exact .inl rfl
  | some row => exact .inr (List.mem_map_of_mem (List.mem_of_getElem? hrow))

theorem mem_of_rowExists (h : s.rowExists imageId = true) : imageId ∈ imageIds s.sourceRows := by
  obtain ⟨row, hrow, hid⟩ := List.any_eq_true.mp h
  exact List.mem_map.mpr ⟨row, hrow, of_decide_eq_true hid⟩

theorem imageIds_map {f : ImageRow → ImageRow} (hf : ∀ row, (f row).imageId = row.imageId)
    (rows : List ImageRow) : imageIds (rows.map f) = imageIds rows := by
  unfold imageIds
  rw [List.map_map]
  exact List.map_congr_left fun row _ => hf row

theorem imageId_patchRow (imageId architecture : String) (row : ImageRow) :
    (patchRow imageId architecture row).imageId = row.imageId := by
  unfold patchRow
  split
  · rfl
  · rfl

theorem imageIds_setArchitecture (architecture : String) (rows : List ImageRow) :
    imageIds (setArchitecture imageId architecture rows) = imageIds rows := by
  induction rows with
  | nil => rfl
  | cons first rest ih =>
    unfold setArchitecture
    split
    · rfl
    · exact congrArg (first.imageId :: ·) ih

variable [PageText]

theorem visible_rebuildVisible : ∀ imageId ∈ imageIds s.rebuildVisible.visibleRows,
    imageId ∈ imageIds s.sourceRows := by
  intro imageId hid
  obtain ⟨row, hrow, rfl⟩ := List.mem_map.mp hid
  exact List.mem_map_of_mem (List.mem_of_mem_filter (List.mem_mergeSort.mp hrow))

theorem Named.follows_refl (h : s.Named) : s.Follows s := DetailPanel.follows_refl h

/-- The rows and the details that the page shows. -/
def viewed : panel.Viewed Named ImageDetailState ImageDetailView where
  rows s := (imageIds s.sourceRows, imageIds s.visibleRows)
  details s := ⟨s.selectedImageId, s.detailStatus, s.detail, (s.detailErrorKind, s.detailError)⟩
  unselected := ""
  ready := .ready
  failed := .error
  ofDetail := .fromDetail
  ofError := id
  named_iff _ := ⟨fun h => ⟨h.selected, h.visible⟩, fun h => ⟨h.1, h.2⟩⟩
  showing_iff _ := Iff.rfl
  selected_eq _ := rfl
  shows_detail _ _ := Iff.rfl
  shows_error _ _ := Iff.rfl

theorem follows_clearSelection
    (hvisible : ∀ n ∈ imageIds t.visibleRows, n ∈ imageIds t.sourceRows) :
    s.Follows t.clearSelection :=
  viewed.hidden ⟨.inl rfl, hvisible⟩ rfl

theorem follows_setRefreshSelection
    (hvisible : ∀ n ∈ imageIds t.visibleRows, n ∈ imageIds t.sourceRows)
    (hid : imageId ∈ imageIds t.sourceRows) : s.Follows (t.setRefreshSelection imageId) :=
  viewed.hidden ⟨.inr hid, hvisible⟩ rfl

theorem follows_restoreAfterRefresh
    (hvisible : ∀ n ∈ imageIds t.visibleRows, n ∈ imageIds t.sourceRows)
    (hstate : t.detailStatus = s.detailStatus) (hdetail : t.detail = s.detail)
    (herror : (t.detailErrorKind, t.detailError) = (s.detailErrorKind, s.detailError)) :
    s.Follows (t.restoreAfterRefresh s.selectedImageId) := by
  unfold restoreAfterRefresh
  split
  · next hthere =>
    refine viewed.follows ⟨.inr (mem_of_rowExists hthere.2), hvisible⟩ ?_
    exact DetailPanel.Details.ext rfl hstate hdetail herror
  · split
    · next fallback hfallback =>
      refine follows_setRefreshSelection hvisible (hvisible _ (List.mem_map_of_mem ?_))
      rcases Option.or_eq_some_iff.mp hfallback with hfound | ⟨-, hhead⟩
      · exact List.mem_of_find?_eq_some hfound
      · exact List.mem_of_head? hhead
    · exact follows_clearSelection hvisible

theorem Named.follows_applyList (h : s.Named) (generation : UInt64)
    (summaries : List ImageSummary) : s.Follows (s.applyList generation summaries).2 := by
  unfold applyList
  split
  · exact h.follows_refl
  · have hvisible : ∀ n ∈ imageIds (s.receiveList summaries).visibleRows,
        n ∈ imageIds (s.receiveList summaries).sourceRows :=
      visible_rebuildVisible (s := { s with sourceRows := summaries.map .fromSummary })
    dsimp only
    split
    · exact follows_restoreAfterRefresh hvisible rfl rfl rfl
    · split
      · next row hrow =>
        exact follows_setRefreshSelection
          (t := { s.receiveList summaries with preferredReference := "" }) hvisible
          (List.mem_map_of_mem (List.mem_of_find?_eq_some hrow))
      · exact follows_restoreAfterRefresh
          (t := { s.receiveList summaries with preferredReference := "" }) hvisible rfl rfl rfl

theorem Named.follows_patchMetadata (h : s.Named) (imageId architecture : String) :
    s.Follows (s.patchMetadata imageId architecture).2 := by
  have hids := imageIds_map (imageId_patchRow imageId architecture)
  refine viewed.follows ⟨?_, ?_⟩ rfl
  · show s.selectedImageId = "" ∨
      s.selectedImageId ∈ imageIds (s.sourceRows.map (patchRow imageId architecture))
    rw [hids]
    exact h.selected
  · show ∀ n ∈ imageIds (s.visibleRows.map (patchRow imageId architecture)),
      n ∈ imageIds (s.sourceRows.map (patchRow imageId architecture))
    rw [hids, hids]
    exact h.visible

theorem Named.follows_setSearchQuery (h : s.Named) (query : String) :
    s.Follows (s.setSearchQuery query) := by
  have hquery : s.Follows { s with searchQuery := trim query }.rebuildVisible :=
    viewed.follows ⟨h.selected, visible_rebuildVisible⟩ rfl
  unfold setSearchQuery restoreSelection
  split
  · exact hquery
  · exact follows_clearSelection hquery.1.visible

theorem Named.follows_select (h : s.Named) (imageId : String) :
    s.Follows (s.select imageId).2 := by
  unfold select
  split
  · exact h.follows_refl
  · next hthere =>
    exact viewed.hidden ⟨.inr (mem_of_rowExists (not_not.mp hthere)), h.visible⟩ rfl

theorem Named.follows_removeLocal (h : s.Named) (imageId : String) :
    s.Follows (s.removeLocal imageId) := by
  have hvisible := visible_rebuildVisible (s := { s with
    sourceRows := s.sourceRows.filter (·.imageId ≠ imageId) })
  have hlist : ∀ {t : ImagesState} {status : ImagesListState}, s.Follows t →
      s.Follows { t with status } := fun hfollows =>
    viewed.then_same hfollows rfl rfl
  unfold removeLocal
  dsimp only
  split
  · refine hlist (viewed.hidden ⟨(neighbour_known _ _).imp_right (hvisible _), hvisible⟩ ?_)
    -- nothing is inspected where no row is left
    generalize (Option.map _ _).getD "" = selected
    by_cases hnone : selected = "" <;> simp [viewed, hnone]
  · next hne =>
    refine hlist (viewed.follows ⟨?_, hvisible⟩ rfl)
    show s.selectedImageId = "" ∨
      s.selectedImageId ∈ imageIds (s.sourceRows.filter (·.imageId ≠ imageId))
    rcases h.selected with hempty | hmem
    · exact .inl hempty
    · obtain ⟨row, hrow, hid⟩ := List.mem_map.mp hmem
      refine .inr (List.mem_map.mpr ⟨row, List.mem_filter.mpr ⟨hrow, ?_⟩, hid⟩)
      exact decide_eq_true fun heq => hne (hid.symm.trans heq)

theorem Named.follows_after (h : s.Named) (call : ImagesCall) : s.Follows (call.after s) := by
  cases call with
  | initializePage | beginOperation imageId operation | finishOperation imageId generation
  | beginPull reference | applyPullProgress generation progress
  | finishPull generation preferPulledImage | beginExport imageId destination
  | finishExport generation =>
    exact guarded h.follows_refl fun _ => viewed.follows_of_same h rfl rfl
  | beginRefresh =>
    exact viewed.hidden { h with } rfl
  | applyList generation summaries => exact h.follows_applyList generation summaries
  | applyListError generation error =>
    exact viewed.follows_listError h
      (follows_clearSelection (t := { s with sourceRows := [], visibleRows := [] })
      (by simp [imageIds])) rfl rfl
  | patchMetadata imageId architecture => exact h.follows_patchMetadata imageId architecture
  | setSearchQuery query => exact h.follows_setSearchQuery query
  | setSortMode mode =>
    exact viewed.follows (t := { s with sortMode := mode }.rebuildVisible)
      ⟨h.selected, visible_rebuildVisible⟩ rfl
  | select imageId => exact h.follows_select imageId
  | toggleSelection imageId =>
    show s.Follows (s.toggleSelection imageId).2
    unfold toggleSelection
    split
    · exact follows_clearSelection h.visible
    · exact h.follows_select imageId
  | clearSelection => exact follows_clearSelection h.visible
  | removeLocal imageId => exact h.follows_removeLocal imageId

/-- **A detail** is taken for the selected image only. -/
theorem Named.applyDetail_taken (h : s.Named) {generation : UInt64} {detail : ImageDetail}
    (htaken : (s.applyDetail generation detail).1 = true) :
    (s.applyDetail generation detail).2.Named ∧ detail.summary.id = s.selectedImageId ∧
      (s.applyDetail generation detail).2.selectedImageId = s.selectedImageId ∧
      (s.applyDetail generation detail).2.Shows (.inl detail) := by
  unfold applyDetail at htaken ⊢
  split at htaken
  · cases htaken
  · next hcurrent =>
    rw [if_neg hcurrent]
    rw [not_or, not_not, not_not] at hcurrent
    refine ⟨⟨?_, visible_rebuildVisible (s := { s with
      sourceRows := setArchitecture detail.summary.id detail.architectureText
        s.sourceRows })⟩, hcurrent.2, rfl, rfl, rfl⟩
    show s.selectedImageId = "" ∨ s.selectedImageId ∈
      imageIds (setArchitecture detail.summary.id detail.architectureText s.sourceRows)
    rw [imageIds_setArchitecture]
    exact h.selected

omit [PageText] in
theorem applyDetailError_eq {generation : UInt64} (error : String × String)
    (htakes : generation = s.detailGeneration) :
    s.applyDetailError generation error.1 error.2 = (true, { s with
      detail := none
      detailStatus := .error
      detailErrorKind := error.1
      detailError := error.2 }) :=
  if_neg (not_not_intro htakes)

theorem lawful_panel : panel.Lawful Named where
  call_follows operation h := h.follows_after operation
  detail_refused := Guards.refused
  detail_taken h htaken := h.applyDetail_taken htaken
  error_refused _ hrefused := if_pos hrefused
  error_taken error h htakes := viewed.error_taken h (applyDetailError_eq error htakes) rfl rfl

end ImagesState

end TuxStack.Gui
