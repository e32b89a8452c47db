import TuxStack.Gui.Volumes
import TuxStack.Lib.DetailPanel

/-!
# The Networks page

`NetworksState` (`crates/gui/src/controllers/networks.rs`), and the page as a
`DetailPanel`: the selection is a network of the list, and every operation that moves it
gives up the details.
-/

namespace TuxStack.Gui

open Runs
open Guards (guarded)

/-! ## Rows -/

/-- `NetworkSummary`; the time of creation is in units since the epoch. -/
structure NetworkSummary where
  id : String
  shortId : String
  name : String
  driver : String
  createdAt : Option Int
  subnet : Option String
  gateway : Option String
  labels : List (String × String)
deriving DecidableEq

/-- `NetworkDetail` as far as the page looks at it. -/
structure NetworkDetail where
  summary : NetworkSummary
  options : List (String × String)
deriving DecidableEq

/-- `NetworkRow` without the texts that are only displayed. -/
structure NetworkRow where
  networkId : String
  shortId : String
  name : String
  driver : String
  subnet : String
  gateway : String
  createdAt : Option Int
  labels : List (String × String)
deriving DecidableEq

def NetworkRow.fromSummary (summary : NetworkSummary) : NetworkRow where
  networkId := summary.id
  shortId := summary.shortId
  name := summary.name
  driver := summary.driver
  subnet := summary.subnet.getD ""
  gateway := summary.gateway.getD ""
  createdAt := summary.createdAt
  labels := summary.labels

/-- `NetworkDetailView` without its texts and tables. -/
structure NetworkDetailView where
  networkId : String
  shortId : String
  name : String
deriving DecidableEq

def NetworkDetailView.fromDetail (detail : NetworkDetail) : NetworkDetailView where
  networkId := detail.summary.id
  shortId := detail.summary.shortId
  name := detail.summary.name

/-! ## The state -/

inductive NetworksListState where
  | loading
  | ready
  | empty
  | error
deriving DecidableEq

inductive NetworkDetailState where
  | none
  | loading
  | ready
  | error
deriving DecidableEq

inductive NetworkSortMode where
  | nameAscending
  | nameDescending
  | newestFirst
  | oldestFirst
  | driver
deriving DecidableEq

inductive NetworkOperationKind where
  | create
  | remove
deriving DecidableEq

structure NetworkOperationState where
  active : Bool := false
  kind : Option NetworkOperationKind := none
  networkId : String := ""
  generation : UInt64 := 0
  errorKind : String := ""
  errorMessage : String := ""
deriving DecidableEq

structure NetworksState where
  sourceRows : List NetworkRow := []
  visibleRows : List NetworkRow := []
  searchQuery : String := ""
  sortMode : NetworkSortMode := .nameAscending
  selectedNetworkId : String := ""
  detail : Option NetworkDetailView := none
  refreshGeneration : UInt64 := 0
  detailGeneration : UInt64 := 0
  preferredNetworkId : String := ""
  initialized : Bool := false
  status : NetworksListState := .loading
  statusText : String := ""
  errorKind : String := ""
  detailStatus : NetworkDetailState := .none
  detailError : String := ""
  detailErrorKind : String := ""
  operation : NetworkOperationState := {}

inductive NetworkErrorContext where
  | list
  | detail
  | operation
deriving DecidableEq

def friendlyNetworkError (error : DaemonError) (context : NetworkErrorContext) :
    String × String :=
  match error with
  | .socketNotFound _ | .engineUnavailable =>
    ("docker_unavailable",
      "Docker Engine is not available. Check that Docker is running and try again.")
  | .permissionDenied =>
    ("permission_denied",
      "Permission denied while accessing Docker networks. Check Docker socket permissions.")
  | .connectionTimeout | .operationTimeout =>
    ("timeout", "The Docker network request timed out. Try again.")
  | .networkNotFound _ =>
    ("network_not_found", "This network no longer exists. Refresh the network list.")
  | .networkProtected _ =>
    ("network_protected",
      "Docker-managed networks such as bridge, host, and none cannot be removed.")
  | .networkInUse _ | .conflict _ =>
    ("network_in_use",
      "Network is currently in use. Remove containers or disconnect them first.")
  | .invalidNetworkConfig _ | .invalidResponse _ =>
    ("invalid_network_config", "Docker returned an invalid network configuration.")
  | _ =>
    match context with
    | .list => ("docker", "Could not load Docker networks. Try again.")
    | .detail => ("docker", "Could not load network details. Try again.")
    | .operation =>
      ("invalid_network_config",
        "Docker rejected the network request. Check the network configuration and try again.")

section

variable [PageText]

open PageText

namespace NetworkRow

def rowMatches (row : NetworkRow) (query : String) : Bool :=
  contains (lowercase row.name) query ||
    contains (lowercase row.networkId) query ||
    contains (lowercase row.shortId) query ||
    contains (lowercase row.driver) query ||
    contains (lowercase row.subnet) query ||
    contains (lowercase row.gateway) query ||
    pairsMatch row.labels query

def compareRows (mode : NetworkSortMode) (left right : NetworkRow) : Ordering :=
  let name :=
    (compare (lowercase left.name) (lowercase right.name)).then <|
      (compare left.name right.name).then (compare left.networkId right.networkId)
  match mode with
  | .nameAscending => name
  | .nameDescending => name.swap
  | .newestFirst => (compareOptional true left.createdAt right.createdAt).then name
  | .oldestFirst => (compareOptional false left.createdAt right.createdAt).then name
  | .driver => (compare (lowercase left.driver) (lowercase right.driver)).then name

end NetworkRow

namespace NetworksState

variable (s : NetworksState)

/-- The filter passes a row. -/
def shows (row : NetworkRow) : Bool :=
  let query := lowercase s.searchQuery
  query = "" || row.rowMatches query

def rebuildVisible : NetworksState :=
  { s with
    visibleRows := (s.sourceRows.filter s.shows).mergeSort fun left right =>
      (NetworkRow.compareRows s.sortMode left right).isLE }

def rowExists (networkId : String) : Bool := s.sourceRows.any (·.networkId = networkId)

def visibleRowExists (networkId : String) : Bool :=
  networkId ≠ "" && s.visibleRows.any (·.networkId = networkId)

/-! ## Selection and details -/

def startSelectedInspect : UInt64 × NetworksState :=
  (s.detailGeneration + 1,
    { s with
      detailGeneration := s.detailGeneration + 1
      detail := none
      detailStatus := .loading
      detailError := ""
      detailErrorKind := "" })

def invalidateDetail (state : NetworkDetailState) : NetworksState :=
  { s with
    detailGeneration := s.detailGeneration + 1
    detail := none
    detailStatus := state
    detailError := ""
    detailErrorKind := "" }

def setRefreshSelection (networkId : String) : NetworksState :=
  { s with
    selectedNetworkId := networkId
    detail := none
    detailStatus := .none
    detailError := ""
    detailErrorKind := "" }

def clearSelection : NetworksState := { s with selectedNetworkId := "" }.invalidateDetail .none

def inspectSelection (networkId : String) : Option UInt64 × NetworksState :=
  let (generation, s) := { s with selectedNetworkId := networkId }.startSelectedInspect
  (some generation, s)

/-- The first visible network is selected without being inspected. -/
def selectFirst : NetworksState :=
  match s.visibleRows.head? with
  | some first => s.setRefreshSelection first.networkId
  | none => s.clearSelection

/-! ## The operations -/

def initializePage : Bool × NetworksState :=
  if s.initialized then (false, s) else (true, { s with initialized := true })

def beginRefresh : UInt64 × NetworksState :=
  let s := { s with refreshGeneration := s.refreshGeneration + 1 }.invalidateDetail .none
  (s.refreshGeneration, { s with status := .loading, statusText := "", errorKind := "" })

def receiveList (summaries : List NetworkSummary) : NetworksState :=
  let s := { s with sourceRows := summaries.map .fromSummary }.rebuildVisible
  { s with
    status := if s.sourceRows.isEmpty then .empty else .ready
    statusText := ""
    errorKind := "" }

def applyList (generation : UInt64) (summaries : List NetworkSummary) : Bool × NetworksState :=
  if generation ≠ s.refreshGeneration then (false, s)
  else
    let previous := s.selectedNetworkId
    let s := s.receiveList summaries
    let preferred := s.preferredNetworkId
    let s := { s with preferredNetworkId := "" }
    (true,
      if preferred ≠ "" ∧ s.rowExists preferred then s.setRefreshSelection preferred
      else if previous ≠ "" ∧ s.rowExists previous then s.setRefreshSelection previous
      else s.selectFirst)

def applyListError (generation : UInt64) (error : DaemonError) : Bool × NetworksState :=
  if generation ≠ s.refreshGeneration then (false, s)
  else
    let (kind, message) := friendlyNetworkError error .list
    let s := { s with sourceRows := [], visibleRows := [] }.clearSelection
    (true, { s with status := .error, errorKind := kind, statusText := message })

def preferCreatedNetwork (networkId : String) : NetworksState :=
  { s with preferredNetworkId := networkId }

def setSearchQuery (query : String) : NetworksState :=
  let previous := s.selectedNetworkId
  let s := { s with searchQuery := trim query }.rebuildVisible
  if s.visibleRowExists previous then s else s.selectFirst

def setSortMode (mode : NetworkSortMode) : NetworksState :=
  { s with sortMode := mode }.rebuildVisible

def select (networkId : String) : Option UInt64 × NetworksState :=
  if ¬ s.rowExists networkId then (none, s) else s.inspectSelection networkId

def beginSelectedInspect : Option UInt64 × NetworksState :=
  if s.selectedNetworkId = "" ∨ ¬ s.rowExists s.selectedNetworkId then (none, s)
  else
    let (generation, s) := s.startSelectedInspect
    (some generation, s)

/-- The first row of a network is replaced. -/
def replaceRow (networkId : String) (row : NetworkRow) : List NetworkRow → List NetworkRow
  | [] => []
  | first :: rest =>
    if first.networkId = networkId then row :: rest else first :: replaceRow networkId row rest

def applyDetail (generation : UInt64) (detail : NetworkDetail) : Bool × NetworksState :=
  if generation ≠ s.detailGeneration ∨ detail.summary.id ≠ s.selectedNetworkId ∨
      ¬ s.rowExists detail.summary.id then (false, s)
  else
    let s := { s with
      sourceRows :=
        replaceRow detail.summary.id (.fromSummary detail.summary) s.sourceRows }.rebuildVisible
    (true, { s with
      detail := some (.fromDetail detail)
      detailStatus := .ready
      detailError := ""
      detailErrorKind := "" })

def applyDetailError (generation : UInt64) (error : DaemonError) : Bool × NetworksState :=
  if generation ≠ s.detailGeneration ∨ s.selectedNetworkId = "" then (false, s)
  else
    let (kind, message) := friendlyNetworkError error .detail
    (true, { s with
      detail := none
      detailStatus := .error
      detailErrorKind := kind
      detailError := message })

def beginOperation (kind : NetworkOperationKind) (networkId : String) :
    Option UInt64 × NetworksState :=
  if s.operation.active then (none, s)
  else
    (some (s.operation.generation + 1), { s with
      operation :=
        { active := true
          kind := some kind
          networkId
          generation := s.operation.generation + 1 } })

def operationMatches (generation : UInt64) (kind : NetworkOperationKind) (networkId : String) :
    Bool :=
  s.operation.active && s.operation.generation = generation && s.operation.kind = some kind &&
    s.operation.networkId = networkId

def endOperation : NetworksState :=
  { s with operation := { s.operation with active := false, kind := none, networkId := "" } }

def beginCreate : Option UInt64 × NetworksState := s.beginOperation .create ""

def beginRemove (networkId : String) : Option UInt64 × NetworksState :=
  if ¬ s.rowExists networkId then (none, s) else s.beginOperation .remove networkId

def finishCreate (generation : UInt64) (networkId : String) : Bool × NetworksState :=
  if ¬ s.operationMatches generation .create "" then (false, s)
  else (true,
    { s.endOperation.preferCreatedNetwork networkId with searchQuery := "" }.rebuildVisible)

def finishRemove (generation : UInt64) (networkId : String) : Bool × NetworksState :=
  if ¬ s.operationMatches generation .remove networkId then (false, s) else (true, s.endOperation)

def failOperation (generation : UInt64) (error : DaemonError) : Bool × NetworksState :=
  if ¬ s.operation.active ∨ generation ≠ s.operation.generation then (false, s)
  else
    let (kind, message) := friendlyNetworkError error .operation
    (true, { s with
      operation := { s.endOperation.operation with errorKind := kind, errorMessage := message } })

def removeLocal (networkId : String) : Option UInt64 × NetworksState :=
  let oldVisibleIndex := (s.visibleRows.findIdx? (·.networkId = networkId)).getD 0
  let s := { s with sourceRows := s.sourceRows.filter (·.networkId ≠ networkId) }.rebuildVisible
  let (generation, s) :=
    if s.selectedNetworkId = networkId then
      match s.visibleRows[min oldVisibleIndex (s.visibleRows.length - 1)]? with
      | some neighbour => s.inspectSelection neighbour.networkId
      | none => (none, s.clearSelection)
    else (none, s)
  (generation, { s with status := if s.sourceRows.isEmpty then .empty else .ready })

end NetworksState

end

inductive NetworksCall where
  | initializePage
  | beginRefresh
  | applyList (generation : UInt64) (summaries : List NetworkSummary)
  | applyListError (generation : UInt64) (error : DaemonError)
  | preferCreatedNetwork (networkId : String)
  | setSearchQuery (query : String)
  | setSortMode (mode : NetworkSortMode)
  | select (networkId : String)
  | beginSelectedInspect
  | clearSelection
  | beginCreate
  | beginRemove (networkId : String)
  | finishCreate (generation : UInt64) (networkId : String)
  | finishRemove (generation : UInt64) (networkId : String)
  | failOperation (generation : UInt64) (error : DaemonError)
  | removeLocal (networkId : String)

def NetworksCall.after [PageText] (s : NetworksState) : NetworksCall → NetworksState
  | .initializePage => s.initializePage.2
  | .beginRefresh => s.beginRefresh.2
  | .applyList generation summaries => (s.applyList generation summaries).2
  | .applyListError generation error => (s.applyListError generation error).2
  | .preferCreatedNetwork networkId => s.preferCreatedNetwork networkId
  | .setSearchQuery query => s.setSearchQuery query
  | .setSortMode mode => s.setSortMode mode
  | .select networkId => (s.select networkId).2
  | .beginSelectedInspect => s.beginSelectedInspect.2
  | .clearSelection => s.clearSelection
  | .beginCreate => s.beginCreate.2
  | .beginRemove networkId => (s.beginRemove networkId).2
  | .finishCreate generation networkId => (s.finishCreate generation networkId).2
  | .finishRemove generation networkId => (s.finishRemove generation networkId).2
  | .failOperation generation error => (s.failOperation generation error).2
  | .removeLocal networkId => (s.removeLocal networkId).2

/-! ## The panel -/

def networkIds (rows : List NetworkRow) : List String := rows.map (·.networkId)

namespace NetworksState

def Showing (s : NetworksState) : Prop := s.detailStatus = .ready ∨ s.detailStatus = .error

/-- This result is shown. -/
def Shows (s : NetworksState) : NetworkDetail ⊕ DaemonError → Prop
  | .inl detail => s.detailStatus = .ready ∧ s.detail = some (.fromDetail detail)
  | .inr error =>
    s.detailStatus = .error ∧ s.detail = none ∧
      (s.detailErrorKind, s.detailError) = friendlyNetworkError error .detail

/-- The selected id is empty or names a row. -/
def SelectionKnown (s : NetworksState) : Prop :=
  s.selectedNetworkId = "" ∨ s.selectedNetworkId ∈ networkIds s.sourceRows

structure Named (s : NetworksState) : Prop where
  selected : s.SelectionKnown
  visible : ∀ networkId ∈ networkIds s.visibleRows, networkId ∈ networkIds s.sourceRows

def inspects [PageText] (s : NetworksState) : NetworksCall → Option UInt64
  | .select networkId => (s.select networkId).1
  | .beginSelectedInspect => s.beginSelectedInspect.1
  | .removeLocal networkId => (s.removeLocal networkId).1
  | _ => none

def panel [PageText] : DetailPanel NetworksState NetworksCall UInt64 String NetworkDetail
    DaemonError where
  call s call := call.after s
  starts := inspects
  applyDetail := applyDetail
  applyError := applyDetailError
  selected := selectedNetworkId
  resource detail := detail.summary.id
  showing := Showing
  shows := Shows
  takesError s generation := generation = s.detailGeneration ∧ s.selectedNetworkId ≠ ""

/-- What an operation makes of `s`: the selection stays known, and the details go with it. -/
abbrev Follows [PageText] (s t : NetworksState) : Prop := panel.Follows Named s t

variable {s t : NetworksState} {networkId : String}

theorem mem_of_rowExists (h : s.rowExists networkId = true) :
    networkId ∈ networkIds s.sourceRows := by
  obtain ⟨row, hrow, hid⟩ := List.any_eq_true.mp h
  exact List.mem_map.mpr ⟨row, hrow, of_decide_eq_true hid⟩

theorem networkIds_replaceRow (row : NetworkRow) (hrow : row.networkId = networkId)
    (rows : List NetworkRow) :
    networkIds (replaceRow networkId row rows) = networkIds rows := by
  induction rows with
  | nil => rfl
  | cons first rest ih =>
    unfold replaceRow
    split
    · next hfirst =>
      show row.networkId :: _ = first.networkId :: _
      rw [hrow, hfirst]
    · exact congrArg (first.networkId :: ·) ih

variable [PageText]

theorem visible_rebuildVisible : ∀ networkId ∈ networkIds s.rebuildVisible.visibleRows,
    networkId ∈ networkIds s.sourceRows := by
  intro networkId hid
  obtain ⟨row, hrow, rfl⟩ := List.mem_map.mp hid
  exact List.mem_map_of_mem (List.mem_of_mem_filter (List.mem_mergeSort.mp hrow))

theorem Named.follows_refl (h : s.Named) : s.Follows s := DetailPanel.follows_refl h

/-- The rows and the details that the page shows. -/
def viewed : panel.Viewed Named NetworkDetailState NetworkDetailView where
  rows s := (networkIds s.sourceRows, networkIds s.visibleRows)
  details s := ⟨s.selectedNetworkId, s.detailStatus, s.detail, (s.detailErrorKind, s.detailError)⟩
  unselected := ""
  ready := .ready
  failed := .error
  ofDetail := .fromDetail
  ofError := fun error => friendlyNetworkError error .detail
  named_iff _ := ⟨fun h => ⟨h.selected, h.visible⟩, fun h => ⟨h.1, h.2⟩⟩
  showing_iff _ := Iff.rfl
  selected_eq _ := rfl
  shows_detail _ _ := Iff.rfl
  shows_error _ _ := Iff.rfl

section

variable (hvisible : ∀ n ∈ networkIds t.visibleRows, n ∈ networkIds t.sourceRows)
include hvisible

theorem follows_clearSelection : s.Follows t.clearSelection :=
  viewed.hidden ⟨.inl rfl, hvisible⟩ rfl

theorem follows_setRefreshSelection (hid : networkId ∈ networkIds t.sourceRows) :
    s.Follows (t.setRefreshSelection networkId) :=
  viewed.hidden ⟨.inr hid, hvisible⟩ rfl

theorem follows_inspectSelection (hid : networkId ∈ networkIds t.sourceRows) :
    s.Follows (t.inspectSelection networkId).2 :=
  viewed.hidden ⟨.inr hid, hvisible⟩ rfl

theorem follows_selectFirst : s.Follows t.selectFirst := by
  unfold selectFirst
  split
  · next first hfirst =>
    exact follows_setRefreshSelection hvisible
      (hvisible _ (List.mem_map_of_mem (List.mem_of_head? hfirst)))
  · exact follows_clearSelection hvisible

end

theorem Named.follows_applyList (h : s.Named) (generation : UInt64)
    (summaries : List NetworkSummary) : s.Follows (s.applyList generation summaries).2 := by
  unfold applyList
  split
  · exact h.follows_refl
  · have hvisible : ∀ n ∈ networkIds (s.receiveList summaries).visibleRows,
        n ∈ networkIds (s.receiveList summaries).sourceRows :=
      visible_rebuildVisible (s := { s with sourceRows := summaries.map .fromSummary })
    dsimp only
    split
    · next hpreferred =>
      exact follows_setRefreshSelection
        (t := { s.receiveList summaries with preferredNetworkId := "" }) hvisible
        (mem_of_rowExists hpreferred.2)
    · split
      · next hprevious =>
        exact follows_setRefreshSelection
          (t := { s.receiveList summaries with preferredNetworkId := "" }) hvisible
          (mem_of_rowExists hprevious.2)
      · exact follows_selectFirst
          (t := { s.receiveList summaries with preferredNetworkId := "" }) hvisible

theorem Named.follows_setSearchQuery (h : s.Named) (query : String) :
    s.Follows (s.setSearchQuery query) := by
  have hquery : s.Follows { s with searchQuery := trim query }.rebuildVisible :=
    viewed.follows ⟨h.selected, visible_rebuildVisible⟩ rfl
  unfold setSearchQuery
  dsimp only
  split
  · exact hquery
  · exact follows_selectFirst hquery.1.visible

theorem Named.follows_select (h : s.Named) (networkId : String) :
    s.Follows (s.select networkId).2 := by
  unfold select
  split
  · exact h.follows_refl
  · next hthere =>
    exact follows_inspectSelection h.visible (mem_of_rowExists (not_not.mp hthere))

theorem Named.follows_beginOperation (h : s.Named) (kind : NetworkOperationKind)
    (networkId : String) : s.Follows (s.beginOperation kind networkId).2 := by
  exact guarded h.follows_refl fun _ => viewed.follows_of_same h rfl rfl

theorem Named.follows_removeLocal (h : s.Named) (networkId : String) :
    s.Follows (s.removeLocal networkId).2 := by
  have hvisible := visible_rebuildVisible (s := { s with
    sourceRows := s.sourceRows.filter (·.networkId ≠ networkId) })
  have hlist : ∀ {t : NetworksState} {status : NetworksListState}, s.Follows t →
      s.Follows { t with status } := fun hfollows =>
    viewed.then_same hfollows rfl rfl
  unfold removeLocal
  dsimp only
  split
  · split
    · next neighbour hneighbour =>
      exact hlist (follows_inspectSelection hvisible
        (hvisible _ (List.mem_map_of_mem (List.mem_of_getElem? hneighbour))))
    · exact hlist (follows_clearSelection hvisible)
  · next hne =>
    refine hlist (viewed.follows ⟨?_, hvisible⟩ rfl)
    show s.selectedNetworkId = "" ∨
      s.selectedNetworkId ∈ networkIds (s.sourceRows.filter (·.networkId ≠ networkId))
    rcases h.selected with hempty | hmem
    · exact .inl hempty
    · obtain ⟨row, hrow, hid⟩ := List.mem_map.mp hmem
      refine .inr (List.mem_map.mpr ⟨row, List.mem_filter.mpr ⟨hrow, ?_⟩, hid⟩)
      exact decide_eq_true fun heq => hne (hid.symm.trans heq)

theorem Named.follows_after (h : s.Named) (call : NetworksCall) : s.Follows (call.after s) := by
  cases call with
  | initializePage | finishRemove generation networkId | failOperation generation error =>
    exact guarded h.follows_refl fun _ => viewed.follows_of_same h rfl rfl
  | beginRefresh =>
    exact viewed.hidden { h with } rfl
  | applyList generation summaries => exact h.follows_applyList generation summaries
  | applyListError generation error =>
    exact viewed.follows_listError h
      (follows_clearSelection (t := { s with sourceRows := [], visibleRows := [] })
      (by simp [networkIds])) rfl rfl
  | preferCreatedNetwork networkId => exact viewed.follows_of_same h rfl rfl
  | setSearchQuery query => exact h.follows_setSearchQuery query
  | setSortMode mode =>
    exact viewed.follows (t := { s with sortMode := mode }.rebuildVisible)
      ⟨h.selected, visible_rebuildVisible⟩ rfl
  | select networkId => exact h.follows_select networkId
  | beginSelectedInspect =>
    exact guarded h.follows_refl fun _ => viewed.hidden { h with } rfl
  | clearSelection => exact follows_clearSelection h.visible
  | beginCreate => exact h.follows_beginOperation .create ""
  | beginRemove networkId =>
    exact guarded h.follows_refl fun _ => h.follows_beginOperation .remove networkId
  | finishCreate generation networkId =>
    exact guarded h.follows_refl fun _ => viewed.follows
      (t := { s.endOperation.preferCreatedNetwork networkId with
        searchQuery := "" }.rebuildVisible) ⟨h.selected, visible_rebuildVisible⟩ rfl
  | removeLocal networkId => exact h.follows_removeLocal networkId

omit [PageText] in
theorem applyDetailError_eq {generation : UInt64} (error : DaemonError)
    (htakes : generation = s.detailGeneration ∧ s.selectedNetworkId ≠ "") :
    s.applyDetailError generation error = (true, { s with
      detail := none
      detailStatus := .error
      detailErrorKind := (friendlyNetworkError error .detail).1
      detailError := (friendlyNetworkError error .detail).2 }) :=
  if_neg (not_or.mpr ⟨not_not_intro htakes.1, htakes.2⟩)

/-- **A detail** is taken for the selected network only. -/
theorem Named.applyDetail_taken (h : s.Named) {generation : UInt64} {detail : NetworkDetail}
    (htaken : (s.applyDetail generation detail).1 = true) :
    (s.applyDetail generation detail).2.Named ∧ detail.summary.id = s.selectedNetworkId ∧
      (s.applyDetail generation detail).2.selectedNetworkId = s.selectedNetworkId ∧
      (s.applyDetail generation detail).2.Shows (.inl detail) := by
  unfold applyDetail at htaken ⊢
  split at htaken
  · cases htaken
  · next hcurrent =>
    rw [if_neg hcurrent]
    rw [not_or, not_or, not_not, not_not] at hcurrent
    have hids : networkIds (replaceRow detail.summary.id (.fromSummary detail.summary)
        s.sourceRows) = networkIds s.sourceRows :=
      networkIds_replaceRow (.fromSummary detail.summary) rfl _
    refine ⟨⟨?_, visible_rebuildVisible (s := { s with
      sourceRows := replaceRow detail.summary.id (.fromSummary detail.summary)
        s.sourceRows })⟩, hcurrent.2.1, rfl, rfl, rfl⟩
    show s.selectedNetworkId = "" ∨ s.selectedNetworkId ∈ networkIds (replaceRow _ _ _)
    rw [hids]
    exact h.selected

theorem lawful_panel : panel.Lawful Named where
  call_follows operation h := h.follows_after operation
  detail_refused := Guards.refused
  detail_taken h htaken := h.applyDetail_taken htaken
  error_refused _ hrefused := if_pos ((not_and_or.mp hrefused).imp_right not_not.mp)
  error_taken error h htakes := viewed.error_taken h (applyDetailError_eq error htakes) rfl rfl

end NetworksState

end TuxStack.Gui
