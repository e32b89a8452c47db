import TuxStack.Gui.ContainerRows
import TuxStack.Gui.DaemonError
import TuxStack.Lib.AssocList
import TuxStack.Lib.Runs

/-!
# The Containers page

`ContainersState` (`crates/gui/src/controllers/containers.rs`): list, groups, selection,
details and running operations of the page, and the operations on them.

* `page_consistent_iff`: selection, rows and details fit together in every state, except
  that the view of a selected group is not built again when some of its containers, and not
  all, are removed from the list.
* `finish_group_operation_iff`: a group operation is finished when its group is in the list;
  the group that it has removed is not.
-/

namespace TuxStack.Gui

open Runs
open Guards (guarded)

/-! ## The state -/

inductive ContainersListState where
  | loading
  | ready
  | empty
  | error
  | dockerUnavailable
  | permissionDenied
deriving DecidableEq

inductive ContainerDetailState where
  | none
  | loading
  | ready
  | error
deriving DecidableEq

inductive ContainerSelection where
  | none
  | group (groupId : ContainerGroupId)
  | container (containerId : String)
deriving DecidableEq

inductive ContainerSortMode where
  | nameAscending
  | nameDescending
  | newestFirst
  | oldestFirst
  | runningFirst
  | stoppedFirst
  | composeGroupsFirst
  | individualContainersFirst
deriving DecidableEq

inductive SelectionAction where
  | none
  | loadContainer (generation : UInt64)
  | groupReady (generation : UInt64)
deriving DecidableEq

structure OperationToken where
  generation : UInt64
  operation : ContainerOperationState
deriving DecidableEq

structure GroupTargetResult where
  containerId : String
  containerName : String
  success : Bool
  error : String
deriving DecidableEq

structure GroupOperationResult where
  operation : GroupOperationState
  targets : List GroupTargetResult
deriving DecidableEq

structure ContainersState where
  endpointKey : String
  sourceRows : List ContainerSummary := []
  groups : List ContainerGroupSummary := []
  visibleRows : List ContainerListRow := []
  expandedGroups : List ContainerGroupId := []
  searchQuery : String := ""
  sortMode : ContainerSortMode := .runningFirst
  selection : ContainerSelection := .none
  selectionGeneration : UInt64 := 0
  refreshGeneration : UInt64 := 0
  operationGeneration : UInt64 := 0
  initialized : Bool := false
  refreshInProgress : Bool := false
  listState : ContainersListState := .loading
  listErrorKind : String := ""
  listErrorMessage : String := ""
  detailState : ContainerDetailState := .none
  detailErrorKind : String := ""
  detailErrorMessage : String := ""
  containerDetail : Option ContainerDetailView := none
  groupDetail : Option ContainerGroupDetailView := none
  operations : AList fun _ : String => OperationToken := ∅
  groupOperations : AList fun _ : ContainerGroupId => UInt64 × GroupOperationState := ∅
  lastGroupResult : Option GroupOperationResult := none
  activeTab : String := "info"

inductive ErrorContext where
  | list
  | detail
  | operation
deriving DecidableEq

def friendlyError (error : DaemonError) (context : ErrorContext) :
    ContainersListState × String × String :=
  match error with
  | .socketNotFound _ | .engineUnavailable =>
    (.dockerUnavailable, "docker_unavailable",
      "Docker Engine is unavailable. Check that Docker is running and try again.")
  | .permissionDenied =>
    (.permissionDenied, "permission_denied",
      "Permission denied while accessing Docker. Check Docker socket permissions.")
  | .connectionTimeout | .operationTimeout =>
    (.error, "timeout", "The Docker container request timed out. Try again.")
  | .containerNotFound _ =>
    (.error, "container_not_found",
      "This container no longer exists. Refresh the container list.")
  | .conflict message =>
    (.error, "conflict", "Docker rejected the container operation: " ++ message)
  | .invalidContainerConfig message =>
    (.error, "invalid_container",
      "Docker rejected the container configuration: " ++ message)
  | other =>
    match context with
    | .operation =>
      (.error, "container_operation_failed",
        "Docker could not complete the container operation: " ++ other.display)
    | .detail =>
      (.error, "detail_failed", "Container information is unavailable. Try again.")
    | .list => (.error, "docker", "Could not load Docker containers. Try again.")

/-! ## The list -/

inductive TopLevelItem where
  | group (group : ContainerGroupSummary)
  | container (summary : ContainerSummary)

namespace TopLevelItem

def name : TopLevelItem → String
  | group g => g.displayName
  | container c => c.name

def id : TopLevelItem → String
  | group g => opaqueGroupId g.id
  | container c => c.id

def isGroup : TopLevelItem → Bool
  | group _ => true
  | container _ => false

def created (summaries : List ContainerSummary) : TopLevelItem → Int
  | container c => c.createdAt
  | group g =>
    ((g.containers.filterMap (summaryById summaries)).map (·.createdAt)).max?.getD 0

def compareTopLevel (sort : ContainerSortMode) (summaries : List ContainerSummary)
    (left right : TopLevelItem) : Ordering :=
  let byName := (compare (asciiLowercase left.name) (asciiLowercase right.name)).then
    (compare left.id right.id)
  match sort with
  | .nameAscending => byName
  | .nameDescending => byName.swap
  | .newestFirst => (compare (right.created summaries) (left.created summaries)).then byName
  | .oldestFirst => (compare (left.created summaries) (right.created summaries)).then byName
  | .runningFirst | .stoppedFirst | .composeGroupsFirst =>
    (compare right.isGroup left.isGroup).then byName
  | .individualContainersFirst => (compare left.isGroup right.isGroup).then byName

end TopLevelItem

def activeRank : ContainerRuntimeState → Nat
  | .running => 0
  | .restarting => 1
  | .paused => 2
  | _ => 3

def compareMemberRows (sort : ContainerSortMode) (left right : ContainerSummary) : Ordering :=
  let byName := (compare (asciiLowercase left.name) (asciiLowercase right.name)).then
    (compare left.id right.id)
  match sort with
  | .nameDescending => byName.swap
  | .newestFirst => (compare right.createdAt left.createdAt).then byName
  | .oldestFirst => (compare left.createdAt right.createdAt).then byName
  | .stoppedFirst => (compare (activeRank right.state) (activeRank left.state)).then byName
  | .runningFirst => (compare (activeRank left.state) (activeRank right.state)).then byName
  | _ => byName

namespace ContainersState

def new (endpointKey : String) : ContainersState := { endpointKey }

variable (s : ContainersState)

/-- The query of `rebuild_visible`. -/
def query : String := trim s.searchQuery

/-- `member_to_group`: the group that a container is listed under. -/
def groupOf (id : String) : Option ContainerGroupId :=
  (s.groups.reverse.find? fun group => id ∈ group.containers).map (·.id)

def matchesQuery (summary : ContainerSummary) : Bool :=
  s.query = "" || containerMatchesSearch summary s.query

def matchingMembers (groupId : ContainerGroupId) : List ContainerSummary :=
  s.sourceRows.filter fun summary => s.groupOf summary.id = some groupId && s.matchesQuery summary

def groupMatches (group : ContainerGroupSummary) : Bool :=
  s.query = "" || contains (asciiLowercase group.projectName) (asciiLowercase s.query)

def showsGroup (group : ContainerGroupSummary) : Bool :=
  s.groupMatches group || s.matchingMembers group.id ≠ []

def individuals : List ContainerSummary :=
  s.sourceRows.filter fun summary => s.groupOf summary.id = none && s.matchesQuery summary

/-- A search opens the groups that it finds something in. -/
def expandFound : List ContainerGroupId :=
  (s.groups.filter fun group => s.query ≠ "" && s.matchingMembers group.id ≠ []).foldl
    (fun expanded group => expanded.insert group.id) s.expandedGroups

def containerRow (kind : ContainerRowKind) (rowSection : ContainerSection) (groupId : String)
    (summary : ContainerSummary) : ContainerListRow :=
  .container summary kind rowSection groupId (s.selection = .container summary.id)
    (((s.operations.lookup summary.id).map (·.operation)).getD .idle)

def shownMembers (group : ContainerGroupSummary) : List ContainerSummary :=
  (if s.groupMatches group then group.containers.filterMap (summaryById s.sourceRows)
    else s.matchingMembers group.id).mergeSort fun a b => (compareMemberRows s.sortMode a b).isLE

def itemRows (rowSection : ContainerSection) : TopLevelItem → List ContainerListRow
  | .group group =>
    let expanded := group.id ∈ s.expandedGroups
    .group group (opaqueGroupId group.id) expanded (s.selection = .group group.id)
        (((s.groupOperations.lookup group.id).map fun entry =>
          groupOperationName entry.2).getD "") ::
      if expanded then
        (s.shownMembers group).map
          (s.containerRow .containerChild rowSection (opaqueGroupId group.id))
      else []
  | .container summary => [s.containerRow .individual rowSection "" summary]

def sectionItems (rowSection : ContainerSection) : List TopLevelItem :=
  (((s.groups.filter fun group =>
        s.showsGroup group && group.groupSection = rowSection).map TopLevelItem.group) ++
      (s.individuals.filter fun summary =>
        ContainerSection.fromState summary.state = rowSection).map TopLevelItem.container).mergeSort
    fun a b => (TopLevelItem.compareTopLevel s.sortMode s.sourceRows a b).isLE

def sectionRows (rowSection : ContainerSection) : List ContainerListRow :=
  let items := s.sectionItems rowSection
  if items.isEmpty then []
  else .sectionHeader rowSection items.length :: items.flatMap (s.itemRows rowSection)

def sectionOrder : List ContainerSection :=
  if s.sortMode = .stoppedFirst then [.stopped, .paused, .restarting, .running]
  else [.running, .paused, .restarting, .stopped]

def rebuildVisible : ContainersState :=
  let s := { s with expandedGroups := s.expandFound }
  { s with visibleRows := s.sectionOrder.flatMap s.sectionRows }

/-! ## Selection and details -/

def groupIdFromOpaque (opaqueId : String) : Option ContainerGroupId :=
  (s.groups.find? fun group => opaqueGroupId group.id = opaqueId).map (·.id)

def resetSelectionStates : ContainersState :=
  { s with
    containerDetail := none
    groupDetail := none
    detailState := .none
    detailErrorKind := ""
    detailErrorMessage := ""
    activeTab := "info" }

def buildGroupDetail (groupId : ContainerGroupId) : ContainersState :=
  match s.groups.find? (·.id = groupId) with
  | none => { s with groupDetail := none, detailState := .error }
  | some group =>
    { s with
      groupDetail :=
        some (.fromGroup (opaqueGroupId groupId) group s.sourceRows)
      containerDetail := none
      detailState := .ready }

def openSelection : SelectionAction × ContainersState :=
  match s.selection with
  | .none => (.none, s.resetSelectionStates)
  | .container _ =>
    (.loadContainer s.selectionGeneration, { s.resetSelectionStates with detailState := .loading })
  | .group groupId =>
    (.groupReady s.selectionGeneration, s.resetSelectionStates.buildGroupDetail groupId)

def setSelection (selection : ContainerSelection) : SelectionAction × ContainersState :=
  if s.selection = selection then (.none, s)
  else
    let (action, s) :=
      { s with selection, selectionGeneration := s.selectionGeneration + 1 }.openSelection
    (action, s.rebuildVisible)

def selectionStillExists : Bool :=
  match s.selection with
  | .none => true
  | .container containerId => s.sourceRows.any (·.id = containerId)
  | .group groupId => s.groups.any (·.id = groupId)

/-- A selection that is no longer in the list is given up, the view of a group built again. -/
def refreshSelection : ContainersState :=
  if !s.selectionStillExists then (s.setSelection .none).2
  else
    match s.selection with
    | .group groupId => s.buildGroupDetail groupId
    | _ => s

def replaceSource (summaries : List ContainerSummary) : ContainersState :=
  let groups := groupComposeContainers s.endpointKey summaries
  { s with
    sourceRows := summaries
    groups
    expandedGroups :=

      s.expandedGroups.filter fun groupId =>
        groups.any (·.id = groupId) }.refreshSelection.rebuildVisible

def selectionId : String :=
  match s.selection with
  | .none => ""
  | .group groupId => opaqueGroupId groupId
  | .container containerId => containerId

def desiredSelection (row : ContainerListRow) : Option ContainerSelection :=
  match row.rowKind with
  | .group => (s.groupIdFromOpaque row.id).map .group
  | .containerChild | .individual => some (.container row.id)
  | .sectionHeader => none

def selectRow (opaqueId : String) : SelectionAction × ContainersState :=
  match s.visibleRows.find? fun row => row.id = opaqueId && row.selectable with
  | none => (.none, s)
  | some row =>
    match s.desiredSelection row with
    | none => (.none, s)
    | some desired => s.setSelection (if s.selection = desired then .none else desired)

/-! ## The operations -/

def initializePage : Bool × ContainersState :=
  if s.initialized then (false, s) else (true, { s with initialized := true })

def setEndpointKey (endpointKey : String) : ContainersState :=
  if s.endpointKey = endpointKey then s
  else
    let s := ({ s with endpointKey, expandedGroups := [] }.setSelection .none).2
    { s with groups := groupComposeContainers s.endpointKey s.sourceRows }.rebuildVisible

def beginRefresh : UInt64 × ContainersState :=
  (s.refreshGeneration + 1,
    { s with
      refreshGeneration := s.refreshGeneration + 1
      refreshInProgress := true
      listErrorKind := ""
      listErrorMessage := ""
      listState := if s.sourceRows = [] then .loading else s.listState })

def applyLive (generation : UInt64) (summaries : List ContainerSummary) : Bool × ContainersState :=
  if generation ≠ s.refreshGeneration then (false, s)
  else
    let s := s.replaceSource summaries
    (true, { s with
      refreshInProgress := false
      listState := if s.sourceRows = [] then .empty else .ready
      listErrorKind := ""
      listErrorMessage := "" })

def applyListError (generation : UInt64) (error : DaemonError) : Bool × ContainersState :=
  if generation ≠ s.refreshGeneration then (false, s)
  else
    let (listState, kind, message) := friendlyError error .list
    let s := ({ s with
      refreshInProgress := false
      sourceRows := []
      groups := []
      visibleRows := [] }.setSelection .none).2
    (true, { s with listState, listErrorKind := kind, listErrorMessage := message })

def setSearch (query : String) : ContainersState :=
  { s with searchQuery := trim query }.rebuildVisible

def setSort (sort : ContainerSortMode) : ContainersState :=
  { s with sortMode := sort }.rebuildVisible

def toggleGroup (opaqueId : String) : Bool × ContainersState :=
  match s.groupIdFromOpaque opaqueId with
  | none => (false, s)
  | some groupId =>
    (true, { s with
      expandedGroups :=
        if groupId ∈ s.expandedGroups then s.expandedGroups.filter (· ≠ groupId)
        else s.expandedGroups.insert groupId }.rebuildVisible)

def selectContainer (containerId : String) : SelectionAction × ContainersState :=
  if s.sourceRows.any (·.id = containerId) then s.setSelection (.container containerId)
  else (.none, s)

def reloadDetail : SelectionAction × ContainersState :=
  match s.selection with
  | .none => (.none, s)
  | .container _ => if s.detailState = .loading then (.none, s) else s.openSelection
  | .group _ => s.openSelection

def clearSelection : Bool × ContainersState :=
  if s.selection = .none then (false, s) else (true, (s.setSelection .none).2)

def applyDetail (generation : UInt64) (detail : ContainerDetail) : Bool × ContainersState :=
  if generation ≠ s.selectionGeneration ∨ s.selection ≠ .container detail.summary.id then (false, s)
  else
    (true, { s with
      containerDetail := some (.fromDetail detail)
      groupDetail := none
      detailState := .ready
      detailErrorKind := ""
      detailErrorMessage := "" })

def selectsContainer : Bool :=
  match s.selection with
  | .container _ => true
  | _ => false

def applyDetailError (generation : UInt64) (error : DaemonError) : Bool × ContainersState :=
  if generation ≠ s.selectionGeneration ∨ ¬ s.selectsContainer then (false, s)
  else
    let (_, kind, message) := friendlyError error .detail
    (true, { s with
      containerDetail := none
      detailState := .error
      detailErrorKind := kind
      detailErrorMessage := message })

def setEnvironmentRevealed (index : Nat) (revealed : Bool) : Bool × ContainersState :=
  match s.containerDetail with
  | none => (false, s)
  | some detail =>
    ((detail.setRevealed index revealed).1,
      { s with containerDetail := some (detail.setRevealed index revealed).2 })

def beginOperation (containerId : String) (operation : ContainerOperationState) :
    Option UInt64 × ContainersState :=
  if operation = .idle ∨ ¬ s.sourceRows.any (·.id = containerId) ∨ containerId ∈ s.operations then
    (none, s)
  else
    (some (s.operationGeneration + 1), { s with
      operationGeneration := s.operationGeneration + 1
      operations :=
        s.operations.insert containerId ⟨s.operationGeneration + 1, operation⟩ }.rebuildVisible)

def finishOperation (containerId : String) (generation : UInt64)
    (operation : ContainerOperationState) : Bool × ContainersState :=
  if s.operations.lookup containerId ≠ some ⟨generation, operation⟩ then (false, s)
  else (true, { s with operations := s.operations.erase containerId }.rebuildVisible)

def failOperation (containerId : String) (generation : UInt64)
    (operation : ContainerOperationState) (error : DaemonError) : Bool × ContainersState :=
  let (finished, s) := s.finishOperation containerId generation operation
  if !finished then (false, s)
  else
    let (_, kind, message) := friendlyError error .operation
    (true, { s with listErrorKind := kind, listErrorMessage := message })

def groupOperationApplies (state : ContainerRuntimeState) : GroupOperationState → Bool
  | .starting => state.isStopped
  | .stopping => state.isActive
  | .restarting | .removing => true
  | .pausing => state = .running
  | .unpausing => state = .paused
  | .idle => false

def beginGroupOperation (opaqueId : String) (operation : GroupOperationState) :
    Option (UInt64 × List String) × ContainersState :=
  if operation = .idle then (none, s)
  else
    match s.groupIdFromOpaque opaqueId with
    | none => (none, s)
    | some groupId =>
      if groupId ∈ s.groupOperations then (none, s)
      else
        match s.groups.find? (·.id = groupId) with
        | none => (none, s)
        | some group =>
          let targets := ((group.containers.filterMap fun id =>
            s.sourceRows.find? (·.id = id)).filter fun row =>
              groupOperationApplies row.state operation).map (·.id)
          if targets = [] then (none, s)
          else
            (some (s.operationGeneration + 1, targets), { s with
              operationGeneration := s.operationGeneration + 1
              groupOperations :=
                s.groupOperations.insert groupId (s.operationGeneration + 1, operation)
              lastGroupResult := none }.rebuildVisible)

def finishGroupOperation (opaqueId : String) (generation : UInt64)
    (result : GroupOperationResult) : Bool × ContainersState :=
  match s.groupIdFromOpaque opaqueId with
  | none => (false, s)
  | some groupId =>
    if s.groupOperations.lookup groupId ≠ some (generation, result.operation) then (false, s)
    else
      (true, { s with
        groupOperations := s.groupOperations.erase groupId
        lastGroupResult := some result }.rebuildVisible)

/-- `selected_removed` of `remove_local_many`. -/
def selectedRemoved (ids : List String) : Bool :=
  match s.selection with
  | .container containerId => containerId ∈ ids
  | .group groupId =>
    match s.groups.find? (·.id = groupId) with
    | some group => group.containers.all (· ∈ ids)
    | none => false
  | .none => false

def withoutRows (ids : List String) : ContainersState :=
  let sourceRows := s.sourceRows.filter fun row => row.id ∉ ids
  let groups := groupComposeContainers s.endpointKey sourceRows
  let s := { s with
    sourceRows
    operations := ids.foldl (fun operations id => operations.erase id) s.operations
    groups
    expandedGroups :=
      s.expandedGroups.filter fun groupId => groups.any (·.id = groupId) }.rebuildVisible
  { s with listState := if s.sourceRows = [] then .empty else .ready }

/-- The nearest row that can be selected: the next ones first, then those before. -/
def neighbour (index : Nat) : Option String :=
  ((s.visibleRows.drop index ++ (s.visibleRows.take index).reverse).find? (·.selectable)).map (·.id)

def removeLocalMany (ids : List String) : SelectionAction × ContainersState :=
  let oldIndex := (s.visibleRows.findIdx? (·.id = s.selectionId)).getD 0
  let t := s.withoutRows ids
  if !s.selectedRemoved ids then (.none, t)
  else
    match t.neighbour oldIndex with
    | some id => t.selectRow id
    | none => t.setSelection .none

/-! ## Rows and what they stand for -/

end ContainersState

/-- The rows that show a selection. -/
def ContainerSelection.IsRow (selection : ContainerSelection) (row : ContainerListRow) : Prop :=
  match selection with
  | .none => False
  | .group groupId => row.rowKind = .group ∧ row.id = opaqueGroupId groupId
  | .container containerId =>
    (row.rowKind = .containerChild ∨ row.rowKind = .individual) ∧ row.id = containerId

namespace ContainersState

variable {s t : ContainersState} {ids : List String}

/-- The selection is nothing, a group or a container that is there. -/
def Names (s : ContainersState) : ContainerSelection → Prop
  | .none => True
  | .group groupId => ∃ group ∈ s.groups, group.id = groupId
  | .container containerId => ∃ summary ∈ s.sourceRows, summary.id = containerId

/-- The row is that of a group or a container that is there, or a header. -/
def RowNamed (s : ContainersState) (row : ContainerListRow) : Prop :=
  match row.rowKind with
  | .sectionHeader => True
  | .group => ∃ group ∈ s.groups, row.id = opaqueGroupId group.id
  | .containerChild | .individual => ∃ summary ∈ s.sourceRows, row.id = summary.id

/-- The rows are marked as the selection has it, and stand for something. -/
def RowsFit (s : ContainersState) : Prop :=
  ∀ row ∈ s.visibleRows, (row.selected = true ↔ s.selection.IsRow row) ∧ s.RowNamed row

theorem selectionStillExists_iff : s.selectionStillExists = true ↔ s.Names s.selection := by
  unfold selectionStillExists
  split
  · next h => simp [h, Names]
  · next h => simp [h, Names]
  · next h => simp [h, Names]

variable {group : ContainerGroupSummary} {groupId : ContainerGroupId} {id : String}
  {rowSection : ContainerSection} {summaries : List ContainerSummary} {row : ContainerListRow}
  {summary : ContainerSummary}

theorem mem_sectionItems {item : TopLevelItem} (h : item ∈ s.sectionItems rowSection) :
    (∃ group ∈ s.groups, item = .group group) ∨
      ∃ summary ∈ s.sourceRows, item = .container summary := by
  unfold sectionItems at h
  rw [List.mem_mergeSort, List.mem_append, List.mem_map, List.mem_map] at h
  rcases h with ⟨group, hgroup, rfl⟩ | ⟨summary, hsummary, rfl⟩
  · exact .inl ⟨group, List.mem_of_mem_filter hgroup, rfl⟩
  · exact .inr ⟨summary, List.mem_of_mem_filter (List.mem_of_mem_filter hsummary), rfl⟩

theorem mem_of_summaryById (h : summaryById summaries id = some summary) :
    summary ∈ summaries ∧ summary.id = id :=
  ⟨List.mem_reverse.mp (List.mem_of_find?_eq_some h), by simpa using List.find?_some h⟩

theorem mem_shownMembers (h : summary ∈ s.shownMembers group) : summary ∈ s.sourceRows := by
  unfold shownMembers at h
  rw [List.mem_mergeSort] at h
  split at h
  · obtain ⟨id, -, hid⟩ := List.mem_filterMap.mp h
    exact (mem_of_summaryById hid).1
  · exact List.mem_of_mem_filter h

theorem containerRow_fits {kind : ContainerRowKind} {groupId : String}
    (hmem : summary ∈ s.sourceRows) (hkind : kind = .containerChild ∨ kind = .individual) :
    ((s.containerRow kind rowSection groupId summary).selected = true ↔
        s.selection.IsRow (s.containerRow kind rowSection groupId summary)) ∧
      s.RowNamed (s.containerRow kind rowSection groupId summary) := by
  constructor
  · show decide (s.selection = .container summary.id) = true ↔ _
    rw [decide_eq_true_eq]
    constructor
    · intro hselected
      rw [hselected]
      exact ⟨hkind, rfl⟩
    · intro hrow
      cases hselection : s.selection with
      | none =>
        rw [hselection] at hrow
        exact hrow.elim
      | group gid =>
        rw [hselection] at hrow
        have hgroup : kind = .group := hrow.1
        rcases hkind with rfl | rfl <;> cases hgroup
      | container cid =>
        rw [hselection] at hrow
        exact congrArg _ hrow.2.symm
  · rcases hkind with rfl | rfl <;> exact ⟨summary, hmem, rfl⟩

theorem groupRow_fits {expanded : Bool} {operation : String} (hmem : group ∈ s.groups) :
    ((ContainerListRow.group group (opaqueGroupId group.id) expanded
          (s.selection = .group group.id) operation).selected = true ↔
        s.selection.IsRow (.group group (opaqueGroupId group.id) expanded
          (s.selection = .group group.id) operation)) ∧
      s.RowNamed (.group group (opaqueGroupId group.id) expanded
        (s.selection = .group group.id) operation) := by
  refine ⟨?_, group, hmem, rfl⟩
  show decide (s.selection = .group group.id) = true ↔ _
  rw [decide_eq_true_eq]
  constructor
  · intro hselected
    rw [hselected]
    exact ⟨rfl, rfl⟩
  · intro hrow
    cases hselection : s.selection with
    | none =>
      rw [hselection] at hrow
      exact hrow.elim
    | group gid =>
      rw [hselection] at hrow
      exact congrArg _ (opaqueGroupId_injective hrow.2).symm
    | container cid =>
      rw [hselection] at hrow
      rcases hrow.1 with hkind | hkind <;> cases hkind

theorem itemRows_fit {item : TopLevelItem} (hitem : item ∈ s.sectionItems rowSection) :
    ∀ row ∈ s.itemRows rowSection item,
      (row.selected = true ↔ s.selection.IsRow row) ∧ s.RowNamed row := by
  intro row hrow
  rcases mem_sectionItems hitem with ⟨group, hgroup, rfl⟩ | ⟨summary, hsummary, rfl⟩
  · unfold itemRows at hrow
    rcases List.mem_cons.mp hrow with rfl | hrow
    · exact groupRow_fits hgroup
    · split at hrow
      · obtain ⟨summary, hmember, rfl⟩ := List.mem_map.mp hrow
        exact containerRow_fits (mem_shownMembers hmember) (.inl rfl)
      · cases hrow
  · obtain rfl := List.mem_singleton.mp hrow
    exact containerRow_fits hsummary (.inr rfl)

theorem sectionRows_fit : ∀ row ∈ s.sectionRows rowSection,
      (row.selected = true ↔ s.selection.IsRow row) ∧ s.RowNamed row := by
  intro row hrow
  unfold sectionRows at hrow
  dsimp only at hrow
  split at hrow
  · cases hrow
  · rcases List.mem_cons.mp hrow with rfl | hrow
    · refine ⟨⟨fun h => (by cases h), fun h => ?_⟩, trivial⟩
      unfold ContainerSelection.IsRow at h
      split at h
      · exact h.elim
      · cases h.1
      · rcases h.1 with hkind | hkind <;> cases hkind
    · obtain ⟨item, hitem, hrow⟩ := List.mem_flatMap.mp hrow
      exact itemRows_fit hitem row hrow

/-- **The rows after `rebuild_visible`** fit the selection, whatever they were before. -/
theorem rowsFit_rebuildVisible : s.rebuildVisible.RowsFit := by
  intro row hrow
  obtain ⟨rowSection, -, hrow⟩ := List.mem_flatMap.mp hrow
  exact sectionRows_fit row hrow

/-! ## What the operations keep -/

/-- Groups, selection and details fit together, but for the view of a selected group. -/
structure DataSound (s : ContainersState) : Prop where
  groups : s.groups = groupComposeContainers s.endpointKey s.sourceRows
  named : s.Names s.selection
  container : ∀ detail, s.containerDetail = some detail → s.selection = .container detail.id
  group : s.groupDetail.isSome → ∃ groupId, s.selection = .group groupId

structure Sound (s : ContainersState) : Prop extends DataSound s where
  rows : s.RowsFit

def GroupShown (s : ContainersState) : Prop :=
  ∀ groupId, s.selection = .group groupId → ∃ group, s.groups.find? (·.id = groupId) = some group ∧
    s.groupDetail = some (.fromGroup (opaqueGroupId groupId) group s.sourceRows)

structure Consistent (s : ContainersState) : Prop extends Sound s where
  shown : s.GroupShown

/-- `t` is what an operation makes of `s`: the page stays sound, and the view of a selected
group stays right. -/
def Keeps (s t : ContainersState) : Prop := t.Sound ∧ (s.GroupShown → t.GroupShown)

theorem Sound.keeps_refl (h : s.Sound) : s.Keeps s := ⟨h, id⟩

theorem Consistent.keeps (h : t.Consistent) : s.Keeps t := ⟨h.toSound, fun _ => h.shown⟩

structure SameData (s t : ContainersState) : Prop where
  endpointKey : t.endpointKey = s.endpointKey
  sourceRows : t.sourceRows = s.sourceRows
  groups : t.groups = s.groups
  selection : t.selection = s.selection
  containerDetail : t.containerDetail = s.containerDetail
  groupDetail : t.groupDetail = s.groupDetail

theorem Sound.keeps_of_same (h : s.Sound) (hsame : s.SameData t) (hrows : t.RowsFit) :
    s.Keeps t := by
  obtain ⟨hendpoint, hsource, hgroups, hselection, hcontainer, hgroup⟩ := hsame
  have hnames : ∀ selection, s.Names selection → t.Names selection := by
    intro selection hnames
    unfold Names at hnames ⊢
    rw [hgroups, hsource]
    exact hnames
  refine ⟨⟨⟨?_, ?_, ?_, ?_⟩, hrows⟩, ?_⟩
  · rw [hgroups, hendpoint, hsource, h.groups]
  · rw [hselection]
    exact hnames _ h.named
  · rw [hcontainer, hselection]
    exact h.container
  · rw [hgroup, hselection]
    exact h.group
  · intro hshown
    unfold GroupShown
    rw [hselection, hgroups, hgroup, hsource]
    exact hshown

theorem Sound.keeps_rebuildVisible (h : s.Sound) (hsame : s.SameData t) :
    s.Keeps t.rebuildVisible :=
  h.keeps_of_same ⟨hsame.1, hsame.2, hsame.3, hsame.4, hsame.5, hsame.6⟩ rowsFit_rebuildVisible

theorem Sound.keeps_of_rows (h : s.Sound) (hsame : s.SameData t)
    (hrows : t.visibleRows = s.visibleRows) : s.Keeps t := by
  refine h.keeps_of_same hsame fun row hrow => ?_
  unfold RowNamed
  rw [hsame.selection, hsame.groups, hsame.sourceRows]
  exact h.rows row (hrows ▸ hrow)

theorem find_of_names (h : s.Names (.group groupId)) :
    ∃ group, s.groups.find? (·.id = groupId) = some group := by
  obtain ⟨group, hmem, rfl⟩ := h
  cases hfind : s.groups.find? (·.id = group.id) with
  | none => exact absurd (decide_eq_true rfl) (List.find?_eq_none.mp hfind group hmem)
  | some found => exact ⟨found, rfl⟩

theorem buildGroupDetail_eq (h : s.groups.find? (·.id = groupId) = some group) :
    s.buildGroupDetail groupId = { s with
      groupDetail := some (.fromGroup (opaqueGroupId groupId) group s.sourceRows)
      containerDetail := none
      detailState := .ready } := by
  unfold buildGroupDetail
  rw [h]

theorem dataSound_buildGroupDetail
    (hgroups : s.groups = groupComposeContainers s.endpointKey s.sourceRows)
    (hselection : s.selection = .group groupId) (hnames : s.Names (.group groupId)) :
    (s.buildGroupDetail groupId).DataSound ∧ (s.buildGroupDetail groupId).GroupShown := by
  obtain ⟨group, hfind⟩ := find_of_names hnames
  rw [buildGroupDetail_eq hfind]
  refine ⟨⟨hgroups, ?_, fun _ h => (by cases h), fun _ => ⟨groupId, hselection⟩⟩, ?_⟩
  · show s.Names s.selection
    rw [hselection]
    exact hnames
  · intro gid hgid
    cases hselection.symm.trans hgid
    exact ⟨group, hfind, rfl⟩

theorem DataSound.rebuildVisible (h : s.DataSound) (hshown : s.GroupShown) :
    s.rebuildVisible.Consistent :=
  ⟨⟨{ h with }, rowsFit_rebuildVisible⟩, hshown⟩

/-- **A new selection** opens its own details, whatever was selected before. -/
theorem consistent_setSelection {selection : ContainerSelection}
    (hgroups : s.groups = groupComposeContainers s.endpointKey s.sourceRows)
    (hnames : s.Names selection) (hne : s.selection ≠ selection) :
    (s.setSelection selection).2.Consistent := by
  unfold setSelection
  rw [if_neg hne]
  cases selection with
  | none =>
    exact DataSound.rebuildVisible ⟨hgroups, trivial, fun _ h => (by cases h),
      fun h => (by cases h)⟩ fun _ h => (by cases h)
  | container containerId =>
    exact DataSound.rebuildVisible ⟨hgroups, hnames, fun _ h => (by cases h),
      fun h => (by cases h)⟩ fun _ h => (by cases h)
  | group groupId =>
    obtain ⟨hsound, hshown⟩ := dataSound_buildGroupDetail
      (s := { s with
        selection := .group groupId
        selectionGeneration := s.selectionGeneration + 1 }.resetSelectionStates)
      hgroups rfl hnames
    exact hsound.rebuildVisible hshown

theorem Sound.keeps_setSelection (h : s.Sound) {selection : ContainerSelection}
    (hnames : s.Names selection) : s.Keeps (s.setSelection selection).2 := by
  by_cases heq : s.selection = selection
  · unfold setSelection
    rw [if_pos heq]
    exact h.keeps_refl
  · exact (consistent_setSelection h.groups hnames heq).keeps

theorem setSelection_none_data
    (hcontainer : ∀ detail, s.containerDetail = some detail → s.selection = .container detail.id)
    (hgroup : s.groupDetail.isSome → ∃ groupId, s.selection = .group groupId) :
    (s.setSelection .none).2.selection = .none ∧
      (s.setSelection .none).2.endpointKey = s.endpointKey ∧
      (s.setSelection .none).2.sourceRows = s.sourceRows ∧
      (s.setSelection .none).2.containerDetail = none ∧
      (s.setSelection .none).2.groupDetail = none := by
  unfold setSelection
  split
  · next hnone =>
    refine ⟨hnone, rfl, rfl, ?_, ?_⟩
    · cases hdetail : s.containerDetail with
      | none => rfl
      | some detail => cases hnone.symm.trans (hcontainer detail hdetail)
    · cases hdetail : s.groupDetail with
      | none => rfl
      | some detail =>
        obtain ⟨groupId, hselected⟩ := hgroup (by rw [hdetail]; rfl)
        cases hnone.symm.trans hselected
  · exact ⟨rfl, rfl, rfl, rfl, rfl⟩

theorem consistent_setEndpointKey (h : s.DataSound) {endpointKey : String}
    (hne : s.endpointKey ≠ endpointKey) : (s.setEndpointKey endpointKey).Consistent := by
  unfold setEndpointKey
  rw [if_neg hne]
  obtain ⟨hselection, -, -, hcontainer, hgroup⟩ :=
    setSelection_none_data (s := { s with endpointKey, expandedGroups := [] }) h.container h.group
  refine DataSound.rebuildVisible ⟨rfl, ?_, fun detail hdetail => ?_, fun hdetail => ?_⟩
    fun groupId hgroupId => ?_
  · show Names _ ({ s with endpointKey, expandedGroups := [] }.setSelection .none).2.selection
    rw [hselection]
    trivial
  · cases hcontainer.symm.trans hdetail
  · rw [show _ = none from hgroup] at hdetail
    cases hdetail
  · cases hselection.symm.trans hgroupId

theorem refreshSelection_sound
    (hgroups : s.groups = groupComposeContainers s.endpointKey s.sourceRows)
    (hcontainer : ∀ detail, s.containerDetail = some detail → s.selection = .container detail.id)
    (hgroup : s.groupDetail.isSome → ∃ groupId, s.selection = .group groupId) :
    s.refreshSelection.DataSound ∧ s.refreshSelection.GroupShown := by
  unfold refreshSelection
  by_cases hexists : s.selectionStillExists = true
  · have hnamed := selectionStillExists_iff.mp hexists
    rw [hexists, Bool.not_true, if_neg Bool.false_ne_true]
    split
    · next groupId hselection =>
      exact dataSound_buildGroupDetail hgroups hselection (hselection ▸ hnamed)
    · next hno =>
        exact ⟨⟨hgroups, hnamed, hcontainer, hgroup⟩, fun groupId h => absurd h (hno groupId)⟩
  · rw [Bool.not_eq_true] at hexists
    have hne : s.selection ≠ .none := by
      intro hnone
      rw [selectionStillExists, hnone] at hexists
      cases hexists
    rw [hexists, Bool.not_false, if_pos rfl]
    have hnothing : s.Names .none := trivial
    have hconsistent := consistent_setSelection hgroups hnothing hne
    exact ⟨hconsistent.toDataSound, hconsistent.shown⟩

/-- **A refresh** brings the list, the groups, the selection and the details in step. -/
theorem consistent_replaceSource (h : s.DataSound) (summaries : List ContainerSummary) :
    (s.replaceSource summaries).Consistent := by
  obtain ⟨hsound, hshown⟩ := refreshSelection_sound (s := { s with
      sourceRows := summaries
      groups := groupComposeContainers s.endpointKey summaries
      expandedGroups := s.expandedGroups.filter fun groupId =>
        (groupComposeContainers s.endpointKey summaries).any (·.id = groupId) })
    rfl h.container h.group
  exact hsound.rebuildVisible hshown

theorem names_desiredSelection {desired : ContainerSelection} (hnamed : s.RowNamed row)
    (h : s.desiredSelection row = some desired) : s.Names desired := by
  unfold desiredSelection at h
  unfold RowNamed at hnamed
  cases hkind : row.rowKind with
  | sectionHeader =>
    rw [hkind] at h
    cases h
  | group =>
    rw [hkind] at h
    obtain ⟨groupId, hgroup, rfl⟩ := Option.map_eq_some_iff.mp h
    obtain ⟨group, hfind, rfl⟩ := Option.map_eq_some_iff.mp hgroup
    exact ⟨group, List.mem_of_find?_eq_some hfind, rfl⟩
  | containerChild | individual =>
    rw [hkind] at h hnamed
    cases h
    obtain ⟨summary, hmem, hid⟩ := hnamed
    exact ⟨summary, hmem, hid.symm⟩

theorem Sound.keeps_selectRow (h : s.Sound) (opaqueId : String) :
    s.Keeps (s.selectRow opaqueId).2 := by
  unfold selectRow
  split
  · exact h.keeps_refl
  · next row hfind =>
    have hnamed := (h.rows row (List.mem_of_find?_eq_some hfind)).2
    split
    · exact h.keeps_refl
    · next desired hdesired =>
      refine h.keeps_setSelection ?_
      split
      · trivial
      · exact names_desiredSelection hnamed hdesired

theorem consistent_applyListError (h : s.DataSound) {generation : UInt64} (error : DaemonError)
    (hgeneration : generation = s.refreshGeneration) :
    (s.applyListError generation error).2.Consistent := by
  unfold applyListError
  rw [if_neg (not_not_intro hgeneration)]
  have hempty : ({ s with
      refreshInProgress := false
      sourceRows := []
      groups := []
      visibleRows := [] }.setSelection .none).2.Consistent := by
    by_cases hnone : s.selection = .none
    · unfold setSelection
      rw [if_pos hnone]
      refine ⟨⟨⟨groupComposeContainers_nil.symm, ?_, h.container, h.group⟩,
          fun row hrow => (by cases hrow)⟩,
        fun groupId hgroup => (by cases hnone.symm.trans hgroup)⟩
      show Names _ s.selection
      rw [hnone]
      trivial
    · exact consistent_setSelection groupComposeContainers_nil.symm trivial hnone
  exact ⟨⟨{ hempty with }, hempty.rows⟩, hempty.shown⟩

theorem Sound.keeps_reloadDetail (h : s.Sound) : s.Keeps s.reloadDetail.2 := by
  unfold reloadDetail
  split
  · exact h.keeps_refl
  · next containerId hselection =>
    split
    · exact h.keeps_refl
    · unfold openSelection
      rw [hselection]
      exact Consistent.keeps ⟨⟨⟨h.groups, h.named, fun _ h => (by cases h), fun h => (by cases h)⟩,
        h.rows⟩, fun groupId hgroup => (by cases hselection.symm.trans hgroup)⟩
  · next groupId hselection =>
    unfold openSelection
    rw [hselection]
    have hbuilt := dataSound_buildGroupDetail (s := s.resetSelectionStates)
      h.groups hselection (hselection ▸ h.named)
    obtain ⟨group, hfind⟩ := find_of_names (s := s.resetSelectionStates)
      (hselection ▸ h.named : s.resetSelectionStates.Names (.group groupId))
    have hrows : (s.resetSelectionStates.buildGroupDetail groupId).RowsFit := by
      rw [buildGroupDetail_eq hfind]
      exact h.rows
    exact Consistent.keeps ⟨⟨hbuilt.1, hrows⟩, hbuilt.2⟩

theorem Sound.keeps_applyDetail (h : s.Sound) (generation : UInt64) (detail : ContainerDetail) :
    s.Keeps (s.applyDetail generation detail).2 := by
  refine guarded h.keeps_refl fun hcurrent => ?_
  have hselection : s.selection = .container detail.summary.id :=
    not_not.mp (not_or.mp hcurrent).2
  refine Consistent.keeps ⟨⟨⟨h.groups, h.named, ?_, fun h => (by cases h)⟩, h.rows⟩,
    fun groupId hgroup => (by cases hselection.symm.trans hgroup)⟩
  rintro view hview
  cases hview
  exact hselection

theorem Sound.keeps_applyDetailError (h : s.Sound) (generation : UInt64) (error : DaemonError) :
    s.Keeps (s.applyDetailError generation error).2 :=
  guarded h.keeps_refl fun _ =>
    ⟨⟨⟨h.groups, h.named, fun _ h => (by cases h), h.group⟩, h.rows⟩, id⟩

theorem Sound.keeps_setEnvironmentRevealed (h : s.Sound) (index : Nat) (revealed : Bool) :
    s.Keeps (s.setEnvironmentRevealed index revealed).2 := by
  unfold setEnvironmentRevealed
  split
  · exact h.keeps_refl
  · next detail hdetail =>
    have hid : (detail.setRevealed index revealed).2.id = detail.id := by
      unfold ContainerDetailView.setRevealed
      split
      · rfl
      · split
        · rfl
        · rfl
    refine ⟨⟨⟨h.groups, h.named, ?_, h.group⟩, h.rows⟩, id⟩
    rintro view hview
    cases hview
    exact (h.container detail hdetail).trans (congrArg _ hid.symm)

/-! ## Local removals -/

/-- Some containers of the selected group are removed, and some are not. -/
def RemovesPart (s : ContainersState) (ids : List String) : Prop :=
  ∃ groupId group, s.selection = .group groupId ∧ s.groups.find? (·.id = groupId) = some group ∧
    (∃ id ∈ group.containers, id ∈ ids) ∧ ∃ id ∈ group.containers, id ∉ ids

theorem summaryById_filter (h : id ∉ ids) :
    summaryById (summaries.filter fun row => row.id ∉ ids) id = summaryById summaries id := by
  unfold summaryById
  rw [← List.filter_reverse, List.find?_filter]
  congr 1
  funext row
  by_cases hid : row.id = id
  · subst hid
    simp [h]
  · simp [hid]

/-- The view of a group only depends on the group and its own containers. -/
theorem fromGroup_filter (h : ∀ id ∈ group.containers, id ∉ ids) :
    ContainerGroupDetailView.fromGroup id group (summaries.filter fun row => row.id ∉ ids) =
      .fromGroup id group summaries := by
  have hmembers : group.containers.filterMap
      (summaryById (summaries.filter fun row => row.id ∉ ids)) =
      group.containers.filterMap (summaryById summaries) :=
    List.filterMap_congr fun id hid => summaryById_filter (h id hid)
  unfold ContainerGroupDetailView.fromGroup
  rw [hmembers]

theorem containers_of_find (hgroups : s.groups = groupComposeContainers s.endpointKey s.sourceRows)
    (hfind : s.groups.find? (·.id = groupId) = some group) :
    groupId.endpointKey = s.endpointKey ∧ group = composeGroup s.endpointKey groupId.projectName
        (membersOf s.sourceRows groupId.projectName) ∧
      ∀ id, id ∈ group.containers ↔
        ∃ c ∈ s.sourceRows, c.project = some groupId.projectName ∧ c.id = id := by
  rw [hgroups, find_groupComposeContainers] at hfind
  split at hfind
  · next hthere =>
    cases hfind
    exact ⟨hthere.1, rfl, fun id => mem_containers_composeGroup⟩
  · cases hfind

theorem names_group_iff (hgroups : s.groups = groupComposeContainers s.endpointKey s.sourceRows) :
    s.Names (.group groupId) ↔
      groupId.endpointKey = s.endpointKey ∧
        ∃ c ∈ s.sourceRows, c.project = some groupId.projectName := by
  constructor
  · intro hnames
    obtain ⟨group, hfind⟩ := find_of_names hnames
    rw [hgroups, find_groupComposeContainers] at hfind
    split at hfind
    · next hthere => exact ⟨hthere.1, mem_projectNames.mp hthere.2⟩
    · cases hfind
  · rintro ⟨hendpoint, hmember⟩
    have hfind : (groupComposeContainers s.endpointKey s.sourceRows).find? _ = _ :=
      find_groupComposeContainers groupId
    rw [if_pos ⟨hendpoint, mem_projectNames.mpr hmember⟩, ← hgroups] at hfind
    exact ⟨_, List.mem_of_find?_eq_some hfind, by simpa using List.find?_some hfind⟩

theorem find_withoutRows (h : s.DataSound) (hfind : s.groups.find? (·.id = groupId) = some group)
    (hnone : ∀ id ∈ group.containers, id ∉ ids) :
    (s.withoutRows ids).groups.find? (·.id = groupId) = some group := by
  obtain ⟨hendpoint, hgroup, hmem⟩ := containers_of_find h.groups hfind
  have hkept : ∀ c ∈ s.sourceRows, c.project = some groupId.projectName →
      decide (c.id ∉ ids) = true := fun c hc hproject =>
    decide_eq_true (hnone c.id ((hmem c.id).mpr ⟨c, hc, hproject, rfl⟩))
  have hthere : groupId.projectName ∈
      projectNames (s.sourceRows.filter fun row => row.id ∉ ids) := by
    obtain ⟨-, c, hc, hproject⟩ := (names_group_iff h.groups).mp
      ⟨group, List.mem_of_find?_eq_some hfind, by simpa using List.find?_some hfind⟩
    exact mem_projectNames.mpr ⟨c, List.mem_filter.mpr ⟨hc, hkept c hc hproject⟩, hproject⟩
  show (groupComposeContainers s.endpointKey
    (s.sourceRows.filter fun row => row.id ∉ ids)).find? (·.id = groupId) = some group
  rw [find_groupComposeContainers, if_pos ⟨hendpoint, hthere⟩, membersOf_filter hkept, ← hgroup]

theorem selectedRemoved_iff (h : s.DataSound) :
    s.selectedRemoved ids = false ↔ (s.withoutRows ids).Names s.selection := by
  have hnamed := h.named
  unfold selectedRemoved
  split
  · next containerId hselection =>
    rw [hselection] at hnamed ⊢
    obtain ⟨c, hc, rfl⟩ := hnamed
    rw [decide_eq_false_iff_not]
    constructor
    · intro hkept
      exact ⟨c, List.mem_filter.mpr ⟨hc, decide_eq_true hkept⟩, rfl⟩
    · rintro ⟨c', hc', hid⟩
      rw [← hid]
      exact of_decide_eq_true (List.mem_filter.mp hc').2
  · next groupId hselection =>
    rw [hselection] at hnamed ⊢
    obtain ⟨group, hfind⟩ := find_of_names hnamed
    obtain ⟨hendpoint, -, hmem⟩ := containers_of_find h.groups hfind
    rw [hfind, names_group_iff (s := s.withoutRows ids) rfl, List.all_eq_false]
    constructor
    · rintro ⟨id, hid, hkept⟩
      obtain ⟨c, hc, hproject, rfl⟩ := (hmem id).mp hid
      exact ⟨hendpoint, c, List.mem_filter.mpr ⟨hc, by simpa using hkept⟩, hproject⟩
    · rintro ⟨-, c, hc, hproject⟩
      obtain ⟨hc, hkept⟩ := List.mem_filter.mp hc
      exact ⟨c.id, (hmem c.id).mpr ⟨c, hc, hproject, rfl⟩, by simpa using hkept⟩
  · next hselection =>
    rw [hselection]
    exact ⟨fun _ => trivial, fun _ => rfl⟩

theorem dataSound_withoutRows (h : s.DataSound) (hnamed : (s.withoutRows ids).Names s.selection) :
    (s.withoutRows ids).DataSound :=
  ⟨rfl, hnamed, h.container, h.group⟩

theorem rowsFit_withoutRows : (s.withoutRows ids).RowsFit :=
  rowsFit_rebuildVisible (s := { s with
    sourceRows := s.sourceRows.filter fun row => row.id ∉ ids
    operations := ids.foldl (fun operations id => operations.erase id) s.operations
    groups := groupComposeContainers s.endpointKey (s.sourceRows.filter fun row => row.id ∉ ids)
    expandedGroups := s.expandedGroups.filter fun groupId =>
      (groupComposeContainers s.endpointKey (s.sourceRows.filter fun row => row.id ∉ ids)).any
        (·.id = groupId) })

theorem exists_desiredSelection (hnamed : s.RowNamed row) (hselectable : row.selectable = true) :
    ∃ desired, s.desiredSelection row = some desired := by
  unfold RowNamed at hnamed
  unfold desiredSelection
  cases hkind : row.rowKind with
  | sectionHeader =>
    rw [ContainerListRow.selectable, hkind] at hselectable
    cases hselectable
  | group =>
    rw [hkind] at hnamed
    obtain ⟨group, hmem, hid⟩ := hnamed
    unfold groupIdFromOpaque
    cases hfind : s.groups.find? fun group => opaqueGroupId group.id = row.id with
    | none => exact absurd (decide_eq_true hid.symm) (List.find?_eq_none.mp hfind group hmem)
    | some found => exact ⟨_, rfl⟩
  | containerChild | individual => exact ⟨_, rfl⟩

theorem consistent_selectRow
    (hgroups : s.groups = groupComposeContainers s.endpointKey s.sourceRows) (hrows : s.RowsFit)
    (hgone : ¬ s.Names s.selection) (hmem : row ∈ s.visibleRows)
    (hselectable : row.selectable = true) : (s.selectRow row.id).2.Consistent := by
  unfold selectRow
  cases hfind : s.visibleRows.find? fun other => other.id = row.id && other.selectable with
  | none =>
    refine absurd ?_ (List.find?_eq_none.mp hfind row hmem)
    rw [hselectable, Bool.and_true, decide_eq_true_eq]
  | some found =>
    have hnamed := (hrows found (List.mem_of_find?_eq_some hfind)).2
    have hfound := List.find?_some hfind
    obtain ⟨desired, hdesired⟩ := exists_desiredSelection hnamed (Bool.and_elim_right hfound)
    have hnames := names_desiredSelection hnamed hdesired
    have hne : s.selection ≠ desired := fun heq => hgone (heq ▸ hnames)
    dsimp only
    rw [hdesired]
    dsimp only
    rw [if_neg hne]
    exact consistent_setSelection hgroups hnames hne

/-- **A removal** keeps the page sound, and the view of the selected group right unless it
removes a part of that group. -/
theorem Sound.removeLocalMany (h : s.Sound) (ids : List String) :
    (s.removeLocalMany ids).2.Sound ∧
      (¬ s.RemovesPart ids → s.GroupShown → (s.removeLocalMany ids).2.GroupShown) := by
  unfold ContainersState.removeLocalMany
  dsimp only
  cases hremoved : s.selectedRemoved ids with
  | false =>
    have hnamed := (selectedRemoved_iff h.toDataSound).mp hremoved
    refine ⟨⟨dataSound_withoutRows h.toDataSound hnamed, rowsFit_withoutRows⟩, ?_⟩
    intro hwhole hshown groupId hselection
    have hselection : s.selection = .group groupId := hselection
    obtain ⟨group, hfind, hdetail⟩ := hshown groupId hselection
    have hnone : ∀ id ∈ group.containers, id ∉ ids := by
      intro id hid hin
      refine hwhole ⟨groupId, group, hselection, hfind, ⟨id, hid, hin⟩, ?_⟩
      rw [selectedRemoved, hselection] at hremoved
      dsimp only at hremoved
      rw [hfind, List.all_eq_false] at hremoved
      obtain ⟨kept, hkept, hout⟩ := hremoved
      exact ⟨kept, hkept, by simpa using hout⟩
    refine ⟨group, find_withoutRows h.toDataSound hfind hnone, ?_⟩
    show s.groupDetail =
      some (.fromGroup _ group (s.sourceRows.filter fun row => row.id ∉ ids))
    rw [fromGroup_filter hnone, hdetail]
  | true =>
    have hgone : ¬ (s.withoutRows ids).Names (s.withoutRows ids).selection := by
      intro hnamed
      rw [(selectedRemoved_iff h.toDataSound).mpr hnamed] at hremoved
      cases hremoved
    have hconsistent : ∀ i, (match (s.withoutRows ids).neighbour i with
        | some id => (s.withoutRows ids).selectRow id
        | none => (s.withoutRows ids).setSelection .none).2.Consistent := by
      intro i
      split
      · next id hneighbour =>
        obtain ⟨row, hrow, rfl⟩ := Option.map_eq_some_iff.mp hneighbour
        refine consistent_selectRow rfl rowsFit_withoutRows hgone ?_ (List.find?_some hrow)
        rcases List.mem_append.mp (List.mem_of_find?_eq_some hrow) with hmem | hmem
        · exact List.mem_of_mem_drop hmem
        · exact List.mem_of_mem_take (List.mem_reverse.mp hmem)
      · refine consistent_setSelection rfl trivial fun hnone => hgone ?_
        rw [hnone]
        trivial
    exact ⟨(hconsistent _).toSound, fun _ _ => (hconsistent _).shown⟩

theorem mem_members_fromGroup {member : String} :
    member ∈ (ContainerGroupDetailView.fromGroup id group summaries).members.map (·.id) ↔
      member ∈ group.containers ∧ ∃ c ∈ summaries, c.id = member := by
  show member ∈ ((group.containers.filterMap (summaryById summaries)).map _).map _ ↔ _
  simp only [List.map_map, List.mem_map, List.mem_filterMap, Function.comp]
  constructor
  · rintro ⟨c, ⟨member, hmember, hc⟩, rfl⟩
    obtain ⟨hmem, rfl⟩ := mem_of_summaryById hc
    exact ⟨hmember, c, hmem, rfl⟩
  · rintro ⟨hmember, c, hc, rfl⟩
    cases hfind : summaryById summaries c.id with
    | none =>
      exact absurd (decide_eq_true rfl)
        (List.find?_eq_none.mp hfind c (List.mem_reverse.mpr hc))
    | some found => exact ⟨found, ⟨c.id, hmember, hfind⟩, (mem_of_summaryById hfind).2⟩

/-- **A removed part stays in the view**: the panel lists a container that is gone. -/
theorem not_shown_removeLocalMany (h : s.Consistent) (hpart : s.RemovesPart ids) :
    ¬ (s.removeLocalMany ids).2.GroupShown := by
  obtain ⟨groupId, group, hselection, hfind, ⟨gone, hgone, hin⟩, kept, hkept, hout⟩ := hpart
  have hstays : s.selectedRemoved ids = false := by
    rw [selectedRemoved, hselection]
    dsimp only
    rw [hfind, List.all_eq_false]
    exact ⟨kept, hkept, by simpa using hout⟩
  unfold removeLocalMany
  dsimp only
  rw [hstays, Bool.not_false, if_pos rfl]
  intro hshown
  obtain ⟨group', -, hdetail'⟩ := hshown groupId hselection
  obtain ⟨found, hfound, hdetail⟩ := h.shown groupId hselection
  cases hfind.symm.trans hfound
  have hviews := Option.some.inj (hdetail.symm.trans hdetail')
  obtain ⟨-, -, hmem⟩ := containers_of_find h.groups hfind
  obtain ⟨c, hc, -, hcid⟩ := (hmem gone).mp hgone
  have hlisted : _ ∈ (ContainerGroupDetailView.fromGroup (opaqueGroupId groupId) _ _).members.map
      (·.id) := mem_members_fromGroup.mpr ⟨hgone, c, hc, hcid⟩
  rw [hviews] at hlisted
  obtain ⟨-, row, hrow, rfl⟩ := mem_members_fromGroup.mp hlisted
  exact of_decide_eq_true (List.mem_filter.mp hrow).2 hin

end ContainersState

/-! ## Runs of the page -/

inductive ContainersCall where
  | initializePage
  | setEndpointKey (endpointKey : String)
  | beginRefresh
  | applyLive (generation : UInt64) (summaries : List ContainerSummary)
  | applyListError (generation : UInt64) (error : DaemonError)
  | setSearch (query : String)
  | setSort (sort : ContainerSortMode)
  | toggleGroup (opaqueId : String)
  | selectRow (opaqueId : String)
  | selectContainer (containerId : String)
  | reloadDetail
  | clearSelection
  | applyDetail (generation : UInt64) (detail : ContainerDetail)
  | applyDetailError (generation : UInt64) (error : DaemonError)
  | setEnvironmentRevealed (index : Nat) (revealed : Bool)
  | beginOperation (containerId : String) (operation : ContainerOperationState)
  | finishOperation (containerId : String) (generation : UInt64)
      (operation : ContainerOperationState)
  | failOperation (containerId : String) (generation : UInt64)
      (operation : ContainerOperationState) (error : DaemonError)
  | beginGroupOperation (opaqueId : String) (operation : GroupOperationState)
  | finishGroupOperation (opaqueId : String) (generation : UInt64) (result : GroupOperationResult)
  | removeLocalMany (ids : List String)

def ContainersCall.after (s : ContainersState) : ContainersCall → ContainersState
  | .initializePage => s.initializePage.2
  | .setEndpointKey endpointKey => s.setEndpointKey endpointKey
  | .beginRefresh => s.beginRefresh.2
  | .applyLive generation summaries => (s.applyLive generation summaries).2
  | .applyListError generation error => (s.applyListError generation error).2
  | .setSearch query => s.setSearch query
  | .setSort sort => s.setSort sort
  | .toggleGroup opaqueId => (s.toggleGroup opaqueId).2
  | .selectRow opaqueId => (s.selectRow opaqueId).2
  | .selectContainer containerId => (s.selectContainer containerId).2
  | .reloadDetail => s.reloadDetail.2
  | .clearSelection => s.clearSelection.2
  | .applyDetail generation detail => (s.applyDetail generation detail).2
  | .applyDetailError generation error => (s.applyDetailError generation error).2
  | .setEnvironmentRevealed index revealed => (s.setEnvironmentRevealed index revealed).2
  | .beginOperation containerId operation => (s.beginOperation containerId operation).2
  | .finishOperation containerId generation operation =>
    (s.finishOperation containerId generation operation).2
  | .failOperation containerId generation operation error =>
    (s.failOperation containerId generation operation error).2
  | .beginGroupOperation opaqueId operation => (s.beginGroupOperation opaqueId operation).2
  | .finishGroupOperation opaqueId generation result =>
    (s.finishGroupOperation opaqueId generation result).2
  | .removeLocalMany ids => (s.removeLocalMany ids).2

def containersPage (endpointKey : String) : Machine ContainersState ContainersCall where
  init s := s = .new endpointKey
  step s call := some (call.after s)

namespace ContainersState

variable {s : ContainersState}

/-- A call does not remove a part of the selected group. -/
def RemovesWhole (s : ContainersState) (call : ContainersCall) : Prop :=
  ∀ ids, call = .removeLocalMany ids → ¬ s.RemovesPart ids

theorem consistent_new (endpointKey : String) : (new endpointKey).Consistent :=
  ⟨⟨⟨groupComposeContainers_nil.symm, trivial, fun _ h => (by cases h), fun h => (by cases h)⟩,
    fun _ h => (by cases h)⟩, fun _ h => (by cases h)⟩

theorem Sound.keeps_finishOperation (h : s.Sound) (containerId : String) (generation : UInt64)
    (operation : ContainerOperationState) :
    s.Keeps (s.finishOperation containerId generation operation).2 :=
  guarded h.keeps_refl fun _ => h.keeps_rebuildVisible ⟨rfl, rfl, rfl, rfl, rfl, rfl⟩

theorem Sound.keeps_failOperation (h : s.Sound) (containerId : String) (generation : UInt64)
    (operation : ContainerOperationState) (error : DaemonError) :
    s.Keeps (s.failOperation containerId generation operation error).2 := by
  have hfinish := h.keeps_finishOperation containerId generation operation
  unfold failOperation
  generalize s.finishOperation containerId generation operation = found at hfinish ⊢
  obtain ⟨finished, t⟩ := found
  cases finished with
  | false => exact hfinish
  | true =>
    obtain ⟨hsound, hshown⟩ := hfinish
    obtain ⟨hsound', hshown'⟩ :=
      hsound.keeps_of_rows ⟨rfl, rfl, rfl, rfl, rfl, rfl⟩ rfl (t := { t with
        listErrorKind := (friendlyError error .operation).2.1
        listErrorMessage := (friendlyError error .operation).2.2 })
    exact ⟨hsound', fun h => hshown' (hshown h)⟩

theorem Sound.keeps_beginGroupOperation (h : s.Sound) (opaqueId : String)
    (operation : GroupOperationState) : s.Keeps (s.beginGroupOperation opaqueId operation).2 := by
  refine guarded h.keeps_refl fun _ => ?_
  split
  · exact h.keeps_refl
  · refine guarded h.keeps_refl fun _ => ?_
    split
    · exact h.keeps_refl
    · refine guarded h.keeps_refl fun _ => ?_
      exact h.keeps_rebuildVisible ⟨rfl, rfl, rfl, rfl, rfl, rfl⟩

theorem Sound.keeps_finishGroupOperation (h : s.Sound) (opaqueId : String) (generation : UInt64)
    (result : GroupOperationResult) :
    s.Keeps (s.finishGroupOperation opaqueId generation result).2 := by
  unfold finishGroupOperation
  split
  · exact h.keeps_refl
  · exact guarded h.keeps_refl fun _ => h.keeps_rebuildVisible ⟨rfl, rfl, rfl, rfl, rfl, rfl⟩

theorem Sound.keeps_applyLive (h : s.Sound) (generation : UInt64)
    (summaries : List ContainerSummary) : s.Keeps (s.applyLive generation summaries).2 := by
  refine guarded h.keeps_refl fun _ => ?_
  obtain ⟨⟨hdata, hrows⟩, hshown⟩ := consistent_replaceSource h.toDataSound summaries
  exact Consistent.keeps
    ⟨⟨{ hdata with }, hrows⟩, hshown⟩

/-- **One call** keeps the page sound; the view of the selected group stays right when the
call does not remove a part of that group. -/
theorem Sound.after (h : s.Sound) (call : ContainersCall) :
    (call.after s).Sound ∧ (s.RemovesWhole call → s.GroupShown → (call.after s).GroupShown) := by
  have hkeeps : ∀ {t}, s.Keeps t →
      t.Sound ∧ (s.RemovesWhole call → s.GroupShown → t.GroupShown) :=
    fun hkept => ⟨hkept.1, fun _ => hkept.2⟩
  cases call with
  | initializePage =>
    refine hkeeps (guarded h.keeps_refl fun _ => ?_)
    exact h.keeps_of_rows ⟨rfl, rfl, rfl, rfl, rfl, rfl⟩ rfl
  | setEndpointKey endpointKey =>
    refine hkeeps ?_
    by_cases heq : s.endpointKey = endpointKey
    · show s.Keeps (s.setEndpointKey endpointKey)
      unfold ContainersState.setEndpointKey
      rw [if_pos heq]
      exact h.keeps_refl
    · exact (consistent_setEndpointKey h.toDataSound heq).keeps
  | beginRefresh => exact hkeeps (h.keeps_of_rows ⟨rfl, rfl, rfl, rfl, rfl, rfl⟩ rfl)
  | applyLive generation summaries => exact hkeeps (h.keeps_applyLive generation summaries)
  | applyListError generation error =>
    refine hkeeps ?_
    by_cases heq : generation = s.refreshGeneration
    · exact (consistent_applyListError h.toDataSound error heq).keeps
    · exact guarded h.keeps_refl fun hcurrent => absurd heq hcurrent
  | setSearch query | setSort sort =>
    exact hkeeps (h.keeps_rebuildVisible ⟨rfl, rfl, rfl, rfl, rfl, rfl⟩)
  | toggleGroup opaqueId =>
    refine hkeeps ?_
    show s.Keeps (s.toggleGroup opaqueId).2
    unfold ContainersState.toggleGroup
    split
    · exact h.keeps_refl
    · exact h.keeps_rebuildVisible ⟨rfl, rfl, rfl, rfl, rfl, rfl⟩
  | selectRow opaqueId => exact hkeeps (h.keeps_selectRow opaqueId)
  | selectContainer containerId =>
    refine hkeeps ?_
    show s.Keeps (s.selectContainer containerId).2
    unfold ContainersState.selectContainer
    split
    · next hthere =>
      obtain ⟨summary, hmem, hid⟩ := List.any_eq_true.mp hthere
      exact h.keeps_setSelection ⟨summary, hmem, of_decide_eq_true hid⟩
    · exact h.keeps_refl
  | reloadDetail => exact hkeeps h.keeps_reloadDetail
  | clearSelection =>
    exact hkeeps (guarded h.keeps_refl fun _ => h.keeps_setSelection trivial)
  | applyDetail generation detail => exact hkeeps (h.keeps_applyDetail generation detail)
  | applyDetailError generation error => exact hkeeps (h.keeps_applyDetailError generation error)
  | setEnvironmentRevealed index revealed =>
    exact hkeeps (h.keeps_setEnvironmentRevealed index revealed)
  | beginOperation containerId operation =>
    refine hkeeps (guarded h.keeps_refl fun _ => ?_)
    exact h.keeps_rebuildVisible ⟨rfl, rfl, rfl, rfl, rfl, rfl⟩
  | finishOperation containerId generation operation =>
    exact hkeeps (h.keeps_finishOperation containerId generation operation)
  | failOperation containerId generation operation error =>
    exact hkeeps (h.keeps_failOperation containerId generation operation error)
  | beginGroupOperation opaqueId operation =>
    exact hkeeps (h.keeps_beginGroupOperation opaqueId operation)
  | finishGroupOperation opaqueId generation result =>
    exact hkeeps (h.keeps_finishGroupOperation opaqueId generation result)
  -- the one call that may take the rows of a shown group away
  | removeLocalMany ids =>
    obtain ⟨hsound, hshown⟩ := h.removeLocalMany ids
    exact ⟨hsound, fun hwhole => hshown (hwhole ids rfl)⟩

/-- **The consistent runs of the page**: the page is consistent all along a run exactly when
no removal takes a part of the group that is selected at that moment. -/
theorem page_consistent_iff (endpointKey : String) (calls : List ContainersCall) :
    (containersPage endpointKey).AllStates Consistent (new endpointKey) calls ↔
      (containersPage endpointKey).AllSteps RemovesWhole (new endpointKey) calls := by
  refine Machine.allStates_iff_allSteps (J := Sound) ?_ ?_ ?_ ?_
    (consistent_new endpointKey).toSound (consistent_new endpointKey)
  · rintro s call t hsound hstep
    cases hstep
    exact (hsound.after call).1
  · rintro s call t hsound hconsistent hwhole hstep
    cases hstep
    exact ⟨(hsound.after call).1, (hsound.after call).2 hwhole hconsistent.shown⟩
  · rintro s call t hsound hconsistent hpart hstep hafter
    cases hstep
    unfold RemovesWhole at hpart
    push Not at hpart
    obtain ⟨ids, rfl, hpart⟩ := hpart
    exact not_shown_removeLocalMany hconsistent hpart hafter.shown
  · rintro s call -
    exact ⟨_, rfl⟩

def inProject (project id : String) : ContainerSummary where
  id := id
  shortId := id
  name := id
  image := ""
  imageId := ""
  state := .running
  status := ""
  createdAt := 0
  ports := []
  labels := [("com.docker.compose.project", project)]

theorem groups_two : groupComposeContainers "local" [inProject "shop" "a", inProject "shop" "b"] =
    [{  id := ⟨"local", "shop"⟩
        projectName := "shop"
        displayName := "shop"
        containers := ["a", "b"]
        totalCount := 2
        runningCount := 2
        pausedCount := 0
        restartingCount := 0
        stoppedCount := 0
        unhealthyCount := 0
        oneoffCount := 0
        devcontainerCount := 0
        workingDirectory := none
        configFiles := []
        composeVersion := none
        operationState := .idle }] := by
  have hnames : projectNames [inProject "shop" "a", inProject "shop" "b"] = ["shop"] := by
    decide +kernel
  unfold groupComposeContainers
  rw [hnames, List.map_singleton]
  unfold composeGroup
  rw [List.mergeSort_of_pairwise (by decide +kernel)]
  decide +kernel

theorem group_selected :
    let page := (((new "local").beginRefresh.2.applyLive 1
      [inProject "shop" "a", inProject "shop" "b"]).2.selectRow "5:localshop").2
    page.selection = .group ⟨"local", "shop"⟩ ∧
      (page.groups.find? (·.id = ⟨"local", "shop"⟩)).map (·.containers) = some ["a", "b"] := by
  unfold applyLive replaceSource
  rw [show (new "local").beginRefresh.2.endpointKey = "local" from rfl, groups_two]
  decide +kernel

/-- A project of two containers is selected, and one of them is removed. -/
theorem panel_lists_removed_container :
    ¬ (containersPage "local").AllStates Consistent (new "local")
      [.beginRefresh, .applyLive 1 [inProject "shop" "a", inProject "shop" "b"],
        .selectRow "5:localshop", .removeLocalMany ["a"]] := by
  intro hstates
  have hselected := (((hstates.2 _ rfl).2 _ rfl).2 _ rfl).1
  have hremoved := (((hstates.2 _ rfl).2 _ rfl).2 _ rfl).2 _ rfl
  obtain ⟨hselection, hcontainers⟩ := group_selected
  obtain ⟨group, hfind, hmembers⟩ := Option.map_eq_some_iff.mp hcontainers
  refine not_shown_removeLocalMany hselected ⟨_, group, hselection, hfind, ?_, ?_⟩ hremoved.shown
  · rw [hmembers]
    exact ⟨"a", by decide, by decide⟩
  · rw [hmembers]
    exact ⟨"b", by decide, by decide⟩

/-! ## Group operations -/

variable {groupId : ContainerGroupId} {generation : UInt64} {opaqueId : String}
  {operation : GroupOperationState}

theorem groupIdFromOpaque_eq_some : s.groupIdFromOpaque opaqueId = some groupId ↔
      opaqueGroupId groupId = opaqueId ∧ s.Names (.group groupId) := by
  unfold groupIdFromOpaque
  constructor
  · intro h
    obtain ⟨group, hfind, rfl⟩ := Option.map_eq_some_iff.mp h
    exact ⟨by simpa using List.find?_some hfind, group, List.mem_of_find?_eq_some hfind, rfl⟩
  · rintro ⟨rfl, group, hmem, rfl⟩
    cases hfind : s.groups.find? fun other => opaqueGroupId other.id = opaqueGroupId group.id with
    | none => exact absurd (decide_eq_true rfl) (List.find?_eq_none.mp hfind group hmem)
    | some found =>
      have hid : opaqueGroupId found.id = opaqueGroupId group.id := by
        simpa using List.find?_some hfind
      rw [Option.map_some, opaqueGroupId_injective hid]

theorem groupOperations_buildGroupDetail (groupId : ContainerGroupId) :
    (s.buildGroupDetail groupId).groupOperations = s.groupOperations := by
  unfold buildGroupDetail
  split
  · rfl
  · rfl

theorem groupOperations_openSelection : s.openSelection.2.groupOperations = s.groupOperations := by
  unfold openSelection
  split
  · rfl
  · rfl
  · exact groupOperations_buildGroupDetail _

theorem groupOperations_setSelection (selection : ContainerSelection) :
    (s.setSelection selection).2.groupOperations = s.groupOperations :=
  Guards.same rfl groupOperations_openSelection

theorem groupOperations_selectRow (opaqueId : String) :
    (s.selectRow opaqueId).2.groupOperations = s.groupOperations := by
  unfold selectRow
  split
  · rfl
  · split
    · rfl
    · exact groupOperations_setSelection _

theorem groupOperations_replaceSource (summaries : List ContainerSummary) :
    (s.replaceSource summaries).groupOperations = s.groupOperations := by
  show (refreshSelection _).groupOperations = _
  unfold refreshSelection
  split
  · exact groupOperations_setSelection _
  · split
    · exact groupOperations_buildGroupDetail _
    · rfl

theorem groupOperations_finishOperation (containerId : String) (generation : UInt64)
    (operation : ContainerOperationState) :
    (s.finishOperation containerId generation operation).2.groupOperations =
      s.groupOperations := Guards.same rfl rfl

theorem groupOperations_failOperation (containerId : String) (generation : UInt64)
    (operation : ContainerOperationState) (error : DaemonError) :
    (s.failOperation containerId generation operation error).2.groupOperations =
      s.groupOperations := by
  have hfinish : (s.finishOperation containerId generation operation).2.groupOperations = _ :=
    groupOperations_finishOperation containerId generation operation
  unfold failOperation
  generalize s.finishOperation containerId generation operation = found at hfinish ⊢
  obtain ⟨finished, t⟩ := found
  cases finished with
  | false | true => exact hfinish

theorem groupOperations_removeLocalMany (ids : List String) :
    (s.removeLocalMany ids).2.groupOperations = s.groupOperations := by
  unfold removeLocalMany
  dsimp only
  split
  · rfl
  · split
    · exact groupOperations_selectRow _
    · exact groupOperations_setSelection _

theorem lookup_beginGroupOperation {entry : UInt64 × GroupOperationState}
    (h : s.groupOperations.lookup groupId = some entry) (opaqueId : String)
    (operation : GroupOperationState) :
    (s.beginGroupOperation opaqueId operation).2.groupOperations.lookup groupId = some entry := by
  unfold beginGroupOperation
  split
  · exact h
  · split
    · exact h
    · next other hother =>
      split
      · exact h
      · next hfree =>
        split
        · exact h
        · dsimp only
          split
          · exact h
          · have hne : groupId ≠ other := by
              rintro rfl
              exact hfree (AList.lookup_isSome.mp (by rw [h]; rfl))
            show (s.groupOperations.insert other _).lookup groupId = _
            rw [AList.lookup_insert_ne hne, h]

theorem lookup_finishGroupOperation
    (h : s.groupOperations.lookup groupId = some (generation, operation)) {finished : UInt64}
    {result : GroupOperationResult}
    (hother : opaqueId = opaqueGroupId groupId → finished = generation →
      result.operation ≠ operation) :
    (s.finishGroupOperation opaqueId finished result).2.groupOperations.lookup groupId =
      some (generation, operation) := by
  unfold finishGroupOperation
  split
  · exact h
  · next other hgroup =>
    split
    · exact h
    · next hentry =>
      have hne : groupId ≠ other := by
        rintro rfl
        rw [not_not, h] at hentry
        cases hentry
        exact hother (groupIdFromOpaque_eq_some.mp hgroup).1.symm rfl rfl
      show (s.groupOperations.erase other).lookup groupId = _
      rw [AList.lookup_erase_ne hne, h]

/-- **One call** keeps the entry of a group operation, unless it finishes that operation. -/
theorem lookup_after (h : s.groupOperations.lookup groupId = some (generation, operation))
    (call : ContainersCall)
    (hother : ∀ result, call = .finishGroupOperation (opaqueGroupId groupId) generation result →
      result.operation ≠ operation) :
    (call.after s).groupOperations.lookup groupId = some (generation, operation) := by
  have hkept : ∀ {t : ContainersState}, t.groupOperations = s.groupOperations →
      t.groupOperations.lookup groupId = some (generation, operation) := by
    intro t hsame
    rw [hsame, h]
  cases call with
  | initializePage | applyDetail newest detail | applyDetailError newest error
  | beginOperation containerId started => exact hkept (Guards.same rfl rfl)
  | setEndpointKey endpointKey =>
    refine hkept ?_
    show (s.setEndpointKey endpointKey).groupOperations = _
    unfold setEndpointKey
    split
    · rfl
    · exact groupOperations_setSelection _
  | beginRefresh => exact h
  | applyLive newest summaries =>
    exact hkept (Guards.same rfl (groupOperations_replaceSource summaries))
  | applyListError newest error | clearSelection =>
    exact hkept (Guards.same rfl (groupOperations_setSelection _))
  | setSearch query => exact h
  | setSort sort => exact h
  | toggleGroup opaqueId =>
    refine hkept ?_
    show (s.toggleGroup opaqueId).2.groupOperations = _
    unfold toggleGroup
    split
    · rfl
    · rfl
  | selectRow opaqueId => exact hkept (groupOperations_selectRow opaqueId)
  | selectContainer containerId =>
    exact hkept (Guards.same (groupOperations_setSelection _) rfl)
  | reloadDetail =>
    refine hkept ?_
    show s.reloadDetail.2.groupOperations = _
    unfold reloadDetail
    split
    · rfl
    · split
      · rfl
      · exact groupOperations_openSelection
    · exact groupOperations_openSelection
  | setEnvironmentRevealed index revealed =>
    refine hkept ?_
    show (s.setEnvironmentRevealed index revealed).2.groupOperations = _
    unfold setEnvironmentRevealed
    split
    · rfl
    · rfl
  | finishOperation containerId newest ended =>
    exact hkept (groupOperations_finishOperation containerId newest ended)
  | failOperation containerId newest ended error =>
    exact hkept (groupOperations_failOperation containerId newest ended error)
  -- only these two calls touch the table of group operations
  | beginGroupOperation opaqueId started => exact lookup_beginGroupOperation h opaqueId started
  | finishGroupOperation opaqueId finished result =>
    refine lookup_finishGroupOperation h ?_
    rintro rfl rfl
    exact hother result rfl
  | removeLocalMany ids => exact hkept (groupOperations_removeLocalMany ids)

/-- What a group operation begins with. -/
theorem begun_of_beginGroupOperation {targets : List String}
    (h : (s.beginGroupOperation opaqueId operation).1 = some (generation, targets)) :
    ∃ groupId, opaqueGroupId groupId = opaqueId ∧
      (s.beginGroupOperation opaqueId operation).2.groupOperations.lookup groupId =
        some (generation, operation) := by
  unfold beginGroupOperation at h ⊢
  split at h
  · cases h
  · next hidle =>
    split at h
    · cases h
    · next groupId hgroup =>
      refine ⟨groupId, (groupIdFromOpaque_eq_some.mp hgroup).1, ?_⟩
      rw [if_neg hidle]
      split at h
      · cases h
      · next hfree =>
        dsimp only
        rw [if_neg hfree]
        split at h
        · cases h
        · dsimp only at h ⊢
          split at h
          · cases h
          · next htargets =>
            cases h
            rw [if_neg htargets]
            exact AList.lookup_insert _

theorem sound_of_reach {endpointKey : String}
    (h : (containersPage endpointKey).Reach (fun _ _ => True) s) : s.Sound := by
  refine h.invariant ?_ ?_
  · rintro _ rfl
    exact (consistent_new endpointKey).toSound
  · rintro s call t hsound - hstep
    cases hstep
    exact (hsound.after call).1

/-- **The group operations that can be finished**: after a group operation has begun and
whatever else was called, its own finish takes it away exactly when its group is then in
the list, under the endpoint of the page and with a container of its project. -/
theorem finish_group_operation_iff {endpointKey opaqueId : String} {s t : ContainersState}
    {operation : GroupOperationState} {generation : UInt64} {targets : List String}
    {calls : List ContainersCall} {result : GroupOperationResult}
    (hreach : (containersPage endpointKey).Reach (fun _ _ => True) s)
    (hbegin : (s.beginGroupOperation opaqueId operation).1 = some (generation, targets))
    (hother : ∀ call ∈ calls, ∀ result, call = .finishGroupOperation opaqueId generation result →
      result.operation ≠ operation)
    (hrun : (containersPage endpointKey).exec (s.beginGroupOperation opaqueId operation).2 calls =
      some t)
    (hresult : result.operation = operation) :
    ∃ groupId, opaqueGroupId groupId = opaqueId ∧
      (groupId ∉ (t.finishGroupOperation opaqueId generation result).2.groupOperations ↔
        groupId.endpointKey = t.endpointKey ∧
          ∃ c ∈ t.sourceRows, c.project = some groupId.projectName) := by
  obtain ⟨groupId, rfl, hbegun⟩ := begun_of_beginGroupOperation hbegin
  refine ⟨groupId, rfl, ?_⟩
  have hsound : (s.beginGroupOperation (opaqueGroupId groupId) operation).2.Sound :=
    ((sound_of_reach hreach).keeps_beginGroupOperation _ _).1
  obtain ⟨hsound, hentry⟩ := Machine.exec_invariant
    (I := fun t => t.Sound ∧ t.groupOperations.lookup groupId = some (generation, operation))
    (fun t call t' hi hok hstep => by
      cases hstep
      exact ⟨(hi.1.after call).1, lookup_after hi.2 call hok⟩)
    hother hrun ⟨hsound, hbegun⟩
  rw [← names_group_iff hsound.groups]
  unfold finishGroupOperation
  constructor
  · intro hgone
    cases hgroup : t.groupIdFromOpaque (opaqueGroupId groupId) with
    | none =>
      rw [hgroup] at hgone
      exact absurd (AList.lookup_isSome.mp (by rw [hentry]; rfl)) hgone
    | some found =>
      obtain ⟨hid, hnames⟩ := groupIdFromOpaque_eq_some.mp hgroup
      exact opaqueGroupId_injective hid ▸ hnames
  · intro hnames
    rw [groupIdFromOpaque_eq_some.mpr ⟨rfl, hnames⟩]
    dsimp only
    rw [if_neg (not_not_intro (hresult ▸ hentry))]
    show groupId ∉ t.groupOperations.erase groupId
    rw [AList.mem_erase]
    exact fun h => h.1 rfl

/-- The containers of a project are stopped; before that is finished, a refresh finds one more
of them, and another project. -/
theorem finished_in_the_list :
    let page := ((new "local").beginRefresh.2.applyLive 1 [inProject "shop" "a"]).2
    let begun := (page.beginGroupOperation "5:localshop" .stopping).2
    let listed := (begun.beginRefresh.2.applyLive 2
      [inProject "shop" "a", inProject "shop" "b", inProject "blog" "c"]).2
    ∃ groupId, opaqueGroupId groupId = "5:localshop" ∧
      (groupId ∉ (listed.finishGroupOperation "5:localshop" 1 ⟨.stopping, []⟩).2.groupOperations ↔
        groupId.endpointKey = listed.endpointKey ∧
          ∃ c ∈ listed.sourceRows, c.project = some groupId.projectName) := by
  intro page begun listed
  have hreach : (containersPage "local").Reach (fun _ _ => True) page :=
    .step (.step (.init rfl) trivial (a := .beginRefresh) rfl) trivial
      (a := .applyLive 1 [inProject "shop" "a"]) rfl
  have hbegin : (page.beginGroupOperation "5:localshop" .stopping).1 = some (1, ["a"]) := by
    decide +kernel
  let calls : List ContainersCall := [.beginRefresh,
    .applyLive 2 [inProject "shop" "a", inProject "shop" "b", inProject "blog" "c"]]
  have hother : ∀ call ∈ calls, ∀ result,
      call = .finishGroupOperation "5:localshop" 1 result → result.operation ≠ .stopping := by
    intro call hcall result hfinish
    rcases List.mem_pair.mp hcall with rfl | rfl
    · cases hfinish
    · cases hfinish
  exact finish_group_operation_iff hreach hbegin hother rfl rfl

/-- The list is refreshed when the containers of a project are gone, before their removal
is finished; once the project is back, every operation on it is refused. -/
theorem removing_is_never_finished :
    let page := ((new "local").beginRefresh.2.applyLive 1 [inProject "shop" "a"]).2
    let begun := page.beginGroupOperation "5:localshop" .removing
    let finished := (begun.2.beginRefresh.2.applyLive 2 []).2.finishGroupOperation "5:localshop" 1
      ⟨.removing, [⟨"a", "a", true, ""⟩]⟩
    begun.1 = some (1, ["a"]) ∧ finished.1 = false ∧
      ⟨"local", "shop"⟩ ∈ finished.2.groupOperations ∧
      ((finished.2.beginRefresh.2.applyLive 3 [inProject "shop" "a"]).2.beginGroupOperation
        "5:localshop" .stopping).1 = none := by
  decide +kernel

end ContainersState

end TuxStack.Gui
