import TuxStack.Gui.Compose

/-!
# Rows and views of the Containers page

The flattened list of `rebuild_visible` and the views of the Info panel
(`crates/gui/src/controllers/containers.rs` and `crates/gui/src/models/container_model.rs`).
A row is made from the groups, the containers and what the page knows about them: the
search, the sort mode, the expanded groups, the selection and the running operations.
-/

namespace TuxStack.Gui

/-! ## Names of things -/

def opaqueGroupId (groupId : ContainerGroupId) : String :=
  toString groupId.endpointKey.utf8ByteSize ++ ":" ++ groupId.endpointKey ++ groupId.projectName

theorem colon_notMem_toDigits (n : Nat) : ':' ∉ Nat.toDigits 10 n := by
  intro h
  have hdigit := Nat.isDigit_of_mem_toDigits (by decide) (by decide) h
  exact absurd hdigit (by decide)

theorem eq_of_append_colon {xs xs' ys ys' : List Char} (hxs : ':' ∉ xs) (hxs' : ':' ∉ xs')
    (h : xs ++ ':' :: ys = xs' ++ ':' :: ys') : xs = xs' ∧ ys = ys' := by
  have hfront : ∀ {zs : List Char} (ws : List Char), ':' ∉ zs →
      (zs ++ ':' :: ws).takeWhile (· ≠ ':') = zs := by
    intro zs ws hzs
    rw [List.takeWhile_append_of_pos]
    · simp
    · intro c hc
      simp only [decide_eq_true_eq]
      rintro rfl
      exact hzs hc
  have hsame : xs = xs' := by
    rw [← hfront ys hxs, h, hfront ys' hxs']
  subst hsame
  exact ⟨rfl, (List.cons.inj (List.append_cancel_left h)).2⟩

/-- **The length in front keeps the names of groups apart**: the endpoint ends where its
length says. -/
theorem opaqueGroupId_injective {a b : ContainerGroupId} (h : opaqueGroupId a = opaqueGroupId b) :
    a = b := by
  obtain ⟨endpoint, project⟩ := a
  obtain ⟨endpoint', project'⟩ := b
  have hchars : Nat.toDigits 10 endpoint.utf8ByteSize ++ ':' ::
      (endpoint.toList ++ project.toList) = Nat.toDigits 10 endpoint'.utf8ByteSize ++ ':' ::
      (endpoint'.toList ++ project'.toList) := by
    have hlist := congrArg String.toList h
    simpa [opaqueGroupId, Nat.toString_eq_repr, Nat.toList_repr] using hlist
  obtain ⟨hdigits, htexts⟩ :=
    eq_of_append_colon (colon_notMem_toDigits _) (colon_notMem_toDigits _) hchars
  have hsize : endpoint.utf8ByteSize = endpoint'.utf8ByteSize := by
    rw [← Nat.ofDigitChars_ten_toDigits (n := endpoint.utf8ByteSize), hdigits,
      Nat.ofDigitChars_ten_toDigits]
  have hends : ∀ {front back rest : List Char},
      front = back ++ rest → (String.ofList front).utf8ByteSize =
      (String.ofList back).utf8ByteSize →
        rest = [] := by
    rintro front back rest rfl hbytes
    rw [String.ofList_append, String.utf8ByteSize_append] at hbytes
    have hzero : (String.ofList rest).utf8ByteSize = 0 := by omega
    rw [String.utf8ByteSize_eq_zero_iff] at hzero
    simpa using congrArg String.toList hzero
  have hendpoint : endpoint.toList = endpoint'.toList := by
    rcases List.append_eq_append_iff.mp htexts with ⟨rest, hrest, -⟩ | ⟨rest, hrest, -⟩
    · have hnil := hends hrest (by simpa using hsize.symm)
      rw [hrest, hnil, List.append_nil]
    · have hnil := hends hrest (by simpa using hsize)
      rw [hrest, hnil, List.append_nil]
  rw [hendpoint] at htexts
  have hproject := List.append_cancel_left htexts
  rw [String.toList_inj.mp hendpoint, String.toList_inj.mp hproject]

inductive ContainerOperationState where
  | idle
  | starting
  | stopping
  | restarting
  | killing
  | pausing
  | unpausing
  | removing
  | renaming
deriving DecidableEq

def operationName : ContainerOperationState → String
  | .idle => ""
  | .starting => "starting"
  | .stopping => "stopping"
  | .restarting => "restarting"
  | .killing => "killing"
  | .pausing => "pausing"
  | .unpausing => "unpausing"
  | .removing => "removing"
  | .renaming => "renaming"

def groupOperationName : GroupOperationState → String
  | .idle => ""
  | .starting => "starting"
  | .stopping => "stopping"
  | .restarting => "restarting"
  | .pausing => "pausing"
  | .unpausing => "unpausing"
  | .removing => "removing"

namespace ContainerSection

def asStr : ContainerSection → String
  | running => "running"
  | paused => "paused"
  | restarting => "restarting"
  | stopped => "stopped"

def title : ContainerSection → String
  | running => "Running"
  | paused => "Paused"
  | restarting => "Restarting"
  | stopped => "Stopped"

def fromState : ContainerRuntimeState → ContainerSection
  | .running => running
  | .paused => paused
  | .restarting => restarting
  | _ => stopped

end ContainerSection

def healthName (summary : ContainerSummary) : String :=
  match summary.healthSummary with
  | some .starting => "starting"
  | some .healthy => "healthy"
  | some .unhealthy => "unhealthy"
  | none => ""

/-! ## Rows -/

inductive ContainerRowKind where
  | sectionHeader
  | group
  | containerChild
  | individual
deriving DecidableEq

structure ContainerListRow where
  rowKind : ContainerRowKind
  id : String
  name : String
  image : String := ""
  state : String
  status : String
  rowSection : ContainerSection
  groupId : String := ""
  groupTotalCount : Nat := 0
  groupRunningCount : Nat := 0
  groupPausedCount : Nat := 0
  groupStoppedCount : Nat := 0
  depth : Nat := 0
  expanded : Bool := false
  selected : Bool := false
  operation : String := ""
  health : String := ""
  ports : String := ""
deriving DecidableEq

namespace ContainerListRow

def sectionHeader (rowSection : ContainerSection) (count : Nat) : ContainerListRow where
  rowKind := .sectionHeader
  id := rowSection.asStr
  name := rowSection.title
  state := rowSection.asStr
  status := toString count
  rowSection
  groupTotalCount := count

def group (group : ContainerGroupSummary) (groupId : String) (expanded selected : Bool)
    (operation : String) : ContainerListRow where
  rowKind := .group
  id := groupId
  name := group.displayName
  state := group.groupSection.asStr
  status := toString group.runningCount ++ " / " ++ toString group.totalCount ++ " running"
  rowSection := group.groupSection
  groupId
  groupTotalCount := group.totalCount
  groupRunningCount := group.runningCount
  groupPausedCount := group.pausedCount
  groupStoppedCount := group.stoppedCount
  expanded
  selected
  operation
  health :=
    if group.unhealthyCount > 0 then toString group.unhealthyCount ++ " unhealthy" else ""

def container (summary : ContainerSummary) (kind : ContainerRowKind)
    (rowSection : ContainerSection) (groupId : String) (selected : Bool)
    (operation : ContainerOperationState) : ContainerListRow where
  rowKind := kind
  id := summary.id
  name := summary.name
  image := summary.image
  state := summary.state.asStr
  status := summary.status
  rowSection
  groupId
  depth := if kind = .containerChild then 1 else 0
  selected
  operation := operationName operation
  health := healthName summary
  ports := String.intercalate ", " (summary.ports.map (·.display))

def selectable (row : ContainerListRow) : Bool := row.rowKind ≠ .sectionHeader

end ContainerListRow

/-! ## Views of the Info panel -/

structure PropertyViewRow where
  key : String
  value : String
deriving DecidableEq

def property (key value : String) : PropertyViewRow := ⟨key, if value = "" then "—" else value⟩

structure EnvironmentViewRow where
  key : String
  value : String
  revealed : Bool
deriving DecidableEq

/-- `ContainerDetail` as far as the page looks at it. -/
structure ContainerDetail where
  summary : ContainerSummary
  environment : List (String × Option String)

/-- `ContainerDetailView` without its tables of properties. -/
structure ContainerDetailView where
  name : String
  id : String
  shortId : String
  image : String
  imageId : String
  stateName : String
  composeProject : String
  environment : List EnvironmentViewRow
deriving DecidableEq

namespace ContainerDetailView

def fromDetail (detail : ContainerDetail) : ContainerDetailView where
  name := detail.summary.name
  id := detail.summary.id
  shortId := detail.summary.shortId
  image := detail.summary.image
  imageId := detail.summary.imageId
  stateName := detail.summary.state.asStr
  composeProject := detail.summary.project.getD ""
  environment :=
    (detail.environment.map fun entry => ⟨entry.1, entry.2.getD "", false⟩).mergeSort
      fun a b => (compare (asciiLowercase a.key) (asciiLowercase b.key)).isLE

/-- `reveal_environment` and `conceal_environment`. -/
def setRevealed (view : ContainerDetailView) (index : Nat) (revealed : Bool) :
    Bool × ContainerDetailView :=
  match view.environment[index]? with
  | none => (false, view)
  | some row =>
    if row.revealed = revealed then (false, view)
    else (true, { view with environment := view.environment.set index { row with revealed } })

end ContainerDetailView

structure GroupMemberViewRow where
  id : String
  name : String
  service : String
  state : String
  image : String
deriving DecidableEq

structure ContainerGroupDetailView where
  id : String
  projectName : String
  status : String
  workingDirectory : String
  composeFiles : String
  composeVersion : String
  members : List GroupMemberViewRow
  metadata : List PropertyViewRow
deriving DecidableEq

/-- The container that a map collected from the list has under an id: the last one. -/
def summaryById (summaries : List ContainerSummary) (id : String) : Option ContainerSummary :=
  summaries.reverse.find? (·.id = id)

def ContainerGroupDetailView.fromGroup (id : String) (group : ContainerGroupSummary)
    (summaries : List ContainerSummary) : ContainerGroupDetailView :=
  let status := toString group.runningCount ++ " / " ++ toString group.totalCount ++ " running"
  { id
    projectName := group.projectName
    status
    workingDirectory := group.workingDirectory.getD ""
    composeFiles := String.intercalate "\n" group.configFiles
    composeVersion := group.composeVersion.getD ""
    members := (group.containers.filterMap (summaryById summaries)).map fun summary =>
      { id := summary.id
        name := summary.name
        service := (summary.composeMetadata.map (·.service)).getD ""
        state := summary.state.asStr
        image := summary.image }
    metadata :=
      [property "Project Name" group.projectName, property "Status" status,
        property "Containers" (toString group.totalCount),
        property "Unhealthy" (toString group.unhealthyCount),
        property "Dev Containers" (toString group.devcontainerCount)] }

end TuxStack.Gui
