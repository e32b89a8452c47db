import Mathlib.Data.List.Destutter
import TuxStack.Gui.Text

/-!
# Containers and their Compose groups

`ContainerSummary` and its search (`crates/tuxstack-domain/src/container.rs`), and
`group_compose_containers` (`compose.rs`): the containers with a project label, grouped by
it. A group depends on its members only, so a removal elsewhere leaves it as it is
(`membersOf_filter`).
-/

namespace TuxStack.Gui

/-! ## Containers -/

inductive ContainerRuntimeState where
  | created
  | running
  | paused
  | restarting
  | removing
  | exited
  | dead
  | unknown
deriving DecidableEq

namespace ContainerRuntimeState

def asStr : ContainerRuntimeState → String
  | created => "created"
  | running => "running"
  | paused => "paused"
  | restarting => "restarting"
  | removing => "removing"
  | exited => "exited"
  | dead => "dead"
  | unknown => "unknown"

def isActive (state : ContainerRuntimeState) : Bool :=
  state = running ∨ state = paused ∨ state = restarting

def isStopped (state : ContainerRuntimeState) : Bool :=
  state = created ∨ state = exited ∨ state = dead ∨ state = unknown

end ContainerRuntimeState

structure PortBinding where
  hostIp : Option String
  hostPort : Option UInt16
  containerPort : UInt16
  protocol : String
deriving DecidableEq

def PortBinding.display (port : PortBinding) : String :=
  let host := match port.hostIp, port.hostPort with
    | some ip, some hostPort => ip ++ ":" ++ toString hostPort
    | none, some hostPort => toString hostPort
    | _, _ => ""
  let container := toString port.containerPort ++ "/" ++ port.protocol
  if host = "" then container else host ++ "->" ++ container

/-- `ContainerSummary`; the time of creation is in units since the epoch, and a label
occurs once. -/
structure ContainerSummary where
  id : String
  shortId : String
  name : String
  image : String
  imageId : String
  state : ContainerRuntimeState
  status : String
  createdAt : Int
  ports : List PortBinding
  labels : List (String × String)
deriving DecidableEq

/-- `str::to_ascii_lowercase`. -/
def asciiLowercase (text : String) : String := String.ofList (text.toList.map Char.toLower)

/-- The texts of a page, as far as they are ASCII and the sizes below a kilobyte. -/
abbrev asciiTexts : PageText := ⟨asciiLowercase, fun bytes => toString bytes ++ " B"⟩

inductive ContainerHealthState where
  | starting
  | healthy
  | unhealthy
deriving DecidableEq

def ContainerSummary.healthSummary (container : ContainerSummary) : Option ContainerHealthState :=
  let lower := asciiLowercase container.status
  if contains lower "(unhealthy)" then some .unhealthy
  else if contains lower "(healthy)" then some .healthy
  else if contains lower "health: starting" || contains lower "(health: starting)" then
    some .starting
  else none

/-! ## Compose labels -/

/-- `ComposeContainerMetadata`; a path is its text. -/
structure ComposeContainerMetadata where
  projectName : String
  service : String
  containerNumber : Option Nat
  workingDirectory : Option String
  configFiles : List String
  composeVersion : Option String
  oneoff : Bool
  devcontainerLocalFolder : Option String
  devcontainerConfigFile : Option String

def nonempty (value : Option String) : Option String := (value.map trim).filter (· ≠ "")

/-- `u32::from_str`. -/
def parseU32 (value : String) : Option Nat := parseUnsigned 32 value

def splitConfigFiles (value : String) : List String :=
  ((value.toList.splitOn ',').map fun piece => trim (String.ofList piece)).filter (· ≠ "")

def ComposeContainerMetadata.fromLabels (labels : List (String × String)) :
    Option ComposeContainerMetadata := do
  let label := fun key => labels.lookup key
  let projectName ← nonempty (label "com.docker.compose.project")
  return {
    projectName
    service := ((label "com.docker.compose.service").map trim).getD ""
    containerNumber := (label "com.docker.compose.container-number").bind parseU32
    workingDirectory := nonempty (label "com.docker.compose.project.working_dir")
    configFiles :=
      ((label "com.docker.compose.project.config_files").map splitConfigFiles).getD []
    composeVersion := nonempty (label "com.docker.compose.version")
    oneoff := (label "com.docker.compose.oneoff").any fun value =>
      asciiLowercase value ∈ ["true", "1", "yes"]
    devcontainerLocalFolder := nonempty (label "devcontainer.local_folder")
    devcontainerConfigFile := nonempty (label "devcontainer.config_file") }

def ComposeContainerMetadata.isDevcontainer (metadata : ComposeContainerMetadata) : Bool :=
  metadata.devcontainerLocalFolder.isSome || metadata.devcontainerConfigFile.isSome

def ContainerSummary.composeMetadata (container : ContainerSummary) :
    Option ComposeContainerMetadata :=
  ComposeContainerMetadata.fromLabels container.labels

def ContainerSummary.project (container : ContainerSummary) : Option String :=
  container.composeMetadata.map (·.projectName)

def containerMatchesSearch (container : ContainerSummary) (query : String) : Bool :=
  let query := asciiLowercase (trim query)
  let found := fun text => contains (asciiLowercase text) query
  let compose := container.composeMetadata
  query = "" ||
    [container.name, container.id, container.shortId, container.image, container.imageId,
      container.state.asStr, (compose.map (·.projectName)).getD "",
      (compose.map (·.service)).getD ""].any found ||
    container.ports.any (fun port => found port.display) ||
    container.labels.any fun label => found label.1 || found label.2

/-! ## Paths of Compose files -/

/-- The components of a path in the order that `Path` gives them: the root, a leading `.`,
`..`, names. -/
def pathComponents (path : String) : List (Nat × String) :=
  let pieces := (path.toList.splitOn '/').map String.ofList
  let root := if path.toList.head? = some '/' then [(0, "")] else []
  root ++ pieces.zipIdx.filterMap fun (piece, i) =>
    if piece = "" then none
    else if piece = "." then if i = 0 then some (1, "") else none
    else if piece = ".." then some (2, "")
    else some (3, piece)

/-- `Ord for Path`. -/
def comparePaths (left right : String) : Ordering :=
  List.compareLex (fun a b => (compare a.1 b.1).then (compare a.2 b.2)) (pathComponents left)
    (pathComponents right)

/-- How often each value occurs; equal values are shown as the first of them. -/
def countValues {α : Type} (order : α → α → Ordering) : List (α × Nat) → α → List (α × Nat)
  | [], value => [(value, 1)]
  | (first, n) :: counts, value =>
    if order first value = .eq then (first, n + 1) :: counts
    else (first, n) :: countValues order counts value

/-- `most_common`: of the values that occur most often, the least. -/
def mostCommon {α : Type} (order : α → α → Ordering) (values : List α) : Option α :=
  let better := fun (best : Option (α × Nat)) (next : α × Nat) =>
    match best with
    | none => some next
    | some best =>
      if (compare best.2 next.2).then (order next.1 best.1) = .gt then some best else some next
  ((values.foldl (countValues order) []).foldl better none).map Prod.fst

/-! ## Groups -/

structure ContainerGroupId where
  endpointKey : String
  projectName : String
deriving DecidableEq

inductive GroupOperationState where
  | idle
  | starting
  | stopping
  | restarting
  | pausing
  | unpausing
  | removing
deriving DecidableEq

inductive ContainerSection where
  | running
  | paused
  | restarting
  | stopped
deriving DecidableEq

structure ContainerGroupSummary where
  id : ContainerGroupId
  projectName : String
  displayName : String
  containers : List String
  totalCount : Nat
  runningCount : Nat
  pausedCount : Nat
  restartingCount : Nat
  stoppedCount : Nat
  unhealthyCount : Nat
  oneoffCount : Nat
  devcontainerCount : Nat
  workingDirectory : Option String
  configFiles : List String
  composeVersion : Option String
  operationState : GroupOperationState
deriving DecidableEq

def ContainerGroupSummary.groupSection (group : ContainerGroupSummary) : ContainerSection :=
  if group.restartingCount > 0 then .restarting
  else if group.runningCount > 0 then .running
  else if group.pausedCount > 0 then .paused
  else .stopped

abbrev GroupMember : Type := ContainerSummary × ComposeContainerMetadata

/-- `Ord for Option`. -/
def compareNumbers : Option Nat → Option Nat → Ordering
  | none, none => .eq
  | none, some _ => .lt
  | some _, none => .gt
  | some m, some n => compare m n

def compareMembers (a b : GroupMember) : Ordering :=
  (compare (asciiLowercase a.2.service) (asciiLowercase b.2.service)).then <|
    (compareNumbers a.2.containerNumber b.2.containerNumber).then <|
      (compare (asciiLowercase a.1.name) (asciiLowercase b.1.name)).then (compare a.1.id b.1.id)

def membersOf (containers : List ContainerSummary) (projectName : String) : List GroupMember :=
  containers.filterMap fun container =>
    container.composeMetadata.bind fun metadata =>
      if metadata.projectName = projectName then some (container, metadata) else none

def composeGroup (endpointKey projectName : String) (members : List GroupMember) :
    ContainerGroupSummary :=
  let members := members.mergeSort fun a b => (compareMembers a b).isLE
  let inState := fun state => members.countP fun m => m.1.state = state
  { id := ⟨endpointKey, projectName⟩
    projectName
    displayName := projectName
    containers := members.map (·.1.id)
    totalCount := members.length
    runningCount := inState .running
    pausedCount := inState .paused
    restartingCount := inState .restarting
    stoppedCount := members.length - inState .running - inState .paused - inState .restarting
    unhealthyCount := members.countP fun m => m.1.healthSummary = some .unhealthy
    oneoffCount := members.countP (·.2.oneoff)
    devcontainerCount := members.countP (·.2.isDevcontainer)
    workingDirectory := mostCommon comparePaths (members.filterMap (·.2.workingDirectory))
    configFiles :=
      ((members.flatMap (·.2.configFiles)).mergeSort fun a b =>
        (comparePaths a b).isLE).destutter fun a b => comparePaths a b ≠ .eq
    composeVersion := mostCommon compare (members.filterMap (·.2.composeVersion))
    operationState := .idle }

def projectNames (containers : List ContainerSummary) : List String :=
  (containers.filterMap (·.project)).dedup.mergeSort fun a b => (compare a b).isLE

def groupComposeContainers (endpointKey : String) (containers : List ContainerSummary) :
    List ContainerGroupSummary :=
  (projectNames containers).map fun projectName =>
    composeGroup endpointKey projectName (membersOf containers projectName)

variable {endpointKey projectName : String} {containers : List ContainerSummary}

theorem mem_projectNames :
    projectName ∈ projectNames containers ↔ ∃ c ∈ containers, c.project = some projectName := by
  unfold projectNames
  rw [List.mem_mergeSort, List.mem_dedup, List.mem_filterMap]

@[simp] theorem groupComposeContainers_nil : groupComposeContainers endpointKey [] = [] := by
  simp [groupComposeContainers, projectNames]

theorem mem_membersOf {member : GroupMember} : member ∈ membersOf containers projectName ↔
    member.1 ∈ containers ∧ member.1.composeMetadata = some member.2 ∧
      member.2.projectName = projectName := by
  unfold membersOf
  rw [List.mem_filterMap]
  constructor
  · rintro ⟨container, hmem, h⟩
    obtain ⟨metadata, hmetadata, h⟩ := Option.bind_eq_some_iff.mp h
    split at h
    · next hname =>
      cases h
      exact ⟨hmem, hmetadata, hname⟩
    · cases h
  · rintro ⟨hmem, hmetadata, hname⟩
    exact ⟨member.1, hmem, by rw [hmetadata, Option.bind_some, if_pos hname]⟩

theorem membersOf_filter {keep : ContainerSummary → Bool}
    (h : ∀ c ∈ containers, c.project = some projectName → keep c = true) :
    membersOf (containers.filter keep) projectName = membersOf containers projectName := by
  unfold membersOf
  rw [List.filterMap_filter]
  refine List.filterMap_congr fun container hmem => ?_
  by_cases hkeep : keep container = true
  · rw [if_pos hkeep]
  · rw [if_neg hkeep]
    cases hmetadata : container.composeMetadata with
    | none => rfl
    | some metadata =>
      rw [Option.bind_some, if_neg]
      intro hname
      refine hkeep (h container hmem ?_)
      unfold ContainerSummary.project
      rw [hmetadata, Option.map_some, hname]

theorem mem_containers_composeGroup {id : String} :
    id ∈ (composeGroup endpointKey projectName (membersOf containers projectName)).containers ↔
      ∃ c ∈ containers, c.project = some projectName ∧ c.id = id := by
  show id ∈ ((membersOf containers projectName).mergeSort _).map (·.1.id) ↔ _
  simp only [List.mem_map, List.mem_mergeSort]
  constructor
  · rintro ⟨member, hmember, rfl⟩
    obtain ⟨hmem, hmetadata, hname⟩ := mem_membersOf.mp hmember
    refine ⟨member.1, hmem, ?_, rfl⟩
    rw [ContainerSummary.project, hmetadata, Option.map_some, hname]
  · rintro ⟨container, hmem, hproject, rfl⟩
    obtain ⟨metadata, hmetadata, hname⟩ := Option.map_eq_some_iff.mp hproject
    exact ⟨(container, metadata), mem_membersOf.mpr ⟨hmem, hmetadata, hname⟩, rfl⟩

theorem find_map_of_id {group : String → ContainerGroupSummary}
    (hid : ∀ name, (group name).id = ⟨endpointKey, name⟩) (groupId : ContainerGroupId)
    (names : List String) :
    (names.map group).find? (·.id = groupId) =
      if groupId.endpointKey = endpointKey ∧ groupId.projectName ∈ names then
        some (group groupId.projectName)
      else none := by
  induction names with
  | nil => simp
  | cons name names ih =>
    rw [List.map_cons, List.find?_cons, hid]
    by_cases h : (⟨endpointKey, name⟩ : ContainerGroupId) = groupId
    · subst h
      simp
    · rw [decide_eq_false h, ih]
      dsimp only
      congr 1
      rw [List.mem_cons]
      refine propext ⟨fun h => ⟨h.1, .inr h.2⟩, ?_⟩
      rintro ⟨rfl, rfl | hmem⟩
      · exact absurd rfl h
      · exact ⟨rfl, hmem⟩

/-- **The groups by their ids**: a group is there when its project has a container. -/
theorem find_groupComposeContainers (groupId : ContainerGroupId) :
    (groupComposeContainers endpointKey containers).find? (·.id = groupId) =
      if groupId.endpointKey = endpointKey ∧ groupId.projectName ∈ projectNames containers then
        some (composeGroup endpointKey groupId.projectName
          (membersOf containers groupId.projectName))
      else none :=
  find_map_of_id (fun _ => rfl) groupId _

end TuxStack.Gui
