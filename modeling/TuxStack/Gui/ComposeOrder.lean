import TuxStack.Docker.ImageList
import TuxStack.Lib.SortedKeys
import TuxStack.Lib.Votes

/-!
# The order of Compose groups

`group_compose_containers` (`crates/tuxstack-domain/src/compose.rs`) with the hash maps in
which `most_common` counts its values, visited in any order. Neither that order nor the one
of the list of containers is in the groups, when the containers have distinct ids
(`composeGroups_sound`).
-/

namespace TuxStack.Gui

open Std Votes
open Docker (IterationOrder)

/-! ## Groups, with the orders of the maps -/

/-- The orders in which the two hash maps of each project are visited. -/
structure MapOrders where
  directories : String → IterationOrder (String × Nat)
  versions : String → IterationOrder (String × Nat)

/-- `most_common`, when the map of counts is visited in an order. -/
def mostCommonIn {α : Type} (cmp : α → α → Ordering) (order : IterationOrder (α × Nat))
    (values : List α) : Option α :=
  (maxBy (rank cmp) (order.visit (values.foldl (countValues cmp) []))).map Prod.fst

def composeGroupIn (orders : MapOrders) (endpointKey projectName : String)
    (members : List GroupMember) : ContainerGroupSummary :=
  let sorted := members.mergeSort fun a b => (compareMembers a b).isLE
  { composeGroup endpointKey projectName members with
    workingDirectory := mostCommonIn comparePaths (orders.directories projectName)
      (sorted.filterMap (·.2.workingDirectory))
    composeVersion := mostCommonIn compare (orders.versions projectName)
      (sorted.filterMap (·.2.composeVersion)) }

def groupComposeContainersIn (orders : MapOrders) (endpointKey : String)
    (containers : List ContainerSummary) : List ContainerGroupSummary :=
  (projectNames containers).map fun projectName =>
    composeGroupIn orders endpointKey projectName (membersOf containers projectName)

/-! ## The comparisons -/

def compareComponents (a b : Nat × String) : Ordering := (compare a.1 b.1).then (compare a.2 b.2)

instance : TransCmp compareComponents :=
  inferInstanceAs (TransCmp (compareLex (compareOn Prod.fst) (compareOn Prod.snd)))

theorem comparePaths_eq (a b : String) : comparePaths a b =
    List.compareLex compareComponents (pathComponents a) (pathComponents b) := rfl

instance : TransCmp comparePaths where
  eq_swap {a b} := by
    rw [comparePaths_eq, comparePaths_eq]
    exact OrientedCmp.eq_swap
  isLE_trans {a b c} hab hbc := by
    rw [comparePaths_eq] at *
    exact TransCmp.isLE_trans hab hbc

/-- A number for every `Option`, in the same order. -/
def numberKey (number : Option Nat) : Nat := (number.map (· + 1)).getD 0

theorem compareNumbers_eq (a b : Option Nat) :
    compareNumbers a b = compare (numberKey a) (numberKey b) := by
  cases a with
  | none =>
    cases b with
    | none => rfl
    | some n => exact (Nat.compare_eq_lt.mpr (Nat.succ_pos n)).symm
  | some m =>
    cases b with
    | none => exact (Nat.compare_eq_gt.mpr (Nat.succ_pos m)).symm
    | some n =>
      show compare m n = compare (m + 1) (n + 1)
      simp only [Nat.compare_eq_ite_lt, Nat.add_lt_add_iff_right]

theorem compareMembers_eq : compareMembers =
    compareLex (compareOn fun m : GroupMember => asciiLowercase m.2.service)
      (compareLex (compareOn fun m : GroupMember => numberKey m.2.containerNumber)
        (compareLex (compareOn fun m : GroupMember => asciiLowercase m.1.name)
          (compareOn fun m : GroupMember => m.1.id))) := by
  funext a b
  unfold compareMembers
  rw [compareNumbers_eq]
  rfl

instance : TransCmp compareMembers := by
  rw [compareMembers_eq]
  infer_instance

theorem memberLe_total (a b : GroupMember) :
    ((compareMembers a b).isLE || (compareMembers b a).isLE) = true := by
  have hswap : compareMembers b a = (compareMembers a b).swap := OrientedCmp.eq_swap
  rw [hswap]
  cases compareMembers a b <;> rfl

theorem id_eq_of_compareMembers {a b : GroupMember} (h : compareMembers a b = .eq) :
    a.1.id = b.1.id := by
  unfold compareMembers at h
  rw [Ordering.then_eq_eq, Ordering.then_eq_eq, Ordering.then_eq_eq] at h
  exact LawfulEqOrd.eq_of_compare h.2.2.2

/-! ## Counting -/

section Counting

variable {α : Type} (cmp : α → α → Ordering)

/-- One value counted: the entry for it has one vote more, or there is a new entry. -/
theorem countValues_cases (counts : List (α × Nat)) (v : α) :
    (∃ front e back, counts = front ++ e :: back ∧ cmp e.1 v = .eq ∧
      countValues cmp counts v = front ++ (e.1, e.2 + 1) :: back) ∨
    (∀ e ∈ counts, cmp e.1 v ≠ .eq) ∧ countValues cmp counts v = counts ++ [(v, 1)] := by
  induction counts with
  | nil => exact .inr ⟨by simp, rfl⟩
  | cons e counts ih =>
    obtain ⟨first, n⟩ := e
    by_cases heq : cmp first v = .eq
    · exact .inl ⟨[], (first, n), counts, rfl, heq, by rw [countValues, if_pos heq]; rfl⟩
    · have hcons : countValues cmp ((first, n) :: counts) v =
          (first, n) :: countValues cmp counts v := by
        rw [countValues, if_neg heq]
      rw [hcons]
      rcases ih with ⟨front, e, back, rfl, he, hcount⟩ | ⟨hnone, hcount⟩
      · exact .inl ⟨(first, n) :: front, e, back, rfl, he, by rw [hcount]; rfl⟩
      · exact .inr ⟨List.forall_mem_cons.mpr ⟨heq, hnone⟩, by rw [hcount]; rfl⟩

variable [TransCmp cmp]

/-- **The map of counts** has one entry for each value, with its votes. -/
theorem tally_countValues (values : List α) :
    Tally cmp values (values.foldl (countValues cmp) []) := by
  induction values using List.reverseRecOn with
  | nil => exact ⟨List.Pairwise.nil, by simp, by simp, by simp⟩
  | append_singleton values v ih =>
    rw [List.foldl_append, List.foldl_cons, List.foldl_nil]
    rcases countValues_cases cmp (values.foldl (countValues cmp) []) v with
      ⟨front, e, back, hsplit, he, hcount⟩ | ⟨hnew, hcount⟩
    · rw [hcount]
      exact (hsplit ▸ ih).vote he
    · rw [hcount]
      exact ih.newValue hnew

variable {cmp}

theorem mostFrequent_mostCommonIn (order : IterationOrder (α × Nat)) (values : List α) :
    MostFrequent cmp values (mostCommonIn cmp order values) :=
  ((tally_countValues cmp values).perm (order.perm _).symm).mostFrequent

theorem mostCommonIn_eq (order : IterationOrder (α × Nat)) (values : List α) :
    mostCommonIn cmp order values = mostCommon cmp values := by
  unfold mostCommonIn mostCommon
  rw [(tally_countValues cmp values).maxBy_perm (order.perm _)]
  unfold maxBy
  congr 2
  funext best next
  cases best <;> rfl

end Counting

/-! ## The groups of any order -/

section Groups

variable {orders orders' : MapOrders} {endpointKey projectName : String}
  {containers other : List ContainerSummary}

/-- **The groups do not depend on the orders of the maps.** -/
theorem groupComposeContainersIn_eq (orders : MapOrders) (endpointKey : String)
    (containers : List ContainerSummary) :
    groupComposeContainersIn orders endpointKey containers =
      groupComposeContainers endpointKey containers := by
  unfold groupComposeContainersIn groupComposeContainers
  refine List.map_congr_left fun projectName _ => ?_
  unfold composeGroupIn
  dsimp only
  rw [mostCommonIn_eq, mostCommonIn_eq]
  rfl

theorem nodup_ids_membersOf (hids : (containers.map (·.id)).Nodup) (projectName : String) :
    ((membersOf containers projectName).map (·.1.id)).Nodup := by
  have hsub : ((membersOf containers projectName).map (·.1)).Sublist containers := by
    unfold membersOf
    induction containers with
    | nil => exact List.Sublist.refl []
    | cons container containers ih =>
      have ih := ih (List.nodup_cons.mp hids).2
      rw [List.filterMap_cons]
      split
      · exact ih.cons _
      · next member hmember =>
        obtain ⟨metadata, -, hmember⟩ := Option.bind_eq_some_iff.mp hmember
        split at hmember
        · cases hmember
          exact ih.cons_cons _
        · cases hmember
  have hmap := hsub.map (·.id)
  rw [List.map_map] at hmap
  exact hids.sublist hmap

def sortedMembers (containers : List ContainerSummary) (projectName : String) :
    List GroupMember :=
  (membersOf containers projectName).mergeSort fun a b => (compareMembers a b).isLE

/-- **The members are in the same order** whatever the order of the list. -/
theorem sortedMembers_perm (hids : (containers.map (·.id)).Nodup) (hperm : other.Perm containers)
    (projectName : String) :
    sortedMembers other projectName = sortedMembers containers projectName := by
  have htrans : ∀ a b c : GroupMember, (compareMembers a b).isLE → (compareMembers b c).isLE →
      (compareMembers a c).isLE :=
    fun _ _ _ hab hbc => TransCmp.isLE_trans hab hbc
  have hmembers : (membersOf other projectName).Perm (membersOf containers projectName) :=
    hperm.filterMap _
  refine ((List.mergeSort_perm ..).trans
    (hmembers.trans (List.mergeSort_perm ..).symm)).eq_of_pairwise
    ?_ (List.pairwise_mergeSort htrans memberLe_total _)
    (List.pairwise_mergeSort htrans memberLe_total _)
  intro a b ha hb hab hba
  have hid := id_eq_of_compareMembers (OrientedCmp.isLE_antisymm hab hba)
  have hnodup := nodup_ids_membersOf hids projectName
  exact List.inj_on_of_nodup_map hnodup (hmembers.mem_iff.mp (List.mem_mergeSort.mp ha))
    (List.mem_mergeSort.mp hb) hid

theorem projectNames_perm (hperm : other.Perm containers) :
    projectNames other = projectNames containers := by
  have hnames : ((other.filterMap (·.project)).dedup).Perm
    (containers.filterMap (·.project)).dedup :=
    (hperm.filterMap _).dedup
  have hsort := SortedKeys.pairwise_lt_sortByKey (l := (other.filterMap (·.project)).dedup) id
    (by rw [List.map_id]; exact List.nodup_dedup _)
  exact (SortedKeys.sortByKey_eq id
    ((SortedKeys.perm_sortByKey id _).trans hnames) hsort).symm

theorem composeGroup_congr {members members' : List GroupMember}
    (h : (members.mergeSort fun a b => (compareMembers a b).isLE) =
      members'.mergeSort fun a b => (compareMembers a b).isLE) :
    composeGroup endpointKey projectName members =
        composeGroup endpointKey projectName members' := by
  unfold composeGroup
  rw [h]

/-- **The groups do not depend on the order of the list.** -/
theorem groupComposeContainers_perm (hids : (containers.map (·.id)).Nodup)
    (hperm : other.Perm containers) (endpointKey : String) :
    groupComposeContainers endpointKey other = groupComposeContainers endpointKey containers := by
  unfold groupComposeContainers
  rw [projectNames_perm hperm]
  exact List.map_congr_left fun projectName _ =>
    composeGroup_congr (sortedMembers_perm hids hperm projectName)

/-- A container with a project label that is not blank. -/
def CarriesProject (container : ContainerSummary) : Prop :=
  ∃ value, container.labels.lookup "com.docker.compose.project" = some value ∧ trim value ≠ ""

theorem exists_project_iff {container : ContainerSummary} :
    (∃ projectName, container.project = some projectName) ↔ CarriesProject container := by
  have hproject : container.project =
      nonempty (container.labels.lookup "com.docker.compose.project") := by
    unfold ContainerSummary.project ContainerSummary.composeMetadata
      ComposeContainerMetadata.fromLabels
    dsimp only
    cases nonempty (container.labels.lookup "com.docker.compose.project") <;> rfl
  rw [hproject]
  unfold nonempty CarriesProject
  cases container.labels.lookup "com.docker.compose.project" with
  | none => simp
  | some value => simp [Option.filter_eq_some_iff]

structure GroupsSound (containers : List ContainerSummary) (groups : List ContainerGroupSummary) :
    Prop where
  sorted : groups.Pairwise fun a b => compare a.projectName b.projectName = .lt
  /-- no container is in two groups, or twice in one -/
  nodup : (groups.flatMap (·.containers)).Nodup
  /-- the containers with a project label, each in the group of its project -/
  mem : ∀ c ∈ containers, CarriesProject c →
    ∃ g ∈ groups, c.project = some g.projectName ∧ c.id ∈ g.containers
  mem_of_listed : ∀ g ∈ groups, ∀ id ∈ g.containers, ∃ c ∈ containers, c.id = id ∧
    CarriesProject c ∧ c.project = some g.projectName
  total : ∀ g ∈ groups, g.totalCount = g.containers.length
  counts : ∀ g ∈ groups,
    g.runningCount + g.pausedCount + g.restartingCount + g.stoppedCount = g.totalCount
  workingDirectory : ∀ g ∈ groups, MostFrequent comparePaths
    ((membersOf containers g.projectName).filterMap (·.2.workingDirectory)) g.workingDirectory
  composeVersion : ∀ g ∈ groups, MostFrequent compare
    ((membersOf containers g.projectName).filterMap (·.2.composeVersion)) g.composeVersion

theorem count_states_le (members : List GroupMember) :
    (members.countP fun m => m.1.state = .running) + (members.countP fun m => m.1.state = .paused) +
      (members.countP fun m => m.1.state = .restarting) ≤ members.length := by
  induction members with
  | nil => exact Nat.le_refl 0
  | cons m members ih =>
    simp only [List.countP_cons, List.length_cons, decide_eq_true_eq]
    cases m.1.state <;> simp <;> omega

theorem mem_groups_iff {g : ContainerGroupSummary} :
    g ∈ groupComposeContainersIn orders endpointKey containers ↔ ∃ projectName,
      projectName ∈ projectNames containers ∧
        composeGroupIn orders endpointKey projectName (membersOf containers projectName) = g :=
  List.mem_map

theorem eq_of_id_eq (hids : (containers.map (·.id)).Nodup) {a b : ContainerSummary}
    (ha : a ∈ containers) (hb : b ∈ containers) (h : a.id = b.id) : a = b :=
  List.inj_on_of_nodup_map hids ha hb h

theorem pairwise_projectNames (containers : List ContainerSummary) :
    (projectNames containers).Pairwise fun a b => compare a b = .lt :=
  SortedKeys.pairwise_lt_sortByKey id (by rw [List.map_id]; exact List.nodup_dedup _)

theorem nodup_containers (hids : (containers.map (·.id)).Nodup) (projectName : String) :
    (composeGroup endpointKey projectName
      (membersOf containers projectName)).containers.Nodup := by
  show ((sortedMembers containers projectName).map (·.1.id)).Nodup
  exact ((List.mergeSort_perm ..).map _).nodup_iff.mpr (nodup_ids_membersOf hids projectName)

/-- **No container is listed twice**, in one group or in two. -/
theorem nodup_flatMap_containers (hids : (containers.map (·.id)).Nodup) :
    ((groupComposeContainers endpointKey containers).flatMap (·.containers)).Nodup := by
  rw [List.nodup_flatMap]
  constructor
  · intro g hg
    obtain ⟨projectName, -, rfl⟩ := List.mem_map.mp hg
    exact nodup_containers hids projectName
  · unfold groupComposeContainers
    rw [List.pairwise_map]
    refine (pairwise_projectNames containers).imp fun {a b} hlt => ?_
    intro id ha hb
    obtain ⟨c, hc, hproject, hid⟩ := mem_containers_composeGroup.mp ha
    obtain ⟨d, hd, hproject', hid'⟩ := mem_containers_composeGroup.mp hb
    obtain rfl := eq_of_id_eq hids hc hd (hid.trans hid'.symm)
    rw [hproject] at hproject'
    cases hproject'
    rw [ReflOrd.compare_self] at hlt
    cases hlt

theorem mem_containers_composeGroupIn {id : String} :
    id ∈ (composeGroupIn orders endpointKey projectName
      (membersOf containers projectName)).containers ↔
        ∃ c ∈ containers, c.project = some projectName ∧ c.id = id := by
  show id ∈ (composeGroup endpointKey projectName
    (membersOf containers projectName)).containers ↔ _
  exact mem_containers_composeGroup

/-- **The groups of containers with distinct ids**, for any orders of the maps, are sound and
do not depend on those orders nor on that of the list. -/
theorem composeGroups_sound (hids : (containers.map (·.id)).Nodup) (orders : MapOrders)
    (endpointKey : String) :
    GroupsSound containers (groupComposeContainersIn orders endpointKey containers) ∧
      ∀ other orders', other.Perm containers →
        groupComposeContainersIn orders' endpointKey other =
          groupComposeContainersIn orders endpointKey containers := by
  refine ⟨?_, fun other orders' hperm => ?_⟩
  · constructor
    case sorted =>
      unfold groupComposeContainersIn
      rw [List.pairwise_map]
      exact pairwise_projectNames containers
    case nodup =>
      rw [groupComposeContainersIn_eq]
      exact nodup_flatMap_containers hids
    case mem =>
      intro c hc hcarries
      obtain ⟨projectName, hproject⟩ := exists_project_iff.mpr hcarries
      refine ⟨_, mem_groups_iff.mpr ⟨projectName, mem_projectNames.mpr ⟨c, hc, hproject⟩, rfl⟩,
        hproject, ?_⟩
      exact mem_containers_composeGroupIn.mpr ⟨c, hc, hproject, rfl⟩
    case mem_of_listed =>
      intro g hg id hid
      obtain ⟨projectName, -, rfl⟩ := mem_groups_iff.mp hg
      obtain ⟨c, hc, hproject, heq⟩ := mem_containers_composeGroupIn.mp hid
      exact ⟨c, hc, heq, exists_project_iff.mp ⟨projectName, hproject⟩, hproject⟩
    case total =>
      intro g hg
      obtain ⟨projectName, -, rfl⟩ := mem_groups_iff.mp hg
      exact (List.length_map _).symm
    case counts =>
      intro g hg
      obtain ⟨projectName, -, rfl⟩ := mem_groups_iff.mp hg
      have hle := count_states_le (sortedMembers containers projectName)
      -- the subtraction does not saturate, since `hle` bounds the three counts
      have hstopped : (composeGroupIn orders endpointKey projectName
          (membersOf containers projectName)).stoppedCount =
            (sortedMembers containers projectName).length -
              ((sortedMembers containers projectName).countP fun m => m.1.state = .running) -
                ((sortedMembers containers projectName).countP fun m => m.1.state = .paused) -
                  (sortedMembers containers projectName).countP fun m =>
                    m.1.state = .restarting := rfl
      rw [hstopped]
      show ((sortedMembers containers projectName).countP fun m => m.1.state = .running) +
        ((sortedMembers containers projectName).countP fun m => m.1.state = .paused) +
          ((sortedMembers containers projectName).countP fun m => m.1.state = .restarting) + _ =
            (sortedMembers containers projectName).length
      omega
    case workingDirectory =>
      intro g hg
      obtain ⟨projectName, -, rfl⟩ := mem_groups_iff.mp hg
      exact (mostFrequent_mostCommonIn _ _).perm ((List.mergeSort_perm ..).filterMap _)
    case composeVersion =>
      intro g hg
      obtain ⟨projectName, -, rfl⟩ := mem_groups_iff.mp hg
      exact (mostFrequent_mostCommonIn _ _).perm ((List.mergeSort_perm ..).filterMap _)
  -- both groupings are those of the canonical iteration order
  · rw [groupComposeContainersIn_eq, groupComposeContainersIn_eq,
      groupComposeContainers_perm hids hperm]

end Groups

def labelled (id : String) (labels : List (String × String)) : ContainerSummary where
  id := id
  shortId := id
  name := id
  image := "alpine"
  imageId := ""
  state := .running
  status := "Up"
  createdAt := 0
  ports := []
  labels := labels

/-- Two containers of a project with different directories, and one of no project. -/
def shopContainers : List ContainerSummary :=
  [labelled "b" [("com.docker.compose.project", "shop"),
      ("com.docker.compose.project.working_dir", "/srv/b")],
    labelled "a" [("com.docker.compose.project", " shop "),
      ("com.docker.compose.project.working_dir", "/srv/a")],
    labelled "c" []]

def backwards : MapOrders where
  directories _ := ⟨List.reverse, fun l => List.reverse_perm l⟩
  versions _ := ⟨List.reverse, fun l => List.reverse_perm l⟩

/-- The groups of these containers, and of the same ones backwards. -/
theorem shop_sound :
    GroupsSound shopContainers (groupComposeContainersIn backwards "local" shopContainers) ∧
      groupComposeContainersIn backwards "local" shopContainers.reverse =
        groupComposeContainersIn backwards "local" shopContainers := by
  obtain ⟨hsound, hsame⟩ :=
    composeGroups_sound (show (shopContainers.map (·.id)).Nodup by decide) backwards "local"
  exact ⟨hsound, hsame _ backwards (List.reverse_perm _)⟩

end TuxStack.Gui
