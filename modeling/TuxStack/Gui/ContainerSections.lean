import TuxStack.Gui.ComposeOrder
import TuxStack.Gui.Containers
import TuxStack.Lib.Blocks

/-!
# The rows of the list of containers

`rebuild_visible` (`crates/gui/src/controllers/containers.rs`) for every list of containers
with distinct ids: without a search every container is in one row, or in the row of its
closed group, and the headers count what stands below them; with any search the rows do not
depend on the order of the list (`container_rows`). The sort leaves two items in the order of
their kinds only when a group and a container agree in name and id.
-/

namespace TuxStack.Gui

open Std Blocks SortedKeys

/-! ## The comparisons -/

section Comparisons

def compareNames {α : Type} (name id : α → String) (a b : α) : Ordering :=
  (compare (asciiLowercase (name a)) (asciiLowercase (name b))).then (compare (id a) (id b))

instance {α : Type} (name id : α → String) : TransCmp (compareNames name id) :=
  inferInstanceAs
    (TransCmp (compareLex (compareOn fun a => asciiLowercase (name a)) (compareOn id)))

variable {α : Type} {sort : ContainerSortMode}

theorem transCmp_swap (cmp : α → α → Ordering) [TransCmp cmp] :
    TransCmp fun a b => (cmp a b).swap where
  eq_swap {a b} := by
    rw [← OrientedCmp.eq_swap, ← OrientedCmp.eq_swap]
    exact OrientedCmp.eq_swap
  isLE_trans {a b c} hab hbc := by
    rw [← OrientedCmp.eq_swap] at *
    exact TransCmp.isLE_trans hbc hab

theorem transCmp_then {κ : Type} [Ord κ] [TransOrd κ] (key : α → κ) (cmp : α → α → Ordering)
    [TransCmp cmp] : TransCmp (fun a b => (compare (key a) (key b)).then (cmp a b)) ∧
      TransCmp fun a b => (compare (key b) (key a)).then (cmp a b) := by
  constructor
  · exact inferInstanceAs (TransCmp (compareLex (compareOn key) cmp))
  · have _ : TransCmp fun a b => compare (key b) (key a) :=
      inferInstanceAs (TransCmp fun a b => compareOn key b a)
    exact inferInstanceAs (TransCmp (compareLex (fun a b => compare (key b) (key a)) cmp))

instance (sort : ContainerSortMode) : TransCmp (compareMemberRows sort) := by
  have hnames : TransCmp (compareNames ContainerSummary.name ContainerSummary.id) := inferInstance
  cases sort with
  | nameDescending => exact transCmp_swap (compareNames ContainerSummary.name ContainerSummary.id)
  | newestFirst => exact (transCmp_then ContainerSummary.createdAt
      (compareNames ContainerSummary.name ContainerSummary.id)).2
  | oldestFirst => exact (transCmp_then ContainerSummary.createdAt
      (compareNames ContainerSummary.name ContainerSummary.id)).1
  | stoppedFirst => exact (transCmp_then (fun c : ContainerSummary => activeRank c.state)
      (compareNames ContainerSummary.name ContainerSummary.id)).2
  | runningFirst => exact (transCmp_then (fun c : ContainerSummary => activeRank c.state)
      (compareNames ContainerSummary.name ContainerSummary.id)).1
  | nameAscending | composeGroupsFirst | individualContainersFirst => exact hnames

instance (sort : ContainerSortMode) (summaries : List ContainerSummary) :
    TransCmp (TopLevelItem.compareTopLevel sort summaries) := by
  have hnames : TransCmp (compareNames TopLevelItem.name TopLevelItem.id) := inferInstance
  cases sort with
  | nameAscending => exact hnames
  | nameDescending => exact transCmp_swap (compareNames TopLevelItem.name TopLevelItem.id)
  | newestFirst => exact (transCmp_then (TopLevelItem.created summaries)
      (compareNames TopLevelItem.name TopLevelItem.id)).2
  | oldestFirst => exact (transCmp_then (TopLevelItem.created summaries)
      (compareNames TopLevelItem.name TopLevelItem.id)).1
  | runningFirst | stoppedFirst | composeGroupsFirst =>
    exact (transCmp_then TopLevelItem.isGroup
      (compareNames TopLevelItem.name TopLevelItem.id)).2
  | individualContainersFirst => exact (transCmp_then TopLevelItem.isGroup
        (compareNames TopLevelItem.name TopLevelItem.id)).1

theorem isLE_total (cmp : α → α → Ordering) [TransCmp cmp] (a b : α) :
    ((cmp a b).isLE || (cmp b a).isLE) = true := by
  have hswap : cmp b a = (cmp a b).swap := OrientedCmp.eq_swap
  rw [hswap]
  cases cmp a b <;> rfl

theorem eq_of_compareNames {name id : α → String} {a b : α} (h : compareNames name id a b = .eq) :
    id a = id b := by
  unfold compareNames at h
  rw [Ordering.then_eq_eq] at h
  exact LawfulEqOrd.eq_of_compare h.2

theorem id_eq_of_compareMemberRows {a b : ContainerSummary} (h : compareMemberRows sort a b = .eq) :
    a.id = b.id := by
  have hnames : compareNames ContainerSummary.name ContainerSummary.id a b = .eq := by
    cases sort with
    | nameDescending => exact Ordering.swap_eq_eq.mp h
    | newestFirst | oldestFirst | stoppedFirst | runningFirst => exact (Ordering.then_eq_eq.mp h).2
    | nameAscending | composeGroupsFirst | individualContainersFirst => exact h
  exact eq_of_compareNames hnames

theorem id_eq_of_compareTopLevel {summaries : List ContainerSummary} {a b : TopLevelItem}
    (h : TopLevelItem.compareTopLevel sort summaries a b = .eq) : a.id = b.id := by
  have hnames : compareNames TopLevelItem.name TopLevelItem.id a b = .eq := by
    cases sort with
    | nameAscending => exact h
    | nameDescending => exact Ordering.swap_eq_eq.mp h
    | newestFirst | oldestFirst | runningFirst | stoppedFirst | composeGroupsFirst
    | individualContainersFirst => exact (Ordering.then_eq_eq.mp h).2
  exact eq_of_compareNames hnames

end Comparisons

def TopLevelItem.itemSection : TopLevelItem → ContainerSection
  | .group g => g.groupSection
  | .container c => .fromState c.state

/-- The container is the item, or in its group. -/
def TopLevelItem.lists (id : String) : TopLevelItem → Bool
  | .group g => g.containers.contains id
  | .container c => c.id = id

/-! ## What the rows should be -/

/-- A group, or a container of its own. -/
def ContainerListRow.isTopLevel (row : ContainerListRow) : Bool :=
  row.rowKind = .group ∨ row.rowKind = .individual

def ContainerListRow.shows (groups : List ContainerGroupSummary) (id : String)
    (row : ContainerListRow) : Bool :=
  match row.rowKind with
  | .sectionHeader => false
  | .group => !row.expanded && groups.any fun g =>
    opaqueGroupId g.id = row.id && g.containers.contains id
  | .containerChild | .individual => row.id = id

/-- A row below a group: behind the row of its open group, with other containers of that
group between them. -/
def StandsBelow (groups : List ContainerGroupSummary) (front : List ContainerListRow)
    (child : ContainerListRow) : Prop :=
  ∃ g ∈ groups, child.id ∈ g.containers ∧ ∃ before head between,
    front = before ++ head :: between ∧ head.rowKind = .group ∧ head.id = opaqueGroupId g.id ∧
      head.expanded = true ∧
      ∀ row ∈ between, row.rowKind = .containerChild ∧ row.id ∈ g.containers

structure RowsSound (containers : List ContainerSummary) (groups : List ContainerGroupSummary)
    (rows : List ContainerListRow) : Prop where
  once : ∀ c ∈ containers, rows.countP (·.shows groups c.id) = 1
  children : ∀ front child back, rows = front ++ child :: back →
    child.rowKind = .containerChild → StandsBelow groups front child
  /-- a header counts the groups and containers up to the next one, of which there are some -/
  headers : ∀ front header back, rows = front ++ header :: back →
    header.rowKind = .sectionHeader → 0 < header.groupTotalCount ∧
      header.groupTotalCount =
        (back.takeWhile fun row => row.rowKind ≠ .sectionHeader).countP (·.isTopLevel)

namespace ContainersState

variable {s : ContainersState}

/-! ## Blocks of rows -/

def groupRow (s : ContainersState) (group : ContainerGroupSummary) : ContainerListRow :=
  .group group (opaqueGroupId group.id) (group.id ∈ s.expandedGroups)
    (s.selection = .group group.id)
    (((s.groupOperations.lookup group.id).map fun entry => groupOperationName entry.2).getD "")

def itemBlock (s : ContainersState) (rowSection : ContainerSection) :
    TopLevelItem → ContainerListRow × List ContainerListRow
  | .group group =>
    (s.groupRow group,
      if group.id ∈ s.expandedGroups then
        (s.shownMembers group).map
          (s.containerRow .containerChild rowSection (opaqueGroupId group.id))
      else [])
  | .container summary => (s.containerRow .individual rowSection "" summary, [])

theorem itemRows_eq (rowSection : ContainerSection) (item : TopLevelItem) :
    s.itemRows rowSection item =
      (s.itemBlock rowSection item).1 :: (s.itemBlock rowSection item).2 := by
  cases item <;> rfl

theorem isTopLevel_itemBlock (rowSection : ContainerSection) (item : TopLevelItem) :
    (s.itemBlock rowSection item).1.isTopLevel = true := by
  cases item <;> rfl

theorem mem_itemBlock {rowSection : ContainerSection} {item : TopLevelItem}
    {row : ContainerListRow} (h : row ∈ (s.itemBlock rowSection item).2) :
    ∃ group, item = .group group ∧ group.id ∈ s.expandedGroups ∧
      ∃ summary ∈ s.shownMembers group,
        row = s.containerRow .containerChild rowSection (opaqueGroupId group.id) summary := by
  cases item with
  | container summary => cases h
  | group group =>
    unfold itemBlock at h
    dsimp only at h
    split at h
    · next hexpanded =>
      obtain ⟨summary, hmem, rfl⟩ := List.mem_map.mp h
      exact ⟨group, rfl, hexpanded, summary, hmem, rfl⟩
    · cases h

theorem countP_isTopLevel_itemRows (rowSection : ContainerSection) (item : TopLevelItem) :
    (s.itemRows rowSection item).countP (·.isTopLevel) = 1 := by
  have hbelow : (s.itemBlock rowSection item).2.countP (·.isTopLevel) = 0 := by
    refine List.countP_eq_zero.mpr fun row hrow => ?_
    obtain ⟨group, -, -, summary, -, rfl⟩ := mem_itemBlock hrow
    exact Bool.false_ne_true
  rw [itemRows_eq, List.countP_cons_of_pos (isTopLevel_itemBlock rowSection item), hbelow]

theorem countP_isTopLevel_flatMap (rowSection : ContainerSection) (items : List TopLevelItem) :
    (items.flatMap (s.itemRows rowSection)).countP (·.isTopLevel) = items.length := by
  induction items with
  | nil => rfl
  | cons item items ih =>
    rw [List.flatMap_cons, List.countP_append, countP_isTopLevel_itemRows, ih, List.length_cons,
      Nat.add_comm]

def itemBlocks (s : ContainersState) (rowSection : ContainerSection) :
    List (ContainerListRow × List ContainerListRow) :=
  if (s.sectionItems rowSection).isEmpty then []
  else (.sectionHeader rowSection (s.sectionItems rowSection).length, []) ::
    (s.sectionItems rowSection).map (s.itemBlock rowSection)

/-- The rows, with a block for each section. -/
def sectionBlock (s : ContainersState) (rowSection : ContainerSection) :
    List (ContainerListRow × List ContainerListRow) :=
  if (s.sectionItems rowSection).isEmpty then []
  else [(.sectionHeader rowSection (s.sectionItems rowSection).length,
    (s.sectionItems rowSection).flatMap (s.itemRows rowSection))]

theorem rows_itemBlocks (rowSection : ContainerSection) :
    rows (s.itemBlocks rowSection) = s.sectionRows rowSection := by
  unfold itemBlocks sectionRows
  dsimp only
  split
  · rfl
  · unfold rows
    rw [List.flatMap_cons, List.flatMap_map]
    simp only [← itemRows_eq, List.singleton_append]

theorem rows_sectionBlock (rowSection : ContainerSection) :
    rows (s.sectionBlock rowSection) = s.sectionRows rowSection := by
  unfold sectionBlock sectionRows
  dsimp only
  split
  · rfl
  · exact List.flatMap_singleton _ _

theorem rows_flatMap {α : Type} (blocks : ContainerSection → List (α × List α))
    (sections : List ContainerSection) :
    rows (sections.flatMap blocks) = sections.flatMap fun rowSection => rows (blocks rowSection) :=
  List.flatMap_assoc

/-! ## Headers and children -/

variable {back front : List ContainerListRow} {block : ContainerListRow × List ContainerListRow}

theorem mem_sectionBlock (h : block ∈ s.sectionOrder.flatMap s.sectionBlock) :
    ∃ rowSection, s.sectionItems rowSection ≠ [] ∧
      block = (.sectionHeader rowSection (s.sectionItems rowSection).length,
        (s.sectionItems rowSection).flatMap (s.itemRows rowSection)) := by
  obtain ⟨rowSection, -, hmem⟩ := List.mem_flatMap.mp h
  unfold sectionBlock at hmem
  split at hmem
  · cases hmem
  · next hitems =>
    exact ⟨rowSection, fun hnil => hitems (by rw [hnil]; rfl), List.mem_singleton.mp hmem⟩

theorem marked_sectionBlock : Marked (fun row => row.rowKind = .sectionHeader)
    (s.sectionOrder.flatMap s.sectionBlock) := by
  constructor
  · intro block hmem
    obtain ⟨rowSection, -, rfl⟩ := mem_sectionBlock hmem
    rfl
  · intro block hmem row hrow
    obtain ⟨rowSection, -, rfl⟩ := mem_sectionBlock hmem
    obtain ⟨item, -, hrow⟩ := List.mem_flatMap.mp hrow
    rw [itemRows_eq] at hrow
    rcases List.mem_cons.mp hrow with rfl | hbelow
    · cases item <;> rfl
    · obtain ⟨group, -, -, summary, -, rfl⟩ := mem_itemBlock hbelow
      rfl

/-- **A header** counts the items up to the next one. -/
theorem header_counts {header : ContainerListRow}
    (hsplit : s.sectionOrder.flatMap s.sectionRows = front ++ header :: back)
    (hkind : header.rowKind = .sectionHeader) :
    0 < header.groupTotalCount ∧ header.groupTotalCount =
      (back.takeWhile fun row => row.rowKind ≠ .sectionHeader).countP (·.isTopLevel) := by
  have hrows : rows (s.sectionOrder.flatMap s.sectionBlock) = front ++ header :: back := by
    rw [rows_flatMap, ← hsplit]
    exact List.flatMap_congr fun rowSection _ => rows_sectionBlock rowSection
  obtain ⟨rest, hmem, hback⟩ := marked_sectionBlock.exists_block hrows (by simpa using hkind)
  obtain ⟨rowSection, hitems, hblock⟩ := mem_sectionBlock hmem
  obtain ⟨rfl, rfl⟩ := Prod.mk.inj hblock
  refine ⟨List.length_pos_iff.mpr hitems, ?_⟩
  have htake : back.takeWhile (fun row => row.rowKind ≠ .sectionHeader) =
      (s.sectionItems rowSection).flatMap (s.itemRows rowSection) := by
    rw [← hback]
    congr 1
    funext row
    exact decide_not
  rw [htake, countP_isTopLevel_flatMap]
  rfl

theorem mem_itemBlocks (h : block ∈ s.sectionOrder.flatMap s.itemBlocks) :
    (∃ rowSection count, block = (.sectionHeader rowSection count, [])) ∨
      ∃ rowSection, ∃ item ∈ s.sectionItems rowSection, block = s.itemBlock rowSection item := by
  obtain ⟨rowSection, -, hmem⟩ := List.mem_flatMap.mp h
  unfold itemBlocks at hmem
  split at hmem
  · cases hmem
  · rcases List.mem_cons.mp hmem with rfl | hmem
    · exact .inl ⟨rowSection, _, rfl⟩
    · obtain ⟨item, hitem, rfl⟩ := List.mem_map.mp hmem
      exact .inr ⟨rowSection, item, hitem, rfl⟩

theorem marked_itemBlocks : Marked (fun row => row.rowKind ≠ .containerChild)
    (s.sectionOrder.flatMap s.itemBlocks) := by
  constructor
  · intro block hmem
    rcases mem_itemBlocks hmem with ⟨rowSection, count, rfl⟩ | ⟨rowSection, item, -, rfl⟩
    · rfl
    · cases item <;> rfl
  · intro block hmem row hrow
    rcases mem_itemBlocks hmem with ⟨rowSection, count, rfl⟩ | ⟨rowSection, item, -, rfl⟩
    · cases hrow
    · obtain ⟨group, -, -, summary, -, rfl⟩ := mem_itemBlock hrow
      rfl

/-- **A row below a group** is that of a member that is shown. -/
theorem child_below {child : ContainerListRow}
    (hsplit : s.sectionOrder.flatMap s.sectionRows = front ++ child :: back)
    (hkind : child.rowKind = .containerChild)
    (hmembers : ∀ g ∈ s.groups, ∀ c ∈ s.shownMembers g, c.id ∈ g.containers) :
    StandsBelow s.groups front child := by
  have hrows : rows (s.sectionOrder.flatMap s.itemBlocks) = front ++ child :: back := by
    rw [rows_flatMap, ← hsplit]
    exact List.flatMap_congr fun rowSection _ => rows_itemBlocks rowSection
  obtain ⟨block, hmem, before, between, after, rfl, hblock⟩ :=
    marked_itemBlocks.exists_mark hrows (by simpa using hkind)
  rcases mem_itemBlocks hmem with ⟨rowSection, count, rfl⟩ | ⟨rowSection, item, hitem, rfl⟩
  · simp at hblock
  · have hbelow : ∀ row ∈ between ++ child :: after, ∃ group, item = .group group ∧
        group.id ∈ s.expandedGroups ∧ ∃ summary ∈ s.shownMembers group,
          row = s.containerRow .containerChild rowSection (opaqueGroupId group.id) summary :=
      fun row hrow => mem_itemBlock (hblock ▸ hrow)
    obtain ⟨group, rfl, hexpanded, summary, hsummary, rfl⟩ := hbelow child (by simp)
    have hgroup : group ∈ s.groups := by
      rcases mem_sectionItems hitem with ⟨g, hg, hsame⟩ | ⟨c, -, hsame⟩
      · cases hsame
        exact hg
      · cases hsame
    refine ⟨group, hgroup, hmembers group hgroup summary hsummary, before, s.groupRow group,
      between, rfl, rfl, rfl, decide_eq_true hexpanded, fun row hrow => ?_⟩
    obtain ⟨_, hsame, -, other, hother, rfl⟩ := hbelow row (List.mem_append_left _ hrow)
    cases hsame
    exact ⟨rfl, hmembers group hgroup other hother⟩

/-! ## Items -/

/-- The items of all sections, in the order of the groups and of the list. -/
def items (s : ContainersState) : List TopLevelItem :=
  (s.groups.filter s.showsGroup).map .group ++ s.individuals.map .container

theorem sectionItems_perm (rowSection : ContainerSection) :
    (s.sectionItems rowSection).Perm
      (s.items.filter fun item => item.itemSection = rowSection) := by
  have hsplit : (s.items.filter fun item => item.itemSection = rowSection) =
      (s.groups.filter fun group =>
          s.showsGroup group && group.groupSection = rowSection).map TopLevelItem.group ++
        (s.individuals.filter fun summary =>
          ContainerSection.fromState summary.state = rowSection).map TopLevelItem.container := by
    unfold items
    rw [List.filter_append, List.filter_map, List.filter_map, List.filter_filter]
    congr 2
    exact List.filter_congr fun group _ => Bool.and_comm ..
  rw [hsplit]
  exact List.mergeSort_perm ..

/-- **The sections have all items**, each in its own. -/
theorem flatMap_sectionItems_perm : (s.sectionOrder.flatMap s.sectionItems).Perm s.items := by
  have horder : s.sectionOrder.Nodup ∧ ∀ rowSection, rowSection ∈ s.sectionOrder := by
    unfold sectionOrder
    split
    · exact ⟨by decide, fun rowSection => by cases rowSection <;> decide⟩
    · exact ⟨by decide, fun rowSection => by cases rowSection <;> decide⟩
  exact (List.Perm.flatMap_left _ fun rowSection _ => sectionItems_perm rowSection).trans
    (perm_flatMap_filter TopLevelItem.itemSection horder.1 fun item _ => horder.2 _)

/-! ## Every container once -/

section Once

variable {endpointKey : String} {containers : List ContainerSummary} {id : String}

theorem nodup_groupIds :
    ((groupComposeContainers endpointKey containers).map (·.id)).Nodup := by
  unfold groupComposeContainers
  rw [List.map_map]
  refine List.Nodup.map (fun a b h => ?_) ?_
  · cases h
    rfl
  · refine (pairwise_projectNames containers).imp fun {a b} hlt heq => ?_
    rw [heq, ReflOrd.compare_self] at hlt
    cases hlt

theorem exists_summaryById (h : ∃ c ∈ containers, c.id = id) :
    ∃ c, summaryById containers id = some c ∧ c.id = id := by
  obtain ⟨c, hc, hid⟩ := h
  have hsome : (summaryById containers id).isSome := by
    unfold summaryById
    rw [List.find?_isSome]
    exact ⟨c, List.mem_reverse.mpr hc, by simpa using hid⟩
  obtain ⟨d, hd⟩ := Option.isSome_iff_exists.mp hsome
  exact ⟨d, hd, (mem_of_summaryById hd).2⟩

theorem map_id_filterMap_summaryById {ids : List String}
    (h : ∀ id ∈ ids, ∃ c ∈ containers, c.id = id) :
    (ids.filterMap (summaryById containers)).map (·.id) = ids := by
  induction ids with
  | nil => rfl
  | cons id ids ih =>
    obtain ⟨c, hc, hid⟩ := exists_summaryById (h id List.mem_cons_self)
    rw [List.filterMap_cons_some hc, List.map_cons, hid,
      ih fun other hother => h other (List.mem_cons_of_mem _ hother)]

end Once

end ContainersState

/-- A page that shows the containers of a list, in their groups. -/
structure Lists (s : ContainersState) : Prop where
  ids : (s.sourceRows.map (·.id)).Nodup
  groups : s.groups = groupComposeContainers s.endpointKey s.sourceRows

namespace Lists

variable {s : ContainersState} {g : ContainerGroupSummary} {id : String}

theorem eq_of_group_id (h : Lists s) {g' : ContainerGroupSummary} (hg : g ∈ s.groups)
    (hg' : g' ∈ s.groups) (hid : g.id = g'.id) : g = g' := by
  rw [h.groups] at hg hg'
  exact List.inj_on_of_nodup_map ContainersState.nodup_groupIds hg hg' hid

theorem nodup_listed (h : Lists s) : (s.groups.flatMap (·.containers)).Nodup := by
  rw [h.groups]
  exact nodup_flatMap_containers h.ids

theorem exists_of_listed (h : Lists s) (hg : g ∈ s.groups) (hid : id ∈ g.containers) :
    ∃ c ∈ s.sourceRows, c.id = id := by
  rw [h.groups] at hg
  obtain ⟨projectName, -, rfl⟩ := List.mem_map.mp hg
  obtain ⟨c, hc, -, hsame⟩ := mem_containers_composeGroup.mp hid
  exact ⟨c, hc, hsame⟩

/-- Without a search the rows below a group are its containers. -/
theorem shownMembers_perm (h : Lists s) (hquery : s.query = "") (hg : g ∈ s.groups) :
    ((s.shownMembers g).map (·.id)).Perm g.containers := by
  have hmatch : s.groupMatches g = true := by
    unfold ContainersState.groupMatches
    rw [hquery]
    rfl
  have hids := ContainersState.map_id_filterMap_summaryById fun id hid => h.exists_of_listed hg hid
  unfold ContainersState.shownMembers
  rw [if_pos hmatch]
  exact ((List.mergeSort_perm ..).map _).trans (List.Perm.of_eq hids)

/-- The row of a group shows the containers of that group, when it is closed. -/
theorem shows_groupRow (h : Lists s) (hg : g ∈ s.groups) :
    (s.groupRow g).shows s.groups id =
      (!decide (g.id ∈ s.expandedGroups) && g.containers.contains id) := by
  show (!decide (g.id ∈ s.expandedGroups) && s.groups.any fun g' =>
    opaqueGroupId g'.id = opaqueGroupId g.id && g'.containers.contains id) = _
  congr 1
  rw [Bool.eq_iff_iff, List.any_eq_true]
  constructor
  · rintro ⟨g', hg', hshows⟩
    rw [Bool.and_eq_true, decide_eq_true_eq] at hshows
    obtain rfl := h.eq_of_group_id hg' hg (opaqueGroupId_injective hshows.1)
    exact hshows.2
  · intro hlists
    exact ⟨g, hg, by rw [hlists]; simp⟩

/-- **The rows of an item** show each of its containers once. -/
theorem countP_itemRows (h : Lists s) (hquery : s.query = "") {rowSection : ContainerSection}
    {item : TopLevelItem} (hitem : item ∈ s.sectionItems rowSection) :
    (s.itemRows rowSection item).countP (·.shows s.groups id) = [item].countP (·.lists id) := by
  rcases ContainersState.mem_sectionItems hitem with ⟨g, hg, rfl⟩ | ⟨c, -, rfl⟩
  · have hbelow : ((s.shownMembers g).map
        (s.containerRow .containerChild rowSection (opaqueGroupId g.id))).countP
          (·.shows s.groups id) = if g.containers.contains id then 1 else 0 := by
      have hnodup := (List.nodup_flatMap.mp h.nodup_listed).1 g hg
      have hcount := (h.shownMembers_perm hquery hg).count_eq id
      rw [hnodup.count, List.count, List.countP_map] at hcount
      rw [List.countP_map]
      simp only [List.contains_iff_mem]
      rw [← hcount]
      rfl
    show (s.groupRow g :: if g.id ∈ s.expandedGroups then _ else []).countP _ = _
    rw [List.countP_cons, List.countP_singleton, h.shows_groupRow hg]
    by_cases hexpanded : g.id ∈ s.expandedGroups
    · rw [if_pos hexpanded, hbelow, decide_eq_true hexpanded]
      rfl
    · rw [if_neg hexpanded, decide_eq_false hexpanded]
      exact Nat.zero_add _
  · rfl

theorem countP_sectionRows (h : Lists s) (hquery : s.query = "") (rowSection : ContainerSection) :
    (s.sectionRows rowSection).countP (·.shows s.groups id) =
      (s.sectionItems rowSection).countP (·.lists id) := by
  unfold ContainersState.sectionRows
  dsimp only
  split
  · next hitems =>
    rw [List.isEmpty_iff.mp hitems]
    rfl
  · rw [List.countP_cons_of_neg Bool.false_ne_true,
      countP_flatMap_congr fun item hitem => h.countP_itemRows hquery hitem,
      List.flatMap_singleton']

theorem groupOf_eq_none :
    s.groupOf id = none ↔ id ∉ s.groups.flatMap (·.containers) := by
  unfold ContainersState.groupOf
  rw [Option.map_eq_none_iff, List.find?_eq_none, List.mem_flatMap, not_exists]
  simp only [List.mem_reverse, decide_eq_true_eq, not_and]

variable {c : ContainerSummary}

/-- The groups and the containers outside of them have every container once. -/
theorem countP_items (h : Lists s) (hquery : s.query = "") (hc : c ∈ s.sourceRows) :
    s.items.countP (·.lists c.id) = 1 := by
  have hshown : s.groups.filter s.showsGroup = s.groups := by
    refine List.filter_eq_self.mpr fun g _ => ?_
    unfold ContainersState.showsGroup ContainersState.groupMatches
    rw [hquery]
    rfl
  have hgroups : (s.groups.map TopLevelItem.group).countP (·.lists c.id) =
      if c.id ∈ s.groups.flatMap (·.containers) then 1 else 0 := by
    rw [List.countP_map]
    exact countP_mem_of_nodup h.nodup_listed c.id
  have hone : s.sourceRows.countP (fun d => d.id = c.id) = 1 := by
    have hcount := h.ids.count (a := c.id)
    rw [if_pos (List.mem_map_of_mem hc), List.count, List.countP_map] at hcount
    rw [← hcount]
    exact List.countP_congr fun d _ => by simp
  have hothers : (s.individuals.map TopLevelItem.container).countP (·.lists c.id) =
      if c.id ∈ s.groups.flatMap (·.containers) then 0 else 1 := by
    unfold ContainersState.individuals
    rw [List.countP_map, List.countP_filter]
    have hany : ∀ d, s.matchesQuery d = true := by
      intro d
      unfold ContainersState.matchesQuery
      rw [hquery]
      rfl
    by_cases hlisted : c.id ∈ s.groups.flatMap (·.containers)
    · rw [if_pos hlisted, List.countP_eq_zero]
      intro d _ hd
      simp only [Bool.and_eq_true, decide_eq_true_eq] at hd
      have hid : d.id = c.id := by simpa [TopLevelItem.lists] using hd.1
      exact groupOf_eq_none.mp hd.2.1 (hid ▸ hlisted)
    · rw [if_neg hlisted, ← hone]
      refine List.countP_congr fun d _ => ?_
      simp only [Bool.and_eq_true, decide_eq_true_eq, hany d, and_true]
      have hlists : ((TopLevelItem.lists c.id ∘ TopLevelItem.container) d = true) ↔
          d.id = c.id := by
        simp [TopLevelItem.lists]
      rw [hlists]
      exact and_iff_left_of_imp fun hid => groupOf_eq_none.mpr (hid ▸ hlisted)
  unfold ContainersState.items
  rw [List.countP_append, hshown, hgroups, hothers]
  split <;> rfl

/-- **Without a search every container is shown once.** -/
theorem countP_rows (h : Lists s) (hquery : s.query = "") (hc : c ∈ s.sourceRows) :
    (s.sectionOrder.flatMap s.sectionRows).countP (·.shows s.groups c.id) = 1 := by
  rw [countP_flatMap_congr fun rowSection _ => h.countP_sectionRows hquery rowSection,
    ContainersState.flatMap_sectionItems_perm.countP_eq, h.countP_items hquery hc]

/-- **The rows without a search** are those of the containers and their groups. -/
theorem rowsSound (h : Lists s) (hquery : s.query = "") :
    RowsSound s.sourceRows s.groups (s.sectionOrder.flatMap s.sectionRows) where
  once _ hc := h.countP_rows hquery hc
  children _ _ _ hsplit hkind := by
    refine ContainersState.child_below hsplit hkind fun g hg c hc => ?_
    exact (h.shownMembers_perm hquery hg).mem_iff.mp (List.mem_map_of_mem hc)
  headers _ _ _ hsplit hkind := ContainersState.header_counts hsplit hkind

/-! ## Any order of the list -/

section Order

variable {other : List ContainerSummary}

theorem summaryById_eq_some_iff {containers : List ContainerSummary}
    (hids : (containers.map (·.id)).Nodup) {c : ContainerSummary} :
    summaryById containers id = some c ↔ c ∈ containers ∧ c.id = id := by
  constructor
  · exact ContainersState.mem_of_summaryById
  · rintro ⟨hc, hid⟩
    obtain ⟨d, hd, hsame⟩ := ContainersState.exists_summaryById ⟨c, hc, hid⟩
    rw [hd, eq_of_id_eq hids (ContainersState.mem_of_summaryById hd).1 hc (hsame.trans hid.symm)]

theorem summaryById_perm (h : Lists s) (hperm : other.Perm s.sourceRows) :
    summaryById other = summaryById s.sourceRows := by
  funext id
  ext c
  have hids : (other.map (·.id)).Nodup := (hperm.map _).nodup_iff.mpr h.ids
  rw [summaryById_eq_some_iff hids, summaryById_eq_some_iff h.ids, hperm.mem_iff]

theorem matchingMembers_perm (hperm : other.Perm s.sourceRows) (groupId : ContainerGroupId) :
    ({ s with sourceRows := other }.matchingMembers groupId).Perm (s.matchingMembers groupId) :=
  hperm.filter _

theorem matchingMembers_eq_nil_iff (hperm : other.Perm s.sourceRows) (groupId : ContainerGroupId) :
    { s with sourceRows := other }.matchingMembers groupId = [] ↔
      s.matchingMembers groupId = [] := by
  rw [← List.length_eq_zero_iff, (matchingMembers_perm hperm groupId).length_eq,
    List.length_eq_zero_iff]

theorem showsGroup_perm (hperm : other.Perm s.sourceRows) (g : ContainerGroupSummary) :
    { s with sourceRows := other }.showsGroup g = s.showsGroup g := by
  show (s.groupMatches g || decide _) = (s.groupMatches g || decide _)
  congr 1
  exact decide_eq_decide.mpr (not_congr (matchingMembers_eq_nil_iff hperm g.id))

theorem expandFound_perm (hperm : other.Perm s.sourceRows) :
    { s with sourceRows := other }.expandFound = s.expandFound := by
  unfold ContainersState.expandFound
  congr 1
  refine List.filter_congr fun g _ => ?_
  show (decide (s.query ≠ "") && decide _) = (decide (s.query ≠ "") && decide _)
  congr 1
  exact decide_eq_decide.mpr (not_congr (matchingMembers_eq_nil_iff hperm g.id))

theorem shownMembers_eq (h : Lists s) (hperm : other.Perm s.sourceRows)
    (g : ContainerGroupSummary) :
    { s with sourceRows := other }.shownMembers g = s.shownMembers g := by
  have htrans : ∀ a b c, (compareMemberRows s.sortMode a b).isLE →
      (compareMemberRows s.sortMode b c).isLE → (compareMemberRows s.sortMode a c).isLE :=
    fun _ _ _ hab hbc => TransCmp.isLE_trans hab hbc
  unfold ContainersState.shownMembers
  show (if s.groupMatches g then g.containers.filterMap (summaryById other)
    else { s with sourceRows := other }.matchingMembers g.id).mergeSort _ = _
  rw [h.summaryById_perm hperm]
  split
  · rfl
  · refine ((List.mergeSort_perm ..).trans
      ((matchingMembers_perm hperm g.id).trans (List.mergeSort_perm ..).symm)).eq_of_pairwise ?_
      (List.pairwise_mergeSort htrans (isLE_total _) _)
      (List.pairwise_mergeSort htrans (isLE_total _) _)
    intro a b ha hb hab hba
    have hid := id_eq_of_compareMemberRows (OrientedCmp.isLE_antisymm hab hba)
    have ha' := (matchingMembers_perm hperm g.id).mem_iff.mp (List.mem_mergeSort.mp ha)
    exact eq_of_id_eq h.ids (List.mem_of_mem_filter ha')
      (List.mem_of_mem_filter (List.mem_mergeSort.mp hb)) hid

theorem compareTopLevel_perm (h : Lists s) (hperm : other.Perm s.sourceRows) :
    TopLevelItem.compareTopLevel s.sortMode other =
      TopLevelItem.compareTopLevel s.sortMode s.sourceRows := by
  have hcreated : TopLevelItem.created other = TopLevelItem.created s.sourceRows := by
    funext item
    unfold TopLevelItem.created
    rw [h.summaryById_perm hperm]
  funext a b
  unfold TopLevelItem.compareTopLevel
  rw [hcreated]

def groupItems (s : ContainersState) (rowSection : ContainerSection) : List TopLevelItem :=
  (s.groups.filter fun g => s.showsGroup g && g.groupSection = rowSection).map .group

def containerItems (s : ContainersState) (rowSection : ContainerSection) : List TopLevelItem :=
  (s.individuals.filter fun c => ContainerSection.fromState c.state = rowSection).map .container

variable {item : TopLevelItem} {rowSection : ContainerSection}

theorem mem_groupItems (h : item ∈ groupItems s rowSection) : ∃ g ∈ s.groups, item = .group g := by
  obtain ⟨g, hg, rfl⟩ := List.mem_map.mp h
  exact ⟨g, List.mem_of_mem_filter hg, rfl⟩

theorem mem_containerItems (h : item ∈ containerItems s rowSection) :
    ∃ c ∈ s.sourceRows, item = .container c := by
  obtain ⟨c, hc, rfl⟩ := List.mem_map.mp h
  exact ⟨c, List.mem_of_mem_filter (List.mem_of_mem_filter hc), rfl⟩

theorem nodup_items (h : Lists s) (rowSection : ContainerSection) :
    (groupItems s rowSection ++ containerItems s rowSection).Nodup := by
  have hgroups : s.groups.Nodup := by
    rw [h.groups]
    exact ContainersState.nodup_groupIds.of_map
  refine List.Nodup.append ((hgroups.filter _).map fun a b hab => TopLevelItem.group.inj hab)
    (((h.ids.of_map.filter _).filter _).map fun a b hab => TopLevelItem.container.inj hab) ?_
  intro item hgroup hcontainer
  obtain ⟨g, -, rfl⟩ := mem_groupItems hgroup
  obtain ⟨c, -, hsame⟩ := mem_containerItems hcontainer
  cases hsame

/-- **The items of a section are in one order**: only a group and a container can be level, and
the group is first. -/
theorem sectionItems_eq (h : Lists s) (hperm : other.Perm s.sourceRows)
    (rowSection : ContainerSection) :
    { s with sourceRows := other }.sectionItems rowSection = s.sectionItems rowSection := by
  have hgroups : groupItems { s with sourceRows := other } rowSection =
      groupItems s rowSection := by
    unfold groupItems
    congr 1
    exact List.filter_congr fun g _ => by rw [showsGroup_perm hperm]
  have hcontainers : (containerItems { s with sourceRows := other } rowSection).Perm
      (containerItems s rowSection) :=
    ((hperm.filter _).filter _).map _
  show (groupItems { s with sourceRows := other } rowSection ++
    containerItems { s with sourceRows := other } rowSection).mergeSort
      (fun a b => (TopLevelItem.compareTopLevel s.sortMode other a b).isLE) = _
  rw [h.compareTopLevel_perm hperm]
  refine mergeSort_append_eq (fun _ _ _ hab hbc => TransCmp.isLE_trans hab hbc) (isLE_total _)
    (List.Perm.of_eq hgroups) hcontainers (h.nodup_items rowSection) ?_
  intro a ha b hb hab hba
  have hid := id_eq_of_compareTopLevel (OrientedCmp.isLE_antisymm hab hba)
  rcases List.mem_append.mp ha with ha | ha
  · rcases List.mem_append.mp hb with hb | hb
    · obtain ⟨g, hg, rfl⟩ := mem_groupItems ha
      obtain ⟨g', hg', rfl⟩ := mem_groupItems hb
      exact .inl (congrArg _ (h.eq_of_group_id hg hg' (opaqueGroupId_injective hid)))
    · exact .inr (.inl ⟨ha, hb⟩)
  · rcases List.mem_append.mp hb with hb | hb
    · exact .inr (.inr ⟨ha, hb⟩)
    · obtain ⟨c, hc, rfl⟩ := mem_containerItems ha
      obtain ⟨d, hd, rfl⟩ := mem_containerItems hb
      exact .inl (congrArg _ (eq_of_id_eq h.ids hc hd hid))

/-- **The rows of a section** are the same for any order of the list. -/
theorem sectionRows_perm (h : Lists s) (hperm : other.Perm s.sourceRows)
    (rowSection : ContainerSection) :
    { s with sourceRows := other }.sectionRows rowSection = s.sectionRows rowSection := by
  have hitem : { s with sourceRows := other }.itemRows rowSection = s.itemRows rowSection := by
    funext item
    cases item with
    | container c => rfl
    | group g =>
      show (s.groupRow g :: if g.id ∈ s.expandedGroups then
        ({ s with sourceRows := other }.shownMembers g).map _ else []) = _
      rw [h.shownMembers_eq hperm]
      rfl
  unfold ContainersState.sectionRows
  rw [h.sectionItems_eq hperm, hitem]

/-- **The rows do not depend on the order of the list.** -/
theorem visibleRows_perm (h : Lists s) (hperm : other.Perm s.sourceRows) :
    { s with sourceRows := other }.rebuildVisible.visibleRows = s.rebuildVisible.visibleRows := by
  have hopened : Lists { s with expandedGroups := s.expandFound } := { h with }
  unfold ContainersState.rebuildVisible
  rw [expandFound_perm hperm]
  exact List.flatMap_congr fun rowSection _ => hopened.sectionRows_perm hperm rowSection

end Order

end Lists

/-! ## The rows of a list of containers -/

def ContainersState.listed (s : ContainersState) (containers : List ContainerSummary) :
    ContainersState :=
  { s with
    sourceRows := containers
    groups := groupComposeContainers s.endpointKey containers }

/-- **The rows of containers with distinct ids**: without a search they show every container
once, with headers that count what is below them, and with any search they do not depend on
the order of the list. -/
theorem container_rows (s : ContainersState) {containers : List ContainerSummary}
    (hids : (containers.map (·.id)).Nodup) :
    (s.query = "" → RowsSound containers (groupComposeContainers s.endpointKey containers)
        (s.listed containers).rebuildVisible.visibleRows) ∧
      ∀ other, other.Perm containers →
        (s.listed other).rebuildVisible.visibleRows =
          (s.listed containers).rebuildVisible.visibleRows := by
  have hlists : Lists (s.listed containers) := ⟨hids, rfl⟩
  constructor
  · intro hquery
    have hopened : Lists { s.listed containers with
        expandedGroups := (s.listed containers).expandFound } := ⟨hids, rfl⟩
    exact hopened.rowsSound hquery
  · intro other hperm
    have hsame : s.listed other = { s.listed containers with sourceRows := other } := by
      unfold ContainersState.listed
      rw [groupComposeContainers_perm hids hperm]
    rw [hsame]
    exact hlists.visibleRows_perm hperm

/-- A page with two containers of a project and one of none, and the same ones backwards. -/
theorem shop_rows :
    RowsSound shopContainers (groupComposeContainers "local" shopContainers)
        ((ContainersState.new "local").listed shopContainers).rebuildVisible.visibleRows ∧
      ((ContainersState.new "local").listed shopContainers.reverse).rebuildVisible.visibleRows =
        ((ContainersState.new "local").listed shopContainers).rebuildVisible.visibleRows := by
  obtain ⟨hsound, hsame⟩ := container_rows (ContainersState.new "local")
    (show (shopContainers.map (·.id)).Nodup by decide)
  exact ⟨hsound (by decide), hsame _ (List.reverse_perm _)⟩

end TuxStack.Gui
