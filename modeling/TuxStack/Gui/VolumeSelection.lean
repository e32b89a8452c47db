import TuxStack.Gui.VolumeDetails
import TuxStack.Gui.VolumeRows

/-!
# The selection of the Volumes page

After a new list, a search and the removal of the selected volume the page selects a row
that is visible, if there is one: then it can be inspected.

* `selection_usable_iff`: in every run whose lists name their volumes that is so, except when
  a new list has the preferred volume and the search hides it. The preferred volume is looked
  for in the whole list, and a search may have begun after `prefer_volume` ended the last one.
-/

namespace TuxStack.Gui

open Runs

namespace VolumesState

/-- Nothing is visible and nothing selected, or the selected row is visible and can be
inspected. -/
def Usable (s : VolumesState) : Prop :=
  (s.visibleRows = [] ∧ s.selectedVolumeName = "") ∨
    s.selectedVolumeName ∈ volumeNames s.visibleRows ∧ s.beginSelectedInspect.1.isSome

end VolumesState

/-- A list that is taken, a search, or the removal of the selected volume. -/
def VolumesCall.Selects [PageText] (s : VolumesState) : VolumesCall → Prop
  | .applyList generation summaries => (s.applyList generation summaries).1 = true
  | .setSearchQuery _ => True
  | .removeLocal name => name = s.selectedVolumeName
  | _ => False

def VolumesCall.NamesVolumes : VolumesCall → Prop
  | .applyList _ summaries => ∀ summary ∈ summaries, summary.name ≠ ""
  | _ => True

/-- A new list with the preferred volume has it where the search shows it. -/
def VolumesCall.PreferredShown [PageText] (s : VolumesState) : VolumesCall → Prop
  | .applyList _ summaries =>
    s.preferredVolumeName ≠ "" →
      (∃ summary ∈ summaries, summary.name = s.preferredVolumeName) →
        ∃ summary ∈ summaries, summary.name = s.preferredVolumeName ∧
          s.shows (.fromSummary summary) = true
  | _ => True

def VolumeRow.HasName (row : VolumeRow) : Prop := row.volumeName ≠ ""

theorem VolumeRow.volumeName_keepUse (known : Option Bool) (row : VolumeRow) :
    (row.keepUse known).volumeName = row.volumeName := by
  cases known <;> rfl

theorem keptByRows_hasName [PageText] : KeptByRows VolumeRow.HasName where
  sync _ _ h := h
  patch references usage row h := by
    unfold VolumeRow.HasName
    rw [VolumesState.volumeName_patch]
    exact h
  detail _ h := h

theorem VolumesCall.NamesVolumes.listsOnly [PageText] {call : VolumesCall} (h : call.NamesVolumes) :
    call.ListsOnly VolumeRow.HasName := by
  cases call with
  | applyList generation summaries =>
    intro summary hsummary known
    unfold VolumeRow.HasName
    rw [VolumeRow.volumeName_keepUse]
    exact h summary hsummary
  | _ => trivial

namespace VolumesState

variable {s t : VolumesState} {name : String}

/-! ## What is visible -/

theorem visibleRowExists_iff :
    s.visibleRowExists name = true ↔ name ≠ "" ∧ name ∈ volumeNames s.visibleRows := by
  unfold visibleRowExists volumeNames
  rw [Bool.and_eq_true, decide_eq_true_eq, List.any_eq_true, List.mem_map]
  simp only [decide_eq_true_eq]

theorem sourceRowExists_iff :
    s.sourceRowExists name = true ↔ name ≠ "" ∧ name ∈ volumeNames s.sourceRows := by
  unfold sourceRowExists volumeNames
  rw [Bool.and_eq_true, decide_eq_true_eq, List.any_eq_true, List.mem_map]
  simp only [decide_eq_true_eq]

theorem usable_iff : s.Usable ↔ (s.visibleRows = [] ∧ s.selectedVolumeName = "") ∨
    s.visibleRowExists s.selectedVolumeName = true := by
  unfold Usable beginSelectedInspect
  refine or_congr_right ⟨fun ⟨hmem, hsome⟩ => ?_, fun hvisible => ?_⟩
  · split at hsome
    · cases hsome
    · next hcurrent =>
      rw [not_or, not_not] at hcurrent
      exact hcurrent.2
  · obtain ⟨hname, hmem⟩ := visibleRowExists_iff.mp hvisible
    refine ⟨hmem, ?_⟩
    rw [if_neg (not_or.mpr ⟨hname, not_not_intro hvisible⟩)]
    rfl

theorem usable_of_names (hvisible : volumeNames s.visibleRows = volumeNames t.visibleRows)
    (hname : name ≠ "") (hselected : s.selectedVolumeName = name)
    (hmem : name ∈ volumeNames t.visibleRows) : s.Usable := by
  rw [usable_iff, visibleRowExists_iff, hselected, hvisible]
  exact .inr ⟨hname, hmem⟩

theorem usable_of_none (hvisible : volumeNames s.visibleRows = volumeNames t.visibleRows)
    (hselected : s.selectedVolumeName = "") (hnone : t.visibleRows = []) : s.Usable := by
  refine .inl ⟨?_, hselected⟩
  rw [hnone] at hvisible
  exact List.map_eq_nil_iff.mp hvisible

variable [PageText]

theorem mem_visibleNames_iff : name ∈ volumeNames s.rebuildVisible.visibleRows ↔
    ∃ row ∈ s.sourceRows, s.shows row = true ∧ row.volumeName = name := by
  unfold rebuildVisible
  rw [visibleNames_sync]
  unfold volumeNames
  simp only [List.mem_map, List.mem_mergeSort, List.mem_filter, and_assoc]

theorem shows_of_no_search (hlower : PageText.lowercase "" = "") (hquery : s.searchQuery = "")
    (row : VolumeRow) : s.shows row = true := by
  unfold shows
  rw [hquery, hlower]
  rfl

theorem mem_visibleNames_of_no_search (hlower : PageText.lowercase "" = "")
    (hquery : s.searchQuery = "") (h : name ∈ volumeNames s.sourceRows) :
    name ∈ volumeNames s.rebuildVisible.visibleRows := by
  obtain ⟨row, hrow, hname⟩ := List.mem_map.mp h
  exact mem_visibleNames_iff.mpr ⟨row, hrow, shows_of_no_search hlower hquery row, hname⟩

omit [PageText] in
theorem name_ne_of_mem (h : s.AllRows VolumeRow.HasName) (hmem : name ∈ volumeNames s.sourceRows) :
    name ≠ "" := by
  obtain ⟨row, hrow, rfl⟩ := List.mem_map.mp hmem
  exact h.1 row hrow

omit [PageText] in
theorem head_cases (hnamed : ∀ name ∈ volumeNames s.visibleRows, name ≠ "") :
    (s.visibleRows.head?.map (·.volumeName) = none ∧ s.visibleRows = []) ∨
      ∃ name, s.visibleRows.head?.map (·.volumeName) = some name ∧ name ≠ "" ∧
        name ∈ volumeNames s.visibleRows := by
  cases hrows : s.visibleRows with
  | nil => exact .inl ⟨rfl, rfl⟩
  | cons row rows =>
    have hmem : row.volumeName ∈ volumeNames (row :: rows) := List.mem_cons_self
    exact .inr ⟨row.volumeName, rfl, hnamed _ (by rw [hrows]; exact hmem), hmem⟩

/-! ## A new list -/

def listed (s : VolumesState) (summaries : List VolumeSummary) : VolumesState :=
  { s.receiveList summaries with preferredVolumeName := "" }

variable {summaries : List VolumeSummary}

theorem applyList_eq {generation : UInt64}
    (haccepted : (s.applyList generation summaries).1 = true) :
    (s.applyList generation summaries).2 =
      (match (s.listed summaries).desiredAfterList s.preferredVolumeName s.selectedVolumeName with
        | some name => (s.listed summaries).setSelectionWithoutInspect name
        | none => (s.listed summaries).clearSelection).syncDynamicRoles := by
  unfold applyList at haccepted ⊢
  split at haccepted
  · cases haccepted
  · next hcurrent =>
    rw [if_neg hcurrent]
    rfl

theorem shows_keepUse (known : Option Bool) (row : VolumeRow) :
    s.shows (row.keepUse known) = s.shows row := by
  cases known <;> rfl

theorem mem_listedNames_iff : name ∈ volumeNames (s.listed summaries).sourceRows ↔
      ∃ summary ∈ summaries, summary.name = name := by
  unfold listed receiveList
  dsimp only
  rw [sourceNames_rebuildVisible]
  unfold volumeNames
  rw [List.map_map, List.mem_map]
  refine exists_congr fun summary => and_congr_right fun _ => ?_
  exact (VolumeRow.volumeName_keepUse _ (.fromSummary summary)).congr_left

theorem mem_listedVisible_iff : name ∈ volumeNames (s.listed summaries).visibleRows ↔
      ∃ summary ∈ summaries, summary.name = name ∧ s.shows (.fromSummary summary) = true := by
  unfold listed receiveList
  dsimp only
  rw [mem_visibleNames_iff]
  constructor
  · rintro ⟨row, hrow, hshown, rfl⟩
    obtain ⟨summary, hsummary, rfl⟩ := List.mem_map.mp hrow
    exact ⟨summary, hsummary,
      (VolumeRow.volumeName_keepUse _ (.fromSummary summary)).symm,
      (shows_keepUse _ (.fromSummary summary)).symm.trans hshown⟩
  · rintro ⟨summary, hsummary, rfl, hshown⟩
    exact ⟨_, List.mem_map_of_mem hsummary,
      (shows_keepUse _ (.fromSummary summary)).trans hshown,
      VolumeRow.volumeName_keepUse _ (.fromSummary summary)⟩

/-- **After a new list** a visible row is selected, unless the preferred volume is in the list
and hidden. -/
theorem usable_applyList_iff (hlower : PageText.lowercase "" = "") {generation : UInt64}
    (hnames : ∀ summary ∈ summaries, summary.name ≠ "")
    (haccepted : (s.applyList generation summaries).1 = true) :
    (s.applyList generation summaries).2.Usable ↔
      (VolumesCall.applyList generation summaries).PreferredShown s := by
  have hsource : ∀ name ∈ volumeNames (s.listed summaries).sourceRows, name ≠ "" := by
    intro name hname
    obtain ⟨summary, hsummary, rfl⟩ := mem_listedNames_iff.mp hname
    exact hnames summary hsummary
  have hvisible : ∀ name ∈ volumeNames (s.listed summaries).visibleRows,
      name ∈ volumeNames (s.listed summaries).sourceRows := visible_receiveList summaries
  have hselect : ∀ {name}, name ≠ "" →
      (((s.listed summaries).setSelectionWithoutInspect name).syncDynamicRoles.Usable ↔
        name ∈ volumeNames (s.listed summaries).visibleRows) := by
    intro name hname
    constructor
    · rintro (⟨-, hempty⟩ | ⟨hmem, -⟩)
      · exact absurd hempty hname
      · rw [visibleNames_sync] at hmem
        exact hmem
    · exact usable_of_names visibleNames_sync hname rfl
  rw [applyList_eq haccepted]
  unfold desiredAfterList
  by_cases hpreferred : s.preferredVolumeName ≠ "" ∧
      (s.listed summaries).sourceRowExists s.preferredVolumeName = true
  · rw [if_pos hpreferred]
    have hlisted := mem_listedNames_iff.mp (mem_of_sourceRowExists hpreferred.2)
    refine (hselect hpreferred.1).trans (mem_listedVisible_iff.trans ?_)
    exact ⟨fun hshown _ _ => hshown, fun h => h hpreferred.1 hlisted⟩
  · -- another row is taken, which is looked for among the visible ones
    have htrivial : (VolumesCall.applyList generation summaries).PreferredShown s := by
      intro hname hlisted
      exact absurd ⟨hname,
        sourceRowExists_iff.mpr ⟨hname, mem_listedNames_iff.mpr hlisted⟩⟩ hpreferred
    refine iff_of_true ?_ htrivial
    rw [if_neg hpreferred]
    split
    · next name hdesired =>
      have hmem : name ≠ "" ∧ name ∈ volumeNames (s.listed summaries).visibleRows := by
        split at hdesired
        · next hprevious =>
          cases hdesired
          exact visibleRowExists_iff.mp hprevious
        · split at hdesired
          · next hbefore =>
            cases hdesired
            -- without a search every row of the list is visible
            obtain ⟨hquery, hname, hexists⟩ := hbefore
            obtain ⟨summary, hsummary, hsame⟩ :=
              mem_listedNames_iff.mp (mem_of_sourceRowExists hexists)
            exact ⟨hname, mem_listedVisible_iff.mpr
              ⟨summary, hsummary, hsame, shows_of_no_search hlower hquery _⟩⟩
          · have hmem := mem_of_head hdesired
            exact ⟨hsource _ (hvisible _ hmem), hmem⟩
      exact (hselect hmem.1).mpr hmem.2
    · next hdesired =>
      split at hdesired
      · cases hdesired
      · split at hdesired
        · cases hdesired
        · rcases head_cases fun name hmem => hsource name (hvisible name hmem) with
            ⟨-, hnone⟩ | ⟨name, hsome, -⟩
          · exact usable_of_none (visibleNames_sync.trans visibleNames_sync) rfl hnone
          · rw [hsome] at hdesired
            cases hdesired

/-! ## A search, and a removal -/

omit [PageText] in
theorem usable_changeAutomaticSelection {desired : Option String}
    (hsome : ∀ name, desired = some name → name ≠ "" ∧ name ∈ volumeNames s.visibleRows)
    (hnone : desired = none → s.visibleRows = []) :
    (s.changeAutomaticSelection desired).2.Usable := by
  unfold changeAutomaticSelection
  split
  · next name =>
    obtain ⟨hname, hmem⟩ := hsome name rfl
    split
    · next hsame => exact usable_of_names visibleNames_sync hname hsame.symm hmem
    · exact usable_of_names visibleNames_sync hname rfl hmem
  · split
    · next hempty => exact usable_of_none visibleNames_sync hempty (hnone rfl)
    · exact usable_of_none visibleNames_sync rfl (hnone rfl)

/-- **After a search** a visible row is selected. -/
theorem usable_setSearchQuery (hlower : PageText.lowercase "" = "")
    (h : s.AllRows VolumeRow.HasName) (query : String) : (s.setSearchQuery query).2.Usable := by
  unfold setSearchQuery
  dsimp only
  generalize hfiltered : (if s.searchQuery = "" ∧ trim query ≠ "" then
    { s with selectionBeforeFilter := s.selectedVolumeName } else s) = t
  have hnamed : t.AllRows VolumeRow.HasName := by
    subst hfiltered
    split
    · exact h
    · exact h
  generalize hsearched : { t with searchQuery := trim query }.rebuildVisible = u
  have hsource : ∀ name ∈ volumeNames u.sourceRows, name ≠ "" := by
    subst hsearched
    exact fun name => name_ne_of_mem (AllRows.rebuildVisible keptByRows_hasName hnamed.1)
  have hvisible : ∀ name ∈ volumeNames u.visibleRows, name ∈ volumeNames u.sourceRows := by
    subst hsearched
    intro name hname
    rw [sourceNames_rebuildVisible]
    exact visibleNames_rebuildVisible hname
  have hshown : trim query = "" → ∀ name ∈ volumeNames u.sourceRows,
      name ∈ volumeNames u.visibleRows := by
    subst hsearched
    intro hquery name hname
    rw [sourceNames_rebuildVisible] at hname
    exact mem_visibleNames_of_no_search hlower hquery hname
  refine usable_changeAutomaticSelection (fun name hdesired => ?_) fun hdesired => ?_
  · split at hdesired
    · next hbefore =>
      cases hdesired
      obtain ⟨hquery, hname, hexists⟩ := hbefore
      exact ⟨hname, hshown hquery _ (mem_of_sourceRowExists hexists)⟩
    · split at hdesired
      · next hprevious =>
        cases hdesired
        exact visibleRowExists_iff.mp hprevious
      · have hmem := mem_of_head hdesired
        exact ⟨hsource _ (hvisible _ hmem), hmem⟩
  · split at hdesired
    · cases hdesired
    · split at hdesired
      · cases hdesired
      · exact List.head?_eq_none_iff.mp (Option.map_eq_none_iff.mp hdesired)

/-- **After its removal** another row is selected. -/
theorem usable_removeLocal (h : s.AllRows VolumeRow.HasName) :
    (s.removeLocal s.selectedVolumeName).2.Usable := by
  have hnamed : (s.forget s.selectedVolumeName).AllRows VolumeRow.HasName :=
    AllRows.rebuildVisible keptByRows_hasName fun row hrow => h.1 row (List.mem_of_mem_filter hrow)
  unfold removeLocal
  dsimp only
  rw [if_pos (show (s.forget s.selectedVolumeName).selectedVolumeName =
    s.selectedVolumeName from rfl)]
  split
  · next neighbour hneighbour =>
    have hmem : neighbour.volumeName ∈ volumeNames (s.forget s.selectedVolumeName).visibleRows :=
      List.mem_map_of_mem (List.mem_of_getElem? hneighbour)
    have hname : neighbour.volumeName ≠ "" := by
      refine name_ne_of_mem hnamed ?_
      unfold forget at hmem ⊢
      rw [sourceNames_rebuildVisible]
      exact visibleNames_rebuildVisible hmem
    exact usable_of_names visibleNames_sync hname rfl hmem
  · next hnone =>
    have hempty : (s.forget s.selectedVolumeName).visibleRows = [] := by
      rw [List.getElem?_eq_none_iff] at hnone
      rw [← List.length_eq_zero_iff]
      omega
    exact usable_of_none visibleNames_sync rfl hempty

end VolumesState

/-! ## Runs -/

section Runs

variable [PageText]

theorem VolumesRun.rows_named {r : VolumesRun}
    (hr : volumesPage.Reach (fun _ call => call.NamesVolumes) r) :
    r.state.AllRows VolumeRow.HasName := by
  refine Machine.Reach.invariant (I := fun r => r.state.AllRows VolumeRow.HasName) ?_ ?_ hr
  · rintro r rfl
    exact VolumesState.allRows_new
  · intro r call r' hnamed hnames hstep
    cases hstep
    exact hnamed.after keptByRows_hasName call hnames.listsOnly

/-- **The selection can be inspected** after every step of a run that selects, exactly when a
new list does not have the preferred volume where the search hides it. -/
theorem selection_usable_iff (hlower : PageText.lowercase "" = "") {r : VolumesRun}
    (hr : volumesPage.Reach (fun _ call => call.NamesVolumes) r) {call : VolumesCall}
    (hnames : call.NamesVolumes) (hselects : call.Selects r.state) :
    (call.after r.state).Usable ↔ call.PreferredShown r.state := by
  have hnamed := VolumesRun.rows_named hr
  cases call with
  | applyList generation summaries =>
    exact VolumesState.usable_applyList_iff hlower hnames hselects
  | setSearchQuery query =>
    exact iff_of_true (VolumesState.usable_setSearchQuery hlower hnamed query) trivial
  | removeLocal name =>
    obtain rfl : name = r.state.selectedVolumeName := hselects
    exact iff_of_true (VolumesState.usable_removeLocal hnamed) trivial
  | _ => exact hselects.elim

end Runs

/-- A volume that is used by nothing. -/
def unusedVolume (name : String) : VolumeSummary where
  name := name
  driver := "local"
  scope := "local"
  mountpoint := none
  createdAt := none
  labels := []
  options := []
  usage := ⟨none, none⟩
  usedBy := []
  anonymous := false

def listedVolumes : List VolumeSummary := [unusedVolume "archive", unusedVolume "database"]

theorem listedVolumes_named : ∀ summary ∈ listedVolumes, summary.name ≠ "" := by
  intro summary hsummary
  rcases List.mem_pair.mp hsummary with rfl | rfl
  · decide
  · decide

/-- A search in the list; and a list with the volume that was just created, which the search
shows. -/
theorem database_selected :
    letI := asciiTexts
    (((VolumesCall.setSearchQuery "database").after
        ((({} : VolumesRun).step .beginRefresh).step (.applyList 1 listedVolumes)).state).Usable ↔
      True) ∧
    ((VolumesCall.applyList 1 listedVolumes).after
      (((({} : VolumesRun).step .beginRefresh).step (.preferVolume "database")).step
        (.setSearchQuery "data")).state).Usable := by
  let texts := asciiTexts
  have hrefresh : volumesPage.Reach (fun _ call => call.NamesVolumes)
      (({} : VolumesRun).step .beginRefresh) :=
    .step (a := .beginRefresh) (.init rfl) trivial rfl
  have hlisted : volumesPage.Reach (fun _ call => call.NamesVolumes)
      ((({} : VolumesRun).step .beginRefresh).step (.applyList 1 listedVolumes)) :=
    .step (a := .applyList 1 listedVolumes) hrefresh listedVolumes_named rfl
  have hsearched : volumesPage.Reach (fun _ call => call.NamesVolumes)
      (((({} : VolumesRun).step .beginRefresh).step (.preferVolume "database")).step
        (.setSearchQuery "data")) :=
    .step (a := .setSearchQuery "data")
      (.step (a := .preferVolume "database") hrefresh trivial rfl) trivial rfl
  have hshown : (VolumesCall.applyList 1 listedVolumes).PreferredShown
      (((({} : VolumesRun).step .beginRefresh).step (.preferVolume "database")).step
        (.setSearchQuery "data")).state :=
    fun _ _ => ⟨unusedVolume "database", List.mem_cons_of_mem _ List.mem_cons_self,
      by decide +kernel, by decide +kernel⟩
  have hnames : (VolumesCall.applyList 1 listedVolumes).NamesVolumes := listedVolumes_named
  have htaken : (VolumesCall.applyList 1 listedVolumes).Selects
      (((({} : VolumesRun).step .beginRefresh).step (.preferVolume "database")).step
        (.setSearchQuery "data")).state := by
    show _ = true
    decide +kernel
  exact ⟨selection_usable_iff rfl hlisted trivial trivial,
    (selection_usable_iff rfl hsearched hnames htaken).mpr hshown⟩

/-- `archive` was just created, and a search for `database` is entered before the list arrives:
the page selects `archive`, which is not visible. -/
theorem hidden_volume_selected :
    letI := asciiTexts
    ¬ ((VolumesCall.applyList 1 listedVolumes).after
        (((({} : VolumesRun).step .beginRefresh).step (.preferVolume "archive")).step
          (.setSearchQuery "database")).state).Usable := by
  let texts := asciiTexts
  generalize hstate : ((((({} : VolumesRun).step .beginRefresh).step (.preferVolume "archive")).step
    (.setSearchQuery "database")).state) = s
  have hpreferred : s.preferredVolumeName = "archive" := by
    subst hstate
    decide +kernel
  have haccepted : (s.applyList 1 listedVolumes).1 = true := by
    subst hstate
    decide +kernel
  have hhidden : s.shows (.fromSummary (unusedVolume "archive")) = false := by
    subst hstate
    decide +kernel
  intro husable
  obtain ⟨summary, hsummary, hname, hshown⟩ :=
    (VolumesState.usable_applyList_iff rfl listedVolumes_named haccepted).mp husable
      (by rw [hpreferred]; decide) ⟨unusedVolume "archive", List.mem_cons_self, hpreferred.symm⟩
  rw [hpreferred] at hname
  rcases List.mem_pair.mp hsummary with rfl | rfl
  · rw [hhidden] at hshown
    cases hshown
  · revert hname
    decide

end TuxStack.Gui
