import TuxStack.Gui.VolumeUpdates
import TuxStack.Lib.DetailPanel

/-!
# Details of the selected volume

The Volumes page as a `DetailPanel`: the selection is a volume of the list, and every
operation that moves it gives up the details.
-/

namespace TuxStack.Gui

open Runs
open Guards (guarded)

def volumeNames (rows : List VolumeRow) : List String := rows.map (·.volumeName)

namespace VolumesState

def Showing (s : VolumesState) : Prop := s.detailState = .ready ∨ s.detailState = .error

/-- This result is shown. -/
def Shows (s : VolumesState) : VolumeDetail ⊕ DaemonError → Prop
  | .inl detail => s.detailState = .ready ∧ s.detail = some (.fromDetail detail)
  | .inr error =>
    s.detailState = .error ∧ s.detail = none ∧
      (s.detailErrorKind, s.detailErrorMessage) =
        ((friendlyVolumeError error .detail).1, (friendlyVolumeError error .detail).2.1)

/-- The selected name is empty or names a row. -/
def SelectionKnown (s : VolumesState) : Prop :=
  s.selectedVolumeName = "" ∨ s.selectedVolumeName ∈ volumeNames s.sourceRows

structure Named (s : VolumesState) : Prop where
  selected : s.SelectionKnown
  visible : ∀ name ∈ volumeNames s.visibleRows, name ∈ volumeNames s.sourceRows

/-- A result of an inspect, which the page receives from outside. -/
def IsResult : VolumesCall → Bool
  | .applyDetail _ _ => true
  | .applyDetailError _ _ => true
  | _ => false

def inspects [PageText] (s : VolumesState) : VolumesCall → Option UInt64
  | .setSearchQuery query => (s.setSearchQuery query).1
  | .select name => (s.select name).1
  | .beginSelectedInspect => s.beginSelectedInspect.1
  | .removeLocal name => (s.removeLocal name).1
  | _ => none

def panel [PageText] : DetailPanel VolumesState { call : VolumesCall // IsResult call = false }
    UInt64 String VolumeDetail DaemonError where
  call s call := call.1.after s
  starts s call := s.inspects call.1
  applyDetail := applyDetail
  applyError := applyDetailError
  selected := selectedVolumeName
  resource detail := detail.summary.name
  showing := Showing
  shows := Shows
  takesError s generation := generation = s.detailGeneration ∧ s.selectedVolumeName ≠ ""

/-- What an operation makes of `s`: the selection stays known, and the details go with it. -/
abbrev Follows [PageText] (s t : VolumesState) : Prop := panel.Follows Named s t

variable {s t : VolumesState} {name : String}

/-! ## Rows and names -/

theorem volumeNames_map {f : VolumeRow → VolumeRow}
    (hf : ∀ row, (f row).volumeName = row.volumeName)
    (rows : List VolumeRow) : volumeNames (rows.map f) = volumeNames rows := by
  unfold volumeNames
  rw [List.map_map]
  exact List.map_congr_left fun row _ => hf row

theorem sourceNames_sync : volumeNames s.syncDynamicRoles.sourceRows = volumeNames s.sourceRows :=
  volumeNames_map (f := s.syncRow) (fun _ => rfl) _

theorem visibleNames_sync :
    volumeNames s.syncDynamicRoles.visibleRows = volumeNames s.visibleRows :=
  volumeNames_map (f := s.syncRow) (fun _ => rfl) _

theorem Named.sync (h : s.Named) : s.syncDynamicRoles.Named := by
  refine ⟨?_, fun name hname => ?_⟩
  · unfold SelectionKnown
    rw [sourceNames_sync]
    exact h.selected
  · rw [sourceNames_sync]
    rw [visibleNames_sync] at hname
    exact h.visible name hname

theorem sourceNames_rebuildVisible [PageText] :
    volumeNames s.rebuildVisible.sourceRows = volumeNames s.sourceRows := sourceNames_sync

theorem visibleNames_rebuildVisible [PageText]
    (h : name ∈ volumeNames s.rebuildVisible.visibleRows) :
    name ∈ volumeNames s.sourceRows := by
  unfold rebuildVisible at h
  rw [visibleNames_sync] at h
  obtain ⟨row, hrow, rfl⟩ := List.mem_map.mp h
  exact List.mem_map_of_mem (List.mem_of_mem_filter (List.mem_mergeSort.mp hrow))

theorem named_rebuildVisible [PageText] (h : s.SelectionKnown) : s.rebuildVisible.Named := by
  refine ⟨?_, fun name hname => ?_⟩
  · show s.selectedVolumeName = "" ∨ s.selectedVolumeName ∈ volumeNames s.rebuildVisible.sourceRows
    rw [sourceNames_rebuildVisible]
    exact h
  · rw [sourceNames_rebuildVisible]
    exact visibleNames_rebuildVisible hname

theorem mem_of_visibleRowExists (h : s.visibleRowExists name = true) :
    name ∈ volumeNames s.visibleRows := by
  obtain ⟨row, hrow, hname⟩ := List.any_eq_true.mp (Bool.and_elim_right h)
  exact List.mem_map.mpr ⟨row, hrow, of_decide_eq_true hname⟩

theorem mem_of_sourceRowExists (h : s.sourceRowExists name = true) :
    name ∈ volumeNames s.sourceRows := by
  obtain ⟨row, hrow, hname⟩ := List.any_eq_true.mp (Bool.and_elim_right h)
  exact List.mem_map.mpr ⟨row, hrow, of_decide_eq_true hname⟩

theorem mem_of_head (h : s.visibleRows.head?.map (·.volumeName) = some name) :
    name ∈ volumeNames s.visibleRows := by
  obtain ⟨row, hrow, rfl⟩ := Option.map_eq_some_iff.mp h
  exact List.mem_map_of_mem (List.mem_of_head? hrow)

/-! ## The operations on the list -/

variable [PageText]

theorem Named.follows_refl (h : s.Named) : s.Follows s := DetailPanel.follows_refl h

/-- The rows and the details that the page shows. -/
def viewed : panel.Viewed Named VolumeDetailState VolumeDetailView where
  rows s := (volumeNames s.sourceRows, volumeNames s.visibleRows)
  details s :=
    ⟨s.selectedVolumeName, s.detailState, s.detail, (s.detailErrorKind, s.detailErrorMessage)⟩
  unselected := ""
  ready := .ready
  failed := .error
  ofDetail := .fromDetail
  ofError := fun error =>
    ((friendlyVolumeError error .detail).1, (friendlyVolumeError error .detail).2.1)
  named_iff _ := ⟨fun h => ⟨h.selected, h.visible⟩, fun h => ⟨h.1, h.2⟩⟩
  showing_iff _ := Iff.rfl
  selected_eq _ := rfl
  shows_detail _ _ := Iff.rfl
  shows_error _ _ := Iff.rfl

theorem Follows.sync (h : s.Follows t) : s.Follows t.syncDynamicRoles :=
  h.trans (viewed.follows h.1.sync rfl)

theorem Follows.rebuildVisible (h : s.Follows t) : s.Follows t.rebuildVisible :=
  h.trans (viewed.follows (named_rebuildVisible h.1.selected) rfl)

theorem follows_clearSelection
    (hvisible : ∀ name ∈ volumeNames t.visibleRows, name ∈ volumeNames t.sourceRows) :
    s.Follows t.clearSelection := by
  have hcleared : ({ t with selectedVolumeName := "" }.invalidateDetail .none).Named :=
    ⟨.inl rfl, hvisible⟩
  exact viewed.hidden hcleared.sync rfl

theorem follows_inspectSelection
    (hvisible : ∀ name ∈ volumeNames t.visibleRows, name ∈ volumeNames t.sourceRows)
    (hname : name ∈ volumeNames t.sourceRows) : s.Follows (t.inspectSelection name).2 := by
  have hselected : { t with selectedVolumeName := name }.Named := ⟨.inr hname, hvisible⟩
  exact viewed.hidden { hselected.sync with }
    rfl

theorem follows_setSelectionWithoutInspect
    (hvisible : ∀ name ∈ volumeNames t.visibleRows, name ∈ volumeNames t.sourceRows)
    (hname : name ∈ volumeNames t.sourceRows) :
    s.Follows (t.setSelectionWithoutInspect name) :=
  viewed.hidden ⟨.inr hname, hvisible⟩ rfl

theorem Named.follows_changeAutomaticSelection (h : s.Named) {desired : Option String}
    (hdesired : ∀ name, desired = some name → name ∈ volumeNames s.sourceRows) :
    s.Follows (s.changeAutomaticSelection desired).2 := by
  unfold changeAutomaticSelection
  split
  · next name =>
    split
    · exact h.follows_refl.sync
    · exact follows_inspectSelection h.visible (hdesired name rfl)
  · split
    · exact h.follows_refl.sync
    · exact follows_clearSelection h.visible

theorem visible_receiveList (summaries : List VolumeSummary) :
    ∀ name ∈ volumeNames (s.receiveList summaries).visibleRows,
      name ∈ volumeNames (s.receiveList summaries).sourceRows := by
  intro name hname
  unfold receiveList at hname ⊢
  rw [show volumeNames _ = _ from sourceNames_rebuildVisible]
  exact visibleNames_rebuildVisible hname

omit [PageText] in
theorem mem_of_desiredAfterList
    (hvisible : ∀ name ∈ volumeNames s.visibleRows, name ∈ volumeNames s.sourceRows)
    {preferred previous : String} (h : s.desiredAfterList preferred previous = some name) :
    name ∈ volumeNames s.sourceRows := by
  unfold desiredAfterList at h
  split at h
  · next hpreferred =>
    cases h
    exact mem_of_sourceRowExists hpreferred.2
  · split at h
    · next hprevious =>
      cases h
      exact hvisible _ (mem_of_visibleRowExists hprevious)
    · split at h
      · next hfilter =>
        cases h
        exact mem_of_sourceRowExists hfilter.2.2
      · exact hvisible _ (mem_of_head h)

theorem Named.follows_applyList (h : s.Named) (generation : UInt64)
    (summaries : List VolumeSummary) : s.Follows (s.applyList generation summaries).2 := by
  unfold applyList
  split
  · exact h.follows_refl
  · have hvisible := visible_receiveList (s := s) summaries
    dsimp only
    split
    · next hdesired =>
      exact Follows.sync (follows_setSelectionWithoutInspect
        (t := { s.receiveList summaries with preferredVolumeName := "" }) hvisible
        (mem_of_desiredAfterList hvisible hdesired))
    · exact Follows.sync (follows_clearSelection
        (t := { s.receiveList summaries with preferredVolumeName := "" }) hvisible)

theorem volumeName_patch (references : AList fun _ : String => List VolumeContainerReference)
    (usage : AList fun _ : String => VolumeUsage) (row : VolumeRow) :
    (row.patch references usage).2.volumeName = row.volumeName := by
  have hreferences : ∀ found : Option (List VolumeContainerReference),
      (row.patchReferences found).2.volumeName = row.volumeName := by
    intro found
    unfold VolumeRow.patchReferences
    split
    · rfl
    · dsimp only
      split
      · rfl
      · rfl
  have hsize : ∀ (found : Option VolumeUsage) (row : VolumeRow),
      (row.patchSize found).2.volumeName = row.volumeName := by
    intro found row
    unfold VolumeRow.patchSize
    split
    · rfl
    · split
      · rfl
      · rfl
  exact (hsize _ _).trans (hreferences _)

theorem Named.follows_patchUsage (h : s.Named)
    (references : AList fun _ : String => List VolumeContainerReference)
    (usage : AList fun _ : String => VolumeUsage) :
    s.Follows (s.patchUsage references usage).2 := by
  refine viewed.follows (named_rebuildVisible ?_) rfl
  show s.selectedVolumeName = "" ∨ s.selectedVolumeName ∈
    volumeNames (s.sourceRows.map fun row => (row.patch references usage).2)
  rw [volumeNames_map (volumeName_patch references usage)]
  exact h.selected

theorem Named.follows_setSearchQuery (h : s.Named) (query : String) :
    s.Follows (s.setSearchQuery query).2 := by
  unfold setSearchQuery
  dsimp only
  generalize hfiltered : (if s.searchQuery = "" ∧ trim query ≠ "" then
    { s with selectionBeforeFilter := s.selectedVolumeName } else s) = t
  have hsame : s.Follows t := by
    subst hfiltered
    split
    · exact viewed.follows_of_same h rfl rfl
    · exact h.follows_refl
  have hquery : s.Follows { t with searchQuery := trim query }.rebuildVisible :=
    Follows.rebuildVisible (viewed.then_same hsame rfl rfl)
  generalize { t with searchQuery := trim query }.rebuildVisible = u at hquery ⊢
  have hbefore : s.Follows { u with
      selectionBeforeFilter := if trim query = "" then "" else u.selectionBeforeFilter } :=
    viewed.then_same hquery rfl rfl
  refine hbefore.trans (hbefore.1.follows_changeAutomaticSelection fun name hdesired => ?_)
  split at hdesired
  · next hbefore =>
    cases hdesired
    exact mem_of_sourceRowExists hbefore.2.2
  · split at hdesired
    · next hprevious =>
      cases hdesired
      exact hquery.1.visible _ (mem_of_visibleRowExists hprevious)
    · exact hquery.1.visible _ (mem_of_head hdesired)

theorem Named.follows_select (h : s.Named) (name : String) : s.Follows (s.select name).2 := by
  refine guarded h.follows_refl fun hvisible => guarded h.follows_refl fun _ => ?_
  exact follows_inspectSelection h.visible
    (h.visible _ (mem_of_visibleRowExists (not_not.mp hvisible)))

theorem Named.follows_beginSelectedInspect (h : s.Named) : s.Follows s.beginSelectedInspect.2 :=
  guarded h.follows_refl fun _ =>
    viewed.hidden { h with } rfl

omit [PageText] in
theorem volumeNames_filter (rows : List VolumeRow) : volumeNames
    (rows.filter (·.volumeName ≠ name)) =
    (volumeNames rows).filter (· ≠ name) := by
  unfold volumeNames
  rw [List.filter_map]
  rfl

theorem Named.follows_removeLocal (h : s.Named) (name : String) :
    s.Follows (s.removeLocal name).2 := by
  have hvisible : ∀ n ∈ volumeNames (s.forget name).visibleRows,
      n ∈ volumeNames (s.forget name).sourceRows := by
    intro n hn
    unfold forget at hn ⊢
    rw [sourceNames_rebuildVisible]
    exact visibleNames_rebuildVisible hn
  have hlist : ∀ {t : VolumesState} {state : VolumesListState}, s.Follows t →
      s.Follows { t with listState := state } := fun hfollows =>
    viewed.then_same hfollows rfl rfl
  unfold removeLocal
  dsimp only
  split
  · split
    · next neighbour hneighbour =>
      exact hlist (follows_inspectSelection hvisible
        (hvisible _ (List.mem_map_of_mem (List.mem_of_getElem? hneighbour))))
    · exact hlist (follows_clearSelection hvisible)
  · next hne =>
    have hkept : (s.forget name).SelectionKnown := by
      rcases h.selected with hempty | hmem
      · exact .inl hempty
      · refine .inr ?_
        unfold forget
        rw [sourceNames_rebuildVisible]
        show s.selectedVolumeName ∈ volumeNames (s.sourceRows.filter (·.volumeName ≠ name))
        rw [volumeNames_filter, List.mem_filter, decide_eq_true_eq]
        exact ⟨hmem, hne⟩
    have hforget : s.Follows (s.forget name) :=
      viewed.follows ⟨hkept, hvisible⟩ rfl
    exact hlist hforget.sync

theorem Updates.follows (hupdates : s.Updates t) (h : s.Named) : s.Follows t := by
  induction hupdates with
  | refl => exact h.follows_refl
  | @set t u _ same ih =>
    refine viewed.then_same ih ?_ ?_
    · exact congrArg (fun x => (volumeNames x.1, volumeNames x.2.1)) same
    · exact congrArg (fun x =>
        DetailPanel.Details.mk x.2.2.1 x.2.2.2.1 x.2.2.2.2.1 x.2.2.2.2.2) same
  | sync _ ih => exact ih.sync
  | rebuildVisible _ ih => exact ih.rebuildVisible

/-! ## The laws -/

theorem Named.follows_after (h : s.Named) {call : VolumesCall} (hcall : IsResult call = false) :
    s.Follows (call.after s) := by
  cases call with
  | beginRefresh =>
    exact viewed.hidden { h with } rfl
  | applyList generation summaries => exact h.follows_applyList generation summaries
  | applyListError generation error =>
    exact viewed.follows_listError h
      (follows_clearSelection (t := { s with sourceRows := [], visibleRows := [] })
      (by simp [volumeNames])) rfl rfl
  | patchUsage references usage => exact h.follows_patchUsage references usage
  | setSearchQuery query => exact h.follows_setSearchQuery query
  | select name => exact h.follows_select name
  | beginSelectedInspect => exact h.follows_beginSelectedInspect
  | clearSelection => exact follows_clearSelection h.visible
  | applyDetail generation detail | applyDetailError generation error => cases hcall
  | removeLocal name => exact h.follows_removeLocal name
  | _ => exact (updates_after rfl).follows h

omit [PageText] in
theorem volumeNames_replaceRow (row : VolumeRow) (hrow : row.volumeName = name)
    (rows : List VolumeRow) : volumeNames (replaceRow name row rows) = volumeNames rows := by
  induction rows with
  | nil => rfl
  | cons first rest ih =>
    unfold replaceRow
    split
    · next hfirst =>
      show row.volumeName :: _ = first.volumeName :: _
      rw [hrow, hfirst]
    · exact congrArg (first.volumeName :: ·) ih

/-- **A detail** is taken for the selected volume only. -/
theorem Named.applyDetail_taken (h : s.Named) {generation : UInt64} {detail : VolumeDetail}
    (htaken : (s.applyDetail generation detail).1 = true) :
    (s.applyDetail generation detail).2.Named ∧ detail.summary.name = s.selectedVolumeName ∧
      (s.applyDetail generation detail).2.selectedVolumeName = s.selectedVolumeName ∧
      (s.applyDetail generation detail).2.Shows (.inl detail) := by
  unfold applyDetail at htaken ⊢
  split at htaken
  · cases htaken
  · next hcurrent =>
    rw [if_neg hcurrent]
    rw [not_or, not_or, not_not, not_not] at hcurrent
    have hrows : Named (rebuildVisible { s with
        sourceRows := replaceRow detail.summary.name (.fromSummary detail.summary)
          s.sourceRows }) := by
      refine named_rebuildVisible ?_
      have hnames : volumeNames (replaceRow detail.summary.name (.fromSummary detail.summary)
          s.sourceRows) = volumeNames s.sourceRows :=
          volumeNames_replaceRow (.fromSummary detail.summary) rfl _
      show s.selectedVolumeName = "" ∨ s.selectedVolumeName ∈ volumeNames (replaceRow _ _ _)
      rw [hnames]
      exact h.selected
    exact ⟨Named.sync { hrows with }, hcurrent.2.1, rfl, rfl, rfl⟩

omit [PageText] in
theorem applyDetailError_eq {generation : UInt64} (error : DaemonError)
    (htakes : generation = s.detailGeneration ∧ s.selectedVolumeName ≠ "") :
    s.applyDetailError generation error = (true, { s with
      detail := none
      detailState := .error
      detailErrorKind := (friendlyVolumeError error .detail).1
      detailErrorMessage := (friendlyVolumeError error .detail).2.1 }) :=
  if_neg (not_or.mpr ⟨not_not_intro htakes.1, htakes.2⟩)

theorem lawful_panel : panel.Lawful Named where
  call_follows operation h := h.follows_after operation.2
  detail_refused := Guards.refused
  detail_taken h htaken := h.applyDetail_taken htaken
  error_refused _ hrefused := if_pos ((not_and_or.mp hrefused).imp_right not_not.mp)
  error_taken error h htakes := viewed.error_taken h (applyDetailError_eq error htakes) rfl rfl

end VolumesState

end TuxStack.Gui
