import TuxStack.Gui.VolumeUpdates

/-!
# Rows of the Volumes page

What holds of every row of the list of volumes all along a run (`AllRows.after`): the
operations make new rows from summaries, patch what is known about the use of a volume and
its size, and write the selection and the running operations into the rows.
-/

namespace TuxStack.Gui

open Guards (guarded)

structure KeptByRows [PageText] (P : VolumeRow → Prop) : Prop where
  sync : ∀ (s : VolumesState) (row : VolumeRow), P row → P (s.syncRow row)
  patch : ∀ (references : AList fun _ : String => List VolumeContainerReference)
    (usage : AList fun _ : String => VolumeUsage) (row : VolumeRow),
    P row → P (row.patch references usage).2
  detail : ∀ summary : VolumeSummary, summary.name ≠ "" → P (.fromSummary summary)

/-- The rows that a list gives. -/
def VolumesCall.ListsOnly [PageText] (P : VolumeRow → Prop) : VolumesCall → Prop
  | .applyList _ summaries =>
    ∀ summary ∈ summaries, ∀ known, P ((VolumeRow.fromSummary summary).keepUse known)
  | _ => True

namespace VolumesState

/-- Every row of the list has the property, and the visible rows are rows of the list. -/
def AllRows (P : VolumeRow → Prop) (s : VolumesState) : Prop :=
  (∀ row ∈ s.sourceRows, P row) ∧ ∀ row ∈ s.visibleRows, row ∈ s.sourceRows

theorem allRows_new {P : VolumeRow → Prop} : ({} : VolumesState).AllRows P :=
  ⟨fun row hrow => (by cases hrow), fun row hrow => (by cases hrow)⟩

variable [PageText] {P : VolumeRow → Prop} {s t : VolumesState}

namespace AllRows

section

variable (hP : KeptByRows P) (h : s.AllRows P)

include h

omit [PageText] in
theorem of_same (hshown : t.shown = s.shown) : t.AllRows P := by
  unfold AllRows
  rw [show t.sourceRows = s.sourceRows from congrArg Prod.fst hshown,
    show t.visibleRows = s.visibleRows from congrArg (·.2.1) hshown]
  exact h

include hP

theorem sync : s.syncDynamicRoles.AllRows P := by
  constructor
  · intro row hrow
    obtain ⟨old, hold, rfl⟩ := List.mem_map.mp hrow
    exact hP.sync s old (h.1 old hold)
  · intro row hrow
    obtain ⟨old, hold, rfl⟩ := List.mem_map.mp hrow
    exact List.mem_map_of_mem (h.2 old hold)

omit h in
theorem rebuildVisible (hrows : ∀ row ∈ s.sourceRows, P row) : s.rebuildVisible.AllRows P := by
  have hfiltered : { s with
      visibleRows := (s.sourceRows.filter s.shows).mergeSort fun left right =>
        (VolumeRow.compareRows s.sortMode left right).isLE }.AllRows P :=
    ⟨hrows, fun row hrow => List.mem_of_mem_filter (List.mem_mergeSort.mp hrow)⟩
  exact hfiltered.sync hP

theorem clearSelection : s.clearSelection.AllRows P := by
  have hsame : ({ s with selectedVolumeName := "" }.invalidateDetail .none).AllRows P := h
  exact hsame.sync hP

theorem inspectSelection (name : String) : (s.inspectSelection name).2.AllRows P := by
  have hsame : { s with selectedVolumeName := name }.AllRows P := h
  exact hsame.sync hP

theorem changeAutomaticSelection (desired : Option String) :
    (s.changeAutomaticSelection desired).2.AllRows P := by
  unfold VolumesState.changeAutomaticSelection
  split
  · next name =>
    split
    · exact h.sync hP
    · exact h.inspectSelection hP name
  · split
    · exact h.sync hP
    · exact h.clearSelection hP

theorem applyList (generation : UInt64) {summaries : List VolumeSummary}
    (hlist : ∀ summary ∈ summaries, ∀ known, P ((VolumeRow.fromSummary summary).keepUse known)) :
    (s.applyList generation summaries).2.AllRows P := by
  have hrows : (s.receiveList summaries).AllRows P := by
    unfold receiveList
    dsimp only
    refine AllRows.rebuildVisible hP fun row hrow => ?_
    obtain ⟨summary, hsummary, rfl⟩ := List.mem_map.mp hrow
    exact hlist summary hsummary _
  have hplain : { s.receiveList summaries with preferredVolumeName := "" }.AllRows P := hrows
  unfold VolumesState.applyList
  split
  · exact h
  · dsimp only
    split
    · exact AllRows.sync (s := setSelectionWithoutInspect _ _) hP hplain
    · exact AllRows.sync hP (hplain.clearSelection hP)

omit [PageText] hP in
theorem applyListError (generation : UInt64) (error : DaemonError) :
    (s.applyListError generation error).2.AllRows P :=
  guarded (P := AllRows P) h fun _ =>
    ⟨fun row hrow => (by cases hrow), fun row hrow => (by cases hrow)⟩

theorem patchUsage (references : AList fun _ : String => List VolumeContainerReference)
    (usage : AList fun _ : String => VolumeUsage) :
    (s.patchUsage references usage).2.AllRows P := by
  unfold VolumesState.patchUsage
  refine AllRows.rebuildVisible hP fun row hrow => ?_
  obtain ⟨old, hold, rfl⟩ := List.mem_map.mp hrow
  exact hP.patch references usage old (h.1 old hold)

theorem setSearchQuery (query : String) : (s.setSearchQuery query).2.AllRows P := by
  unfold VolumesState.setSearchQuery
  dsimp only
  generalize hfiltered : (if s.searchQuery = "" ∧ trim query ≠ "" then
    { s with selectionBeforeFilter := s.selectedVolumeName } else s) = t
  have hsame : t.AllRows P := by
    subst hfiltered
    split
    · exact h
    · exact h
  have hquery : (VolumesState.rebuildVisible { t with searchQuery := trim query }).AllRows P :=
    rebuildVisible hP hsame.1
  generalize VolumesState.rebuildVisible { t with searchQuery := trim query } = u at hquery ⊢
  have hbefore : { u with
      selectionBeforeFilter :=
        if trim query = "" then "" else u.selectionBeforeFilter }.AllRows P := hquery
  exact hbefore.changeAutomaticSelection hP _

theorem select (name : String) : (s.select name).2.AllRows P :=
  guarded (P := AllRows P) h fun _ => guarded (P := AllRows P) h fun _ => h.inspectSelection hP name

theorem applyDetail (generation : UInt64) (detail : VolumeDetail) :
    (s.applyDetail generation detail).2.AllRows P := by
  unfold VolumesState.applyDetail
  split
  · exact h
  · next hcurrent =>
    have hname : detail.summary.name ≠ "" := by
      rw [not_or, not_or, not_not, not_not, not_not] at hcurrent
      exact of_decide_eq_true (Bool.and_elim_left hcurrent.2.2)
    have hreplace : ∀ rows : List VolumeRow, (∀ row ∈ rows, P row) →
        ∀ row ∈ replaceRow detail.summary.name (.fromSummary detail.summary) rows, P row := by
      intro rows hrows
      induction rows with
      | nil => exact hrows
      | cons first rest ih =>
        obtain ⟨hfirst, hrest⟩ := List.forall_mem_cons.mp hrows
        unfold replaceRow
        split
        · exact List.forall_mem_cons.mpr ⟨hP.detail _ hname, hrest⟩
        · exact List.forall_mem_cons.mpr ⟨hfirst, ih hrest⟩
    have hrows : (VolumesState.rebuildVisible { s with
        sourceRows := replaceRow detail.summary.name (.fromSummary detail.summary)
          s.sourceRows }).AllRows P := rebuildVisible hP (hreplace _ h.1)
    exact sync hP hrows

theorem removeLocal (name : String) : (s.removeLocal name).2.AllRows P := by
  have hforget : (s.forget name).AllRows P :=
    rebuildVisible hP fun row hrow => h.1 row (List.mem_of_mem_filter hrow)
  unfold VolumesState.removeLocal
  dsimp only
  split
  · split
    · exact hforget.inspectSelection hP _
    · exact hforget.clearSelection hP
  · exact hforget.sync hP

theorem updates (hupdates : s.Updates t) : t.AllRows P := by
  induction hupdates with
  | refl => exact h
  | set _ same ih => exact of_same ih same
  | sync _ ih => exact sync hP ih
  | rebuildVisible _ ih => exact rebuildVisible hP ih.1

/-- **What an operation keeps for each row** holds of every row after it. -/
theorem after (call : VolumesCall) (hlist : call.ListsOnly P) : (call.after s).AllRows P := by
  cases call with
  | beginRefresh => exact h
  | applyList generation summaries => exact h.applyList hP generation hlist
  | applyListError generation error => exact h.applyListError generation error
  | patchUsage references usage => exact h.patchUsage hP references usage
  | setSearchQuery query => exact h.setSearchQuery hP query
  | select name => exact h.select hP name
  | beginSelectedInspect | applyDetailError generation error =>
    exact guarded (P := AllRows P) h fun _ => h
  | clearSelection => exact h.clearSelection hP
  | applyDetail generation detail => exact h.applyDetail hP generation detail
  | removeLocal name => exact h.removeLocal hP name
  | _ => exact h.updates hP (updates_after rfl)

end

end AllRows

end VolumesState

end TuxStack.Gui
