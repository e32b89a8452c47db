import TuxStack.Gui.VolumeSelection

/-!
# Usage patches of the Volumes page

`patch_usage` (`crates/gui/src/controllers/volumes.rs`) writes what was found out about the
containers of volumes and their sizes into the rows.

* `patch_complete_iff`: in every state that is reached the rows have what the maps say, and a
  second patch changes nothing, exactly when no row has other containers of the same number:
  such a row is taken for unchanged.
-/

namespace TuxStack.Gui

open Runs

/-- What the background work found out: the containers of volumes, and their sizes. -/
structure UsageMaps where
  references : AList fun _ : String => List VolumeContainerReference
  usage : AList fun _ : String => VolumeUsage

namespace VolumeRow

/-- The containers of a row after a patch. -/
def HasContainers (maps : UsageMaps) (old new : VolumeRow) : Prop :=
  match maps.references.lookup old.volumeName with
  | some containers =>
    new.containers = containers ∧ new.usedByCount = containers.length ∧
      new.inUse = !containers.isEmpty ∧ new.rowSection = usageSection (!containers.isEmpty)
  | none =>
    new.containers = old.containers ∧ new.usedByCount = old.usedByCount ∧
      new.inUse = old.inUse ∧ new.rowSection = old.rowSection

/-- The size of a row after a patch. -/
def HasSize [PageText] (maps : UsageMaps) (old new : VolumeRow) : Prop :=
  match maps.usage.lookup old.volumeName with
  | some usage =>
    new.sizeBytes = usage.sizeBytes ∧ new.sizeKnown = usage.sizeBytes.isSome ∧
      new.sizeText = shownSize usage.sizeBytes
  | none =>
    new.sizeBytes = old.sizeBytes ∧ new.sizeKnown = old.sizeKnown ∧ new.sizeText = old.sizeText

/-- A row with what the maps say. -/
structure Patched [PageText] (maps : UsageMaps) (old new : VolumeRow) : Prop where
  sameName : new.volumeName = old.volumeName
  containers : HasContainers maps old new
  size : HasSize maps old new

/-- A row that has as many containers as the map gives it has these. -/
def NotMistaken (maps : UsageMaps) (row : VolumeRow) : Prop :=
  ∀ containers, maps.references.lookup row.volumeName = some containers →
    row.inUse = !containers.isEmpty → row.usedByCount = containers.length →
      row.containers = containers

end VolumeRow

namespace VolumesState

variable [PageText]

def patchedBy (s : VolumesState) (maps : UsageMaps) : VolumesState :=
  (s.patchUsage maps.references maps.usage).2

/-- **A complete patch**: the rows have what the maps say, the visible ones are rows of the list
before it and after it, and a second one changes no row. -/
structure PatchComplete (s : VolumesState) (maps : UsageMaps) : Prop where
  source : List.Forall₂ (VolumeRow.Patched maps) s.sourceRows (s.patchedBy maps).sourceRows
  visibleBefore : ∀ row ∈ s.visibleRows, row ∈ s.sourceRows
  visibleAfter : ∀ row ∈ (s.patchedBy maps).visibleRows, row ∈ (s.patchedBy maps).sourceRows
  again : ((s.patchedBy maps).patchUsage maps.references maps.usage).1 = 0

end VolumesState

/-! ## Fields that follow from others -/

/-- Section and size are shown as the other fields have them. -/
structure VolumeRow.Derived [PageText] (row : VolumeRow) : Prop where
  rowSection : row.rowSection = usageSection row.inUse
  sizeKnown : row.sizeKnown = row.sizeBytes.isSome
  sizeText : row.sizeText = shownSize row.sizeBytes

namespace VolumeRow

variable [PageText] {row : VolumeRow}

theorem Derived.patchReferences (h : row.Derived)
    (references : Option (List VolumeContainerReference)) :
    (row.patchReferences references).2.Derived := by
  unfold VolumeRow.patchReferences
  split
  · exact h
  · dsimp only
    split
    · exact ⟨rfl, h.sizeKnown, h.sizeText⟩
    · exact h

theorem Derived.patchSize (h : row.Derived) (usage : Option VolumeUsage) :
    (row.patchSize usage).2.Derived := by
  unfold VolumeRow.patchSize
  split
  · exact h
  · split
    · exact ⟨h.rowSection, rfl, rfl⟩
    · exact h

theorem derived_fromSummary (summary : VolumeSummary) :
    (VolumeRow.fromSummary summary).Derived := by
  refine ⟨?_, rfl, rfl⟩
  unfold fromSummary usageSection
  cases summary.usedBy <;> rfl

theorem Derived.keepUse (h : row.Derived) (known : Option Bool) : (row.keepUse known).Derived := by
  cases known with
  | none => exact h
  | some inUse => exact ⟨rfl, h.sizeKnown, h.sizeText⟩

theorem keptByRows_derived : KeptByRows VolumeRow.Derived where
  sync _ _ h := { h with }
  patch references usage row h :=
    (h.patchReferences (references.lookup row.volumeName)).patchSize (usage.lookup row.volumeName)
  detail summary _ := derived_fromSummary summary

/-! ## One row -/

variable {maps : UsageMaps}

/-- The containers of a row are those of the map, when it is not mistaken for unchanged. -/
theorem hasContainers_iff (h : row.Derived) :
    HasContainers maps row (row.patchReferences (maps.references.lookup row.volumeName)).2 ↔
      row.NotMistaken maps := by
  unfold HasContainers NotMistaken patchReferences
  cases hfound : maps.references.lookup row.volumeName with
  | none => exact iff_of_true ⟨rfl, rfl, rfl, rfl⟩ fun containers hsome => (by cases hsome)
  | some containers =>
    dsimp only
    split
    · next hchanged =>
      refine iff_of_true ⟨rfl, rfl, rfl, rfl⟩ fun found hsome huse hcount => ?_
      cases hsome
      exact (hchanged.elim (fun h => h huse) fun h => h hcount).elim
    · next hsame =>
      rw [not_or, not_not, not_not] at hsame
      constructor
      · rintro ⟨hcontainers, -⟩ found hsome - -
        cases hsome
        exact hcontainers
      · intro hmistaken
        refine ⟨hmistaken containers rfl hsame.1 hsame.2, hsame.2, hsame.1, ?_⟩
        rw [h.rowSection, hsame.1]

theorem hasSize_patchSize (h : row.Derived) :
    HasSize maps row (row.patchSize (maps.usage.lookup row.volumeName)).2 := by
  unfold HasSize patchSize
  cases maps.usage.lookup row.volumeName with
  | none => exact ⟨rfl, rfl, rfl⟩
  | some usage =>
    dsimp only
    split
    · exact ⟨rfl, rfl, rfl⟩
    · next hsame =>
      rw [not_or, not_not, not_not] at hsame
      refine ⟨hsame.1, ?_, hsame.2⟩
      rw [h.sizeKnown, hsame.1]

omit [PageText] in
theorem patchReferences_cases (row : VolumeRow)
    (references : Option (List VolumeContainerReference)) :
    (row.patchReferences references).2 = row ∨ ∃ containers, references = some containers ∧
      (row.patchReferences references).2 = { row with
        inUse := !containers.isEmpty
        rowSection := usageSection (!containers.isEmpty)
        usedByCount := containers.length
        containers } := by
  unfold patchReferences
  cases references with
  | none => exact .inl rfl
  | some containers =>
    dsimp only
    split
    · exact .inr ⟨containers, rfl, rfl⟩
    · exact .inl rfl

theorem patchSize_cases (row : VolumeRow) (usage : Option VolumeUsage) :
    (row.patchSize usage).2 = row ∨ ∃ found, usage = some found ∧
      (row.patchSize usage).2 = { row with
        sizeBytes := found.sizeBytes
        sizeKnown := found.sizeBytes.isSome
        sizeText := shownSize found.sizeBytes } := by
  unfold patchSize
  cases usage with
  | none => exact .inl rfl
  | some found =>
    dsimp only
    split
    · exact .inr ⟨found, rfl, rfl⟩
    · exact .inl rfl

theorem patch_eq : (row.patch maps.references maps.usage).2 =
    ((row.patchReferences (maps.references.lookup row.volumeName)).2.patchSize
      (maps.usage.lookup row.volumeName)).2 := rfl

theorem hasSize_patch (h : row.Derived) :
    HasSize maps row (row.patch maps.references maps.usage).2 := by
  have hsize : HasSize maps (row.patchReferences (maps.references.lookup row.volumeName)).2 _ :=
    hasSize_patchSize (h.patchReferences (maps.references.lookup row.volumeName))
  rw [patch_eq]
  rcases patchReferences_cases row (maps.references.lookup row.volumeName) with
    hsame | ⟨containers, -, hsame⟩
  · rw [hsame] at hsize ⊢
    exact hsize
  · rw [hsame] at hsize ⊢
    exact hsize

/-- **A row is patched** when it is not mistaken for unchanged. -/
theorem patched_iff (h : row.Derived) :
    Patched maps row (row.patch maps.references maps.usage).2 ↔ row.NotMistaken maps := by
  have hcontainers : HasContainers maps row (row.patch maps.references maps.usage).2 ↔
      row.NotMistaken maps := by
    rw [← hasContainers_iff h, patch_eq]
    rcases patchSize_cases (row.patchReferences _).2 (maps.usage.lookup row.volumeName)
      with hsame | ⟨found, -, hsame⟩
    · rw [hsame]
    · rw [hsame]
      exact Iff.rfl
  constructor
  · intro hpatched
    exact hcontainers.mp hpatched.containers
  · intro hmistaken
    exact ⟨VolumesState.volumeName_patch _ _ _, hcontainers.mpr hmistaken, hasSize_patch h⟩

structure UpToDate (maps : UsageMaps) (row : VolumeRow) : Prop where
  containers : ∀ containers, maps.references.lookup row.volumeName = some containers →
    row.inUse = !containers.isEmpty ∧ row.usedByCount = containers.length
  size : ∀ usage, maps.usage.lookup row.volumeName = some usage →
    row.sizeBytes = usage.sizeBytes ∧ row.sizeText = shownSize usage.sizeBytes

theorem UpToDate.patch_unchanged (h : row.UpToDate maps) :
    (row.patch maps.references maps.usage).1 = false := by
  have hreferences : row.patchReferences (maps.references.lookup row.volumeName) =
      (false, row) := by
    unfold patchReferences
    cases hfound : maps.references.lookup row.volumeName with
    | none => rfl
    | some containers =>
      obtain ⟨huse, hcount⟩ := h.containers containers hfound
      exact if_neg (not_or.mpr ⟨not_not_intro huse, not_not_intro hcount⟩)
  have hsize : row.patchSize (maps.usage.lookup row.volumeName) = (false, row) := by
    unfold patchSize
    cases hfound : maps.usage.lookup row.volumeName with
    | none => rfl
    | some usage =>
      obtain ⟨hbytes, htext⟩ := h.size usage hfound
      exact if_neg (not_or.mpr ⟨not_not_intro hbytes, not_not_intro htext⟩)
  unfold patch
  rw [hreferences]
  dsimp only
  rw [hsize]
  rfl

/-- **After a patch** a row is up to date, also when it was mistaken for unchanged. -/
theorem upToDate_patch (h : row.Derived) :
    (row.patch maps.references maps.usage).2.UpToDate maps := by
  constructor
  · intro containers hfound
    rw [VolumesState.volumeName_patch] at hfound
    have hcounted : (row.patchReferences (maps.references.lookup row.volumeName)).2.inUse =
        !containers.isEmpty ∧
          (row.patchReferences (maps.references.lookup row.volumeName)).2.usedByCount =
            containers.length := by
      rw [hfound]
      unfold patchReferences
      dsimp only
      split
      · exact ⟨rfl, rfl⟩
      · next hsame =>
        rw [not_or, not_not, not_not] at hsame
        exact hsame
    rw [patch_eq]
    rcases patchSize_cases (row.patchReferences _).2 (maps.usage.lookup row.volumeName) with
      hsame | ⟨found, -, hsame⟩
    · rw [hsame]
      exact hcounted
    · rw [hsame]
      exact hcounted
  · intro usage hfound
    rw [VolumesState.volumeName_patch] at hfound
    have hsize : HasSize maps row _ := hasSize_patch h
    unfold HasSize at hsize
    rw [hfound] at hsize
    exact ⟨hsize.1, hsize.2.2⟩

end VolumeRow

/-! ## The list -/

namespace VolumesState

variable [PageText] {s : VolumesState} {maps : UsageMaps}

theorem sourceRows_patchedBy (s : VolumesState) (maps : UsageMaps) :
    ∃ t : VolumesState, (s.patchedBy maps).sourceRows =
      s.sourceRows.map fun row => t.syncRow (row.patch maps.references maps.usage).2 :=
  ⟨_, List.map_map⟩

/-- **The list is patched completely** exactly when no row is mistaken for unchanged. -/
theorem patchComplete_iff (h : s.AllRows VolumeRow.Derived) :
    s.PatchComplete maps ↔ ∀ row ∈ s.sourceRows, row.NotMistaken maps := by
  have hafter : (s.patchedBy maps).AllRows VolumeRow.Derived :=
    h.patchUsage VolumeRow.keptByRows_derived maps.references maps.usage
  obtain ⟨t, hrows⟩ := sourceRows_patchedBy s maps
  have hagain : ((s.patchedBy maps).patchUsage maps.references maps.usage).1 = 0 := by
    refine List.countP_eq_zero.mpr fun row hrow => ?_
    rw [hrows] at hrow
    obtain ⟨old, hold, rfl⟩ := List.mem_map.mp hrow
    have hcurrent : (old.patch maps.references maps.usage).2.UpToDate maps :=
      VolumeRow.upToDate_patch (h.1 old hold)
    have hsynced : (t.syncRow (old.patch maps.references maps.usage).2).UpToDate maps :=
      { hcurrent with }
    rw [hsynced.patch_unchanged]
    exact Bool.false_ne_true
  have hsource : List.Forall₂ (VolumeRow.Patched maps) s.sourceRows (s.patchedBy maps).sourceRows ↔
      ∀ row ∈ s.sourceRows, row.NotMistaken maps := by
    rw [hrows, List.forall₂_map_right_iff, List.forall₂_same]
    refine forall₂_congr fun row hrow => ?_
    rw [← VolumeRow.patched_iff (h.1 row hrow)]
    exact ⟨fun hp => ⟨hp.sameName, hp.containers, hp.size⟩,
      fun hp => ⟨hp.sameName, hp.containers, hp.size⟩⟩
  exact ⟨fun hcomplete => hsource.mp hcomplete.source,
    fun hmistaken => ⟨hsource.mpr hmistaken, h.2, hafter.2, hagain⟩⟩

end VolumesState

/-! ## Runs -/

section Runs

variable [PageText]

/-- What the rows show follows from their fields, in every state that is reached. -/
theorem VolumesRun.rows_derived {r : VolumesRun} (hr : volumesPage.Reach (fun _ _ => True) r) :
    r.state.AllRows VolumeRow.Derived := by
  refine Machine.Reach.invariant (I := fun r => r.state.AllRows VolumeRow.Derived) ?_ ?_ hr
  · rintro r rfl
    exact VolumesState.allRows_new
  · intro r call r' hderived _ hstep
    cases hstep
    refine hderived.after VolumeRow.keptByRows_derived call ?_
    cases call with
    | applyList generation summaries =>
      exact fun summary _ known => (VolumeRow.derived_fromSummary summary).keepUse known
    | _ => trivial

/-- **A usage patch is complete** in a state that is reached, exactly when every row that has
as many containers as the map gives it has these. -/
theorem patch_complete_iff {r : VolumesRun} (hr : volumesPage.Reach (fun _ _ => True) r)
    (maps : UsageMaps) :
    r.state.PatchComplete maps ↔ ∀ row ∈ r.state.sourceRows, row.NotMistaken maps :=
  VolumesState.patchComplete_iff (VolumesRun.rows_derived hr)

end Runs

def usingContainer (id : String) : VolumeContainerReference where
  id := id
  shortId := id
  name := id
  state := .running
  destination := "/data"
  readOnly := false
  propagation := none

/-- One container uses the volume `archive`. -/
def usedBy (id : String) : UsageMaps where
  references := AList.insert "archive" [usingContainer id] ∅
  usage := ∅

/-- The page with the volume `archive`, which the container `a` uses. -/
def patchedPage [PageText] : VolumesRun :=
  ((({} : VolumesRun).step .beginRefresh).step (.applyList 1 [unusedVolume "archive"])).step
    (.patchUsage (usedBy "a").references (usedBy "a").usage)

theorem reach_patchedPage [PageText] : volumesPage.Reach (fun _ _ => True) patchedPage := by
  have hrefresh : volumesPage.Reach (fun _ _ => True) (({} : VolumesRun).step .beginRefresh) :=
    .step (a := .beginRefresh) (.init rfl) trivial rfl
  have hlisted := Machine.Reach.step (a := .applyList 1 [unusedVolume "archive"]) hrefresh trivial
    rfl
  exact .step (a := .patchUsage (usedBy "a").references (usedBy "a").usage) hlisted trivial rfl

/-- The same maps once more. -/
theorem patchedPage_again :
    letI := asciiTexts
    patchedPage.state.PatchComplete (usedBy "a") ↔
      ∀ row ∈ patchedPage.state.sourceRows, row.NotMistaken (usedBy "a") := by
  let texts := asciiTexts
  exact patch_complete_iff reach_patchedPage (usedBy "a")

/-- The container `a` is replaced by `b`, and the row of the volume goes on to show `a`. -/
theorem replaced_container_kept :
    letI := asciiTexts
    ¬ patchedPage.state.PatchComplete (usedBy "b") := by
  let texts := asciiTexts
  intro hcomplete
  have hmistaken := (VolumesState.patchComplete_iff
    (VolumesRun.rows_derived reach_patchedPage)).mp hcomplete
  have hrow : ∃ row ∈ patchedPage.state.sourceRows, row.volumeName = "archive" ∧
      row.inUse = true ∧ row.usedByCount = 1 ∧ row.containers = [usingContainer "a"] := by
    decide +kernel
  obtain ⟨row, hrow, hname, huse, hcount, hcontainers⟩ := hrow
  have hsame := hmistaken row hrow [usingContainer "b"] (by rw [hname]; rfl) huse hcount
  rw [hcontainers] at hsame
  revert hsame
  decide

end TuxStack.Gui
