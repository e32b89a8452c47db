import TuxStack.Gui.VolumeTasks

/-!
# Operations that leave the list of volumes alone

Most operations of the Volumes page touch neither the volumes of the list nor the details:
other fields change, the roles are written into the rows again, and the filter is applied
again (`updates_after`).
-/

namespace TuxStack.Gui

open Guards (guarded)

/-- The call is none of those on the list, the selection and the details. -/
def VolumesCall.leavesList : VolumesCall → Bool
  | .beginRefresh | .applyList .. | .applyListError .. | .patchUsage .. | .setSearchQuery _ => false
  | .select _ | .beginSelectedInspect | .clearSelection => false
  | .applyDetail .. | .applyDetailError .. | .removeLocal _ => false
  | _ => true

namespace VolumesState

def shown (s : VolumesState) : List VolumeRow × List VolumeRow × String × VolumeDetailState ×
    Option VolumeDetailView × String × String :=
  (s.sourceRows, s.visibleRows, s.selectedVolumeName, s.detailState, s.detail,
    s.detailErrorKind, s.detailErrorMessage)

/-- What can become of `s`. -/
inductive Updates [PageText] (s : VolumesState) : VolumesState → Prop where
  | refl : Updates s s
  | set {t u : VolumesState} (h : Updates s t) (same : u.shown = t.shown) : Updates s u
  | sync {t : VolumesState} (h : Updates s t) : Updates s t.syncDynamicRoles
  | rebuildVisible {t : VolumesState} (h : Updates s t) : Updates s t.rebuildVisible

variable [PageText] {s t : VolumesState}

theorem Updates.preferVolume (h : s.Updates t) (name : String) : s.Updates (t.preferVolume name) :=
  .rebuildVisible (h.set rfl)

theorem updates_beginGlobalOperation (operation : GlobalVolumeOperation) :
    s.Updates (s.beginGlobalOperation operation).2 :=
  guarded .refl fun _ => .set .refl rfl

theorem updates_finishCreate (generation : UInt64) (createdName : String) :
    s.Updates (s.finishCreate generation createdName).2 := by
  unfold finishCreate
  rcases finishGlobalOperation_cases (s := s) generation .creating with
    hrefused | ⟨-, -, hfinished⟩
  · rw [hrefused]
    exact .refl
  · rw [hfinished]
    have hset : s.Updates { s with globalOperation := none } := .set .refl rfl
    exact hset.preferVolume createdName

theorem updates_beginPrune : s.Updates s.beginPrune.2 := by
  have hbegun := updates_beginGlobalOperation (s := s) .pruning
  unfold beginPrune
  generalize s.beginGlobalOperation .pruning = result at hbegun ⊢
  obtain ⟨begun, t⟩ := result
  cases begun with
  | none => exact hbegun
  | some generation => exact hbegun.set rfl

theorem updates_finishPrune (generation : UInt64) : s.Updates (s.finishPrune generation).2 := by
  unfold finishPrune
  rcases finishGlobalOperation_cases (s := s) generation .pruning with
    hrefused | ⟨-, -, hfinished⟩
  · rw [hrefused]
    exact .refl
  · rw [hfinished]
    exact .set .refl rfl

theorem updates_beginVolumeOperation (name : String) (operation : VolumeOperation) :
    s.Updates (s.beginVolumeOperation name operation).2 :=
  guarded .refl fun _ => .sync (.set .refl rfl)

theorem updates_finishVolumeOperation (generation : UInt64) (name : String)
    (operation : VolumeOperation) :
    s.Updates (s.finishVolumeOperation generation name operation).2 :=
  guarded .refl fun _ => .sync (.set .refl rfl)

theorem updates_failVolumeOperation (generation : UInt64) (name : String)
    (operation : VolumeOperation) (error : DaemonError) :
    s.Updates (s.failVolumeOperation generation name operation error).2 := by
  refine guarded .refl fun _ => ?_
  dsimp only
  refine .sync (.set .refl ?_)
  split
  · split
    · rfl
    · rfl
  · split
    · rfl
    · rfl

theorem updates_beginCopy (copy : VolumeCopy) (name : String) :
    s.Updates (s.beginCopy copy name).2 := by
  have hbegun := updates_beginVolumeOperation (s := s) name copy.operation
  refine guarded .refl fun _ => ?_
  generalize s.beginVolumeOperation name copy.operation = result at hbegun ⊢
  obtain ⟨begun, t⟩ := result
  cases begun with
  | none => exact hbegun
  | some generation =>
    cases copy with
    | exporting | cloning => exact hbegun.set rfl

/-- The ends of exports and clones, by what they do `after` the operation is finished. -/
theorem updates_end (matches_ : Bool) (generation : UInt64) (name : String)
    (operation : VolumeOperation) (after : VolumesState → VolumesState)
    (hafter : ∀ {t}, s.Updates t → s.Updates (after t)) :
    s.Updates (if ¬ matches_ then (false, s)
      else
        match s.finishVolumeOperation generation name operation with
        | (true, t) => (true, after t)
        | (false, t) => (false, t)).2 := by
  have hfinished := updates_finishVolumeOperation (s := s) generation name operation
  refine guarded .refl fun _ => ?_
  generalize s.finishVolumeOperation generation name operation = result at hfinished ⊢
  obtain ⟨finished, t⟩ := result
  cases finished with
  | false => exact hfinished
  | true => exact hafter hfinished

theorem updates_finishClone (generation : UInt64) (createdName : Option String) :
    s.Updates (s.finishClone generation createdName).2 := by
  have hset : ∀ {t : VolumesState}, s.Updates t → s.Updates { t with cloneTask := {} } :=
    fun h => h.set rfl
  cases createdName with
  | some name =>
    exact updates_end (s.cloneTask.taskMatches generation) generation s.cloneTask.volumeName
      .cloning (fun t => { t with cloneTask := {} }.preferVolume name)
      fun h => (hset h).preferVolume name
  | none =>
    exact updates_end (s.cloneTask.taskMatches generation) generation s.cloneTask.volumeName
      .cloning (fun t => { t with cloneTask := {} }) hset

/-- **The operations that leave the list alone.** -/
theorem updates_after {call : VolumesCall} (h : call.leavesList = true) :
    s.Updates (call.after s) := by
  cases call with
  | initializePage | requestCancelPrune | failGlobalOperation generation error =>
    exact guarded .refl fun _ => .set .refl rfl
  | setSortMode mode => exact .sync (.rebuildVisible (.set .refl rfl))
  | preferVolume name => exact Updates.preferVolume .refl name
  | beginCreate => exact updates_beginGlobalOperation .creating
  | finishCreate generation createdName => exact updates_finishCreate generation createdName
  | beginPrune => exact updates_beginPrune
  | finishPrune generation => exact updates_finishPrune generation
  | beginRemove name => exact guarded .refl fun _ => updates_beginVolumeOperation name .removing
  | finishRemove generation name => exact updates_finishVolumeOperation generation name .removing
  | failVolumeOperation generation name operation error =>
    exact updates_failVolumeOperation generation name operation error
  | beginExport name => exact updates_beginCopy .exporting name
  | requestCancelExport => exact .set .refl rfl
  | finishExport generation =>
    exact updates_end (s.exportTask.taskMatches generation) generation s.exportTask.volumeName
      .exporting _ fun h => h.set rfl
  | failExport generation error =>
    exact updates_end (s.exportTask.taskMatches generation) generation s.exportTask.volumeName
      .exporting (fun t => setOperationError { t with exportTask := {} } error) fun h => h.set rfl
  | beginClone source => exact updates_beginCopy .cloning source
  | requestCancelClone => exact .set .refl rfl
  | finishClone generation createdName => exact updates_finishClone generation createdName
  | failClone generation error =>
    exact updates_end (s.cloneTask.taskMatches generation) generation s.cloneTask.volumeName
      .cloning (fun t => setOperationError { t with cloneTask := {} } error) fun h => h.set rfl
  | beginRefresh | applyList | applyListError | patchUsage | setSearchQuery | select
  | beginSelectedInspect | clearSelection | applyDetail | applyDetailError | removeLocal => cases h

end VolumesState

end TuxStack.Gui
