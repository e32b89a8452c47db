import TuxStack.Gui.Volumes
import TuxStack.Lib.Runs

/-!
# Tasks of the Volumes page

An export or a clone is recorded in `operations`, in `operation_generations` and in a task
of its own, a prune in `global_operation` and in its cancellation. `TaskTable` is these
records, and `Recorded` and `Matched` say how they belong together.

* `tasks_sound_iff`: they belong together all along a run, and every task that has begun can
  be finished or failed, exactly when no volume is removed from the list while it is being
  exported or cloned.
-/

namespace TuxStack.Gui

open Runs

/-! ## The records -/

inductive VolumeCopy where
  | exporting
  | cloning
deriving DecidableEq

def VolumeCopy.operation : VolumeCopy → VolumeOperation
  | exporting => .exporting
  | cloning => .cloning

@[ext]
structure TaskTable where
  operations : AList fun _ : String => VolumeOperation
  generations : AList fun _ : String => UInt64
  copies : VolumeCopy → CancellableVolumeTask
  global : Option GlobalVolumeOperation
  globalGeneration : UInt64
  prune : CancellationState

/-- The records of a page. -/
def VolumesState.tasks (s : VolumesState) : TaskTable where
  operations := s.operations
  generations := s.operationGenerations
  copies
    | .exporting => s.exportTask
    | .cloning => s.cloneTask
  global := s.globalOperation
  globalGeneration := s.globalGeneration
  prune := s.pruneCancellation

namespace TaskTable

variable (t : TaskTable)

def erase (name : String) : TaskTable :=
  { t with operations := t.operations.erase name, generations := t.generations.erase name }

def insert (name : String) (operation : VolumeOperation) (generation : UInt64) : TaskTable :=
  { t with
    operations := t.operations.insert name operation
    generations := t.generations.insert name generation }

def setCopy (copy : VolumeCopy) (task : CancellableVolumeTask) : TaskTable :=
  { t with copies := Function.update t.copies copy task }

/-- Operations of a kind are those of their task. -/
def Recorded (operation : VolumeOperation) (task : CancellableVolumeTask) : Prop :=
  ∀ name, t.operations.lookup name = some operation →
    task.active = true ∧ task.volumeName = name ∧
      t.generations.lookup name = some task.generation

def Matched (operation : VolumeOperation) (task : CancellableVolumeTask) : Prop :=
  task.active = true → t.operations.lookup task.volumeName = some operation

variable {t} {operation other : VolumeOperation} {task : CancellableVolumeTask} {name : String}
  {generation : UInt64}

theorem lookup_erase {found : VolumeOperation} {place : String}
    (h : (t.erase name).operations.lookup place = some found) :
    place ≠ name ∧ t.operations.lookup place = some found := by
  by_cases hplace : place = name
  · subst hplace
    rw [show (t.erase place).operations.lookup place = none from AList.lookup_erase _ _] at h
    cases h
  · rw [show (t.erase name).operations.lookup place = _ from AList.lookup_erase_ne hplace] at h
    exact ⟨hplace, h⟩

theorem Recorded.erase (h : t.Recorded operation task) :
    (t.erase name).Recorded operation task := by
  intro place hplace
  obtain ⟨hne, hfound⟩ := lookup_erase hplace
  obtain ⟨hactive, hvolume, hgeneration⟩ := h place hfound
  exact ⟨hactive, hvolume, (AList.lookup_erase_ne hne).trans hgeneration⟩

/-- Once its operation is gone, there is no other operation of this kind. -/
theorem Recorded.erase_own (h : t.Recorded operation task)
    (hname : t.operations.lookup name = some operation) :
    (t.erase name).Recorded operation {} := by
  intro place hplace
  obtain ⟨hne, hfound⟩ := lookup_erase hplace
  exact absurd ((h place hfound).2.1.symm.trans (h name hname).2.1) hne

theorem lookup_insert {found : VolumeOperation} {place : String}
    (h : (t.insert name operation generation).operations.lookup place = some found) :
    (place = name ∧ found = operation) ∨
      (place ≠ name ∧ t.operations.lookup place = some found) := by
  by_cases hplace : place = name
  · subst hplace
    rw [show (t.insert place operation generation).operations.lookup place = some operation from
      AList.lookup_insert _] at h
    exact .inl ⟨rfl, (Option.some.inj h).symm⟩
  · rw [show (t.insert name operation generation).operations.lookup place = _ from
      AList.lookup_insert_ne hplace] at h
    exact .inr ⟨hplace, h⟩

theorem Recorded.insert_other (h : t.Recorded operation task) (hne : operation ≠ other) :
    (t.insert name other generation).Recorded operation task := by
  intro place hplace
  rcases lookup_insert hplace with ⟨-, rfl⟩ | ⟨hplace', hfound⟩
  · exact absurd rfl hne
  · obtain ⟨hactive, hvolume, hgeneration⟩ := h place hfound
    exact ⟨hactive, hvolume, (AList.lookup_insert_ne hplace').trans hgeneration⟩

theorem Recorded.insert_own (h : t.Recorded operation task) (hidle : task.active = false) :
    (t.insert name operation generation).Recorded operation (.begun name generation) := by
  intro place hplace
  rcases lookup_insert hplace with ⟨rfl, -⟩ | ⟨-, hfound⟩
  · exact ⟨rfl, rfl, AList.lookup_insert _⟩
  · rw [(h place hfound).1] at hidle
    cases hidle

theorem Matched.erase (h : t.Matched operation task)
    (hne : task.active = true → task.volumeName ≠ name) :
    (t.erase name).Matched operation task := fun hactive =>
  (AList.lookup_erase_ne (hne hactive)).trans (h hactive)

theorem Matched.erase_other (h : t.Matched operation task) (hne : operation ≠ other)
    (hname : t.operations.lookup name = some other) :
    (t.erase name).Matched operation task := by
  refine h.erase fun hactive hvolume => hne ?_
  have hown := h hactive
  rw [hvolume, hname] at hown
  exact (Option.some.inj hown).symm

theorem Matched.insert_other (h : t.Matched operation task) (hfree : name ∉ t.operations) :
    (t.insert name other generation).Matched operation task := by
  intro hactive
  have hne : task.volumeName ≠ name := by
    rintro rfl
    exact hfree (AList.lookup_isSome.mp (by rw [h hactive]; rfl))
  exact (AList.lookup_insert_ne hne).trans (h hactive)

theorem matched_insert_own :
    (t.insert name operation generation).Matched operation (.begun name generation) :=
  fun _ => AList.lookup_insert _

theorem matched_idle : t.Matched operation {} := fun h => (by cases h)

end TaskTable

/-! ## Calls -/

inductive VolumesCall where
  | initializePage
  | beginRefresh
  | applyList (generation : UInt64) (summaries : List VolumeSummary)
  | applyListError (generation : UInt64) (error : DaemonError)
  | patchUsage (references : AList fun _ : String => List VolumeContainerReference)
      (usage : AList fun _ : String => VolumeUsage)
  | setSearchQuery (query : String)
  | setSortMode (mode : VolumeSortMode)
  | select (name : String)
  | beginSelectedInspect
  | clearSelection
  | applyDetail (generation : UInt64) (detail : VolumeDetail)
  | applyDetailError (generation : UInt64) (error : DaemonError)
  | removeLocal (name : String)
  | preferVolume (name : String)
  | beginCreate
  | finishCreate (generation : UInt64) (createdName : String)
  | beginPrune
  | requestCancelPrune
  | finishPrune (generation : UInt64)
  | failGlobalOperation (generation : UInt64) (error : DaemonError)
  | beginRemove (name : String)
  | finishRemove (generation : UInt64) (name : String)
  | failVolumeOperation (generation : UInt64) (name : String) (operation : VolumeOperation)
      (error : DaemonError)
  | beginExport (name : String)
  | requestCancelExport
  | finishExport (generation : UInt64)
  | failExport (generation : UInt64) (error : DaemonError)
  | beginClone (source : String)
  | requestCancelClone
  | finishClone (generation : UInt64) (createdName : Option String)
  | failClone (generation : UInt64) (error : DaemonError)

def VolumesCall.after [PageText] (s : VolumesState) : VolumesCall → VolumesState
  | .initializePage => s.initializePage.2
  | .beginRefresh => s.beginRefresh.2
  | .applyList generation summaries => (s.applyList generation summaries).2
  | .applyListError generation error => (s.applyListError generation error).2
  | .patchUsage references usage => (s.patchUsage references usage).2
  | .setSearchQuery query => (s.setSearchQuery query).2
  | .setSortMode mode => s.setSortMode mode
  | .select name => (s.select name).2
  | .beginSelectedInspect => s.beginSelectedInspect.2
  | .clearSelection => s.clearSelection
  | .applyDetail generation detail => (s.applyDetail generation detail).2
  | .applyDetailError generation error => (s.applyDetailError generation error).2
  | .removeLocal name => (s.removeLocal name).2
  | .preferVolume name => s.preferVolume name
  | .beginCreate => s.beginCreate.2
  | .finishCreate generation createdName => (s.finishCreate generation createdName).2
  | .beginPrune => s.beginPrune.2
  | .requestCancelPrune => s.requestCancelPrune.2
  | .finishPrune generation => (s.finishPrune generation).2
  | .failGlobalOperation generation error => (s.failGlobalOperation generation error).2
  | .beginRemove name => (s.beginRemove name).2
  | .finishRemove generation name => (s.finishRemove generation name).2
  | .failVolumeOperation generation name operation error =>
    (s.failVolumeOperation generation name operation error).2
  | .beginExport name => (s.beginExport name).2
  | .requestCancelExport => s.requestCancelExport.2
  | .finishExport generation => (s.finishExport generation).2
  | .failExport generation error => (s.failExport generation error).2
  | .beginClone source => (s.beginClone source).2
  | .requestCancelClone => s.requestCancelClone.2
  | .finishClone generation createdName => (s.finishClone generation createdName).2
  | .failClone generation error => (s.failClone generation error).2

inductive VolumeTask where
  | copying (copy : VolumeCopy)
  | pruning
deriving DecidableEq

def VolumesCall.begins [PageText] (s : VolumesState) : VolumesCall → Option (VolumeTask × UInt64)
  | .beginExport name => (s.beginExport name).1.map (.copying .exporting, ·)
  | .beginClone source => (s.beginClone source).1.map (.copying .cloning, ·)
  | .beginPrune => s.beginPrune.1.map (.pruning, ·)
  | _ => none

def VolumesCall.ends [PageText] (s : VolumesState) : VolumesCall → Option (VolumeTask × UInt64)
  | .finishExport generation =>
    if (s.finishExport generation).1 then some (.copying .exporting, generation) else none
  | .failExport generation error =>
    if (s.failExport generation error).1 then some (.copying .exporting, generation) else none
  | .finishClone generation createdName =>
    if (s.finishClone generation createdName).1 then some (.copying .cloning, generation) else none
  | .failClone generation error =>
    if (s.failClone generation error).1 then some (.copying .cloning, generation) else none
  | .failVolumeOperation generation name .exporting error =>
    if (s.failVolumeOperation generation name .exporting error).1 then
      some (.copying .exporting, generation)
    else none
  | .failVolumeOperation generation name .cloning error =>
    if (s.failVolumeOperation generation name .cloning error).1 then
      some (.copying .cloning, generation)
    else none
  | .finishPrune generation =>
    if (s.finishPrune generation).1 then some (.pruning, generation) else none
  | .failGlobalOperation generation error =>
    if s.globalOperation = some .pruning ∧ (s.failGlobalOperation generation error).1 then
      some (.pruning, generation)
    else none
  | _ => none

/-- The page, and the tasks that have begun and not ended. -/
structure VolumesRun where
  state : VolumesState := {}
  running : List (VolumeTask × UInt64) := []

def VolumesRun.step [PageText] (r : VolumesRun) (call : VolumesCall) : VolumesRun where
  state := call.after r.state
  running :=
    (call.begins r.state).toList ++ r.running.filter fun task => call.ends r.state ≠ some task

def volumesPage [PageText] : Machine VolumesRun VolumesCall where
  init r := r = {}
  step r call := some (r.step call)

/-! ## What should hold -/

namespace VolumesState

variable (s : VolumesState)

/-- An export, or a clone, can begin for every volume of the list that is free. -/
def CanBegin (begin_ : VolumesState → String → Option UInt64) : Prop :=
  ∀ name, s.sourceRowExists name = true → name ∉ s.operations → (begin_ s name).isSome

/-- A task can be finished and failed, and after each of it a new one can begin. -/
def CanEnd [PageText] : VolumeTask × UInt64 → Prop
  | (.copying .exporting, generation) =>
    ((s.finishExport generation).1 = true ∧
      (s.finishExport generation).2.CanBegin fun s name => (s.beginExport name).1) ∧
    ∀ error, (s.failExport generation error).1 = true ∧
      (s.failExport generation error).2.CanBegin fun s name => (s.beginExport name).1
  | (.copying .cloning, generation) =>
    (∀ createdName, (s.finishClone generation createdName).1 = true ∧
      (s.finishClone generation createdName).2.CanBegin fun s name => (s.beginClone name).1) ∧
    ∀ error, (s.failClone generation error).1 = true ∧
      (s.failClone generation error).2.CanBegin fun s name => (s.beginClone name).1
  | (.pruning, generation) =>
    ((s.finishPrune generation).1 = true ∧ (s.finishPrune generation).2.beginPrune.1.isSome) ∧
    ∀ error, (s.failGlobalOperation generation error).1 = true ∧
      (s.failGlobalOperation generation error).2.beginPrune.1.isSome

end VolumesState

/-- The records belong together, and no task is stuck. -/
structure VolumesRun.TasksSound [PageText] (r : VolumesRun) : Prop where
  keys : ∀ name, name ∈ r.state.operations ↔ name ∈ r.state.operationGenerations
  exports : r.state.exportTask.active = true ↔
    r.state.operations.lookup r.state.exportTask.volumeName = some .exporting ∧
      r.state.operationGenerations.lookup r.state.exportTask.volumeName =
        some r.state.exportTask.generation
  clones : r.state.cloneTask.active = true ↔
    r.state.operations.lookup r.state.cloneTask.volumeName = some .cloning ∧
      r.state.operationGenerations.lookup r.state.cloneTask.volumeName =
        some r.state.cloneTask.generation
  prune : r.state.pruneCancellation ≠ .idle → r.state.globalOperation = some .pruning
  ends : ∀ task ∈ r.running, r.state.CanEnd task

/-- A call does not remove a volume that is being exported or cloned. -/
def VolumesRun.KeepsTasks (r : VolumesRun) (call : VolumesCall) : Prop :=
  ∀ name, call = .removeLocal name →
    ¬ (r.state.exportTask.active = true ∧ r.state.exportTask.volumeName = name) ∧
      ¬ (r.state.cloneTask.active = true ∧ r.state.cloneTask.volumeName = name)

/-! ## What the operations do to the records -/

namespace VolumesState

variable {s : VolumesState} {name : String} {operation : VolumeOperation} {generation : UInt64}

theorem tasks_changeAutomaticSelection (desired : Option String) :
    (s.changeAutomaticSelection desired).2.tasks = s.tasks := by
  cases desired with
  | none | some name => exact Guards.same rfl rfl

theorem tasks_applyList [PageText] (summaries : List VolumeSummary) :
    (s.applyList generation summaries).2.tasks = s.tasks := by
  refine Guards.same rfl ?_
  dsimp only
  split
  · rfl
  · rfl

theorem tasks_applyListError (error : DaemonError) :
    (s.applyListError generation error).2.tasks = s.tasks := Guards.same rfl rfl

theorem tasks_setSearchQuery [PageText] (query : String) :
    (s.setSearchQuery query).2.tasks = s.tasks := by
  unfold setSearchQuery
  dsimp only
  rw [tasks_changeAutomaticSelection]
  split
  · rfl
  · rfl

theorem tasks_select : (s.select name).2.tasks = s.tasks := Guards.same rfl (Guards.same rfl rfl)

theorem tasks_beginSelectedInspect : s.beginSelectedInspect.2.tasks = s.tasks :=
  Guards.same rfl rfl

theorem tasks_applyDetail [PageText] (detail : VolumeDetail) :
    (s.applyDetail generation detail).2.tasks = s.tasks := Guards.same rfl rfl

theorem tasks_applyDetailError (error : DaemonError) :
    (s.applyDetailError generation error).2.tasks = s.tasks := Guards.same rfl rfl

theorem tasks_initializePage : s.initializePage.2.tasks = s.tasks := Guards.same rfl rfl

/-- A removal from the list takes both records of an operation, and leaves the tasks. -/
theorem tasks_removeLocal [PageText] : (s.removeLocal name).2.tasks = s.tasks.erase name := by
  unfold removeLocal
  dsimp only
  split
  · split
    · rfl
    · rfl
  · rfl

theorem beginGlobalOperation_cases (operation : GlobalVolumeOperation) :
    s.beginGlobalOperation operation = (none, s) ∨
      (s.globalOperation = none ∧
        (s.beginGlobalOperation operation).1 = some (s.globalGeneration + 1) ∧
        (s.beginGlobalOperation operation).2.tasks = { s.tasks with
          global := some operation, globalGeneration := s.globalGeneration + 1 }) := by
  unfold beginGlobalOperation
  split
  · exact .inl rfl
  · next hnone => exact .inr ⟨by simpa using hnone, rfl, rfl⟩

theorem finishGlobalOperation_cases (generation : UInt64) (operation : GlobalVolumeOperation) :
    s.finishGlobalOperation generation operation = (false, s) ∨
      (generation = s.globalGeneration ∧ s.globalOperation = some operation ∧
        s.finishGlobalOperation generation operation =
          (true, { s with globalOperation := none })) := by
  unfold finishGlobalOperation
  split
  · exact .inl rfl
  · next hmatch =>
    rw [not_or, not_not, not_not] at hmatch
    exact .inr ⟨hmatch.1, hmatch.2, rfl⟩

theorem beginVolumeOperation_cases (name : String) (operation : VolumeOperation) :
    s.beginVolumeOperation name operation = (none, s) ∨
      (name ∉ s.operations ∧
        (s.beginVolumeOperation name operation).1 = some (s.operationGeneration + 1) ∧
        (s.beginVolumeOperation name operation).2.tasks =
          s.tasks.insert name operation (s.operationGeneration + 1)) := by
  unfold beginVolumeOperation
  split
  · exact .inl rfl
  · next hfree => exact .inr ⟨fun hmem => hfree (.inr (.inr hmem)), rfl, rfl⟩

theorem volumeOperationMatches_iff : s.volumeOperationMatches generation name operation = true ↔
    s.operations.lookup name = some operation ∧
      s.operationGenerations.lookup name = some generation := by
  unfold volumeOperationMatches
  rw [Bool.and_eq_true, decide_eq_true_eq, decide_eq_true_eq]

theorem finishVolumeOperation_cases (generation : UInt64) (name : String)
    (operation : VolumeOperation) :
    s.finishVolumeOperation generation name operation = (false, s) ∨
      (s.operations.lookup name = some operation ∧
        s.operationGenerations.lookup name = some generation ∧
        s.finishVolumeOperation generation name operation =
          (true, (s.dropOperation name).syncDynamicRoles)) := by
  unfold finishVolumeOperation
  split
  · exact .inl rfl
  · next hmatch =>
    rw [not_not, volumeOperationMatches_iff] at hmatch
    exact .inr ⟨hmatch.1, hmatch.2, rfl⟩

/-- The page with another task of an export or a clone. -/
def setCopy (s : VolumesState) (copy : VolumeCopy) (task : CancellableVolumeTask) : VolumesState :=
  match copy with
  | .exporting => { s with exportTask := task }
  | .cloning => { s with cloneTask := task }

theorem tasks_setCopy (copy : VolumeCopy) (task : CancellableVolumeTask) :
    (s.setCopy copy task).tasks = s.tasks.setCopy copy task := by
  cases copy with
  | exporting | cloning =>
    refine TaskTable.ext rfl rfl (funext fun other => ?_) rfl rfl rfl
    cases other with
    | exporting => rfl
    | cloning => rfl

def beginCopy (s : VolumesState) (copy : VolumeCopy) (name : String) :
    Option UInt64 × VolumesState :=
  if (s.tasks.copies copy).active then (none, s)
  else
    match s.beginVolumeOperation name copy.operation with
    | (some generation, s) => (some generation, s.setCopy copy (.begun name generation))
    | (none, s) => (none, s)

theorem beginCopy_cases (copy : VolumeCopy) (name : String) :
    s.beginCopy copy name = (none, s) ∨
      ∃ generation, (s.tasks.copies copy).active = false ∧ name ∉ s.operations ∧
        (s.beginCopy copy name).1 = some generation ∧
        (s.beginCopy copy name).2.tasks =
          (s.tasks.insert name copy.operation generation).setCopy copy
            (.begun name generation) := by
  unfold beginCopy
  split
  · exact .inl rfl
  · next hidle =>
    rcases beginVolumeOperation_cases (s := s) name copy.operation with
      hrefused | ⟨hfree, hbegun, htasks⟩
    · rw [hrefused]
      exact .inl rfl
    · generalize s.beginVolumeOperation name copy.operation = result at hbegun htasks ⊢
      obtain ⟨begun, t⟩ := result
      dsimp only at hbegun htasks
      subst hbegun
      refine .inr ⟨_, Bool.eq_false_of_not_eq_true hidle, hfree, rfl, ?_⟩
      rw [← htasks]
      exact tasks_setCopy copy _

theorem taskMatches_iff {task : CancellableVolumeTask} :
    task.taskMatches generation = true ↔ task.active = true ∧ task.generation = generation := by
  unfold CancellableVolumeTask.taskMatches
  rw [Bool.and_eq_true, decide_eq_true_eq]

/-- An export or a clone that is recorded with its generation everywhere. -/
structure CopyMatches (s : VolumesState) (copy : VolumeCopy) (generation : UInt64) : Prop where
  active : (s.tasks.copies copy).active = true
  same : (s.tasks.copies copy).generation = generation
  operation : s.operations.lookup (s.tasks.copies copy).volumeName = some copy.operation
  recorded : s.operationGenerations.lookup (s.tasks.copies copy).volumeName = some generation

/-- What the ends of an export or a clone have in common. -/
structure EndsCopy (s : VolumesState) (copy : VolumeCopy) (generation : UInt64)
    (result : Bool × VolumesState) : Prop where
  refused : ¬ s.CopyMatches copy generation → result = (false, s)
  ended : s.CopyMatches copy generation → result.1 = true ∧
    result.2.tasks = (s.tasks.erase (s.tasks.copies copy).volumeName).setCopy copy {}

/-- `finish_export`, `fail_export`, `finish_clone` and `fail_clone` differ in what they do
`after` the operation is finished. -/
theorem endsCopy (s : VolumesState) (copy : VolumeCopy) (generation : UInt64)
    (after : VolumesState → VolumesState)
    (hafter : ∀ t, (after t).tasks = t.tasks.setCopy copy {}) :
    s.EndsCopy copy generation
      (if ¬ (s.tasks.copies copy).taskMatches generation then (false, s)
      else
        match s.finishVolumeOperation generation (s.tasks.copies copy).volumeName
            copy.operation with
        | (true, t) => (true, after t)
        | (false, t) => (false, t)) := by
  rcases finishVolumeOperation_cases (s := s) generation (s.tasks.copies copy).volumeName
    copy.operation with hrefused | ⟨hoperation, hrecorded, hfinished⟩
  · have hno : ¬ s.CopyMatches copy generation := by
      intro hmatch
      unfold finishVolumeOperation at hrefused
      rw [if_neg (not_not_intro (volumeOperationMatches_iff.mpr
        ⟨hmatch.operation, hmatch.recorded⟩))] at hrefused
      cases hrefused
    refine ⟨fun _ => ?_, fun hmatch => absurd hmatch hno⟩
    rw [hrefused]
    split
    · rfl
    · rfl
  · rw [hfinished]
    refine ⟨fun hno => if_pos fun hmatch => hno ?_, fun hmatch => ?_⟩
    · obtain ⟨hactive, hgeneration⟩ := taskMatches_iff.mp hmatch
      exact ⟨hactive, hgeneration, hoperation, hrecorded⟩
    · rw [if_neg (not_not_intro (taskMatches_iff.mpr ⟨hmatch.active, hmatch.same⟩))]
      exact ⟨rfl, hafter _⟩

theorem endsCopy_finishExport (s : VolumesState) (generation : UInt64) :
    s.EndsCopy .exporting generation (s.finishExport generation) :=
  endsCopy s .exporting generation _ fun _ => tasks_setCopy .exporting {}

theorem endsCopy_failExport (s : VolumesState) (generation : UInt64) (error : DaemonError) :
    s.EndsCopy .exporting generation (s.failExport generation error) :=
  endsCopy s .exporting generation (fun t =>
    setOperationError { t with exportTask := {} } error) fun t =>
      tasks_setCopy (s := t) .exporting {}

theorem endsCopy_finishClone [PageText] (s : VolumesState) (generation : UInt64)
    (createdName : Option String) :
    s.EndsCopy .cloning generation (s.finishClone generation createdName) := by
  cases createdName with
  | some name =>
    exact endsCopy s .cloning generation (fun t => { t with cloneTask := {} }.preferVolume name)
      fun t => tasks_setCopy (s := t) .cloning {}
  | none =>
    exact endsCopy s .cloning generation (fun t => { t with cloneTask := {} })
      fun t => tasks_setCopy (s := t) .cloning {}

theorem endsCopy_failClone (s : VolumesState) (generation : UInt64) (error : DaemonError) :
    s.EndsCopy .cloning generation (s.failClone generation error) :=
  endsCopy s .cloning generation (fun t =>
    setOperationError { t with cloneTask := {} } error) fun t => tasks_setCopy (s := t) .cloning {}

theorem failVolumeOperation_refused (error : DaemonError)
    (h : ¬ (s.operations.lookup name = some operation ∧
      s.operationGenerations.lookup name = some generation)) :
    s.failVolumeOperation generation name operation error = (false, s) :=
  if_pos fun hmatch => h (volumeOperationMatches_iff.mp hmatch)

theorem failVolumeOperation_removing (error : DaemonError)
    (hoperation : s.operations.lookup name = some .removing)
    (hrecorded : s.operationGenerations.lookup name = some generation) :
    (s.failVolumeOperation generation name .removing error).2.tasks = s.tasks.erase name := by
  unfold failVolumeOperation
  rw [if_neg (not_not_intro (volumeOperationMatches_iff.mpr ⟨hoperation, hrecorded⟩))]
  rfl

/-- `fail_volume_operation` ends an export or a clone that is recorded as such. -/
theorem failVolumeOperation_copy (error : DaemonError) (copy : VolumeCopy)
    (h : s.CopyMatches copy generation) :
    (s.failVolumeOperation generation (s.tasks.copies copy).volumeName copy.operation
        error).1 = true ∧
      (s.failVolumeOperation generation (s.tasks.copies copy).volumeName copy.operation
        error).2.tasks = (s.tasks.erase (s.tasks.copies copy).volumeName).setCopy copy {} := by
  cases copy with
  | exporting =>
    have hmatch : s.volumeOperationMatches generation s.exportTask.volumeName .exporting = true :=
      volumeOperationMatches_iff.mpr ⟨h.operation, h.recorded⟩
    have htask :
      (s.dropOperation s.exportTask.volumeName).exportTask.taskMatches generation = true :=
      taskMatches_iff.mpr ⟨h.active, h.same⟩
    show (s.failVolumeOperation generation s.exportTask.volumeName .exporting error).1 = true ∧
      (s.failVolumeOperation generation s.exportTask.volumeName .exporting error).2.tasks = _
    unfold failVolumeOperation
    rw [if_neg (not_not_intro hmatch)]
    dsimp only
    rw [if_neg fun h : VolumeOperation.exporting = .cloning ∧ _ => VolumeOperation.noConfusion h.1,
      if_pos (show VolumeOperation.exporting = .exporting ∧ _ from ⟨rfl, htask⟩)]
    exact ⟨rfl, tasks_setCopy (s := s.dropOperation s.exportTask.volumeName) .exporting {}⟩
  | cloning =>
    have hmatch : s.volumeOperationMatches generation s.cloneTask.volumeName .cloning = true :=
      volumeOperationMatches_iff.mpr ⟨h.operation, h.recorded⟩
    have htask : (s.dropOperation s.cloneTask.volumeName).cloneTask.taskMatches generation = true :=
      taskMatches_iff.mpr ⟨h.active, h.same⟩
    show (s.failVolumeOperation generation s.cloneTask.volumeName .cloning error).1 = true ∧
      (s.failVolumeOperation generation s.cloneTask.volumeName .cloning error).2.tasks = _
    unfold failVolumeOperation
    rw [if_neg (not_not_intro hmatch)]
    dsimp only
    rw [if_neg fun h : VolumeOperation.cloning = .exporting ∧ _ => VolumeOperation.noConfusion h.1,
      if_pos (show VolumeOperation.cloning = .cloning ∧ _ from ⟨rfl, htask⟩)]
    exact ⟨rfl, tasks_setCopy (s := s.dropOperation s.cloneTask.volumeName) .cloning {}⟩

end VolumesState

/-! ## Runs of the page -/

structure TaskTable.Kept (t : TaskTable) (running : List (VolumeTask × UInt64)) : Prop where
  keys : ∀ name, name ∈ t.operations ↔ name ∈ t.generations
  recorded : ∀ copy : VolumeCopy, t.Recorded copy.operation (t.copies copy)
  prune : t.prune ≠ .idle → t.global = some .pruning
  copies : ∀ copy generation, (VolumeTask.copying copy, generation) ∈ running →
    (t.copies copy).active = true ∧ (t.copies copy).generation = generation
  prunes : ∀ generation, (VolumeTask.pruning, generation) ∈ running →
    t.global = some .pruning ∧ t.globalGeneration = generation

/-- What a removal of a volume that is being copied breaks. -/
def TaskTable.AllMatched (t : TaskTable) : Prop :=
  ∀ copy : VolumeCopy, t.Matched copy.operation (t.copies copy)

namespace TaskTable

variable {t : TaskTable} {running running' : List (VolumeTask × UInt64)} {name : String}
  {generation : UInt64} {copy : VolumeCopy}

theorem operation_injective {a b : VolumeCopy} (h : a.operation = b.operation) : a = b := by
  cases a with
  | exporting =>
    cases b with
    | exporting => rfl
    | cloning => cases h
  | cloning =>
    cases b with
    | exporting => cases h
    | cloning => rfl

theorem keys_erase (h : ∀ name, name ∈ t.operations ↔ name ∈ t.generations) (place : String) :
    place ∈ (t.erase name).operations ↔ place ∈ (t.erase name).generations := by
  show place ∈ t.operations.erase name ↔ place ∈ t.generations.erase name
  rw [AList.mem_erase, AList.mem_erase, h]

theorem keys_insert {operation : VolumeOperation}
    (h : ∀ name, name ∈ t.operations ↔ name ∈ t.generations) (place : String) :
    place ∈ (t.insert name operation generation).operations ↔
      place ∈ (t.insert name operation generation).generations := by
  show place ∈ t.operations.insert name operation ↔ place ∈ t.generations.insert name generation
  rw [AList.mem_insert, AList.mem_insert, h]

theorem Kept.erase (h : t.Kept running) : (t.erase name).Kept running :=
  ⟨keys_erase h.keys, fun copy => (h.recorded copy).erase, h.prune, h.copies, h.prunes⟩

theorem Kept.insert (h : t.Kept running) : (t.insert name .removing generation).Kept running := by
  refine ⟨keys_insert h.keys, fun copy => (h.recorded copy).insert_other ?_, h.prune, h.copies,
    h.prunes⟩
  cases copy with
  | exporting | cloning => exact fun h => (by cases h)

theorem AllMatched.insert (h : t.AllMatched) (hfree : name ∉ t.operations)
    {operation : VolumeOperation} : (t.insert name operation generation).AllMatched :=
  fun copy => (h copy).insert_other hfree

theorem Kept.beginCopy (h : t.Kept running) (hidle : (t.copies copy).active = false)
    (hrunning : ∀ task ∈ running', task = (.copying copy, generation) ∨ task ∈ running) :
    ((t.insert name copy.operation generation).setCopy copy
      (.begun name generation)).Kept running' := by
  refine ⟨keys_insert h.keys, fun other => ?_, h.prune, fun other g hmem => ?_, fun g hmem => ?_⟩
  · show (t.insert name copy.operation generation).Recorded other.operation
      (Function.update t.copies copy _ other)
    by_cases hother : other = copy
    · subst hother
      rw [Function.update_self]
      exact (h.recorded other).insert_own hidle
    · rw [Function.update_of_ne hother]
      exact (h.recorded other).insert_other fun hop => hother (operation_injective hop)
  · show (Function.update t.copies copy _ other).active = true ∧
      (Function.update t.copies copy _ other).generation = g
    rcases hrunning _ hmem with hnew | hold
    · cases hnew
      rw [Function.update_self]
      exact ⟨rfl, rfl⟩
    · have hother : other ≠ copy := by
        rintro rfl
        rw [(h.copies other g hold).1] at hidle
        cases hidle
      rw [Function.update_of_ne hother]
      exact h.copies other g hold
  · rcases hrunning _ hmem with hnew | hold
    · cases hnew
    · exact h.prunes g hold

theorem AllMatched.beginCopy (h : t.AllMatched) (hfree : name ∉ t.operations) :
    ((t.insert name copy.operation generation).setCopy copy
      (.begun name generation)).AllMatched := by
  intro other
  show (t.insert name copy.operation generation).Matched other.operation
    (Function.update t.copies copy _ other)
  by_cases hother : other = copy
  · subst hother
    rw [Function.update_self]
    exact matched_insert_own
  · rw [Function.update_of_ne hother]
    exact (h other).insert_other hfree

theorem Kept.endCopy (h : t.Kept running)
    (hoperation : t.operations.lookup name = some copy.operation)
    (hrunning : ∀ task ∈ running', task ∈ running ∧
      task ≠ (.copying copy, (t.copies copy).generation)) :
    ((t.erase name).setCopy copy {}).Kept running' := by
  refine ⟨keys_erase h.keys, fun other => ?_, h.prune, fun other g hmem => ?_, fun g hmem =>
    h.prunes g (hrunning _ hmem).1⟩
  · show (t.erase name).Recorded other.operation (Function.update t.copies copy _ other)
    by_cases hother : other = copy
    · subst hother
      rw [Function.update_self]
      exact (h.recorded other).erase_own hoperation
    · rw [Function.update_of_ne hother]
      exact (h.recorded other).erase
  · obtain ⟨hold, hne⟩ := hrunning _ hmem
    have hother : other ≠ copy := by
      rintro rfl
      exact hne (by rw [(h.copies other g hold).2])
    show (Function.update t.copies copy _ other).active = true ∧
      (Function.update t.copies copy _ other).generation = g
    rw [Function.update_of_ne hother]
    exact h.copies other g hold

theorem AllMatched.endCopy (h : t.AllMatched)
    (hoperation : t.operations.lookup name = some copy.operation) :
    ((t.erase name).setCopy copy {}).AllMatched := by
  intro other
  show (t.erase name).Matched other.operation (Function.update t.copies copy _ other)
  by_cases hother : other = copy
  · subst hother
    rw [Function.update_self]
    exact matched_idle
  · rw [Function.update_of_ne hother]
    exact (h other).erase_other (fun hop => hother (operation_injective hop)) hoperation

theorem AllMatched.erase_removing (h : t.AllMatched)
    (hoperation : t.operations.lookup name = some .removing) : (t.erase name).AllMatched := by
  intro copy
  refine (h copy).erase_other ?_ hoperation
  cases copy with
  | exporting | cloning => exact fun h => (by cases h)

theorem Kept.cancel (h : t.Kept running) (cancellation : CancellationState) :
    (t.setCopy copy { t.copies copy with cancellation }).Kept running := by
  refine ⟨h.keys, fun other => ?_, h.prune, fun other g hmem => ?_, h.prunes⟩
  · show t.Recorded other.operation (Function.update t.copies copy _ other)
    by_cases hother : other = copy
    · subst hother
      rw [Function.update_self]
      exact h.recorded other
    · rw [Function.update_of_ne hother]
      exact h.recorded other
  · show (Function.update t.copies copy _ other).active = true ∧
      (Function.update t.copies copy _ other).generation = g
    by_cases hother : other = copy
    · subst hother
      rw [Function.update_self]
      exact h.copies other g hmem
    · rw [Function.update_of_ne hother]
      exact h.copies other g hmem

theorem AllMatched.cancel (h : t.AllMatched) (cancellation : CancellationState) :
    (t.setCopy copy { t.copies copy with cancellation }).AllMatched := by
  intro other
  show t.Matched other.operation (Function.update t.copies copy _ other)
  by_cases hother : other = copy
  · subst hother
    rw [Function.update_self]
    exact h other
  · rw [Function.update_of_ne hother]
    exact h other

theorem Kept.mono (h : t.Kept running) (hrunning : ∀ task ∈ running', task ∈ running) :
    t.Kept running' :=
  ⟨h.keys, h.recorded, h.prune, fun copy g hmem => h.copies copy g (hrunning _ hmem),
    fun g hmem => h.prunes g (hrunning _ hmem)⟩

theorem Kept.setGlobal (h : t.Kept running) {prune : CancellationState}
    {global : Option GlobalVolumeOperation} (hprune : prune ≠ .idle → global = some .pruning)
    (hcopies : ∀ copy g, (VolumeTask.copying copy, g) ∈ running' →
      (VolumeTask.copying copy, g) ∈ running)
    (hprunes : ∀ g, (VolumeTask.pruning, g) ∈ running' →
      global = some .pruning ∧ generation = g) :
    { t with prune, global, globalGeneration := generation }.Kept running' :=
  ⟨h.keys, h.recorded, hprune, fun copy g hmem => h.copies copy g (hcopies copy g hmem), hprunes⟩

end TaskTable

namespace VolumesRun

variable [PageText] {r : VolumesRun} {call : VolumesCall}

theorem mem_running_step {task : VolumeTask × UInt64} : task ∈ (r.step call).running ↔
    call.begins r.state = some task ∨ (task ∈ r.running ∧ call.ends r.state ≠ some task) := by
  show task ∈ (call.begins r.state).toList ++
    r.running.filter (fun task => decide (call.ends r.state ≠ some task)) ↔ _
  rw [List.mem_append, Option.mem_toList, List.mem_filter, decide_eq_true_eq]

theorem mem_of_begins_none (h : call.begins r.state = none) :
    ∀ task ∈ (r.step call).running, task ∈ r.running := by
  intro task hmem
  rcases mem_running_step.mp hmem with hbegun | hold
  · rw [h] at hbegun
    cases hbegun
  · exact hold.1

/-- What one call keeps; `AllMatched` is kept by all calls that do not remove a volume that
is being copied. -/
def Advances (r : VolumesRun) (call : VolumesCall) : Prop :=
  (r.step call).state.tasks.Kept (r.step call).running ∧
    (r.KeepsTasks call → r.state.tasks.AllMatched → (r.step call).state.tasks.AllMatched)

section

variable (h : r.state.tasks.Kept r.running)
include h

theorem advances_same (hbegins : call.begins r.state = none)
    (hsame : (call.after r.state).tasks = r.state.tasks) : r.Advances call := by
  unfold Advances
  rw [show (r.step call).state.tasks = r.state.tasks from hsame]
  exact ⟨h.mono (mem_of_begins_none hbegins), fun _ => id⟩

theorem advances_removeLocal (name : String) : r.Advances (.removeLocal name) := by
  unfold Advances
  rw [show (r.step (.removeLocal name)).state.tasks = _ from VolumesState.tasks_removeLocal]
  refine ⟨h.erase.mono (mem_of_begins_none rfl), fun hkeeps hmatched copy => ?_⟩
  obtain ⟨hexport, hclone⟩ := hkeeps name rfl
  refine (hmatched copy).erase ?_
  cases copy with
  | exporting => exact fun hactive hvolume => hexport ⟨hactive, hvolume⟩
  | cloning => exact fun hactive hvolume => hclone ⟨hactive, hvolume⟩

theorem advances_beginCopy (copy : VolumeCopy) (name : String)
    (hbegins : call.begins r.state = (r.state.beginCopy copy name).1.map (.copying copy, ·))
    (hafter : call.after r.state = (r.state.beginCopy copy name).2) : r.Advances call := by
  rcases VolumesState.beginCopy_cases (s := r.state) copy name with
    hrefused | ⟨generation, hidle, hfree, hbegun, htasks⟩
  · rw [hrefused] at hbegins hafter
    exact advances_same h hbegins (congrArg VolumesState.tasks hafter)
  · rw [hbegun] at hbegins
    unfold Advances
    rw [show (r.step call).state.tasks = _ from (congrArg VolumesState.tasks hafter).trans htasks]
    refine ⟨h.beginCopy hidle fun task hmem => ?_, fun _ hmatched => hmatched.beginCopy hfree⟩
    rcases mem_running_step.mp hmem with hnew | hold
    · exact .inl (Option.some.inj (hnew.symm.trans hbegins))
    · exact .inr hold.1

theorem advances_endCopy {name : String} {generation : UInt64} {copy : VolumeCopy}
    (hoperation : r.state.operations.lookup name = some copy.operation)
    (hgeneration : (r.state.tasks.copies copy).generation = generation)
    (hbegins : call.begins r.state = none)
    (hends : call.ends r.state = some (.copying copy, generation))
    (htasks : (call.after r.state).tasks = (r.state.tasks.erase name).setCopy copy {}) :
    r.Advances call := by
  unfold Advances
  rw [show (r.step call).state.tasks = _ from htasks]
  refine ⟨h.endCopy hoperation fun task hmem => ?_, fun _ hmatched => hmatched.endCopy hoperation⟩
  rcases mem_running_step.mp hmem with hbegun | ⟨hold, hne⟩
  · rw [hbegins] at hbegun
    cases hbegun
  · refine ⟨hold, fun heq => hne ?_⟩
    rw [hends, heq, hgeneration]

theorem advances_of_endsCopy {generation : UInt64} {copy : VolumeCopy}
    {result : Bool × VolumesState} (hresult : r.state.EndsCopy copy generation result)
    (hafter : call.after r.state = result.2) (hbegins : call.begins r.state = none)
    (hends : call.ends r.state = if result.1 then some (.copying copy, generation) else none) :
    r.Advances call := by
  by_cases hmatch : r.state.CopyMatches copy generation
  · obtain ⟨hdone, htasks⟩ := hresult.ended hmatch
    rw [hdone, if_pos rfl] at hends
    exact advances_endCopy h hmatch.operation hmatch.same hbegins hends
      ((congrArg VolumesState.tasks hafter).trans htasks)
  · refine advances_same h hbegins ?_
    rw [hafter, hresult.refused hmatch]

theorem advances_failVolumeOperation (generation : UInt64) (name : String)
    (operation : VolumeOperation) (error : DaemonError) :
    r.Advances (.failVolumeOperation generation name operation error) := by
  have hbegins : (VolumesCall.failVolumeOperation generation name operation error).begins
      r.state = none := rfl
  by_cases hmatch : r.state.operations.lookup name = some operation ∧
      r.state.operationGenerations.lookup name = some generation
  · obtain ⟨hoperation, hrecorded⟩ := hmatch
    have hcopy : ∀ copy : VolumeCopy, r.state.operations.lookup name = some copy.operation →
        (r.state.tasks.copies copy).volumeName = name ∧ r.state.CopyMatches copy generation := by
      intro copy hoperation
      obtain ⟨hactive, rfl, hgeneration⟩ := h.recorded copy name hoperation
      exact ⟨rfl, hactive, Option.some.inj (hgeneration.symm.trans hrecorded), hoperation,
        hrecorded⟩
    cases operation with
    | removing =>
      have htasks := VolumesState.failVolumeOperation_removing error hoperation hrecorded
      unfold Advances
      rw [show (r.step (.failVolumeOperation generation name .removing error)).state.tasks = _
        from htasks]
      exact ⟨h.erase.mono (mem_of_begins_none hbegins), fun _ hmatched =>
        hmatched.erase_removing hoperation⟩
    | exporting =>
      obtain ⟨hvolume, hmatches⟩ := hcopy .exporting hoperation
      obtain ⟨hdone, htasks⟩ := VolumesState.failVolumeOperation_copy error _ hmatches
      rw [hvolume] at hdone htasks
      exact advances_endCopy h hoperation hmatches.same hbegins (if_pos hdone) htasks
    | cloning =>
      obtain ⟨hvolume, hmatches⟩ := hcopy .cloning hoperation
      obtain ⟨hdone, htasks⟩ := VolumesState.failVolumeOperation_copy error _ hmatches
      rw [hvolume] at hdone htasks
      exact advances_endCopy h hoperation hmatches.same hbegins (if_pos hdone) htasks
  · refine advances_same h hbegins ?_
    show (r.state.failVolumeOperation generation name operation error).2.tasks = _
    rw [VolumesState.failVolumeOperation_refused error hmatch]

theorem advances_beginRemove (name : String) : r.Advances (.beginRemove name) := by
  by_cases hthere : r.state.sourceRowExists name = true
  · have hafter : (VolumesCall.beginRemove name).after r.state =
        (r.state.beginVolumeOperation name .removing).2 := by
      show (r.state.beginRemove name).2 = _
      unfold VolumesState.beginRemove
      rw [if_neg (not_not_intro hthere)]
    rcases VolumesState.beginVolumeOperation_cases (s := r.state) name .removing with
      hrefused | ⟨hfree, -, htasks⟩
    · exact advances_same h rfl (by rw [hafter, hrefused])
    · unfold Advances
      rw [show (r.step (.beginRemove name)).state.tasks = _ from
        (congrArg VolumesState.tasks hafter).trans htasks]
      exact ⟨h.insert.mono (mem_of_begins_none rfl), fun _ hmatched => hmatched.insert hfree⟩
  · refine advances_same h rfl ?_
    show (r.state.beginRemove name).2.tasks = _
    unfold VolumesState.beginRemove
    rw [if_pos hthere]

theorem advances_finishRemove (generation : UInt64) (name : String) :
    r.Advances (.finishRemove generation name) := by
  rcases VolumesState.finishVolumeOperation_cases (s := r.state) generation name .removing with
    hrefused | ⟨hoperation, -, hfinished⟩
  · exact advances_same h rfl (congrArg (·.2.tasks) hrefused)
  · unfold Advances
    rw [show (r.step (.finishRemove generation name)).state.tasks = r.state.tasks.erase name from
      congrArg (·.2.tasks) hfinished]
    exact ⟨h.erase.mono (mem_of_begins_none rfl), fun _ hmatched =>
      hmatched.erase_removing hoperation⟩

theorem advances_cancelCopy (copy : VolumeCopy)
    (hbegins : call.begins r.state = none)
    (hafter : call.after r.state =
      r.state.setCopy copy (r.state.tasks.copies copy).requestCancellation.2) :
    r.Advances call := by
  have htasks : (r.step call).state.tasks =
      r.state.tasks.setCopy copy (r.state.tasks.copies copy).requestCancellation.2 :=
    (congrArg VolumesState.tasks hafter).trans (VolumesState.tasks_setCopy copy _)
  by_cases hrefused : ¬ (r.state.tasks.copies copy).active ∨
      (r.state.tasks.copies copy).cancellation ≠ .cancellable
  · unfold CancellableVolumeTask.requestCancellation at htasks
    rw [if_pos hrefused] at htasks
    refine advances_same h hbegins (htasks.trans ?_)
    exact congrArg (fun copies => { r.state.tasks with copies }) (Function.update_eq_self copy _)
  · unfold CancellableVolumeTask.requestCancellation at htasks
    rw [if_neg hrefused] at htasks
    unfold Advances
    rw [htasks]
    exact ⟨(h.cancel _).mono (mem_of_begins_none hbegins), fun _ hmatched => hmatched.cancel _⟩

theorem advances_setGlobal {generation : UInt64}
    {prune : CancellationState} {global : Option GlobalVolumeOperation}
    (htasks : (call.after r.state).tasks =
      { r.state.tasks with prune, global, globalGeneration := generation })
    (hprune : prune ≠ .idle → global = some .pruning)
    (hcopies : ∀ copy g, call.begins r.state ≠ some (.copying copy, g))
    (hprunes : ∀ g, (VolumeTask.pruning, g) ∈ (r.step call).running →
      global = some .pruning ∧ generation = g) : r.Advances call := by
  unfold Advances
  rw [show (r.step call).state.tasks = _ from htasks]
  refine ⟨h.setGlobal hprune (fun copy g hmem => ?_) hprunes, fun _ => id⟩
  rcases mem_running_step.mp hmem with hbegun | hold
  · exact absurd hbegun (hcopies copy g)
  · exact hold.1

theorem advances_beginCreate : r.Advances .beginCreate := by
  rcases VolumesState.beginGlobalOperation_cases (s := r.state) .creating with
    hrefused | ⟨hfree, -, htasks⟩
  · exact advances_same h rfl (congrArg (·.2.tasks) hrefused)
  · refine advances_setGlobal h htasks (fun hprune => ?_) (fun _ _ hbegun => by cases hbegun)
      fun g hmem => ?_
    · cases hfree.symm.trans (h.prune hprune)
    · cases hfree.symm.trans (h.prunes g (mem_of_begins_none rfl _ hmem)).1

theorem advances_finishCreate (generation : UInt64) (createdName : String) :
    r.Advances (.finishCreate generation createdName) := by
  have hafter : (VolumesCall.finishCreate generation createdName).after r.state =
      (r.state.finishCreate generation createdName).2 := rfl
  unfold VolumesState.finishCreate at hafter
  rcases VolumesState.finishGlobalOperation_cases (s := r.state) generation .creating with
      hrefused | ⟨-, hcreating, hfinished⟩
  · rw [hrefused] at hafter
    exact advances_same h rfl (congrArg VolumesState.tasks hafter)
  · rw [hfinished] at hafter
    have htasks : ((VolumesCall.finishCreate generation createdName).after r.state).tasks =
        { r.state.tasks with global := none } := congrArg VolumesState.tasks hafter
    refine advances_setGlobal h htasks (fun hprune => ?_) (fun _ _ hbegun => by cases hbegun)
      fun g hmem => ?_
    · cases hcreating.symm.trans (h.prune hprune)
    · cases hcreating.symm.trans (h.prunes g (mem_of_begins_none rfl _ hmem)).1

theorem advances_beginPrune : r.Advances .beginPrune := by
  have hafter : (VolumesCall.beginPrune).after r.state = r.state.beginPrune.2 := rfl
  have hbegins : (VolumesCall.beginPrune).begins r.state =
      r.state.beginPrune.1.map (.pruning, ·) := rfl
  unfold VolumesState.beginPrune at hafter hbegins
  rcases VolumesState.beginGlobalOperation_cases (s := r.state) .pruning with
    hrefused | ⟨hfree, hbegun, htasks⟩
  · rw [hrefused] at hafter hbegins
    exact advances_same h hbegins (congrArg VolumesState.tasks hafter)
  · generalize r.state.beginGlobalOperation .pruning = result at hbegun htasks hafter hbegins
    obtain ⟨begun, t⟩ := result
    dsimp only at hbegun htasks
    subst hbegun
    refine advances_setGlobal h ((congrArg VolumesState.tasks hafter).trans
      (congrArg (fun table : TaskTable => { table with prune := .cancellable }) htasks))
      (fun _ => rfl) (fun copy g hcopy => ?_) fun g hmem => ?_
    · cases hbegins.symm.trans hcopy
    · rcases mem_running_step.mp hmem with hnew | hold
      · cases hbegins.symm.trans hnew
        exact ⟨rfl, rfl⟩
      · cases hfree.symm.trans (h.prunes g hold.1).1

theorem advances_requestCancelPrune : r.Advances .requestCancelPrune := by
  have hafter : (VolumesCall.requestCancelPrune).after r.state = r.state.requestCancelPrune.2 := rfl
  unfold VolumesState.requestCancelPrune at hafter
  split at hafter
  · exact advances_same h rfl (congrArg VolumesState.tasks hafter)
  · next hcancellable =>
    rw [not_or, not_not] at hcancellable
    have htasks : ((VolumesCall.requestCancelPrune).after r.state).tasks =
        { r.state.tasks with prune := .cancellationRequested } :=
      congrArg VolumesState.tasks hafter
    exact advances_setGlobal h htasks (fun _ => hcancellable.1)
      (fun _ _ hbegun => by cases hbegun)
      fun g hmem => h.prunes g (mem_of_begins_none rfl _ hmem)

theorem advances_finishPrune (generation : UInt64) : r.Advances (.finishPrune generation) := by
  have hafter : (VolumesCall.finishPrune generation).after r.state =
      (r.state.finishPrune generation).2 := rfl
  have hends : (VolumesCall.finishPrune generation).ends r.state =
      if (r.state.finishPrune generation).1 then some (.pruning, generation) else none := rfl
  unfold VolumesState.finishPrune at hafter hends
  rcases VolumesState.finishGlobalOperation_cases (s := r.state) generation .pruning with
      hrefused | ⟨hgeneration, -, hfinished⟩
  · rw [hrefused] at hafter
    exact advances_same h rfl (congrArg VolumesState.tasks hafter)
  · rw [hfinished] at hafter hends
    have htasks : ((VolumesCall.finishPrune generation).after r.state).tasks =
        { r.state.tasks with prune := .idle, global := none } := congrArg VolumesState.tasks hafter
    refine advances_setGlobal h htasks (fun hprune => absurd rfl hprune)
      (fun _ _ hbegun => by cases hbegun) fun g hmem => ?_
    rcases mem_running_step.mp hmem with hbegun | ⟨hold, hne⟩
    · cases hbegun
    · refine absurd (hends.trans ?_) hne
      rw [← (h.prunes g hold).2, hgeneration]
      rfl

theorem advances_failGlobalOperation (generation : UInt64) (error : DaemonError) :
    r.Advances (.failGlobalOperation generation error) := by
  have hafter : (VolumesCall.failGlobalOperation generation error).after r.state =
      (r.state.failGlobalOperation generation error).2 := rfl
  have hends : (VolumesCall.failGlobalOperation generation error).ends r.state =
      if r.state.globalOperation = some .pruning ∧
        (r.state.failGlobalOperation generation error).1 then some (.pruning, generation)
      else none := rfl
  unfold VolumesState.failGlobalOperation at hafter hends
  split at hafter
  · exact advances_same h rfl (congrArg VolumesState.tasks hafter)
  · next hrunning =>
    rw [if_neg hrunning] at hends
    rw [not_or, not_not] at hrunning
    have htasks : ((VolumesCall.failGlobalOperation generation error).after r.state).tasks =
        { r.state.tasks with
          prune :=
            if r.state.globalOperation = some .pruning then .idle else r.state.pruneCancellation
          global := none } := congrArg VolumesState.tasks hafter
    refine advances_setGlobal h htasks (fun hprune => ?_) (fun _ _ hbegun => by cases hbegun)
      fun g hmem => ?_
    · by_cases hpruning : r.state.globalOperation = some .pruning
      · rw [if_pos hpruning] at hprune
        exact absurd rfl hprune
      · rw [if_neg hpruning] at hprune
        exact absurd (h.prune hprune) hpruning
    · rcases mem_running_step.mp hmem with hbegun | ⟨hold, hne⟩
      · cases hbegun
      · obtain ⟨hpruning, hg⟩ := h.prunes g hold
        refine absurd (hends.trans ?_) hne
        rw [if_pos ⟨hpruning, rfl⟩, hrunning.2, ← hg]
        rfl

/-- **One call** keeps the records in order. -/
theorem advances (call : VolumesCall) : r.Advances call := by
  cases call with
  | initializePage => exact advances_same h rfl VolumesState.tasks_initializePage
  | beginRefresh | patchUsage references usage | setSortMode mode | clearSelection
  | preferVolume name => exact advances_same h rfl rfl
  | applyList generation summaries => exact advances_same h rfl (VolumesState.tasks_applyList _)
  | applyListError generation error =>
    exact advances_same h rfl (VolumesState.tasks_applyListError _)
  | setSearchQuery query => exact advances_same h rfl (VolumesState.tasks_setSearchQuery _)
  | select name => exact advances_same h rfl VolumesState.tasks_select
  | beginSelectedInspect => exact advances_same h rfl VolumesState.tasks_beginSelectedInspect
  | applyDetail generation detail => exact advances_same h rfl (VolumesState.tasks_applyDetail _)
  | applyDetailError generation error =>
    exact advances_same h rfl (VolumesState.tasks_applyDetailError _)
  | removeLocal name => exact advances_removeLocal h name
  | beginCreate => exact advances_beginCreate h
  | finishCreate generation createdName => exact advances_finishCreate h generation createdName
  | beginPrune => exact advances_beginPrune h
  | requestCancelPrune => exact advances_requestCancelPrune h
  | finishPrune generation => exact advances_finishPrune h generation
  | failGlobalOperation generation error => exact advances_failGlobalOperation h generation error
  | beginRemove name => exact advances_beginRemove h name
  | finishRemove generation name => exact advances_finishRemove h generation name
  | failVolumeOperation generation name operation error =>
    exact advances_failVolumeOperation h generation name operation error
  | beginExport name => exact advances_beginCopy h .exporting name rfl rfl
  | requestCancelExport => exact advances_cancelCopy h .exporting rfl rfl
  | finishExport generation =>
    exact advances_of_endsCopy h (VolumesState.endsCopy_finishExport _ _) rfl rfl rfl
  | failExport generation error =>
    exact advances_of_endsCopy h (VolumesState.endsCopy_failExport _ _ _) rfl rfl rfl
  | beginClone source => exact advances_beginCopy h .cloning source rfl rfl
  | requestCancelClone => exact advances_cancelCopy h .cloning rfl rfl
  | finishClone generation createdName =>
    exact advances_of_endsCopy h (VolumesState.endsCopy_finishClone _ _ _) rfl rfl rfl
  | failClone generation error =>
    exact advances_of_endsCopy h (VolumesState.endsCopy_failClone _ _ _) rfl rfl rfl

end

end VolumesRun

/-! ## No task is stuck -/

namespace VolumesState

variable {s : VolumesState}

theorem canBegin_beginCopy {copy : VolumeCopy} (h : (s.tasks.copies copy).active = false) :
    s.CanBegin fun s name => (s.beginCopy copy name).1 := by
  intro name hthere hfree
  have hname : name ≠ "" := by
    rintro rfl
    cases hthere
  dsimp only
  unfold beginCopy beginVolumeOperation
  rw [h, if_neg Bool.false_ne_true, if_neg (by simp [hname, hthere, hfree])]
  rfl

theorem EndsCopy.idle {copy : VolumeCopy} {generation : UInt64} {result : Bool × VolumesState}
    (h : s.EndsCopy copy generation result) (hmatch : s.CopyMatches copy generation) :
    (result.2.tasks.copies copy).active = false := by
  rw [(h.ended hmatch).2]
  show (Function.update s.tasks.copies copy {} copy).active = false
  rw [Function.update_self]

theorem canEnd_exporting [PageText] {generation : UInt64}
    (h : s.CopyMatches .exporting generation) :
    s.CanEnd (.copying .exporting, generation) := by
  have hfinish := endsCopy_finishExport s generation
  refine ⟨⟨(hfinish.ended h).1, canBegin_beginCopy (hfinish.idle h)⟩, fun error => ?_⟩
  have hfail := endsCopy_failExport s generation error
  exact ⟨(hfail.ended h).1, canBegin_beginCopy (hfail.idle h)⟩

theorem canEnd_cloning [PageText] {generation : UInt64} (h : s.CopyMatches .cloning generation) :
    s.CanEnd (.copying .cloning, generation) := by
  refine ⟨fun createdName => ?_, fun error => ?_⟩
  · have hfinish := endsCopy_finishClone s generation createdName
    exact ⟨(hfinish.ended h).1, canBegin_beginCopy (hfinish.idle h)⟩
  · have hfail := endsCopy_failClone s generation error
    exact ⟨(hfail.ended h).1, canBegin_beginCopy (hfail.idle h)⟩

theorem isSome_beginPrune (h : s.globalOperation = none) : s.beginPrune.1.isSome := by
  unfold beginPrune beginGlobalOperation
  rw [h]
  rfl

theorem canEnd_pruning [PageText] (h : s.globalOperation = some .pruning) :
    s.CanEnd (.pruning, s.globalGeneration) := by
  constructor
  · unfold finishPrune finishGlobalOperation
    rw [if_neg (by simp [h])]
    exact ⟨rfl, isSome_beginPrune rfl⟩
  · intro error
    unfold failGlobalOperation
    rw [if_neg (by simp [h])]
    exact ⟨rfl, isSome_beginPrune rfl⟩

end VolumesState

namespace VolumesRun

variable [PageText] {r : VolumesRun}

theorem canEnd_of_kept (h : r.state.tasks.Kept r.running) (hmatched : r.state.tasks.AllMatched)
    {task : VolumeTask × UInt64} (hmem : task ∈ r.running) : r.state.CanEnd task := by
  obtain ⟨kind, generation⟩ := task
  cases kind with
  | copying copy =>
    obtain ⟨hactive, hgeneration⟩ := h.copies copy generation hmem
    have hoperation := hmatched copy hactive
    have hrecorded := (h.recorded copy _ hoperation).2.2
    rw [hgeneration] at hrecorded
    cases copy with
    | exporting =>
      exact VolumesState.canEnd_exporting ⟨hactive, hgeneration, hoperation, hrecorded⟩
    | cloning => exact VolumesState.canEnd_cloning ⟨hactive, hgeneration, hoperation, hrecorded⟩
  | pruning =>
    obtain ⟨hpruning, rfl⟩ := h.prunes generation hmem
    exact VolumesState.canEnd_pruning hpruning

theorem tasksSound_iff (h : r.state.tasks.Kept r.running) :
    r.TasksSound ↔ r.state.tasks.AllMatched := by
  constructor
  · intro hsound copy hactive
    cases copy with
    | exporting => exact (hsound.exports.mp hactive).1
    | cloning => exact (hsound.clones.mp hactive).1
  · intro hmatched
    refine ⟨h.keys, ⟨fun hactive => ?_, fun hthere => ?_⟩, ⟨fun hactive => ?_, fun hthere => ?_⟩,
      h.prune, fun task => canEnd_of_kept h hmatched⟩
    · have hoperation := hmatched .exporting hactive
      exact ⟨hoperation, (h.recorded .exporting _ hoperation).2.2⟩
    · exact (h.recorded .exporting _ hthere.1).1
    · have hoperation := hmatched .cloning hactive
      exact ⟨hoperation, (h.recorded .cloning _ hoperation).2.2⟩
    · exact (h.recorded .cloning _ hthere.1).1

omit [PageText] in
theorem kept_empty : ({} : VolumesRun).state.tasks.Kept ({} : VolumesRun).running :=
  ⟨fun _ => Iff.rfl, fun _ _ h => (by cases h), fun h => absurd rfl h, fun _ _ h => (by cases h),
    fun _ h => (by cases h)⟩

omit [PageText] in
theorem allMatched_empty : ({} : VolumesRun).state.tasks.AllMatched := by
  intro copy hactive
  cases copy with
  | exporting | cloning => cases hactive

/-- A volume that is being copied leaves its task behind. -/
theorem not_matched_removeLocal {name : String}
    (h : (r.state.exportTask.active = true ∧ r.state.exportTask.volumeName = name) ∨
      (r.state.cloneTask.active = true ∧ r.state.cloneTask.volumeName = name)) :
    ¬ (r.step (.removeLocal name)).state.tasks.AllMatched := by
  rw [show (r.step (.removeLocal name)).state.tasks = _ from VolumesState.tasks_removeLocal]
  intro hmatched
  rcases h with ⟨hactive, rfl⟩ | ⟨hactive, rfl⟩
  · cases (hmatched .exporting hactive).symm.trans (AList.lookup_erase _ _)
  · cases (hmatched .cloning hactive).symm.trans (AList.lookup_erase _ _)

/-- **The runs without stuck tasks**: the records of all tasks belong together all along a
run, and every task that has begun can be finished or failed, exactly when no volume is
removed from the list while it is being exported or cloned. -/
theorem tasks_sound_iff (calls : List VolumesCall) :
    volumesPage.AllStates TasksSound {} calls ↔ volumesPage.AllSteps KeepsTasks {} calls := by
  refine Machine.allStates_iff_allSteps (J := fun r => r.state.tasks.Kept r.running)
    ?_ ?_ ?_ ?_ kept_empty ((tasksSound_iff kept_empty).mpr allMatched_empty)
  · rintro r call r' h hstep
    cases hstep
    exact (advances h call).1
  · rintro r call r' h hsound hkeeps hstep
    cases hstep
    obtain ⟨hkept, hmatched⟩ := advances h call
    exact (tasksSound_iff hkept).mpr (hmatched hkeeps ((tasksSound_iff h).mp hsound))
  · rintro r call r' h - hremoves hstep hsound
    cases hstep
    have hmatched := (tasksSound_iff (advances h call).1).mp hsound
    unfold KeepsTasks at hremoves
    push Not at hremoves
    obtain ⟨name, rfl, hcopied⟩ := hremoves
    refine not_matched_removeLocal ?_ hmatched
    by_cases hexport : r.state.exportTask.active = true ∧ r.state.exportTask.volumeName = name
    · exact Or.inl hexport
    · exact Or.inr (hcopied fun hactive hname => hexport ⟨hactive, hname⟩)
  · rintro r call -
    exact ⟨_, rfl⟩

end VolumesRun

/-- A volume is removed from the list while it is being exported: its task stays, and no
other export can begin. -/
theorem VolumesRun.export_is_stuck :
    letI := asciiTexts
    ¬ volumesPage.AllStates VolumesRun.TasksSound {}
      [.beginRefresh,
        .applyList 1 [⟨"data", "local", "local", none, none, [], [], ⟨none, none⟩, [], false⟩],
        .beginExport "data", .removeLocal "data"] := by
  let texts := asciiTexts
  intro hstates
  have hexports := ((((hstates.2 _ rfl).2 _ rfl).2 _ rfl).2 _ rfl).exports
  revert hexports
  decide +kernel

end TuxStack.Gui
