import TuxStack.Docker.VolumeClone
import TuxStack.Lib.HostFiles
import TuxStack.Lib.PathComponents
import TuxStack.Lib.Utf8

/-!
# Exporting a volume

`VolumeService::export_volume` (`crates/docker-core/src/services/volumes.rs`): a helper
container writes the archive into a staging directory beside the destination, and the
finished file is renamed. A guard removes what is left in the staging directory, once it has
been made: the tasks that its drop spawns have run where a run ends here.

How each step goes is taken from an `ExportEnv`: what Docker answers, which operations the
host fails, and when the token is cancelled.

A return between the creation of the directory and that of its guard leaves the directory
behind (`cancelled_export_leaves_staging`), and a failure to remove the empty directory is
an error although the archive has its name. `exportVolume_iff` says that there is nothing
else but operations of the cleanup that fail.
-/

namespace TuxStack.Docker

open Effect
open Result
open Files (Name isAbsolute joinPath fileName absolute)
open HostFiles (Place IoError Node)
open HostFiles.Files (attempt tryIo)
open Utf8

abbrev HostFiles := TuxStack.HostFiles.Files

inductive VolumeExportCompression where
  | tar
  | tarGzip
  | tarZstd
deriving DecidableEq, Repr

structure ExportVolumeRequest where
  volumeName : String
  destination : List UInt8
  compression : VolumeExportCompression
deriving DecidableEq, Repr

/-- The errors of an export. `destinationExists` and `destinationIo` are `ExportFailed` with
the texts `destination already exists: {path}` and `{path}: {error}`. -/
inductive ExportError where
  | docker (error : DockerError)
  | exportFailed (message : String)
  | destinationExists (path : List UInt8)
  | destinationIo (path : List UInt8) (error : IoError)
  | destinationPermissionDenied (path : List UInt8)
  | diskFull (path : List UInt8)
  | unsupportedVolumeCompression (name : String)
  | unsupportedConnection (message : String)
deriving DecidableEq, Repr

def classifyDestinationIo (path : List UInt8) : IoError → ExportError
  | .storageFull => .diskFull path
  | .permissionDenied => .destinationPermissionDenied path
  | error => .destinationIo path error

/-- `as_export_error`, of the errors of the helper's calls. -/
def asExportError : DockerError → ExportError
  | .operationCancelled => .docker .operationCancelled
  | .operationTimeout => .docker .operationTimeout
  | .permissionDenied => .docker .permissionDenied
  | .engineUnavailable => .docker .engineUnavailable
  | .socketNotFound path => .docker (.socketNotFound path)
  | .cleanupFailed message => .docker (.cleanupFailed message)
  | error => .exportFailed error.display

/-- How the steps of one export go. A `Fault` is the error of an operation that the host
fails. -/
structure ExportEnv where
  cancelled : Bool
  isLocal : Bool
  inspected : Except DockerError Unit
  currentDir : Except IoError (List UInt8)
  existsFault : Option IoError
  /-- Where the parent of the destination leads. -/
  located : Except IoError Place
  suffix : List UInt8
  createFault : Option IoError
  permissionsFault : Option IoError
  undoFault : Option IoError
  /-- The token was cancelled while the paths were prepared. -/
  cancelledMeanwhile : Bool
  helperCreated : Except DockerError Unit
  ran : Except DockerError Unit
  /-- The complete archive, as a helper writes it that exits with status 0. -/
  archive : List UInt8
  /-- What another helper has written. -/
  left : Option (List UInt8)
  helperRemoved : Except DockerError Unit
  renameFault : Option IoError
  removeDirFault : Option IoError
  guardFileFault : Option IoError
  guardDirFault : Option IoError

/-- `ExportPaths`, with the place of the destination's parent. -/
structure ExportPaths where
  parent : Place
  fileName : Name
  stagingName : Name
  destinationPath : List UInt8
deriving DecidableEq, Repr

namespace ExportPaths

def destination (paths : ExportPaths) : Place := paths.fileName :: paths.parent

def stagingDirectory (paths : ExportPaths) : Place := paths.stagingName :: paths.parent

def temporaryFileName (paths : ExportPaths) : Name :=
  paths.fileName ++ encodeText ".partial".toList

def temporary (paths : ExportPaths) : Place := paths.temporaryFileName :: paths.stagingDirectory

def stagingPath (paths : ExportPaths) : List UInt8 := absolute paths.stagingDirectory.reverse

/-- `bind_mount` takes the staging directory if its path is a text. -/
def bindable (paths : ExportPaths) : Bool := (fromUtf8 paths.stagingPath).isOk

end ExportPaths

/-! ## The run -/

section Run

variable (env : ExportEnv)

namespace ExportEnv

def check (request : ExportVolumeRequest) : Except ExportError Unit := do
  if env.cancelled then throw (.docker .operationCancelled)
  if request.compression = .tarZstd then throw (.unsupportedVolumeCompression "tar.zst")
  let _ ← (requireName request.volumeName).mapError .docker
  if !env.isLocal then
    throw (.unsupportedConnection "volume export requires a local Docker Engine")
  env.inspected.mapError .docker

def absolutePath (path : List UInt8) : Except ExportError (List UInt8) :=
  if isAbsolute path then .ok path
  else
    match env.currentDir with
    | .ok current => .ok (joinPath current path)
    | .error error => .error (classifyDestinationIo path error)

/-- `fs::try_exists`. A path without a file name leads to a directory. -/
def tryExists (files : HostFiles) (path : List UInt8) : Except IoError Bool :=
  match env.existsFault, env.located with
  | some error, _ => .error error
  | none, .error .notFound => .ok false
  | none, .error error => .error error
  | none, .ok place =>
    match fileName path with
    | some name => .ok (files.at_ (name :: place)).isSome
    | none => .ok true

/-- `prepare_export_paths`, before it makes the directory. -/
def place (files : HostFiles) (destination : List UInt8) : Except ExportError ExportPaths := do
  let destination ← env.absolutePath destination
  if ← (env.tryExists files destination).mapError (classifyDestinationIo destination) then
    throw (.destinationExists destination)
  let some parent := Files.parent destination
    | throw (.destinationPermissionDenied destination)
  let place ← env.located.mapError (classifyDestinationIo parent)
  let some name := (fileName destination).filter fun name => (fromUtf8 name).isOk
    | throw (.destinationPermissionDenied destination)
  pure ⟨place, name, encodeText ".tuxstack-volume-export-".toList ++ env.suffix, destination⟩

def prepareExportPaths (destination : List UInt8) : Effects ExportError HostFiles ExportPaths := do
  let paths ← MonadExcept.ofExcept (env.place (← get) destination)
  tryIo (classifyDestinationIo paths.stagingPath) env.createFault
    (·.createDir paths.stagingDirectory)
  if let some error := env.permissionsFault then
    modify fun files =>
      files.ignore (attempt env.undoFault (files.removeDir paths.stagingDirectory))
    throw (classifyDestinationIo paths.stagingPath error)
  pure paths

/-- The drop of a `TemporaryFileGuard` that is armed. -/
def dropGuard (paths : ExportPaths) (files : HostFiles) : HostFiles :=
  let files := files.ignore (attempt env.guardFileFault (files.removeFile paths.temporary))
  files.ignore (attempt env.guardDirFault (files.removeDir paths.stagingDirectory))

def written : Option (List UInt8) :=
  match env.ran with
  | .ok () => some env.archive
  | .error _ => env.left

def helperWrote (paths : ExportPaths) (files : HostFiles) : HostFiles :=
  match env.written with
  | some content => files.ignore (files.writeFile content paths.temporary)
  | none => files

/-- `export_volume` from the mounts on, with the guard armed until the last step. -/
def exportThrough (paths : ExportPaths) : Effects ExportError HostFiles Unit := do
  if !paths.bindable then throw (.destinationPermissionDenied paths.stagingPath)
  MonadExcept.ofExcept (env.helperCreated.mapError asExportError)
  modify (env.helperWrote paths)
  match env.ran, env.helperRemoved with
  | .ok (), .ok () =>
    tryIo (classifyDestinationIo paths.destinationPath) env.renameFault
      (·.rename paths.temporary paths.destination)
    tryIo (classifyDestinationIo paths.stagingPath) env.removeDirFault
      (·.removeDir paths.stagingDirectory)
  | .error error, .ok () => throw (asExportError error)
  | .error error, .error cleanup =>
    throw (.docker (.cleanupFailed ("export failed (" ++ error.display ++
      ") and helper cleanup failed: " ++ cleanup.display)))
  | .ok (), .error error =>
    throw (.docker (.cleanupFailed ("export helper cleanup failed: " ++ error.display)))

def exportVolume (request : ExportVolumeRequest) : Effects ExportError HostFiles Unit := do
  MonadExcept.ofExcept (env.check request)
  let output ← env.prepareExportPaths request.destination
  if env.cancelledMeanwhile then throw (.docker .operationCancelled)
  tryCatch (env.exportThrough output) fun error => do
    modify (env.dropGuard output)
    throw error

/-! ## All or nothing -/

/-- With an error there is neither the archive nor the staging directory, and without one
there is the complete archive and no staging directory. -/
def AllOrNothing (request : ExportVolumeRequest) (files : HostFiles) : Prop :=
  match exec (env.exportVolume request) files with
  | (.ok (), after) => ∃ paths, env.place files request.destination = .ok paths ∧
      after.at_ paths.destination = some (.file env.archive) ∧
      after.at_ paths.stagingDirectory = none
  | (.error _, after) => ∀ paths, env.place files request.destination = .ok paths →
      after.at_ paths.destination = files.at_ paths.destination ∧
      after.at_ paths.stagingDirectory = files.at_ paths.stagingDirectory

/-- The export gets as far as to make its staging directory. -/
structure MakesStaging (request : ExportVolumeRequest) (files : HostFiles)
    (paths : ExportPaths) : Prop where
  checked : env.check request = .ok ()
  placed : env.place files request.destination = .ok paths
  created : env.createFault = none
  vacant : files.at_ paths.stagingDirectory = none
  inside : files.at_ paths.parent = some .directory

def Started (paths : ExportPaths) : Prop := paths.bindable ∧ env.helperCreated = .ok ()

structure Renames (paths : ExportPaths) : Prop where
  started : env.Started paths
  ran : env.ran = .ok ()
  removed : env.helperRemoved = .ok ()
  renamed : env.renameFault = none
  apart : paths.fileName ≠ paths.stagingName

/-- A helper has left a file in the staging directory. -/
def LeavesFile (paths : ExportPaths) : Prop :=
  env.Started paths ∧ env.written ≠ none

/-- What has to go well once the staging directory is there. -/
def CleansUp (paths : ExportPaths) : Prop :=
  (env.permissionsFault ≠ none → env.undoFault = none) ∧
  (env.permissionsFault = none →
    env.cancelledMeanwhile = false ∧
    (env.Renames paths → env.removeDirFault = none) ∧
    (¬ env.Renames paths →
      env.guardDirFault = none ∧ (env.LeavesFile paths → env.guardFileFault = none)))

/-! ## The staging directory -/

section Staging

variable {env} {files made : HostFiles} {paths : ExportPaths} {content : Option (List UInt8)}
  {request : ExportVolumeRequest}

theorem temporary_ne_staging : paths.temporary ≠ paths.stagingDirectory :=
  List.cons_ne_self _ _

theorem temporary_ne_destination : paths.temporary ≠ paths.destination := by
  intro h
  have hlength := congrArg List.length h
  simp only [ExportPaths.temporary, ExportPaths.stagingDirectory, ExportPaths.destination,
    List.length_cons] at hlength
  omega

/-- The files with a staging directory and at most the temporary file in it. -/
def Staged (paths : ExportPaths) (files : HostFiles) (content : Option (List UInt8))
    (made : HostFiles) : Prop :=
  ∀ other, made.at_ other =
    if other = paths.temporary then content.map .file
    else if other = paths.stagingDirectory then some .directory else files.at_ other

theorem Staged.temporary (h : Staged paths files content made) :
    made.at_ paths.temporary = content.map .file := by
  rw [h, if_pos rfl]

theorem Staged.staging (h : Staged paths files content made) :
    made.at_ paths.stagingDirectory = some .directory := by
  rw [h, if_neg temporary_ne_staging.symm, if_pos rfl]

theorem Staged.empty (h : Staged paths files none made)
    (hvacant : files.at_ paths.stagingDirectory = none) (name : Name) :
    made.at_ (name :: paths.stagingDirectory) = none := by
  rw [h]
  split
  · rfl
  · rw [if_neg (List.cons_ne_self _ _)]
    exact HostFiles.Files.at_child_of_none hvacant name

theorem MakesStaging.staged (h : env.MakesStaging request files paths) :
    ∃ made, files.createDir paths.stagingDirectory = .ok made ∧ Staged paths files none made := by
  obtain ⟨made, hmade, hat⟩ := HostFiles.Files.exists_createDir h.inside h.vacant
  refine ⟨made, hmade, fun other => ?_⟩
  rw [hat other]
  by_cases htemporary : other = paths.temporary
  · subst htemporary
    rw [if_pos rfl]
    exact (if_neg temporary_ne_staging).trans (HostFiles.Files.at_child_of_none h.vacant _)
  · rw [if_neg htemporary]
    rfl

theorem Staged.write (h : Staged paths files none made) (content : List UInt8) :
    Staged paths files (some content)
      (made.ignore (made.writeFile content paths.temporary)) := by
  have hfree : made.at_ paths.temporary ≠ some .directory := by
    rw [h.temporary]
    exact nofun
  obtain ⟨after, hafter, hat⟩ := HostFiles.Files.exists_writeFile h.staging hfree content
  intro other
  rw [show made.writeFile content paths.temporary = .ok after from hafter]
  show after.at_ other = _
  rw [show _ = if other = paths.temporary then _ else _ from hat other]
  by_cases htemporary : other = paths.temporary
  · rw [if_pos htemporary, if_pos htemporary]
    rfl
  · rw [if_neg htemporary, if_neg htemporary, h other, if_neg htemporary]

theorem Staged.removeFile (h : Staged paths files content made) (fault : Option IoError) :
    Staged paths files (if fault = none then none else content)
      (made.ignore (attempt fault (made.removeFile paths.temporary))) := by
  cases fault with
  | some error => exact h
  | none =>
    cases content with
    | none =>
      rw [HostFiles.Files.attempt_none, HostFiles.Files.removeFile_of_none h.temporary]
      exact h
    | some content =>
      obtain ⟨after, hafter, hat⟩ := HostFiles.Files.exists_removeFile h.temporary
      rw [HostFiles.Files.attempt_none, hafter]
      intro other
      refine (hat other).trans ?_
      split
      · rfl
      · next hother =>
        rw [h other, if_neg hother]

theorem Staged.removeDir (h : Staged paths files content made)
    (hvacant : files.at_ paths.stagingDirectory = none) (fault : Option IoError) :
    (made.ignore (attempt fault (made.removeDir paths.stagingDirectory))).at_
        paths.stagingDirectory = none ↔ fault = none ∧ content = none := by
  cases fault with
  | some error =>
    have hthere : made.at_ paths.stagingDirectory ≠ none := by
      rw [h.staging]
      exact nofun
    exact ⟨fun hgone => absurd hgone hthere, fun hgone => nomatch hgone.1⟩
  | none =>
    rw [HostFiles.Files.attempt_none]
    cases content with
    | none =>
      obtain ⟨after, hafter, hat⟩ := HostFiles.Files.exists_removeDir h.staging (h.empty hvacant)
      rw [hafter]
      exact ⟨fun _ => ⟨rfl, rfl⟩, fun _ => (hat _).trans (if_pos rfl)⟩
    | some content =>
      have hchild : made.at_ (paths.temporaryFileName :: paths.stagingDirectory) ≠ none := by
        rw [show made.at_ (paths.temporaryFileName :: paths.stagingDirectory) = _
          from h.temporary]
        exact nofun
      rw [HostFiles.Files.removeDir_of_child h.staging hchild]
      have hthere : made.at_ paths.stagingDirectory ≠ none := by
        rw [h.staging]
        exact nofun
      exact ⟨fun hgone => absurd hgone hthere, fun hgone => nomatch hgone.2⟩

/-- Only the staging directory and the temporary file notice the guard. -/
theorem at_dropGuard {other : Place} (hstaging : other ≠ paths.stagingDirectory)
    (htemporary : other ≠ paths.temporary) :
    (env.dropGuard paths made).at_ other = made.at_ other := by
  unfold dropGuard
  dsimp only
  rw [HostFiles.Files.at_ignore_attempt _ (fun _ => HostFiles.Files.removeDir_eq_ok) hstaging,
    HostFiles.Files.at_ignore_attempt _ (fun _ => HostFiles.Files.removeFile_eq_ok) htemporary]

/-- **The guard** leaves the files as they were if its operations go through. -/
theorem Staged.dropGuard (h : Staged paths files content made)
    (hvacant : files.at_ paths.stagingDirectory = none) :
    ((env.dropGuard paths made).at_ paths.destination = files.at_ paths.destination ∧
      (env.dropGuard paths made).at_ paths.stagingDirectory =
        files.at_ paths.stagingDirectory) ↔
      env.guardDirFault = none ∧ (content ≠ none → env.guardFileFault = none) := by
  have hstaging := (h.removeFile env.guardFileFault).removeDir hvacant env.guardDirFault
  have hcontent : (if env.guardFileFault = none then none else content) = none ↔
      (content ≠ none → env.guardFileFault = none) := by
    by_cases hfault : env.guardFileFault = none
    · simp [hfault]
    · simp [hfault]
  rw [hcontent] at hstaging
  rw [hvacant]
  refine ⟨fun hsame => hstaging.mp hsame.2, fun hclean => ⟨?_, hstaging.mpr hclean⟩⟩
  by_cases hdestination : paths.destination = paths.stagingDirectory
  · rw [hdestination, hvacant]
    exact hstaging.mpr hclean
  · rw [at_dropGuard hdestination temporary_ne_destination.symm, h, if_neg
      temporary_ne_destination.symm, if_neg hdestination]

/-! ## The run, step by step -/

theorem exec_prepareExportPaths {destination : List UInt8}
    (h : env.place files destination = .ok paths) :
    exec (env.prepareExportPaths destination) files =
      match attempt env.createFault (files.createDir paths.stagingDirectory) with
      | .error error => (.error (classifyDestinationIo paths.stagingPath error), files)
      | .ok made =>
        match env.permissionsFault with
        | none => (.ok paths, made)
        | some error => (.error (classifyDestinationIo paths.stagingPath error),
            made.ignore (attempt env.undoFault (made.removeDir paths.stagingDirectory))) := by
  unfold prepareExportPaths
  rw [exec_bind_ok (exec_get files), exec_ofExcept_bind, h]
  dsimp only
  rw [exec_bind, HostFiles.Files.exec_tryIo]
  cases attempt env.createFault (files.createDir paths.stagingDirectory) with
  | error error => rfl
  | ok made =>
    cases env.permissionsFault with
    | none => rfl
    | some error => rfl

/-- The run from the creation of the staging directory on. -/
theorem MakesStaging.exec (h : env.MakesStaging request files paths)
    (hmade : files.createDir paths.stagingDirectory = .ok made) :
    exec (env.exportVolume request) files =
      match env.permissionsFault, env.cancelledMeanwhile with
      | some error, _ => (.error (classifyDestinationIo paths.stagingPath error),
          made.ignore (attempt env.undoFault (made.removeDir paths.stagingDirectory)))
      | none, true => (.error (.docker .operationCancelled), made)
      | none, false =>
        match exec (env.exportThrough paths) made with
        | (.ok (), after) => (.ok (), after)
        | (.error error, after) => (.error error, env.dropGuard paths after) := by
  have hprepare := exec_prepareExportPaths h.placed
  rw [h.created, HostFiles.Files.attempt_none, hmade] at hprepare
  unfold exportVolume
  rw [exec_ofExcept_bind, h.checked]
  dsimp only
  rw [exec_bind, hprepare]
  cases env.permissionsFault with
  | some error => rfl
  | none =>
    cases env.cancelledMeanwhile with
    | true => rfl
    | false =>
      show Effect.exec (tryCatch _ _) made = _
      rw [exec_tryCatch]
      rcases Effect.exec (env.exportThrough paths) made with ⟨_ | _, after⟩
      · rfl
      · rfl

theorem exec_of_not_makesStaging (h : ∀ paths, ¬ env.MakesStaging request files paths) :
    ∃ error, exec (env.exportVolume request) files = (.error error, files) := by
  cases hcheck : env.check request with
  | error error =>
    refine ⟨error, ?_⟩
    unfold exportVolume
    rw [exec_ofExcept_bind, hcheck]
  | ok _ =>
    unfold exportVolume
    rw [exec_ofExcept_bind, hcheck]
    dsimp only
    rw [exec_bind]
    cases hplace : env.place files request.destination with
    | error error =>
      refine ⟨error, ?_⟩
      unfold prepareExportPaths
      rw [exec_bind_ok (exec_get files), exec_ofExcept_bind, hplace]
    | ok paths =>
      rw [exec_prepareExportPaths hplace]
      cases hattempt : attempt env.createFault (files.createDir paths.stagingDirectory) with
      | error error => exact ⟨_, rfl⟩
      | ok made =>
        cases hfault : env.createFault with
        | some error =>
          rw [hfault] at hattempt
          cases hattempt
        | none =>
          rw [hfault, HostFiles.Files.attempt_none] at hattempt
          obtain ⟨hvacant, ⟨name, parent, heq, hparent⟩, -⟩ :=
            HostFiles.Files.createDir_eq_ok hattempt
          obtain ⟨-, rfl⟩ := List.cons.inj heq
          exact absurd ⟨hcheck, hplace, hfault, hvacant, hparent⟩ (h paths)

theorem Staged.helperWrote (env : ExportEnv) (h : Staged paths files none made) :
    Staged paths files env.written (env.helperWrote paths made) := by
  unfold ExportEnv.helperWrote
  cases env.written with
  | none => exact h
  | some content => exact h.write content

theorem exec_exportThrough_of_started (h : env.Started paths) :
    exec (env.exportThrough paths) made =
      let made := env.helperWrote paths made
      match env.ran, env.helperRemoved with
      | .ok (), .ok () => exec (do
          tryIo (classifyDestinationIo paths.destinationPath) env.renameFault
            (·.rename paths.temporary paths.destination)
          tryIo (classifyDestinationIo paths.stagingPath) env.removeDirFault
            (·.removeDir paths.stagingDirectory)) made
      | .error error, .ok () => (.error (asExportError error), made)
      | .error error, .error cleanup =>
        (.error (.docker (.cleanupFailed ("export failed (" ++ error.display ++
          ") and helper cleanup failed: " ++ cleanup.display))), made)
      | .ok (), .error error =>
        (.error (.docker (.cleanupFailed ("export helper cleanup failed: " ++
          error.display))), made) := by
  obtain ⟨hbindable, hcreated⟩ := h
  unfold exportThrough
  rw [hbindable, hcreated]
  cases env.ran with
  | ok _ | error _ =>
    cases env.helperRemoved with
    | ok _ => rfl
    | error _ => rfl

/-- The archive has its name, and what is left of the staging directory is empty. -/
theorem Staged.rename (h : Staged paths files (some env.archive) made)
    (hdestination : files.at_ paths.destination = none)
    (hapart : paths.fileName ≠ paths.stagingName) :
    ∃ after, made.rename paths.temporary paths.destination = .ok after ∧
      after.at_ paths.destination = some (.file env.archive) ∧
      after.at_ paths.stagingDirectory = some .directory ∧
      ∀ name, files.at_ (name :: paths.stagingDirectory) = none →
        after.at_ (name :: paths.stagingDirectory) = none := by
  have hne : paths.destination ≠ paths.stagingDirectory := fun heq =>
    hapart (List.cons.inj heq).1
  have hparent : made.at_ paths.parent = some .directory := by
    refine HostFiles.Files.parent_of_at paths.stagingName ?_
    rw [show made.at_ (paths.stagingName :: paths.parent) = _ from h.staging]
    exact Option.some_ne_none _
  have hfree : made.at_ paths.destination ≠ some .directory := by
    rw [h, if_neg temporary_ne_destination.symm, if_neg hne, hdestination]
    exact (Option.some_ne_none _).symm
  obtain ⟨after, hafter, hat⟩ := HostFiles.Files.exists_rename h.temporary
    temporary_ne_destination hparent hfree
  change ∀ other, after.at_ other = if other = paths.destination then _ else _ at hat
  refine ⟨after, hafter, (hat _).trans (if_pos rfl), ?_, fun name hname => ?_⟩
  · rw [hat, if_neg hne.symm, if_neg temporary_ne_staging.symm, h.staging]
  · have hbelow : name :: paths.stagingDirectory ≠ paths.destination := by
      intro heq
      have hlength := congrArg List.length heq
      simp only [ExportPaths.stagingDirectory, ExportPaths.destination, List.length_cons]
        at hlength
      omega
    rw [hat, if_neg hbelow]
    split
    · rfl
    · next hother => rw [h, if_neg hother, if_neg (List.cons_ne_self _ _), hname]

/-- What `export_volume` comes to once the archive has its name. -/
theorem exec_exportThrough_of_renames (h : Staged paths files none made)
    (hvacant : files.at_ paths.stagingDirectory = none)
    (hdestination : files.at_ paths.destination = none) (hrenames : env.Renames paths) :
    ∃ after, exec (env.exportThrough paths) made =
        (env.removeDirFault.elim (.ok ())
          fun error => .error (classifyDestinationIo paths.stagingPath error), after) ∧
      after.at_ paths.destination = some (.file env.archive) ∧
      (env.removeDirFault = none → after.at_ paths.stagingDirectory = none) := by
  have hwritten : env.written = some env.archive := by
    unfold written
    rw [hrenames.ran]
  have hwrote := h.helperWrote env
  rw [hwritten] at hwrote
  obtain ⟨renamed, hrename, harchive, hstaging, hbelow⟩ := hwrote.rename hdestination hrenames.apart
  rw [exec_exportThrough_of_started hrenames.started, hrenames.ran, hrenames.removed]
  dsimp only
  rw [exec_bind, HostFiles.Files.exec_tryIo, hrenames.renamed,
    HostFiles.Files.attempt_none, hrename]
  dsimp only
  rw [HostFiles.Files.exec_tryIo]
  cases env.removeDirFault with
  | some error => exact ⟨renamed, rfl, harchive, nofun⟩
  | none =>
    have hempty : ∀ name, renamed.at_ (name :: paths.stagingDirectory) = none :=
      fun name => hbelow name (HostFiles.Files.at_child_of_none hvacant name)
    have hne : paths.destination ≠ paths.stagingDirectory := by
      intro heq
      rw [heq, hstaging] at harchive
      cases harchive
    obtain ⟨after, hafter, hat⟩ := HostFiles.Files.exists_removeDir hstaging hempty
    rw [HostFiles.Files.attempt_none, hafter]
    refine ⟨after, rfl, ?_, fun _ => (hat _).trans (if_pos rfl)⟩
    rw [hat, if_neg hne, harchive]

/-- Without the rename there is an error, and the temporary file if a helper has left one. -/
theorem exec_exportThrough_of_not_renames (h : Staged paths files none made)
    (hrenames : ¬ env.Renames paths) :
    ∃ error content after, exec (env.exportThrough paths) made = (.error error, after) ∧
      Staged paths files content after ∧ (content ≠ none ↔ env.LeavesFile paths) := by
  by_cases hstarted : env.Started paths
  · have hwrote := h.helperWrote env
    have hleaves : env.written ≠ none ↔ env.LeavesFile paths :=
      ⟨fun hwritten => ⟨hstarted, hwritten⟩, fun hleaves => hleaves.2⟩
    rw [exec_exportThrough_of_started hstarted]
    cases hran : env.ran with
    | error error =>
      cases env.helperRemoved with
      | ok _ | error _ => exact ⟨_, _, _, rfl, hwrote, hleaves⟩
    | ok _ =>
      cases hremoved : env.helperRemoved with
      | error _ => exact ⟨_, _, _, rfl, hwrote, hleaves⟩
      | ok _ =>
        dsimp only
        rw [exec_bind, HostFiles.Files.exec_tryIo]
        cases hfault : env.renameFault with
        | some error => exact ⟨_, _, _, rfl, hwrote, hleaves⟩
        | none =>
          have hsame : paths.destination = paths.stagingDirectory := by
            by_contra hne
            refine hrenames ⟨hstarted, hran, hremoved, hfault, fun heq => hne ?_⟩
            exact congrArg (· :: paths.parent) heq
          have hwritten : env.written = some env.archive := by
            unfold written
            rw [hran]
          have hfile := hwrote.temporary
          rw [hwritten] at hfile
          rw [HostFiles.Files.attempt_none, hsame,
            HostFiles.Files.rename_to_directory hfile hwrote.staging]
          exact ⟨_, _, _, rfl, hwrote, hleaves⟩
  · have hleaves : (none : Option (List UInt8)) ≠ none ↔ env.LeavesFile paths :=
      ⟨fun hnone => absurd rfl hnone, fun hleaves => absurd hleaves.1 hstarted⟩
    unfold exportThrough
    cases hbindable : paths.bindable with
    | false => exact ⟨_, _, _, rfl, h, hleaves⟩
    | true =>
      cases hcreated : env.helperCreated with
      | error error => exact ⟨_, _, _, rfl, h, hleaves⟩
      | ok _ => exact absurd ⟨hbindable, hcreated⟩ hstarted

/-! ## When an export is all or nothing -/

theorem ok_of_mapError {ε ε' α : Type} {f : ε → ε'} {result : Except ε α} {a : α}
    (h : result.mapError f = .ok a) : result = .ok a := by
  cases result with
  | ok a' =>
    cases h
    rfl
  | error error => cases h

theorem vacant_destination {destination : List UInt8}
    (h : env.place files destination = .ok paths) : files.at_ paths.destination = none := by
  unfold place at h
  obtain ⟨path, -, h⟩ := bind_eq_ok.mp h
  obtain ⟨there, hexists, h⟩ := bind_eq_ok.mp h
  replace hexists := ok_of_mapError hexists
  cases there with
  | true => cases h
  | false =>
    cases hparent : Files.parent path with
    | none =>
      rw [hparent] at h
      cases h
    | some parent =>
      rw [hparent] at h
      obtain ⟨place, hlocated, h⟩ := bind_eq_ok.mp h
      replace hlocated := ok_of_mapError hlocated
      cases hname : fileName path with
      | none =>
        rw [hname] at h
        cases h
      | some name =>
        rw [hname] at h
        unfold tryExists at hexists
        rw [hlocated, hname] at hexists
        have hvacant : files.at_ (name :: place) = none := by
          cases hfault : env.existsFault with
          | some error =>
            rw [hfault] at hexists
            cases hexists
          | none =>
            rw [hfault] at hexists
            exact Option.isNone_iff_eq_none.mp (Option.isSome_eq_false_iff.mp
              (Except.ok.inj hexists))
        dsimp only [Option.filter] at h
        by_cases htext : (fromUtf8 name).isOk = true
        · rw [if_pos htext] at h
          cases h
          exact hvacant
        · rw [if_neg htext] at h
          cases h

theorem allOrNothing_of_error {error : ExportError} {after : HostFiles}
    (hplace : env.place files request.destination = .ok paths)
    (h : exec (env.exportVolume request) files = (.error error, after)) :
    env.AllOrNothing request files ↔
      after.at_ paths.destination = files.at_ paths.destination ∧
      after.at_ paths.stagingDirectory = files.at_ paths.stagingDirectory := by
  unfold AllOrNothing
  rw [h]
  constructor
  · exact fun hall => hall paths hplace
  · intro hsame paths' hplace'
    rw [hplace] at hplace'
    cases hplace'
    exact hsame

theorem MakesStaging.allOrNothing_iff (h : env.MakesStaging request files paths) :
    env.AllOrNothing request files ↔ env.CleansUp paths := by
  obtain ⟨made, hmade, hstaged⟩ := h.staged
  have hexec := h.exec hmade
  have hdestination := vacant_destination h.placed
  unfold CleansUp
  cases hpermissions : env.permissionsFault with
  | some error =>
    rw [hpermissions] at hexec
    have hgone := hstaged.removeDir h.vacant env.undoFault
    rw [allOrNothing_of_error h.placed hexec, h.vacant, hgone]
    constructor
    · exact fun hsame => ⟨fun _ => hsame.2.1, nofun⟩
    · intro hclean
      have hundone := hgone.mpr ⟨hclean.1 nofun, rfl⟩
      refine ⟨?_, hclean.1 nofun, rfl⟩
      rw [hdestination]
      by_cases hsame : paths.destination = paths.stagingDirectory
      · rw [hsame]
        exact hundone
      · rw [HostFiles.Files.at_ignore_attempt _ (fun _ => HostFiles.Files.removeDir_eq_ok) hsame,
          hstaged, if_neg temporary_ne_destination.symm, if_neg hsame, hdestination]
  | none =>
    cases hcancelled : env.cancelledMeanwhile with
    | true =>
      rw [hpermissions, hcancelled] at hexec
      rw [allOrNothing_of_error h.placed hexec, h.vacant, hstaged.staging]
      exact ⟨fun hsame => (nomatch hsame.2), fun hclean => (nomatch (hclean.2 rfl).1)⟩
    | false =>
      rw [hpermissions, hcancelled] at hexec
      dsimp only at hexec
      -- after the rename the export can still fail, at the removal of the staging directory
      by_cases hrenames : env.Renames paths
      · obtain ⟨after, hthrough, harchive, hgone⟩ :=
          exec_exportThrough_of_renames hstaged h.vacant hdestination hrenames
        rw [hthrough] at hexec
        cases hfault : env.removeDirFault with
        | some error =>
          rw [hfault] at hexec
          rw [allOrNothing_of_error h.placed hexec, hdestination]
          have hne : paths.destination ≠ paths.stagingDirectory := fun heq =>
            hrenames.apart (List.cons.inj heq).1
          rw [at_dropGuard hne temporary_ne_destination.symm, harchive]
          exact ⟨fun hsame => (nomatch hsame.1),
            fun hclean => (nomatch (hclean.2 rfl).2.1 hrenames)⟩
        | none =>
          rw [hfault] at hexec
          constructor
          · intro _
            exact ⟨fun hfails => absurd rfl hfails, fun _ => ⟨rfl, fun _ => rfl,
              fun hnot => absurd hrenames hnot⟩⟩
          · intro _
            unfold AllOrNothing
            rw [hexec]
            exact ⟨paths, h.placed, harchive, hgone hfault⟩
      · obtain ⟨error, content, after, hthrough, hafter, hleaves⟩ :=
          exec_exportThrough_of_not_renames hstaged hrenames
        rw [hthrough] at hexec
        rw [allOrNothing_of_error h.placed hexec, hafter.dropGuard h.vacant, hleaves]
        constructor
        · exact fun hclean => ⟨fun hfails => absurd rfl hfails, fun _ => ⟨rfl,
            fun hyes => absurd hyes hrenames, fun _ => hclean⟩⟩
        · exact fun hclean => (hclean.2 rfl).2.2 hrenames

/-- **An export is all or nothing** exactly if it does not make its staging directory, or
what follows goes well: no cancellation before the guard is there, and no operation of the
cleanup that fails. -/
theorem exportVolume_iff (env : ExportEnv) (request : ExportVolumeRequest) (files : HostFiles) :
    env.AllOrNothing request files ↔
      ∀ paths, env.MakesStaging request files paths → env.CleansUp paths := by
  by_cases hmakes : ∃ paths, env.MakesStaging request files paths
  · obtain ⟨paths, h⟩ := hmakes
    rw [h.allOrNothing_iff]
    constructor
    · intro hclean paths' h'
      have heq := h.placed.symm.trans h'.placed
      cases heq
      exact hclean
    · exact fun hclean => hclean paths h
  · have hnever : ∀ paths, ¬ env.MakesStaging request files paths :=
      fun paths h => hmakes ⟨paths, h⟩
    obtain ⟨error, hexec⟩ := exec_of_not_makesStaging hnever
    refine ⟨fun _ paths h => absurd h (hnever paths), fun _ => ?_⟩
    unfold AllOrNothing
    rw [hexec]
    exact fun _ _ => ⟨rfl, rfl⟩

end Staging

end ExportEnv

end Run

/-! ## A cancelled export -/

/-- The host with the directory `/o`. -/
def exportHost : HostFiles :=
  HostFiles.Files.root.put [111] [] .directory HostFiles.Files.root_at_root
    HostFiles.Files.root_at_name

/-- Everything goes well, but the token is cancelled while the staging directory is made. -/
def cancelledExport : ExportEnv where
  cancelled := false
  isLocal := true
  inspected := .ok ()
  currentDir := .error .notFound
  existsFault := none
  located := .ok [[111]]
  suffix := [49]
  createFault := none
  permissionsFault := none
  undoFault := none
  cancelledMeanwhile := true
  helperCreated := .ok ()
  ran := .ok ()
  archive := [1]
  left := none
  helperRemoved := .ok ()
  renameFault := none
  removeDirFault := none
  guardFileFault := none
  guardDirFault := none

/-- `/o/a.tar` -/
def exportRequest : ExportVolumeRequest where
  volumeName := "v"
  destination := absolute [[111], encodeText "a.tar".toList]
  compression := .tar

def exportedPaths : ExportPaths where
  parent := [[111]]
  fileName := encodeText "a.tar".toList
  stagingName := encodeText ".tuxstack-volume-export-".toList ++ [49]
  destinationPath := exportRequest.destination

theorem cancelled_place : cancelledExport.place exportHost exportRequest.destination =
    .ok exportedPaths := by
  have hname : fileName exportRequest.destination = some (encodeText "a.tar".toList) := by decide
  have hparent : Files.parent exportRequest.destination = some (absolute [[111]]) := by decide
  have habsolute : cancelledExport.absolutePath exportRequest.destination =
      .ok exportRequest.destination := by decide
  have hexists : cancelledExport.tryExists exportHost exportRequest.destination = .ok false := by
    decide
  have htext : (fromUtf8 (encodeText "a.tar".toList)).isOk = true := by
    rw [fromUtf8_encodeText]
    rfl
  unfold ExportEnv.place
  refine bind_eq_ok.mpr ⟨_, habsolute, bind_eq_ok.mpr ⟨false, by rw [hexists]; rfl, ?_⟩⟩
  dsimp only
  rw [hparent, hname]
  refine bind_eq_ok.mpr ⟨[[111]], rfl, ?_⟩
  dsimp only [Option.filter]
  rw [if_pos htext]
  rfl

theorem cancelled_makesStaging :
    cancelledExport.MakesStaging exportRequest exportHost exportedPaths where
  checked := by decide
  placed := cancelled_place
  created := rfl
  vacant := by decide
  inside := by decide

/-- The export returns an error and leaves its staging directory behind. -/
theorem cancelled_export_leaves_staging :
    ¬ cancelledExport.AllOrNothing exportRequest exportHost := by
  rw [cancelled_makesStaging.allOrNothing_iff]
  exact fun hclean => nomatch (hclean.2 rfl).1

end TuxStack.Docker
