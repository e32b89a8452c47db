import Mathlib.Data.List.AList
import TuxStack.Lib.Effects

/-!
# Files and directories of a host

A file system without links: places are lists of names, the innermost first, and every node
is in a directory (`Files.closed`). An operation gives the files after it, or the error of one
that does nothing; `attempt` lets an operation fail for a reason of the host as well.

What an operation does is said place by place: `at_createDir` and its likes.
-/

namespace TuxStack.HostFiles

open Effect

abbrev Name := List UInt8

/-- The names on the way to the root. -/
abbrev Place := List Name

inductive Node where
  | directory
  | file (content : List UInt8)
deriving DecidableEq, Repr

inductive IoError where
  | notFound
  | alreadyExists
  | permissionDenied
  | isADirectory
  | notADirectory
  | directoryNotEmpty
  | storageFull
  | other (message : String)
deriving DecidableEq, Repr

/-- The text of an `io::Error` of the system. -/
def IoError.display : IoError → String
  | notFound => "No such file or directory (os error 2)"
  | alreadyExists => "File exists (os error 17)"
  | permissionDenied => "Permission denied (os error 13)"
  | isADirectory => "Is a directory (os error 21)"
  | notADirectory => "Not a directory (os error 20)"
  | directoryNotEmpty => "Directory not empty (os error 39)"
  | storageFull => "No space left on device (os error 28)"
  | other message => message

structure Files where
  nodes : AList fun _ : Place => Node
  closed : ∀ name place, name :: place ∈ nodes → nodes.lookup place = some .directory

namespace Files

def at_ (files : Files) (place : Place) : Option Node := files.nodes.lookup place

variable {files after : Files} {place : Place} {node : Node} {content : List UInt8}

theorem parent_of_at (name : Name) (h : files.at_ (name :: place) ≠ none) :
    files.at_ place = some .directory :=
  files.closed name place (AList.lookup_isSome.mp (Option.isSome_iff_ne_none.mpr h))

theorem at_child_of_none (h : files.at_ place = none) (name : Name) :
    files.at_ (name :: place) = none := by
  by_contra hchild
  rw [parent_of_at name hchild] at h
  cases h

def put (files : Files) (name : Name) (parent : Place) (node : Node)
    (hparent : files.at_ parent = some .directory)
    (hplace : files.at_ (name :: parent) ≠ some .directory) : Files where
  nodes := files.nodes.insert (name :: parent) node
  closed := by
    intro other place hmem
    have hne : place ≠ name :: parent := by
      rintro rfl
      rcases (AList.mem_insert files.nodes).mp hmem with heq | hold
      · exact absurd (congrArg List.length heq) (by simp)
      · exact hplace (files.closed other _ hold)
    rw [AList.lookup_insert_ne hne]
    rcases (AList.mem_insert files.nodes).mp hmem with heq | hold
    · cases heq
      exact hparent
    · exact files.closed other place hold

def root : Files where
  nodes := AList.singleton [] .directory
  closed := by
    intro name place hmem
    cases List.mem_singleton.mp hmem

theorem root_at_root : root.at_ [] = some .directory := rfl

theorem root_at_name : root.at_ [[111]] ≠ some .directory := by decide

def IsLeaf (files : Files) (place : Place) : Prop := ∀ name, name :: place ∉ files.nodes

instance (files : Files) (place : Place) : Decidable (files.IsLeaf place) :=
  decidable_of_iff (∀ other ∈ files.nodes.keys, other.tail = place → other = []) <| by
    constructor
    · intro h name hmem
      cases h (name :: place) (AList.mem_keys.mp hmem) rfl
    · intro h other hmem htail
      cases other with
      | nil => rfl
      | cons name rest =>
        cases htail
        exact absurd (AList.mem_keys.mpr hmem) (h name)

def erase (files : Files) (place : Place) (h : files.IsLeaf place) : Files where
  nodes := files.nodes.erase place
  closed := by
    intro name parent hmem
    obtain ⟨-, hold⟩ := AList.mem_erase.mp hmem
    have hne : parent ≠ place := fun heq => h name (heq ▸ hold)
    rw [AList.lookup_erase_ne hne]
    exact files.closed name parent hold

variable {name : Name} {parent : Place}

theorem at_put {hparent : files.at_ parent = some .directory}
    {hplace : files.at_ (name :: parent) ≠ some .directory} (other : Place) :
    (files.put name parent node hparent hplace).at_ other =
      if other = name :: parent then some node else files.at_ other := by
  split
  · next heq =>
    subst heq
    exact AList.lookup_insert _
  · next hne => exact AList.lookup_insert_ne hne

theorem at_erase {h : files.IsLeaf place} (other : Place) :
    (files.erase place h).at_ other = if other = place then none else files.at_ other := by
  split
  · next heq =>
    subst heq
    exact AList.lookup_erase _ _
  · next hne => exact AList.lookup_erase_ne hne

theorem isLeaf_of_file (h : files.at_ place = some (.file content)) : files.IsLeaf place := by
  intro name hmem
  have hdirectory := files.closed name place hmem
  rw [← at_, h] at hdirectory
  cases hdirectory

/-! ## Operations -/

def createDir (files : Files) : Place → Except IoError Files
  | [] => .error .alreadyExists
  | name :: parent =>
    if hplace : files.at_ (name :: parent) = none then
      if hparent : files.at_ parent = some .directory then
        .ok (files.put name parent .directory hparent (by rw [hplace]; exact nofun))
      else .error .notFound
    else .error .alreadyExists

def writeFile (files : Files) (content : List UInt8) : Place → Except IoError Files
  | [] => .error .isADirectory
  | name :: parent =>
    if hplace : files.at_ (name :: parent) = some .directory then .error .isADirectory
    else if hparent : files.at_ parent = some .directory then
      .ok (files.put name parent (.file content) hparent hplace)
    else .error .notFound

/-- `OpenOptions::create_new`: a file that must not be there. -/
def createNew (files : Files) (place : Place) : Except IoError Files :=
  if files.at_ place = none then files.writeFile [] place else .error .alreadyExists

def removeFile (files : Files) (place : Place) : Except IoError Files :=
  match h : files.at_ place with
  | some (.file _) => .ok (files.erase place (isLeaf_of_file h))
  | some .directory => .error .isADirectory
  | none => .error .notFound

def removeDir (files : Files) (place : Place) : Except IoError Files :=
  match files.at_ place with
  | some .directory =>
    if h : files.IsLeaf place then .ok (files.erase place h) else .error .directoryNotEmpty
  | some (.file _) => .error .notADirectory
  | none => .error .notFound

/-- `rename` of a file. -/
def rename (files : Files) (source target : Place) : Except IoError Files :=
  match files.at_ source with
  | some (.file content) =>
    if source = target then .ok files
    else
      (files.writeFile content target).bind fun files => files.removeFile source
  | some .directory => .error .isADirectory
  | none => .error .notFound

def attempt (fault : Option IoError) (result : Except IoError Files) : Except IoError Files :=
  match fault with
  | some error => .error error
  | none => result

def ignore (files : Files) (result : Except IoError Files) : Files :=
  match result with
  | .ok after => after
  | .error _ => files

/-- An operation of a program, and the error that the program makes of one. -/
def tryIo {ε : Type} (classify : IoError → ε) (fault : Option IoError)
    (operation : Files → Except IoError Files) : Effects ε Files Unit := do
  match attempt fault (operation (← get)) with
  | .ok after => set after
  | .error error => throw (classify error)

/-! ## What they do -/

theorem exec_tryIo {ε : Type} (classify : IoError → ε) (fault : Option IoError)
    (operation : Files → Except IoError Files) (files : Files) :
    exec (tryIo classify fault operation) files =
      match attempt fault (operation files) with
      | .ok after => (.ok (), after)
      | .error error => (.error (classify error), files) := by
  change exec (match attempt fault (operation files) with
    | .ok after => set after
    | .error error => throw (classify error)) files = _
  cases attempt fault (operation files) with
  | ok after => rfl
  | error error => rfl

@[simp] theorem attempt_none (result : Except IoError Files) : attempt none result = result := rfl

@[simp] theorem attempt_some (error : IoError) (result : Except IoError Files) :
    attempt (some error) result = .error error := rfl

/-- **A directory is made** where there was nothing, in a directory. -/
theorem createDir_eq_ok (h : files.createDir place = .ok after) :
    files.at_ place = none ∧ (∃ name parent, place = name :: parent ∧
      files.at_ parent = some .directory) ∧
    ∀ other, after.at_ other = if other = place then some .directory else files.at_ other := by
  cases place with
  | nil => cases h
  | cons name parent =>
    simp only [createDir] at h
    split at h
    · next hplace =>
      split at h
      · next hparent =>
        cases h
        exact ⟨hplace, ⟨name, parent, rfl, hparent⟩, at_put⟩
      · cases h
    · cases h

theorem exists_createDir (hparent : files.at_ parent = some .directory)
    (hplace : files.at_ (name :: parent) = none) :
    ∃ after, files.createDir (name :: parent) = .ok after ∧
      ∀ other, after.at_ other =
        if other = name :: parent then some .directory else files.at_ other := by
  simp only [createDir]
  rw [dif_pos hplace, dif_pos hparent]
  exact ⟨_, rfl, at_put⟩

theorem exists_writeFile (hparent : files.at_ parent = some .directory)
    (hplace : files.at_ (name :: parent) ≠ some .directory) (content : List UInt8) :
    ∃ after, files.writeFile content (name :: parent) = .ok after ∧
      ∀ other, after.at_ other =
        if other = name :: parent then some (.file content) else files.at_ other := by
  simp only [writeFile]
  rw [dif_neg hplace, dif_pos hparent]
  exact ⟨_, rfl, at_put⟩

theorem writeFile_eq_ok (h : files.writeFile content place = .ok after) :
    files.at_ place ≠ some .directory ∧
    ∀ other, after.at_ other = if other = place then some (.file content) else files.at_ other := by
  cases place with
  | nil => cases h
  | cons name parent =>
    simp only [writeFile] at h
    split at h
    · cases h
    · next hplace =>
      split at h
      · cases h
        exact ⟨hplace, at_put⟩
      · cases h

theorem exists_removeFile (h : files.at_ place = some (.file content)) :
    ∃ after, files.removeFile place = .ok after ∧
      ∀ other, after.at_ other = if other = place then none else files.at_ other := by
  unfold removeFile
  split
  · exact ⟨_, rfl, at_erase⟩
  · next hdirectory =>
    rw [h] at hdirectory
    cases hdirectory
  · next hnone =>
    rw [h] at hnone
    cases hnone

theorem removeFile_of_none (h : files.at_ place = none) :
    files.removeFile place = .error .notFound := by
  unfold removeFile
  split
  · next hfile =>
    rw [h] at hfile
    cases hfile
  · next hdirectory =>
    rw [h] at hdirectory
    cases hdirectory
  · rfl

theorem removeFile_eq_ok (h : files.removeFile place = .ok after) :
    ∀ other, after.at_ other = if other = place then none else files.at_ other := by
  unfold removeFile at h
  split at h
  · cases h
    exact at_erase
  · cases h
  · cases h

theorem exists_removeDir (h : files.at_ place = some .directory)
    (hempty : ∀ name, files.at_ (name :: place) = none) :
    ∃ after, files.removeDir place = .ok after ∧
      ∀ other, after.at_ other = if other = place then none else files.at_ other := by
  have hleaf : files.IsLeaf place :=
    fun name hmem => AList.lookup_eq_none.mp (hempty name) hmem
  unfold removeDir
  rw [h]
  dsimp only
  rw [dif_pos hleaf]
  exact ⟨_, rfl, at_erase⟩

theorem removeDir_of_child (h : files.at_ place = some .directory)
    (hchild : files.at_ (name :: place) ≠ none) :
    files.removeDir place = .error .directoryNotEmpty := by
  have hleaf : ¬ files.IsLeaf place := by
    intro hleaf
    exact hchild (AList.lookup_eq_none.mpr (hleaf name))
  unfold removeDir
  rw [h]
  dsimp only
  rw [dif_neg hleaf]

theorem removeDir_eq_ok (h : files.removeDir place = .ok after) :
    ∀ other, after.at_ other = if other = place then none else files.at_ other := by
  unfold removeDir at h
  split at h
  · split at h
    · cases h
      exact at_erase
    · cases h
  · cases h
  · cases h

/-- Other places do not notice an operation that only makes one vacant, if it happens. -/
theorem at_ignore_attempt (fault : Option IoError) {result : Except IoError Files}
    (h : ∀ after, result = .ok after →
      ∀ other, after.at_ other = if other = place then none else files.at_ other)
    {other : Place} (hother : other ≠ place) :
    (files.ignore (attempt fault result)).at_ other = files.at_ other := by
  cases fault with
  | some error => rfl
  | none =>
    cases hresult : result with
    | error error => rfl
    | ok after => exact (h after hresult other).trans (if_neg hother)

/-- **A file takes the name of another place.** -/
theorem exists_rename {source : Place} (hsource : files.at_ source = some (.file content))
    (hne : source ≠ name :: parent) (hparent : files.at_ parent = some .directory)
    (htarget : files.at_ (name :: parent) ≠ some .directory) :
    ∃ after, files.rename source (name :: parent) = .ok after ∧
      ∀ other, after.at_ other = if other = name :: parent then some (.file content)
        else if other = source then none else files.at_ other := by
  obtain ⟨written, hwritten, hat⟩ := exists_writeFile hparent htarget content
  have hstill : written.at_ source = some (.file content) := by rw [hat, if_neg hne, hsource]
  obtain ⟨after, hafter, hat'⟩ := exists_removeFile hstill
  refine ⟨after, ?_, fun other => ?_⟩
  · unfold rename
    rw [hsource]
    dsimp only
    rw [if_neg hne, hwritten]
    exact hafter
  · rw [hat', hat]
    by_cases hother : other = source
    · subst hother
      rw [if_pos rfl, if_neg hne, if_pos rfl]
    · rw [if_neg hother, if_neg hother]

theorem rename_to_directory {source target : Place}
    (hsource : files.at_ source = some (.file content))
    (htarget : files.at_ target = some .directory) :
    files.rename source target = .error .isADirectory := by
  have hne : source ≠ target := by
    rintro rfl
    rw [hsource] at htarget
    cases htarget
  unfold rename
  rw [hsource]
  dsimp only
  rw [if_neg hne]
  cases target with
  | nil => rfl
  | cons name parent =>
    simp only [writeFile]
    rw [dif_pos htarget]
    rfl

end Files

end TuxStack.HostFiles
