import TuxStack.Gui.PathToken
import TuxStack.Gui.Text
import TuxStack.Lib.Runs

/-!
# The file browser

`LocalFuseFilesController` (`crates/gui/src/controllers/local_fuse_files.rs`) and the
calls of its bridge that work in the background: a resource is resolved to a local path,
and the shown folder is read below it. The generation is what tells a late result from
the awaited one.

* A folder change does not touch the generation; the next `begin_list` does.
  `listings_shown_iff` is when the entries are of the shown folder, `awaited_in_place` what a
  listing can be that arrives in between.
* `update_content_state` only decides between `Ready` and `Empty` when the state is one
  of them already (`content_state_iff`), and with the errors that the bridge reports it
  never is (`content_state_never`).
-/

namespace TuxStack.Gui

open Vfs Runs

/-! ## The data -/

inductive LocalFuseResourceRef where
  | container (id : String)
  | image (id : String)
  | volume (id : String)
deriving DecidableEq

inductive LocalFuseFilesState where
  | idle
  | resolving
  | loading
  | ready
  | empty
  | daemonOffline
  | fuseOffline
  | dockerOffline
  | providerUnavailable
  | permissionDenied
  | indexBuilding
  | snapshotBuilding
  | error
deriving DecidableEq

/-- The two states that say what a listing found. -/
def LocalFuseFilesState.IsContent (state : LocalFuseFilesState) : Prop :=
  state = .ready ∨ state = .empty

instance (state : LocalFuseFilesState) : Decidable state.IsContent :=
  inferInstanceAs (Decidable (_ ∨ _))

inductive LocalFileSortColumn where
  | name
  | modified
  | size
  | kind
deriving DecidableEq

inductive LocalFileKind where
  | directory
  | regularFile
  | symlink
  | socket
  | fifo
  | blockDevice
  | characterDevice
  | unknown
deriving DecidableEq, Ord

structure LocalFileEntry where
  nameRaw : Bytes
  displayName : String
  pathComponents : List Bytes
  pathToken : Bytes
  displayPath : String
  kind : LocalFileKind
  size : UInt64
  modifiedUnixSeconds : Int
  mode : UInt32
  uid : UInt32
  gid : UInt32
  hidden : Bool
  symlinkTargetRaw : Option Bytes
  symlinkTargetDisplay : String
deriving DecidableEq

/-- `LocalFuseFilesController`. A local path is its bytes. -/
structure LocalFuseFilesController where
  state : LocalFuseFilesState := .idle
  active : Bool := false
  resource : Option LocalFuseResourceRef := none
  resourcePath : Option Bytes := none
  currentComponents : List Bytes := []
  history : List (List Bytes) := []
  showHidden : Bool := false
  searchQuery : String := ""
  sortColumn : LocalFileSortColumn := .name
  sortDescending : Bool := false
  entries : List LocalFileEntry := []
  selectedToken : Option Bytes := none
  errorKind : String := ""
  errorMessage : String := ""
  generation : UInt64 := 0

/-! ## Reading a folder -/

def displayPath (components : List Bytes) : String :=
  if components = [] then "/"
  else String.join (components.map fun component => "/" ++ fromUtf8Lossy component)

/-- The kinds of `io::Error` that the browser tells apart. -/
inductive IoErrorKind where
  | permissionDenied
  | notFound
  | notConnected
  | invalidInput
  | other
deriving DecidableEq

/-- `io::Error`, with the text it is shown with. -/
structure IoError where
  kind : IoErrorKind
  text : String
deriving DecidableEq

/-- What `symlink_metadata` and `read_link` say about a name. -/
structure LocalMetadata where
  kind : LocalFileKind
  size : UInt64
  modified : Int
  mode : UInt32
  uid : UInt32
  gid : UInt32
  target : Option Bytes

/-- A name in a folder, with what the local file system says about it when asked. -/
structure DirectoryItem where
  name : Bytes
  metadata : Except IoError LocalMetadata

/-- `PathBuf::push` of a single name. -/
def pushComponent (path component : Bytes) : Bytes :=
  if path.getLast? = some slash then path ++ component else path ++ slash :: component

def joinValidatedComponents (root : Bytes) (components : List Bytes) : Except IoError Bytes :=
  if root.head? ≠ some slash then
    .error ⟨.invalidInput, "daemon resource path is not absolute"⟩
  else if components.all validComponent then
    .ok (components.foldl pushComponent root)
  else .error ⟨.invalidInput, "invalid local FUSE path component"⟩

def readEntry (components : List Bytes) (raw : Bytes) (metadata : LocalMetadata) :
    LocalFileEntry :=
  let path := components ++ [raw]
  let target := if metadata.kind = .symlink then metadata.target else none
  { nameRaw := raw
    displayName := fromUtf8Lossy raw
    pathComponents := path
    pathToken := encodePathToken path
    displayPath := displayPath path
    kind := metadata.kind
    size := metadata.size
    modifiedUnixSeconds := metadata.modified
    mode := metadata.mode
    uid := metadata.uid
    gid := metadata.gid
    hidden := raw.head? = some dot
    symlinkTargetRaw := target
    symlinkTargetDisplay := (target.map fromUtf8Lossy).getD "" }

/-- The loop of `read_local_directory`: names that are no valid components are passed
over, and the first error ends it. -/
def readItems (components : List Bytes) :
    List (Except IoError DirectoryItem) → Except IoError (List LocalFileEntry)
  | [] => .ok []
  | .error e :: _ => .error e
  | .ok item :: items =>
    if validComponent item.name then do
      let metadata ← item.metadata
      let entries ← readItems components items
      return readEntry components item.name metadata :: entries
    else readItems components items

/-- `read_local_directory`; `answer` is what the local file system gives. -/
def readLocalDirectory (root : Bytes) (components : List Bytes)
    (answer : Except IoError (List (Except IoError DirectoryItem))) :
    Except IoError (List LocalFileEntry) := do
  let _ ← joinValidatedComponents root components
  readItems components (← answer)

def localIoState (error : IoError) : LocalFuseFilesState × String :=
  match error.kind with
  | .permissionDenied => (.permissionDenied, "permission_denied")
  | .notFound | .notConnected => (.fuseOffline, "fuse_offline")
  | _ => (.error, "local_io")

def localIoMessage (error : IoError) (action : String) : String :=
  match error.kind with
  | .permissionDenied => "Permission was denied while trying to " ++ action ++ "."
  | .notFound | .notConnected =>
    "The Docker filesystem path is no longer available. Retry after checking the mount."
  | _ => "Could not " ++ action ++ ": " ++ error.text

/-! ## The operations -/

namespace LocalFuseFilesController

def compareNames (lowercase : String → String) (left right : LocalFileEntry) : Ordering :=
  (compare (lowercase left.displayName) (lowercase right.displayName)).then
    (compare left.nameRaw right.nameRaw)

def compareEntries (lowercase : String → String) (c : LocalFuseFilesController)
    (left right : LocalFileEntry) : Ordering :=
  let isDirectory := fun entry : LocalFileEntry => entry.kind = .directory
  (compare (decide (isDirectory right)) (decide (isDirectory left))).then <|
    let primary := match c.sortColumn with
      | .name => compareNames lowercase left right
      | .modified => compare left.modifiedUnixSeconds right.modifiedUnixSeconds
      | .size => compare left.size right.size
      | .kind => compare left.kind right.kind
    let ordering := primary.then (compareNames lowercase left right)
    if c.sortDescending then ordering.swap else ordering

/-- The two filters of `visible_entries`. -/
def shows (lowercase : String → String) (c : LocalFuseFilesController) (entry : LocalFileEntry) :
    Bool :=
  let query := lowercase c.searchQuery
  (c.showHidden || !entry.hidden) &&
    (query = "" || contains (lowercase entry.displayName) query ||
      contains (lowercase entry.displayPath) query)

def visibleEntries (lowercase : String → String) (c : LocalFuseFilesController) :
    List LocalFileEntry :=
  (c.entries.filter (c.shows lowercase)).mergeSort fun left right =>
    (c.compareEntries lowercase left right).isLE

def updateContentState (lowercase : String → String) (c : LocalFuseFilesController) :
    LocalFuseFilesController :=
  if c.state.IsContent then
    { c with state := if c.visibleEntries lowercase = [] then .empty else .ready }
  else c

def clearError (c : LocalFuseFilesController) : LocalFuseFilesController :=
  { c with errorKind := "", errorMessage := "" }

def setActive (c : LocalFuseFilesController) (active : Bool) : LocalFuseFilesController :=
  { c with active }

/-- What `select_resource` and `clear_resource` have in common. -/
def resetTo (c : LocalFuseFilesController) (resource : Option LocalFuseResourceRef)
    (state : LocalFuseFilesState) : LocalFuseFilesController :=
  { c.clearError with
    generation := c.generation + 1
    resource
    resourcePath := none
    currentComponents := []
    history := []
    searchQuery := ""
    entries := []
    selectedToken := none
    state }

def selectResource (c : LocalFuseFilesController) (resource : LocalFuseResourceRef) :
    Bool × LocalFuseFilesController :=
  if c.resource = some resource then (false, c) else (true, c.resetTo (some resource) .resolving)

def clearResource (c : LocalFuseFilesController) : LocalFuseFilesController := c.resetTo none .idle

def beginResolve (c : LocalFuseFilesController) :
    Option (UInt64 × LocalFuseResourceRef) × LocalFuseFilesController :=
  match c.resource with
  | none => (none, c)
  | some resource =>
    (some (c.generation + 1, resource),
      { c.clearError with generation := c.generation + 1, state := .resolving })

def applyResourcePath (c : LocalFuseFilesController) (generation : UInt64) (root : Bytes) :
    Bool × LocalFuseFilesController :=
  if generation ≠ c.generation then (false, c)
  else (true, { c with resourcePath := some root, state := .loading })

def beginList (c : LocalFuseFilesController) :
    Option (UInt64 × Bytes × List Bytes) × LocalFuseFilesController :=
  match c.resourcePath with
  | none => (none, c)
  | some root =>
    (some (c.generation + 1, root, c.currentComponents),
      { c.clearError with generation := c.generation + 1, state := .loading })

def applyEntries (lowercase : String → String) (c : LocalFuseFilesController)
    (generation : UInt64) (entries : List LocalFileEntry) : Bool × LocalFuseFilesController :=
  if generation ≠ c.generation then (false, c)
  else (true, { c with entries, selectedToken := none }.updateContentState lowercase)

/-- What `apply_error` and `set_external_state` have in common. -/
def fail (c : LocalFuseFilesController) (state : LocalFuseFilesState) (kind message : String) :
    LocalFuseFilesController :=
  { c with state, errorKind := kind, errorMessage := message, entries := [], selectedToken := none }

def applyError (c : LocalFuseFilesController) (generation : UInt64) (state : LocalFuseFilesState)
    (kind message : String) : Bool × LocalFuseFilesController :=
  if generation ≠ c.generation then (false, c) else (true, c.fail state kind message)

def setExternalState (c : LocalFuseFilesController) (state : LocalFuseFilesState)
    (kind message : String) : LocalFuseFilesController :=
  { c with generation := c.generation + 1 }.fail state kind message

/-- What the three ways to another folder have in common. -/
def enter (c : LocalFuseFilesController) (components : List Bytes) (history : List (List Bytes)) :
    LocalFuseFilesController :=
  { c with
    currentComponents := components
    history
    searchQuery := ""
    entries := []
    selectedToken := none }

/-- `navigate_to_token`; the last folder of `history` is its first element. -/
def navigateToToken (c : LocalFuseFilesController) (token : Bytes) (pushHistory : Bool) :
    Bool × LocalFuseFilesController :=
  match decodePathToken token with
  | .error _ => (false, c)
  | .ok components =>
    if components = c.currentComponents then (false, c)
    else
      (true, c.enter components
        (if pushHistory then c.currentComponents :: c.history else c.history))

def goBack (c : LocalFuseFilesController) : Bool × LocalFuseFilesController :=
  match c.history with
  | [] => (false, c)
  | previous :: history => (true, c.enter previous history)

def goUp (c : LocalFuseFilesController) : Bool × LocalFuseFilesController :=
  if c.currentComponents = [] then (false, c)
  else (true, c.enter c.currentComponents.dropLast (c.currentComponents :: c.history))

def setShowHidden (lowercase : String → String) (c : LocalFuseFilesController) (show_ : Bool) :
    LocalFuseFilesController :=
  { c with showHidden := show_ }.updateContentState lowercase

def setSearch (lowercase : String → String) (c : LocalFuseFilesController) (query : String) :
    LocalFuseFilesController :=
  { c with searchQuery := trim query }.updateContentState lowercase

def toggleSort (c : LocalFuseFilesController) (column : LocalFileSortColumn) :
    LocalFuseFilesController :=
  if c.sortColumn = column then { c with sortDescending := !c.sortDescending }
  else { c with sortColumn := column, sortDescending := false }

def selectToken (c : LocalFuseFilesController) (token : Option Bytes) :
    LocalFuseFilesController :=
  { c with selectedToken := token.filter fun value => c.entries.any (·.pathToken = value) }

end LocalFuseFilesController

inductive BrowserCall where
  | setActive (active : Bool)
  | selectResource (resource : LocalFuseResourceRef)
  | clearResource
  | beginResolve
  | applyResourcePath (generation : UInt64) (root : Bytes)
  | beginList
  | applyEntries (generation : UInt64) (entries : List LocalFileEntry)
  | applyError (generation : UInt64) (state : LocalFuseFilesState) (kind message : String)
  | setExternalState (state : LocalFuseFilesState) (kind message : String)
  | navigateToToken (token : Bytes) (pushHistory : Bool)
  | goBack
  | goUp
  | setShowHidden (show_ : Bool)
  | setSearch (query : String)
  | toggleSort (column : LocalFileSortColumn)
  | selectToken (token : Option Bytes)
deriving DecidableEq

def BrowserCall.ReportsError : BrowserCall → Prop
  | .applyError _ state _ _ | .setExternalState state _ _ => ¬ state.IsContent
  | _ => True

namespace LocalFuseFilesController

variable (lowercase : String → String) {c : LocalFuseFilesController} {call : BrowserCall}

def after (c : LocalFuseFilesController) : BrowserCall → LocalFuseFilesController
  | .setActive active => c.setActive active
  | .selectResource resource => (c.selectResource resource).2
  | .clearResource => c.clearResource
  | .beginResolve => c.beginResolve.2
  | .applyResourcePath generation root => (c.applyResourcePath generation root).2
  | .beginList => c.beginList.2
  | .applyEntries generation entries => (c.applyEntries lowercase generation entries).2
  | .applyError generation state kind message => (c.applyError generation state kind message).2
  | .setExternalState state kind message => c.setExternalState state kind message
  | .navigateToToken token pushHistory => (c.navigateToToken token pushHistory).2
  | .goBack => c.goBack.2
  | .goUp => c.goUp.2
  | .setShowHidden show_ => c.setShowHidden lowercase show_
  | .setSearch query => c.setSearch lowercase query
  | .toggleSort column => c.toggleSort column
  | .selectToken token => c.selectToken token

/-- Does the call change the generation, the path or the error state? -/
def moves (c : LocalFuseFilesController) : BrowserCall → Bool
  | .selectResource resource => (c.selectResource resource).1
  | .clearResource | .setExternalState .. => true
  | .beginResolve => c.beginResolve.1.isSome
  | .beginList => c.beginList.1.isSome
  | .applyResourcePath generation root => (c.applyResourcePath generation root).1
  | .applyError generation state kind message => (c.applyError generation state kind message).1
  | .navigateToToken token pushHistory => (c.navigateToToken token pushHistory).1
  | .goBack => c.goBack.1
  | .goUp => c.goUp.1
  | _ => false

/-! ## The state of the content -/

/-- The state says what there is to see. -/
def StateFits (c : LocalFuseFilesController) : Prop :=
  (c.state = .ready ↔ c.visibleEntries lowercase ≠ []) ∧
    (c.state = .empty ↔ c.visibleEntries lowercase = [])

variable {lowercase}

theorem visibleEntries_eq_nil_iff :
    c.visibleEntries lowercase = [] ↔ c.entries.filter (c.shows lowercase) = [] := by
  unfold visibleEntries
  rw [← List.length_eq_zero_iff, List.length_mergeSort, List.length_eq_zero_iff]

theorem StateFits.isContent (h : c.StateFits lowercase) : c.state.IsContent := by
  by_cases hnil : c.visibleEntries lowercase = []
  · exact .inr (h.2.mpr hnil)
  · exact .inl (h.1.mpr hnil)

theorem StateFits.of_eq {c' : LocalFuseFilesController} (h : c.StateFits lowercase)
    (heq : c' = c) : c'.StateFits lowercase := heq ▸ h

theorem updateContentState_of_not (h : ¬ c.state.IsContent) :
    c.updateContentState lowercase = c := if_neg h

theorem stateFits_updateContentState (h : c.state.IsContent) :
    (c.updateContentState lowercase).StateFits lowercase := by
  have hvisible : (c.updateContentState lowercase).visibleEntries lowercase =
      c.visibleEntries lowercase := by
    unfold updateContentState
    rw [if_pos h]
    rfl
  have hstate : (c.updateContentState lowercase).state =
      if c.visibleEntries lowercase = [] then .empty else .ready := by
    unfold updateContentState
    rw [if_pos h]
  unfold StateFits
  rw [hvisible, hstate]
  split
  · next hnil => simp [hnil]
  · next hnil => simp [hnil]

/-- Nothing but the state is touched, and the state only from one content state to another. -/
theorem isContent_updateContentState_iff :
    (c.updateContentState lowercase).state.IsContent ↔ c.state.IsContent := by
  constructor
  · intro h
    by_contra hno
    rw [updateContentState_of_not hno] at h
    exact hno h
  · intro h
    exact (stateFits_updateContentState h).isContent

theorem StateFits.toggleSort (h : c.StateFits lowercase) (column : LocalFileSortColumn) :
    (c.toggleSort column).StateFits lowercase := by
  have hstate : (c.toggleSort column).state = c.state := by
    unfold LocalFuseFilesController.toggleSort
    split <;> rfl
  have hfilter : (c.toggleSort column).entries.filter ((c.toggleSort column).shows lowercase) =
      c.entries.filter (c.shows lowercase) := by
    unfold LocalFuseFilesController.toggleSort
    split <;> rfl
  unfold StateFits at h ⊢
  rw [Ne, visibleEntries_eq_nil_iff] at h ⊢
  rw [hstate, hfilter]
  exact h

variable {generation : UInt64}

variable {browser : LocalFuseFilesController} {entries : List LocalFileEntry}
  {resource : LocalFuseResourceRef} {root : Bytes}

theorem beginResolve_eq_some (h : c.beginResolve = (some (generation, resource), browser)) :
    generation = browser.generation ∧ browser.resource = some resource := by
  unfold beginResolve at h
  split at h
  · cases h
  · next hresource =>
    cases h
    exact ⟨rfl, hresource⟩

theorem beginList_eq_some {components : List Bytes}
    (h : c.beginList = (some (generation, root, components), browser)) :
    generation = browser.generation ∧ c.resourcePath.isSome ∧ browser.resource = c.resource ∧
      components = browser.currentComponents := by
  unfold beginList at h
  split at h
  · cases h
  · next hpath =>
    cases h
    exact ⟨rfl, by rw [hpath]; rfl, rfl, rfl⟩

theorem applyEntries_current : c.applyEntries lowercase c.generation entries =
      (true, { c with entries, selectedToken := none }.updateContentState lowercase) := by
  unfold applyEntries
  rw [if_neg (not_not_intro rfl)]

theorem applyEntries_stale (h : generation ≠ c.generation) :
    c.applyEntries lowercase generation entries = (false, c) :=
  if_pos h

/-- A call that is refused, or whose result comes too late, leaves everything as it was. -/
theorem selectResource_refused (h : (c.selectResource resource).1 = false) :
    (c.selectResource resource).2 = c := by
  unfold selectResource at h ⊢
  split_ifs at h ⊢
  rfl

theorem beginResolve_refused (h : c.beginResolve.1.isSome = false) : c.beginResolve.2 = c := by
  unfold beginResolve at h ⊢
  split at h
  · rfl
  · cases h

theorem applyResourcePath_refused (h : (c.applyResourcePath generation root).1 = false) :
    (c.applyResourcePath generation root).2 = c := by
  unfold applyResourcePath at h ⊢
  split_ifs at h ⊢
  rfl

theorem beginList_refused (h : c.beginList.1.isSome = false) : c.beginList.2 = c := by
  unfold beginList at h ⊢
  split at h
  · rfl
  · cases h

theorem applyError_refused {state : LocalFuseFilesState} {kind message : String}
    (h : (c.applyError generation state kind message).1 = false) :
    (c.applyError generation state kind message).2 = c := by
  unfold applyError at h ⊢
  split_ifs at h ⊢
  rfl

theorem navigateToToken_refused {token : Bytes} {pushHistory : Bool}
    (h : (c.navigateToToken token pushHistory).1 = false) :
    (c.navigateToToken token pushHistory).2 = c := by
  unfold navigateToToken at h ⊢
  split
  · rfl
  · next components hdecode =>
    rw [hdecode] at h
    dsimp only at h
    split_ifs at h ⊢
    rfl

theorem goBack_refused (h : c.goBack.1 = false) : c.goBack.2 = c := by
  unfold goBack at h ⊢
  split at h
  · rfl
  · cases h

theorem goUp_refused (h : c.goUp.1 = false) : c.goUp.2 = c := by
  unfold goUp at h ⊢
  split_ifs at h ⊢
  rfl

/-- A call that changes neither generation nor path nor error state, and brings no entries,
keeps the state fitting. -/
theorem StateFits.after (h : c.StateFits lowercase) (hmoves : c.moves call = false)
    (hentries : ∀ generation entries, call ≠ .applyEntries generation entries) :
    (c.after lowercase call).StateFits lowercase := by
  cases call with
  | setActive active => exact h
  | selectResource resource => exact h.of_eq (selectResource_refused hmoves)
  | clearResource => cases hmoves
  | beginResolve => exact h.of_eq (beginResolve_refused hmoves)
  | applyResourcePath generation root => exact h.of_eq (applyResourcePath_refused hmoves)
  | beginList => exact h.of_eq (beginList_refused hmoves)
  | applyEntries generation entries => exact absurd rfl (hentries generation entries)
  | applyError generation state kind message => exact h.of_eq (applyError_refused hmoves)
  | setExternalState state kind message => cases hmoves
  | navigateToToken token pushHistory => exact h.of_eq (navigateToToken_refused hmoves)
  | goBack => exact h.of_eq (goBack_refused hmoves)
  | goUp => exact h.of_eq (goUp_refused hmoves)
  | setShowHidden show_ | setSearch query => exact stateFits_updateContentState h.isContent
  | toggleSort column => exact h.toggleSort column
  | selectToken token => exact h

end LocalFuseFilesController

/-! ## What a call can do -/

namespace LocalFuseFilesController

variable (lowercase : String → String)

/-- All that a call can do to the controller. -/
inductive Effect (c : LocalFuseFilesController) :
    BrowserCall → LocalFuseFilesController → Prop where
  | unchanged {call : BrowserCall} : Effect c call c
  | reset {call : BrowserCall} {resource : Option LocalFuseResourceRef}
      {state : LocalFuseFilesState} (h : ¬ state.IsContent) :
      Effect c call (c.resetTo resource state)
  | restarted {call : BrowserCall} {state : LocalFuseFilesState} (h : ¬ state.IsContent) :
      Effect c call { c.clearError with generation := c.generation + 1, state }
  | resolved {root : Bytes} : Effect c (.applyResourcePath c.generation root)
      { c with resourcePath := some root, state := .loading }
  | listed {entries : List LocalFileEntry} : Effect c (.applyEntries c.generation entries)
      ({ c with entries, selectedToken := none }.updateContentState lowercase)
  | failed {state : LocalFuseFilesState} {kind message : String} :
      Effect c (.applyError c.generation state kind message) (c.fail state kind message)
  | external {state : LocalFuseFilesState} {kind message : String} :
      Effect c (.setExternalState state kind message)
        ({ c with generation := c.generation + 1 }.fail state kind message)
  | entered {call : BrowserCall} {components : List Bytes} {history : List (List Bytes)} :
      Effect c call (c.enter components history)
  | viewed {call : BrowserCall} {active sortDescending : Bool}
      {sortColumn : LocalFileSortColumn} {selectedToken : Option Bytes} :
      Effect c call { c with active, sortColumn, sortDescending, selectedToken }
  | filtered {call : BrowserCall} {showHidden : Bool} {searchQuery : String} :
      Effect c call ({ c with showHidden, searchQuery }.updateContentState lowercase)

variable {lowercase} {c c' : LocalFuseFilesController} {call : BrowserCall}

/-- **What a call can do**, one case for each operation. -/
theorem effect_after : c.Effect lowercase call (c.after lowercase call) := by
  cases call with
  | setActive active => exact .viewed
  | selectResource resource =>
    show c.Effect lowercase _ (c.selectResource resource).2
    unfold selectResource
    split
    · exact .unchanged
    · exact .reset (by decide)
  | clearResource => exact .reset (by decide)
  | beginResolve =>
    show c.Effect lowercase _ c.beginResolve.2
    unfold beginResolve
    split
    · exact .unchanged
    · exact .restarted (by decide)
  | applyResourcePath generation root =>
    show c.Effect lowercase _ (c.applyResourcePath generation root).2
    unfold applyResourcePath
    split
    · exact .unchanged
    · next hcurrent =>
      obtain rfl := not_not.mp hcurrent
      exact .resolved
  | beginList =>
    show c.Effect lowercase _ c.beginList.2
    unfold beginList
    split
    · exact .unchanged
    · exact .restarted (by decide)
  | applyEntries generation entries =>
    show c.Effect lowercase _ (c.applyEntries lowercase generation entries).2
    unfold applyEntries
    split
    · exact .unchanged
    · next hcurrent =>
      obtain rfl := not_not.mp hcurrent
      exact .listed
  | applyError generation state kind message =>
    show c.Effect lowercase _ (c.applyError generation state kind message).2
    unfold applyError
    split
    · exact .unchanged
    · next hcurrent =>
      obtain rfl := not_not.mp hcurrent
      exact .failed
  | setExternalState state kind message => exact .external
  | navigateToToken token pushHistory =>
    show c.Effect lowercase _ (c.navigateToToken token pushHistory).2
    unfold navigateToToken
    split
    · exact .unchanged
    · split
      · exact .unchanged
      · exact .entered
  | goBack =>
    show c.Effect lowercase _ c.goBack.2
    unfold goBack
    split
    · exact .unchanged
    · exact .entered
  | goUp =>
    show c.Effect lowercase _ c.goUp.2
    unfold goUp
    split
    · exact .unchanged
    · exact .entered
  | setShowHidden show_ => exact .filtered
  | setSearch query => exact .filtered
  | toggleSort column =>
    show c.Effect lowercase _ (c.toggleSort column)
    unfold toggleSort
    split
    · exact .viewed
    · exact .viewed
  | selectToken token => exact .viewed

theorem not_isContent_after (hno : ¬ c.state.IsContent) (hreports : call.ReportsError)
    (h : c.Effect lowercase call c') : ¬ c'.state.IsContent := by
  cases h with
  | unchanged | entered | viewed => exact hno
  | reset hstate | restarted hstate => exact hstate
  | resolved => exact (by decide : ¬ LocalFuseFilesState.loading.IsContent)
  | listed | filtered => exact isContent_updateContentState_iff.not.mpr hno
  | failed | external => exact hreports

/-- What is shown is the same as before, or nothing. -/
def ShowsSame (c c' : LocalFuseFilesController) : Prop :=
  c'.entries = [] ∨ c'.entries = c.entries ∧ c'.resource = c.resource ∧
    c'.currentComponents = c.currentComponents

theorem showsSame_updateContentState :
    c.ShowsSame (c.updateContentState lowercase) := by
  unfold updateContentState
  split
  · exact .inr ⟨rfl, rfl, rfl⟩
  · exact .inr ⟨rfl, rfl, rfl⟩

theorem showsSame_after (hentries : ∀ generation entries, call ≠ .applyEntries generation entries)
    (h : c.Effect lowercase call c') : c.ShowsSame c' := by
  cases h with
  | unchanged | restarted hstate | resolved | viewed => exact .inr ⟨rfl, rfl, rfl⟩
  | reset hstate | failed | external | entered => exact .inl rfl
  | listed => exact absurd rfl (hentries _ _)
  | @filtered _ showHidden searchQuery =>
    exact showsSame_updateContentState (c := { c with showHidden, searchQuery })

/-- Either the generation goes up, and a path that stays is one of the same resource, or
resource and path stay. -/
def Advances (c c' : LocalFuseFilesController) : Prop :=
  c'.generation = c.generation ∧ c'.resource = c.resource ∧ c'.resourcePath = c.resourcePath ∨
    c'.generation = c.generation + 1 ∧ (c'.resourcePath = none ∨
      c'.resource = c.resource ∧ c'.resourcePath = c.resourcePath)

theorem advances_updateContentState : c.Advances (c.updateContentState lowercase) := by
  unfold updateContentState
  split
  · exact .inl ⟨rfl, rfl, rfl⟩
  · exact .inl ⟨rfl, rfl, rfl⟩

theorem advances_after (hpath : ∀ generation root, call ≠ .applyResourcePath generation root)
    (h : c.Effect lowercase call c') : c.Advances c' := by
  cases h with
  | unchanged | failed | entered | viewed => exact .inl ⟨rfl, rfl, rfl⟩
  | reset hstate => exact .inr ⟨rfl, .inl rfl⟩
  | restarted hstate | external => exact .inr ⟨rfl, .inr ⟨rfl, rfl⟩⟩
  | resolved => exact absurd rfl (hpath _ _)
  | @listed entries =>
    exact advances_updateContentState (c := { c with entries, selectedToken := none })
  | @filtered _ showHidden searchQuery =>
    exact advances_updateContentState (c := { c with showHidden, searchQuery })

end LocalFuseFilesController

/-- A browser with what the calls so far amount to: whether the last change of the
generation was a `begin_list`, and whether the entries are its result, with no change of
generation, path or error state since. -/
structure BrowserRun where
  browser : LocalFuseFilesController
  listBegun : Bool
  listShown : Bool

namespace BrowserRun

variable (lowercase : String → String)

def after (s : BrowserRun) (call : BrowserCall) : BrowserRun :=
  let browser := s.browser.after lowercase call
  { browser
    listBegun := if browser.generation = s.browser.generation then s.listBegun
      else call = .beginList
    listShown := match call with
      | .applyEntries generation _ =>
        if generation = s.browser.generation then s.listBegun else s.listShown
      | _ => s.listShown && !s.browser.moves call }

def machine : Machine BrowserRun BrowserCall where
  init s := s = ⟨{}, false, false⟩
  step s call := some (s.after lowercase call)

/-- The state fits the entries as long as they are shown. -/
def Fits (s : BrowserRun) : Prop := s.listShown = true → s.browser.StateFits lowercase

/-- The result of the awaited listing finds the state `Ready` or `Empty`. -/
def MeetsContent (s : BrowserRun) : BrowserCall → Prop
  | .applyEntries generation _ =>
    generation = s.browser.generation → s.listBegun = true → s.browser.state.IsContent
  | _ => True

instance (s : BrowserRun) (call : BrowserCall) : Decidable (s.MeetsContent call) := by
  cases call <;> unfold MeetsContent <;> infer_instance

variable {lowercase} {s : BrowserRun}

theorem fits_applyEntries_iff {entries : List LocalFileEntry} (hbegun : s.listBegun = true) :
    (s.after lowercase (.applyEntries s.browser.generation entries)).Fits lowercase ↔
      s.browser.state.IsContent := by
  have hshown : (s.after lowercase (.applyEntries s.browser.generation entries)).listShown =
      s.listBegun := if_pos rfl
  have hbrowser : (s.after lowercase (.applyEntries s.browser.generation entries)).browser =
      { s.browser with entries, selectedToken := none }.updateContentState lowercase :=
    congrArg Prod.snd LocalFuseFilesController.applyEntries_current
  unfold Fits
  rw [hshown, hbrowser]
  constructor
  · intro h
    have hcontent := (h hbegun).isContent
    rw [LocalFuseFilesController.isContent_updateContentState_iff] at hcontent
    exact hcontent
  · intro h _
    exact LocalFuseFilesController.stateFits_updateContentState h

theorem fits_after {call : BrowserCall} (h : s.Fits lowercase) (hmeets : s.MeetsContent call) :
    (s.after lowercase call).Fits lowercase := by
  by_cases hcurrent : ∃ entries, call = .applyEntries s.browser.generation entries
  · obtain ⟨entries, rfl⟩ := hcurrent
    by_cases hbegun : s.listBegun = true
    · exact (fits_applyEntries_iff hbegun).mpr (hmeets rfl hbegun)
    · intro hshown
      exact absurd ((if_pos rfl).symm.trans hshown) hbegun
  · intro hshown
    cases call with
    | applyEntries generation entries =>
      have hstale : generation ≠ s.browser.generation := by
        rintro rfl
        exact hcurrent ⟨entries, rfl⟩
      exact (h ((if_neg hstale).symm.trans hshown)).of_eq
        (congrArg Prod.snd (LocalFuseFilesController.applyEntries_stale hstale))
    | _ =>
      have hboth := (Bool.and_eq_true ..).mp hshown
      exact (h hboth.1).after (Bool.not_eq_true' _ ▸ hboth.2) (by simp)

/-- **The state of the content**: in every run, the state says `Ready` or `Empty` as the
entries have it, all the time that the result of the last `begin_list` is shown, if and
only if every such result found the state to be `Ready` or `Empty` when it came. -/
theorem content_state_iff (calls : List BrowserCall) :
    (machine lowercase).AllStates (Fits lowercase) ⟨{}, false, false⟩ calls ↔
      (machine lowercase).AllSteps MeetsContent ⟨{}, false, false⟩ calls := by
  refine Machine.allStates_iff_allSteps (J := fun _ => True) (fun _ _ _ _ _ => trivial) ?_ ?_
    (fun s call _ => ⟨s.after lowercase call, rfl⟩) trivial (fun h => by cases h)
  · intro s call s' _ hfits hmeets hstep
    cases hstep
    exact fits_after hfits hmeets
  · intro s call s' _ _ hmeets hstep hfits
    cases hstep
    cases call with
    | applyEntries generation entries =>
      obtain ⟨rfl, hbegun, hno⟩ : generation = s.browser.generation ∧ s.listBegun = true ∧
          ¬ s.browser.state.IsContent := by
        simpa only [MeetsContent, Classical.not_imp] using hmeets
      exact hno ((fits_applyEntries_iff hbegun).mp hfits)
    | _ => exact hmeets trivial

/-- A folder is read, and the state is still `Loading`. -/
theorem stays_loading :
    ∃ s, (machine id).exec ⟨{}, false, false⟩
        [.selectResource (.volume "data"), .beginResolve,
          .applyResourcePath 2 (ascii "/mnt/volumes/data"), .beginList, .applyEntries 3 []] =
          some s ∧ ¬ s.Fits id := by
  refine ⟨_, rfl, fun h => ?_⟩
  have hfits := (h rfl).2.mpr
    (LocalFuseFilesController.visibleEntries_eq_nil_iff.mpr List.filter_nil)
  cases hfits

/-- **No listing is ever shown as `Ready` or `Empty`**: when the calls only report error
states, the state fits after none of the listings. -/
theorem content_state_never {calls : List BrowserCall} {s : BrowserRun}
    (hcalls : ∀ call ∈ calls, BrowserCall.ReportsError call)
    (hexec : (machine lowercase).exec ⟨{}, false, false⟩ calls = some s) :
    ¬ s.browser.StateFits lowercase := by
  have hnever : ¬ s.browser.state.IsContent :=
    Machine.exec_invariant (I := fun s : BrowserRun => ¬ s.browser.state.IsContent)
      (fun s call s' hno hreports hstep => by
        cases hstep
        exact LocalFuseFilesController.not_isContent_after hno hreports
          LocalFuseFilesController.effect_after) hcalls hexec (by decide)
  exact fun h => hnever h.isContent

end BrowserRun

/-! ## Work in the background -/

structure Resolving where
  generation : UInt64
  resource : LocalFuseResourceRef
  changes : Nat

structure Listing where
  generation : UInt64
  root : Bytes
  components : List Bytes
  resource : Option LocalFuseResourceRef
  changes : Nat

/-- The browser and what runs in the background. `rootOf` and `entriesOf` are the
resources that the local path and the entries belong to, `changes` counts the changes of
the generation, and `entered` says that the folder changed after the last of them. -/
structure BrowserSystem where
  browser : LocalFuseFilesController := {}
  resolving : List Resolving := []
  listing : List Listing := []
  rootOf : Option LocalFuseResourceRef := none
  entriesOf : Option LocalFuseResourceRef := none
  changes : Nat := 0
  entered : Bool := false

/-- A call that takes effect at once, the two that start background work, and the ends
of it: a path or an error, and what the local file system gave for a folder. Work that is
cancelled may never end. -/
inductive BrowserStep where
  | call (call : BrowserCall)
  | beginResolve
  | beginList
  | resolved (i : Nat) (answer : Except (LocalFuseFilesState × String × String) Bytes)
  | listed (i : Nat) (answer : Except IoError (List (Except IoError DirectoryItem)))

/-- The calls that are no part of background work. -/
def BrowserCall.AtOnce : BrowserCall → Bool
  | .beginResolve | .beginList | .applyResourcePath .. | .applyEntries .. => false
  | _ => true

/-- The call that the end of a resolution makes. -/
def Resolving.ends (r : Resolving) :
    Except (LocalFuseFilesState × String × String) Bytes → BrowserCall
  | .ok root => .applyResourcePath r.generation root
  | .error (state, kind, message) => .applyError r.generation state kind message

def Listing.ends (listing : Listing)
    (answer : Except IoError (List (Except IoError DirectoryItem))) : BrowserCall :=
  match readLocalDirectory listing.root listing.components answer with
  | .ok entries => .applyEntries listing.generation entries
  | .error e =>
    .applyError listing.generation (localIoState e).1 (localIoState e).2
      (localIoMessage e "read this FUSE folder")

namespace BrowserSystem

variable (lowercase : String → String)

/-- The browser after a step, with the count of the generation kept. -/
def moved (s : BrowserSystem) (browser : LocalFuseFilesController) : BrowserSystem :=
  if browser.generation = s.browser.generation then
    { s with
      browser
      entered := s.entered || browser.currentComponents ≠ s.browser.currentComponents }
  else { s with browser, changes := s.changes + 1, entered := false }

def step (s : BrowserSystem) : BrowserStep → Option BrowserSystem
  | .call call =>
    if call.AtOnce then some (s.moved (s.browser.after lowercase call)) else none
  | .beginResolve =>
    match s.browser.beginResolve with
    | (none, _) => none
    | (some (generation, resource), browser) =>
      let t := s.moved browser
      some { t with resolving := t.resolving ++ [⟨generation, resource, t.changes⟩] }
  | .beginList =>
    match s.browser.beginList with
    | (none, _) => none
    | (some (generation, root, components), browser) =>
      let t := s.moved browser
      some { t with
        listing := t.listing ++ [⟨generation, root, components, s.rootOf, t.changes⟩] }
  | .resolved i answer => do
      let r ← s.resolving[i]?
      let t := s.moved (s.browser.after lowercase (r.ends answer))
      return { t with
        resolving := s.resolving.eraseIdx i
        rootOf :=
          if answer.isOk ∧ r.generation = s.browser.generation then some r.resource
          else s.rootOf }
  | .listed i answer => do
      let l ← s.listing[i]?
      let t := s.moved (s.browser.after lowercase (l.ends answer))
      return { t with
        listing := s.listing.eraseIdx i
        entriesOf := if l.generation = s.browser.generation then l.resource else s.entriesOf }

def machine : Machine BrowserSystem BrowserStep where
  init s := s = {}
  step := step lowercase

/-- Every entry was read for the resource and in the folder that are shown. -/
def EntriesShown (s : BrowserSystem) : Prop :=
  ∀ entry ∈ s.browser.entries, s.entriesOf = s.browser.resource ∧
    ∃ name, entry.pathComponents = s.browser.currentComponents ++ [name]

/-- A listing that arrives with the current generation, and has found something, is of the
resource and the folder that are shown. -/
def ArrivesInPlace (s : BrowserSystem) : BrowserStep → Prop
  | .listed i answer => ∀ l ∈ s.listing[i]?, l.generation = s.browser.generation →
      (∃ entries, readLocalDirectory l.root l.components answer = .ok entries ∧ entries ≠ []) →
      l.resource = s.browser.resource ∧ l.components = s.browser.currentComponents
  | _ => True

variable {lowercase} {s t : BrowserSystem}

theorem reportsError_ends (l : Listing)
    (answer : Except IoError (List (Except IoError DirectoryItem))) :
    (l.ends answer).ReportsError := by
  unfold Listing.ends
  split
  · trivial
  · show ¬ (localIoState _).1.IsContent
    unfold localIoState
    split <;> decide

@[simp] theorem moved_browser (browser : LocalFuseFilesController) :
    (s.moved browser).browser = browser := by
  unfold moved
  split <;> rfl

theorem moved_of_same {browser : LocalFuseFilesController}
    (hgeneration : browser.generation = s.browser.generation)
    (hfolder : browser.currentComponents = s.browser.currentComponents) :
    s.moved browser = { s with browser } := by
  unfold moved
  rw [if_pos hgeneration, hfolder]
  simp

@[simp] theorem moved_rootOf (browser : LocalFuseFilesController) :
    (s.moved browser).rootOf = s.rootOf := by
  unfold moved
  split <;> rfl

@[simp] theorem moved_listing (browser : LocalFuseFilesController) :
    (s.moved browser).listing = s.listing := by
  unfold moved
  split <;> rfl

@[simp] theorem moved_resolving (browser : LocalFuseFilesController) :
    (s.moved browser).resolving = s.resolving := by
  unfold moved
  split <;> rfl

@[simp] theorem moved_entriesOf (browser : LocalFuseFilesController) :
    (s.moved browser).entriesOf = s.entriesOf := by
  unfold moved
  split <;> rfl

theorem EntriesShown.of_showsSame (h : s.EntriesShown)
    (hsame : s.browser.ShowsSame t.browser)
    (hof : t.browser.entries = [] ∨ t.entriesOf = s.entriesOf) :
    t.EntriesShown := by
  rcases hsame with hnil | ⟨hentries, hresource, hcomponents⟩
  · intro entry hentry
    rw [hnil] at hentry
    cases hentry
  · intro entry hentry
    rcases hof with hnil | hof
    · rw [hnil] at hentry
      cases hentry
    · rw [hof, hresource, hcomponents]
      exact h entry (hentries ▸ hentry)

end BrowserSystem

/-! ## What a listing finds -/

variable {components : List Bytes}

theorem pathComponents_of_mem_readItems :
    ∀ {items : List (Except IoError DirectoryItem)} {entries : List LocalFileEntry},
      readItems components items = .ok entries →
        ∀ entry ∈ entries, ∃ name, entry.pathComponents = components ++ [name]
  | [], _, h => by
      cases h
      simp
  | .error e :: _, _, h => by cases h
  | .ok item :: items, entries, h => by
      unfold readItems at h
      split at h
      · obtain ⟨metadata, -, h⟩ := Result.bind_eq_ok.mp h
        obtain ⟨rest, hrest, h⟩ := Result.bind_eq_ok.mp h
        cases h
        intro entry hentry
        rcases List.mem_cons.mp hentry with rfl | hentry
        · exact ⟨item.name, rfl⟩
        · exact pathComponents_of_mem_readItems hrest entry hentry
      · exact pathComponents_of_mem_readItems h

theorem pathComponents_of_mem_read {root : Bytes}
    {answer : Except IoError (List (Except IoError DirectoryItem))} {entries : List LocalFileEntry}
    (h : readLocalDirectory root components answer = .ok entries) :
    ∀ entry ∈ entries, ∃ name, entry.pathComponents = components ++ [name] := by
  obtain ⟨path, -, h⟩ := Result.bind_eq_ok.mp h
  obtain ⟨items, -, h⟩ := Result.bind_eq_ok.mp h
  exact pathComponents_of_mem_readItems h

/-! ## Entries of the shown folder -/

namespace BrowserSystem

variable {lowercase : String → String} {s t : BrowserSystem} {a : BrowserStep}

/-- A step is a call of one of the operations, and only the end of a listing says what the
entries belong to. -/
theorem step_inv (h : step lowercase s a = some t) :
    (∃ call, (∀ generation entries, call ≠ .applyEntries generation entries) ∧
      t.browser = s.browser.after lowercase call ∧ t.entriesOf = s.entriesOf) ∨
    ∃ i answer l, a = .listed i answer ∧ s.listing[i]? = some l ∧
      t.browser = s.browser.after lowercase (l.ends answer) ∧
      t.entriesOf = if l.generation = s.browser.generation then l.resource else s.entriesOf := by
  cases a with
  | call call =>
    refine .inl ⟨call, ?_⟩
    simp only [step] at h
    split at h
    · next hatOnce =>
      cases h
      refine ⟨?_, moved_browser _, moved_entriesOf _⟩
      rintro generation entries rfl
      cases hatOnce
    · cases h
  | beginResolve =>
    refine .inl ⟨.beginResolve, by simp, ?_⟩
    simp only [step] at h
    split at h
    · cases h
    · next generation resource browser hbegin =>
      cases h
      exact ⟨(moved_browser _).trans (congrArg Prod.snd hbegin).symm, moved_entriesOf _⟩
  | beginList =>
    refine .inl ⟨.beginList, by simp, ?_⟩
    simp only [step] at h
    split at h
    · cases h
    · next generation root components browser hbegin =>
      cases h
      exact ⟨(moved_browser _).trans (congrArg Prod.snd hbegin).symm, moved_entriesOf _⟩
  | resolved i answer =>
    obtain ⟨r, -, h⟩ := Option.bind_eq_some_iff.mp h
    cases h
    refine .inl ⟨r.ends answer, ?_, moved_browser _, moved_entriesOf _⟩
    intro generation entries
    cases answer with
    | ok root | error e => simp [Resolving.ends]
  | listed i answer =>
    obtain ⟨l, hl, h⟩ := Option.bind_eq_some_iff.mp h
    cases h
    exact .inr ⟨i, answer, l, rfl, hl, moved_browser _, rfl⟩

variable {l : Listing} {answer : Except IoError (List (Except IoError DirectoryItem))}

/-- The end of a listing, when it is awaited and has found `entries`. -/
theorem after_ends_current (lowercase : String → String) {entries : List LocalFileEntry}
    (hgeneration : l.generation = s.browser.generation)
    (hread : readLocalDirectory l.root l.components answer = .ok entries) :
    (s.browser.after lowercase (l.ends answer)).entries = entries ∧
      (s.browser.after lowercase (l.ends answer)).resource = s.browser.resource ∧
      (s.browser.after lowercase (l.ends answer)).currentComponents =
        s.browser.currentComponents := by
  have hafter : s.browser.after lowercase (l.ends answer) =
      { s.browser with entries, selectedToken := none }.updateContentState lowercase := by
    unfold Listing.ends
    rw [hread, hgeneration]
    exact congrArg Prod.snd LocalFuseFilesController.applyEntries_current
  rw [hafter]
  unfold LocalFuseFilesController.updateContentState
  split
  · exact ⟨rfl, rfl, rfl⟩
  · exact ⟨rfl, rfl, rfl⟩

theorem after_ends_failed {e : IoError} (hgeneration : l.generation = s.browser.generation)
    (hread : readLocalDirectory l.root l.components answer = .error e) :
    (s.browser.after lowercase (l.ends answer)).entries = [] := by
  have hafter : s.browser.after lowercase (l.ends answer) =
      s.browser.fail (localIoState e).1 (localIoState e).2
        (localIoMessage e "read this FUSE folder") := by
    unfold Listing.ends
    rw [hread, hgeneration]
    exact congrArg Prod.snd (if_neg (not_not_intro rfl))
  rw [hafter]
  rfl

theorem after_ends_stale (hgeneration : l.generation ≠ s.browser.generation) :
    s.browser.after lowercase (l.ends answer) = s.browser := by
  unfold Listing.ends
  split
  · exact congrArg Prod.snd (LocalFuseFilesController.applyEntries_stale hgeneration)
  · exact congrArg Prod.snd (if_pos hgeneration)

theorem entriesShown_step (h : s.EntriesShown) (hplace : s.ArrivesInPlace a)
    (hstep : step lowercase s a = some t) : t.EntriesShown := by
  rcases step_inv hstep with ⟨call, hcall, hbrowser, hof⟩ | ⟨i, answer, l, rfl, hl, hbrowser, hof⟩
  · refine h.of_showsSame ?_ (.inr hof)
    rw [hbrowser]
    exact LocalFuseFilesController.showsSame_after hcall LocalFuseFilesController.effect_after
  · by_cases hgeneration : l.generation = s.browser.generation
    · cases hread : readLocalDirectory l.root l.components answer with
      | error e =>
        have hnil : t.browser.entries = [] := by
          rw [hbrowser]
          exact after_ends_failed hgeneration hread
        exact h.of_showsSame (.inl hnil) (.inl hnil)
      | ok entries =>
        obtain ⟨hentries, hresource, hcomponents⟩ :=
          after_ends_current lowercase hgeneration hread
        intro entry hentry
        rw [hbrowser, hentries] at hentry
        obtain ⟨hsameResource, hsameFolder⟩ := hplace l hl hgeneration
          ⟨entries, hread, List.ne_nil_of_mem hentry⟩
        rw [hof, if_pos hgeneration, hbrowser, hresource, hcomponents, ← hsameResource,
          ← hsameFolder]
        exact ⟨rfl, pathComponents_of_mem_read hread entry hentry⟩
    · rw [if_neg hgeneration] at hof
      refine h.of_showsSame ?_ (.inr hof)
      rw [hbrowser]
      rw [after_ends_stale hgeneration]
      exact .inr ⟨rfl, rfl, rfl⟩

/-- A listing that has found something elsewhere is shown all the same. -/
theorem not_entriesShown_step (hplace : ¬ s.ArrivesInPlace a)
    (hstep : step lowercase s a = some t) : ¬ t.EntriesShown := by
  cases a with
  | listed i answer =>
    intro hshown
    refine hplace fun l hl hgeneration hfound => ?_
    obtain ⟨entries, hread, hne⟩ := hfound
    obtain ⟨entry, hentry⟩ := List.exists_mem_of_ne_nil entries hne
    obtain ⟨hentries, hresource, hcomponents⟩ :=
      after_ends_current lowercase hgeneration hread
    obtain ⟨l', hl', hend⟩ := Option.bind_eq_some_iff.mp hstep
    obtain rfl : l' = l := Option.some_inj.mp (hl'.symm.trans hl)
    obtain rfl := Option.some_inj.mp hend
    obtain ⟨hof, name, hname⟩ := hshown entry (by
      show entry ∈ (s.moved _).browser.entries
      rw [moved_browser, hentries]
      exact hentry)
    change (if l'.generation = s.browser.generation then l'.resource else s.entriesOf) =
      (s.moved _).browser.resource at hof
    change entry.pathComponents = (s.moved _).browser.currentComponents ++ [name] at hname
    rw [moved_browser] at hof hname
    rw [if_pos hgeneration, hresource] at hof
    obtain ⟨name', hname'⟩ := pathComponents_of_mem_read hread entry hentry
    rw [hname', hcomponents] at hname
    exact ⟨hof, (List.append_inj' hname rfl).1⟩
  | _ => exact absurd trivial hplace

theorem listed_enabled (hplace : ¬ s.ArrivesInPlace a) :
    ∃ t, step lowercase s a = some t := by
  cases a with
  | listed i answer =>
    cases hl : s.listing[i]? with
    | none => exact absurd (fun l h => by rw [hl] at h; cases h) hplace
    | some l => exact ⟨_, by rw [step, hl]; rfl⟩
  | _ => exact absurd trivial hplace

/-- **Listings of the shown folder**: in every run, all entries are at all times of the
shown resource and folder if and only if every listing that arrives with the current
generation and has found something is of the resource and the folder that are shown when
it arrives. -/
theorem listings_shown_iff (steps : List BrowserStep) :
    (machine lowercase).AllStates EntriesShown {} steps ↔
      (machine lowercase).AllSteps ArrivesInPlace {} steps := by
  refine Machine.allStates_iff_allSteps (J := fun _ => True) (fun _ _ _ _ _ => trivial) ?_ ?_
    (fun s a => listed_enabled) trivial (fun entry hentry => by cases hentry)
  · intro s a t _ hshown hplace hstep
    exact entriesShown_step hshown hplace hstep
  · intro s a t _ _ hplace hstep
    exact not_entriesShown_step hplace hstep

/-! ## Listings from elsewhere -/

/-- Background work carries the generation that its count stands for, and when that is
the newest it is for what is shown now. -/
structure Dated (s : BrowserSystem) : Prop where
  generation : s.browser.generation = UInt64.ofNat s.changes
  root : s.browser.resourcePath.isSome → s.rootOf = s.browser.resource
  resolving : ∀ r ∈ s.resolving, r.generation = UInt64.ofNat r.changes ∧ r.changes ≤ s.changes ∧
    (r.changes = s.changes → some r.resource = s.browser.resource)
  listing : ∀ l ∈ s.listing, l.generation = UInt64.ofNat l.changes ∧ l.changes ≤ s.changes ∧
    (l.changes = s.changes → l.resource = s.browser.resource ∧
      (s.entered = false → l.components = s.browser.currentComponents))

theorem eq_of_generation {changes : Nat} (hle : changes ≤ s.changes) (hfew : s.changes < 2 ^ 64)
    (h : UInt64.ofNat changes = UInt64.ofNat s.changes) : changes = s.changes := by
  have hnat := congrArg UInt64.toNat h
  rw [UInt64.toNat_ofNat', UInt64.toNat_ofNat'] at hnat
  omega

theorem dated_moved {browser : LocalFuseFilesController} (h : s.Dated)
    (hadvances : s.browser.Advances browser) : (s.moved browser).Dated := by
  rcases hadvances with ⟨hgeneration, hresource, hpath⟩ | ⟨hgeneration, hpath⟩
  · have hmoved : s.moved browser = { s with
        browser
        entered := s.entered || browser.currentComponents ≠ s.browser.currentComponents } :=
      if_pos hgeneration
    rw [hmoved]
    refine ⟨hgeneration.trans h.generation, ?_, ?_, ?_⟩
    · intro hsome
      rw [show s.rootOf = _ from h.root (hpath ▸ hsome)]
      exact hresource.symm
    · intro r hr
      obtain ⟨hr₁, hr₂, hr₃⟩ := h.resolving r hr
      exact ⟨hr₁, hr₂, fun heq => (hr₃ heq).trans hresource.symm⟩
    · intro l hl
      obtain ⟨hl₁, hl₂, hl₃⟩ := h.listing l hl
      refine ⟨hl₁, hl₂, fun heq => ?_⟩
      obtain ⟨hof, hfolder⟩ := hl₃ heq
      refine ⟨hof.trans hresource.symm, fun hentered => ?_⟩
      -- a listing of this count stands only while its folder has not been left
      obtain ⟨hno, hsame⟩ := Bool.or_eq_false_iff.mp hentered
      exact (hfolder hno).trans (not_not.mp (of_decide_eq_false hsame)).symm
  -- the counter wraps, but one step of it is always a new number
  · have hnew : browser.generation ≠ s.browser.generation := by
      rw [hgeneration]
      intro heq
      have hnat := congrArg UInt64.toNat heq
      rw [UInt64.toNat_add] at hnat
      have := s.browser.generation.toNat_lt
      have hone : (1 : UInt64).toNat = 1 := rfl
      omega
    have hmoved : s.moved browser =
      { s with browser, changes := s.changes + 1, entered := false } :=
      if_neg hnew
    rw [hmoved]
    refine ⟨?_, ?_, ?_, ?_⟩
    · show browser.generation = UInt64.ofNat (s.changes + 1)
      rw [hgeneration, h.generation, UInt64.ofNat_add]
      rfl
    · intro hsome
      rcases hpath with hnone | ⟨hresource, hpath⟩
      · rw [show browser.resourcePath = none from hnone] at hsome
        cases hsome
      · rw [show s.rootOf = _ from h.root (hpath ▸ hsome)]
        exact hresource.symm
    · intro r hr
      obtain ⟨hr₁, hr₂, -⟩ := h.resolving r hr
      exact ⟨hr₁, Nat.le_succ_of_le hr₂, fun heq =>
        absurd heq (Nat.ne_of_lt (Nat.lt_succ_of_le hr₂))⟩
    · intro l hl
      obtain ⟨hl₁, hl₂, -⟩ := h.listing l hl
      exact ⟨hl₁, Nat.le_succ_of_le hl₂, fun heq =>
        absurd heq (Nat.ne_of_lt (Nat.lt_succ_of_le hl₂))⟩

theorem changes_le_moved (browser : LocalFuseFilesController) :
    s.changes ≤ (s.moved browser).changes := by
  unfold moved
  split
  · exact le_rfl
  · exact Nat.le_succ _

theorem dated_beginResolve (h : s.Dated) (hstep : step lowercase s .beginResolve = some t) :
    t.Dated := by
  have hadvances : s.browser.Advances s.browser.beginResolve.2 :=
    LocalFuseFilesController.advances_after (by simp)
      (LocalFuseFilesController.effect_after : s.browser.Effect lowercase .beginResolve _)
  simp only [step] at hstep
  split at hstep
  · cases hstep
  · next generation resource browser hbegin =>
    cases hstep
    rw [hbegin] at hadvances
    obtain ⟨hgeneration, hresource⟩ := LocalFuseFilesController.beginResolve_eq_some hbegin
    have hmoved := dated_moved h hadvances
    refine ⟨hmoved.generation, hmoved.root, ?_, hmoved.listing⟩
    intro r hr
    rcases List.mem_append.mp hr with hr | hr
    · exact hmoved.resolving r hr
    · obtain rfl := List.mem_singleton.mp hr
      have hnow := hmoved.generation
      rw [moved_browser] at hnow
      refine ⟨hgeneration.trans hnow, le_rfl, fun _ => ?_⟩
      exact hresource.symm.trans (congrArg _ (moved_browser browser).symm)

theorem dated_beginList (h : s.Dated) (hstep : step lowercase s .beginList = some t) :
    t.Dated := by
  have hadvances : s.browser.Advances s.browser.beginList.2 :=
    LocalFuseFilesController.advances_after (by simp)
      (LocalFuseFilesController.effect_after : s.browser.Effect lowercase .beginList _)
  simp only [step] at hstep
  split at hstep
  · cases hstep
  · next generation root components browser hbegin =>
    cases hstep
    rw [hbegin] at hadvances
    obtain ⟨hgeneration, hroot, hresource, hcomponents⟩ :=
      LocalFuseFilesController.beginList_eq_some hbegin
    have hmoved := dated_moved h hadvances
    refine ⟨hmoved.generation, hmoved.root, hmoved.resolving, ?_⟩
    intro l hl
    rcases List.mem_append.mp hl with hl | hl
    · exact hmoved.listing l hl
    · obtain rfl := List.mem_singleton.mp hl
      have hnow := hmoved.generation
      rw [moved_browser] at hnow
      refine ⟨hgeneration.trans hnow, le_rfl, fun _ => ⟨?_, fun _ => ?_⟩⟩
      · exact (h.root hroot).trans
          (hresource.symm.trans (congrArg _ (moved_browser browser).symm))
      · exact hcomponents.trans (congrArg _ (moved_browser browser).symm)

theorem dated_resolved {i : Nat} {answer : Except (LocalFuseFilesState × String × String) Bytes}
    (h : s.Dated) (hfew : s.changes < 2 ^ 64)
    (hstep : step lowercase s (.resolved i answer) = some t) : t.Dated := by
  obtain ⟨r, hr, hend⟩ := Option.bind_eq_some_iff.mp hstep
  cases hend
  obtain ⟨hr₁, hr₂, hr₃⟩ := h.resolving r (List.mem_of_getElem? hr)
  by_cases hpath : ∃ root, answer = .ok root ∧ r.generation = s.browser.generation
  · -- the awaited path: it is of the resource that is shown
    obtain ⟨root, rfl, hcurrent⟩ := hpath
    have hresource := hr₃ (eq_of_generation hr₂ hfew
      (hr₁.symm.trans (hcurrent.trans h.generation)))
    have hafter : s.browser.after lowercase (r.ends (.ok root)) =
        { s.browser with resourcePath := some root, state := .loading } :=
      congrArg Prod.snd (if_neg (not_not_intro hcurrent))
    have hmoved : s.moved (s.browser.after lowercase (r.ends (.ok root))) = { s with
        browser := { s.browser with resourcePath := some root, state := .loading } } := by
      rw [hafter]
      exact moved_of_same rfl rfl
    rw [if_pos ⟨rfl, hcurrent⟩, hmoved]
    exact ⟨h.generation, fun _ => hresource,
      fun r' hr' => h.resolving r' (List.mem_of_mem_eraseIdx hr'), h.listing⟩
  · have hadvances : s.browser.Advances (s.browser.after lowercase (r.ends answer)) := by
      cases answer with
      | error e =>
        have heffect : s.browser.Effect lowercase (r.ends (.error e)) _ :=
          LocalFuseFilesController.effect_after
        exact LocalFuseFilesController.advances_after (by simp [Resolving.ends]) heffect
      | ok root =>
        -- a path that is late or failed leaves the resource's own path alone
        have hstale : r.generation ≠ s.browser.generation :=
          fun heq => hpath ⟨root, rfl, heq⟩
        have hsame : s.browser.after lowercase (r.ends (.ok root)) = s.browser :=
          congrArg Prod.snd (if_pos hstale)
        rw [hsame]
        exact .inl ⟨rfl, rfl, rfl⟩
    have hmoved := dated_moved h hadvances
    refine ⟨hmoved.generation, ?_, ?_, hmoved.listing⟩
    · have hkept : (if answer.isOk ∧ r.generation = s.browser.generation then some r.resource
          else s.rootOf) = s.rootOf := by
        refine if_neg fun ⟨hok, hcurrent⟩ => hpath ?_
        obtain ⟨root, rfl⟩ := Result.exists_ok_of_isOk hok
        exact ⟨root, rfl, hcurrent⟩
      intro hsome
      exact hkept.trans ((moved_rootOf _).symm.trans (hmoved.root hsome))
    · intro r' hr'
      exact hmoved.resolving r' (by rw [moved_resolving]; exact List.mem_of_mem_eraseIdx hr')

/-- The count stands for the generation as long as it is small: before `2 ^ 64` changes. -/
theorem dated_step (h : s.Dated) (hfew : s.changes < 2 ^ 64)
    (hstep : step lowercase s a = some t) : t.Dated := by
  cases a with
  | call call =>
    simp only [step] at hstep
    split at hstep
    · next hatOnce =>
      cases hstep
      refine dated_moved h (LocalFuseFilesController.advances_after ?_
        LocalFuseFilesController.effect_after)
      rintro generation root rfl
      cases hatOnce
    · cases hstep
  | beginResolve => exact dated_beginResolve h hstep
  | beginList => exact dated_beginList h hstep
  | resolved i answer => exact dated_resolved h hfew hstep
  | listed i answer =>
    obtain ⟨l, hl, hend⟩ := Option.bind_eq_some_iff.mp hstep
    cases hend
    have heffect : s.browser.Effect lowercase (l.ends answer) _ :=
      LocalFuseFilesController.effect_after
    have hmoved := dated_moved h (LocalFuseFilesController.advances_after
      (by unfold Listing.ends; split <;> simp) heffect)
    refine ⟨hmoved.generation, hmoved.root, ?_, ?_⟩
    · exact hmoved.resolving
    · intro l' hl'
      exact hmoved.listing l' (by rw [moved_listing]; exact List.mem_of_mem_eraseIdx hl')

theorem changes_le_step (hstep : step lowercase s a = some t) : s.changes ≤ t.changes := by
  cases a with
  | call call =>
    simp only [step] at hstep
    split at hstep
    · cases hstep
      exact changes_le_moved _
    · cases hstep
  | beginResolve | beginList =>
    simp only [step] at hstep
    split at hstep
    · cases hstep
    · cases hstep
      exact changes_le_moved _
  | resolved i answer =>
    obtain ⟨r, -, hend⟩ := Option.bind_eq_some_iff.mp hstep
    cases hend
    exact changes_le_moved _
  | listed i answer =>
    obtain ⟨l, -, hend⟩ := Option.bind_eq_some_iff.mp hstep
    cases hend
    exact changes_le_moved _

/-- **What can arrive from elsewhere**: before the generation has changed `2 ^ 64` times, a
listing that is still awaited is of the shown resource, and also of the shown folder unless
that was changed since the listing began. -/
theorem awaited_in_place (h : (machine lowercase).Reach (fun _ _ => True) s)
    (hfew : s.changes < 2 ^ 64) (hl : l ∈ s.listing)
    (hawaited : l.generation = s.browser.generation) : l.resource = s.browser.resource ∧
      (s.entered = false → l.components = s.browser.currentComponents) := by
  have hdated : s.changes < 2 ^ 64 → s.Dated := by
    refine Machine.Reach.invariant (M := machine lowercase)
      (I := fun s => s.changes < 2 ^ 64 → s.Dated) ?_ ?_ h
    · rintro s rfl -
      exact ⟨rfl, by simp, by simp, by simp⟩
    · intro s a t hdated _ hstep hfew
      have hbefore := Nat.lt_of_le_of_lt (changes_le_step hstep) hfew
      exact dated_step (hdated hbefore) hbefore hstep
  obtain ⟨hl₁, hl₂, hl₃⟩ := (hdated hfew).listing l hl
  exact hl₃ (eq_of_generation hl₂ hfew
    (hl₁.symm.trans (hawaited.trans (hdated hfew).generation)))

theorem root_in_place : ∃ s,
    (machine id).exec {} [.call (.selectResource (.volume "data")), .beginResolve,
      .resolved 0 (.ok (ascii "/mnt/volumes/data")), .beginList] = some s ∧
    ∃ l ∈ s.listing, l.resource = s.browser.resource ∧
      (s.entered = false → l.components = s.browser.currentComponents) := by
  have hrun : ∃ s ∈ (machine id).exec {} [.call (.selectResource (.volume "data")), .beginResolve,
      .resolved 0 (.ok (ascii "/mnt/volumes/data")), .beginList],
      s.changes < 2 ^ 64 ∧ ∃ l ∈ s.listing, l.generation = s.browser.generation := by
    decide +kernel
  obtain ⟨s, hs, hfew, l, hl, hawaited⟩ := hrun
  exact ⟨s, hs, l, hl, awaited_in_place (Machine.reach_of_run rfl hs) hfew hl hawaited⟩

def etcFolder : Except IoError (List (Except IoError DirectoryItem)) :=
  .ok [.ok ⟨ascii "etc", .ok ⟨.directory, 0, 0, 493, 0, 0, none⟩⟩]

/-- `/` is read again, and the user enters `/etc` meanwhile: the list of `/` arrives before
the daemon has answered about `/etc`. -/
def enteredTooEarly : List BrowserStep :=
  [.call (.selectResource (.volume "data")), .beginResolve,
    .resolved 0 (.ok (ascii "/mnt/volumes/data")), .beginList, .listed 0 etcFolder,
    .beginResolve, .resolved 0 (.ok (ascii "/mnt/volumes/data")), .beginList,
    .call (.navigateToToken (ascii "/%65%74%63") true), .listed 0 etcFolder]

/-- The entries of `/` are shown as those of `/etc`. -/
theorem parent_listed_as_child :
    ∃ s, (machine id).exec {} enteredTooEarly = some s ∧ ¬ s.EntriesShown := by
  have hrun : ∃ s ∈ (machine id).exec {} enteredTooEarly,
      s.browser.entries.any (fun entry =>
        entry.pathComponents.dropLast ≠ s.browser.currentComponents) = true := by
    decide +kernel
  obtain ⟨s, hs, helsewhere⟩ := hrun
  refine ⟨s, Option.mem_def.mp hs, fun hshown => ?_⟩
  obtain ⟨entry, hentry, hne⟩ := List.any_eq_true.mp helsewhere
  obtain ⟨-, name, hname⟩ := hshown entry hentry
  rw [hname, List.dropLast_concat] at hne
  simp at hne

end BrowserSystem

end TuxStack.Gui
