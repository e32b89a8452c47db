import TuxStack.FsHelper.Token
import TuxStack.Lib.FileTree
import TuxStack.Lib.SortedKeys

/-!
# The helper's `list` and `stat`

`crates/tuxstack-fs-helper/src/list.rs`, `stat.rs` and `metadata.rs`: what the two commands
write to stdout over a tree of files. Messages for humans are left out, an error is its code.

`list` reads a directory and asks for the metadata of each name in it; `stat` asks for the
metadata of one path. Both answer the same for the same file (`list_agrees_with_stat`), but
for the names that `list` hides in the browse root (`hidden_in_a_volume`).
-/

namespace TuxStack.FsHelper

open Vfs Files SortedKeys Result

inductive HelperFileType where
  | directory
  | file
  | symlink
  | socket
  | fifo
  | blockDevice
  | characterDevice
  | unknown
deriving DecidableEq

inductive HelperErrorCode where
  | invalidArgs
  | invalidToken
  | pathEscapeRejected
  | notFound
  | notDirectory
  | isDirectory
  | permissionDenied
  | symlinkLoop
  | unsupportedFileType
  | io
deriving DecidableEq

structure MessageFields where
  fileType : HelperFileType
  size : Option Nat
  mtime : Option Int
  mode : Option Nat
  uid : Option Nat
  gid : Option Nat
  symlinkTargetB64 : Option Bytes
  readable : Bool
deriving DecidableEq

/-- The messages of `list`, `stat` and `preview`. -/
inductive HelperMessage where
  | entry (nameB64 pathToken : Bytes) (fields : MessageFields)
  | stat (pathToken : Bytes) (fields : MessageFields)
  | previewChunk (dataB64 : Bytes) (offset : Nat) (eof truncated : Bool)
  | finish (truncated : Bool) (nextCursor : Option Bytes)
  | error (code : HelperErrorCode)
deriving DecidableEq

structure Flags where
  root : Bytes
  token : Bytes
  showHidden : Bool
  limit : Option Nat
  cursor : Option Bytes

/-- `HelperError::from_io`: what has no code of its own is `Io`. -/
def fromIo : IoError → HelperErrorCode
  | .notFound => .notFound
  | .notDirectory => .notDirectory
  | .loop => .io
  | .notLink => .io

def liftIo {α : Type} (x : Except IoError α) : Except HelperErrorCode α := x.mapError fromIo

def liftToken {α : Type} (x : Except Bytes α) : Except HelperErrorCode α :=
  x.mapError fun _ => .invalidToken

/-! ## Paths and tokens -/

/-- `resolve_token`: the root, a slash if it has none at its end, and the decoded token. -/
def resolveToken (root token : Bytes) : Except HelperErrorCode Bytes := do
  let relative ← liftToken (decodeRelative token)
  .ok (if relative = [] then root
    else if root.getLast? = some slash then root ++ relative else root ++ slash :: relative)

def childToken (parentRelative name : Bytes) : Except HelperErrorCode Bytes :=
  liftToken (encodeRelative
    (if parentRelative = [] then name else parentRelative ++ slash :: name))

/-! ## Metadata -/

def fileTypeOf : FileKind → HelperFileType
  | .directory => .directory
  | .regular _ => .file
  | .symlink _ => .symlink
  | .socket => .socket
  | .fifo => .fifo
  | .blockDevice => .blockDevice
  | .characterDevice => .characterDevice
  | .other => .unknown

/-- `is_readable`: some read bit is set. -/
def isReadable (node : FileNode) : Bool := node.mode &&& 0o444 ≠ 0

/-- `message_fields`; the target of a link is read from the path once more. -/
def messageFields (t : FileTree) (path : Bytes) (node : FileNode) :
    Except HelperErrorCode MessageFields := do
  let fileType := fileTypeOf node.kind
  let size := if fileType = .directory then none else some node.size
  let target ←
    if fileType = .symlink then do
      let target ← liftIo (t.readLink path)
      .ok (some (encodeBase64 target))
    else .ok none
  .ok
    { fileType := fileType
      size := size
      mtime := some node.mtime
      mode := some (node.mode &&& 0o7777)
      uid := some node.uid
      gid := some node.gid
      symlinkTargetB64 := target
      readable := isReadable node }

def entryMessage (t : FileTree) (path nameRaw parentRelative : Bytes) (node : FileNode) :
    Except HelperErrorCode HelperMessage := do
  let fields ← messageFields t path node
  let token ← childToken parentRelative nameRaw
  .ok (.entry (encodeBase64 nameRaw) token fields)

/-! ## `list` -/

def runtimeRootDirs : List Bytes := [ascii "proc", ascii "sys", ascii "dev", ascii "run"]

def helperRootName : Bytes := ascii ".tuxstack"

def hiddenInRoot (name : Bytes) : Bool := name ∈ runtimeRootDirs || name = helperRootName

def keepsName (flags : Flags) (isBrowseRoot : Bool) (cursor : Option Bytes) (name : Bytes) :
    Bool :=
  !(name = [dot] || name = [dot, dot]) && !(isBrowseRoot && hiddenInRoot name) &&
    (flags.showHidden || name.head? ≠ some dot) &&
    match cursor with
    | none => true
    | some cursor => !(compare name cursor).isLE

/-- The names of a page and the cursor for the next, from all names in order. The name of the
cursor is the last of the page; there is none, and the command panics, when the page is empty. -/
def pageOf (limit : Option Nat) (names : List Bytes) :
    Option (List Bytes × Bool × Option Bytes) :=
  let pageLimit := match limit with
    | none => names.length
    | some limit => min limit names.length
  let page := names.take pageLimit
  if names.length > pageLimit then
    page.getLast?.map fun last => (page, true, some (encodeBase64 last))
  else some (page, false, none)

def pageMessage (t : FileTree) (dir relative name : Bytes) :
    Except HelperErrorCode HelperMessage := do
  let full := FileTree.join dir name
  let node ← liftIo (t.symlinkMetadata full)
  entryMessage t full name relative node

def emitPage (t : FileTree) (dir relative : Bytes) :
    List Bytes → List HelperMessage × Option HelperErrorCode
  | [] => ([], none)
  | name :: page =>
    match pageMessage t dir relative name with
    | .error code => ([], some code)
    | .ok message =>
      let out := emitPage t dir relative page
      (message :: out.1, out.2)

/-- What `run` of `list.rs` does before it emits: the directory, the relative path and the
names that are left, in order. -/
def listedNames (t : FileTree) (flags : Flags) :
    Except HelperErrorCode (Bytes × Bytes × List Bytes) := do
  let dir ← resolveToken flags.root flags.token
  let relative ← liftToken (decodeRelative flags.token)
  let node ← liftIo (t.metadata dir)
  if node.kind ≠ .directory then .error .notDirectory
  else do
    let names ← liftIo (t.readDir dir)
    let cursor ← match flags.cursor with
      | none => .ok none
      | some cursor => liftToken ((decodeBase64 cursor).map some)
    .ok (dir, relative, sortByKey id (names.filter (keepsName flags (relative = []) cursor)))

/-- The lines of the `list` command, if it does not panic. -/
def list (t : FileTree) (flags : Flags) : Option (List HelperMessage) :=
  match listedNames t flags with
  | .error code => some [.error code]
  | .ok (dir, relative, names) =>
    (pageOf flags.limit names).map fun (page, truncated, nextCursor) =>
      match emitPage t dir relative page with
      | (messages, some code) => messages ++ [.error code]
      | (messages, none) => messages ++ [.finish truncated nextCursor]

/-! ## `stat` -/

/-- The lines of the `stat` command. -/
def statMessage (t : FileTree) (flags : Flags) : Except HelperErrorCode HelperMessage := do
  let path ← resolveToken flags.root flags.token
  let node ← liftIo (t.symlinkMetadata path)
  let fields ← messageFields t path node
  .ok (.stat flags.token fields)

def stat (t : FileTree) (flags : Flags) : List HelperMessage :=
  match statMessage t flags with
  | .error code => [.error code]
  | .ok message => [message]

/-! ## One file, two ways to it -/

theorem liftToken_eq_ok {α : Type} {x : Except Bytes α} {a : α} :
    liftToken x = .ok a ↔ x = .ok a := by
  cases x with
  | error message => exact ⟨nofun, nofun⟩
  | ok b => exact ⟨fun h => by cases h; rfl, fun h => by cases h; rfl⟩

theorem liftIo_eq_ok {α : Type} {x : Except IoError α} {a : α} : liftIo x = .ok a ↔ x = .ok a := by
  cases x with
  | error error => exact ⟨nofun, nofun⟩
  | ok b => exact ⟨fun h => by cases h; rfl, fun h => by cases h; rfl⟩

theorem join_eq (path name : Bytes) : FileTree.join path name =
    if path = [] ∨ path.getLast? = some slash then path ++ name else path ++ slash :: name :=
  rfl

section Child

variable {root token dir relative name : Bytes} (hdir : resolveToken root token = .ok dir)
  (hrelative : decodeRelative token = .ok relative) (hname : name ≠ []) (hslash : slash ∉ name)

include hrelative hname hslash in
theorem childToken_isOk : (∃ childTok, childToken relative name = .ok childTok) ↔
    ValidName name := by
  have hvalid := validateRelative_child (decodeRelative_valid hrelative) hslash
  have htoken : (∃ childTok, childToken relative name = .ok childTok) ↔
      validateRelative (if relative = [] then name else relative ++ slash :: name) = .ok () := by
    unfold childToken encodeRelative
    constructor
    · rintro ⟨childTok, h⟩
      obtain ⟨⟨⟩, h, -⟩ := bind_eq_ok.mp (liftToken_eq_ok.mp h)
      exact h
    · intro h
      exact ⟨_, liftToken_eq_ok.mpr (bind_eq_ok.mpr ⟨(), h, rfl⟩)⟩
  rw [htoken, hvalid]
  constructor
  · rintro (⟨-, hempty⟩ | ⟨hnul, hparent, hself, hempty⟩)
    · exact absurd hempty hname
    · exact ⟨hempty, hslash, hnul, hself, hparent⟩
  · intro h
    exact .inr ⟨h.noNul, h.notParent, h.notSelf, h.nonempty⟩

include hdir hrelative hname in
/-- **The path of a child's token** is the name joined to the directory's path. -/
theorem resolveToken_child (hne : dir ≠ []) {childTok : Bytes}
    (hchild : childToken relative name = .ok childTok) :
    resolveToken root childTok = .ok (FileTree.join dir name) := by
  obtain ⟨relative', hrelative', hdir⟩ := bind_eq_ok.mp hdir
  cases hrelative.symm.trans (liftToken_eq_ok.mp hrelative')
  have hdecoded := decodeRelative_encode (liftToken_eq_ok.mp hchild)
  refine bind_eq_ok.mpr ⟨_, liftToken_eq_ok.mpr hdecoded, ?_⟩
  cases hdir
  by_cases hroot : relative = []
  · rw [if_pos hroot] at hne ⊢
    rw [if_pos hroot, if_neg hname, join_eq]
    by_cases hlast : root.getLast? = some slash
    · rw [if_pos hlast, if_pos (.inr hlast)]
    · rw [if_neg hlast, if_neg (not_or.mpr ⟨hne, hlast⟩)]
  · have hend := getLast_of_valid (decodeRelative_valid hrelative)
    rw [if_neg hroot] at hne ⊢
    rw [if_neg hroot, if_neg (by simp), join_eq]
    by_cases hlast : root.getLast? = some slash
    · have hopen : ¬ (root ++ relative = [] ∨ (root ++ relative).getLast? = some slash) := by
        rw [List.getLast?_append_of_ne_nil _ hroot]
        exact not_or.mpr ⟨by simp [hroot], hend⟩
      rw [if_pos hlast, if_pos hlast, if_neg hopen, List.append_assoc]
    · have hopen : ¬ (root ++ slash :: relative = [] ∨
          (root ++ slash :: relative).getLast? = some slash) := by
        rw [List.getLast?_append_of_ne_nil _ (by simp), List.getLast?_cons_of_ne_nil hroot]
        exact not_or.mpr ⟨by simp, hend⟩
      rw [if_neg hlast, if_neg hlast, if_neg hopen, List.append_assoc]
      rfl

end Child

theorem messageFields_isOk {t : FileTree} {path : Bytes} {node : FileNode}
    (h : t.symlinkMetadata path = .ok node) : ∃ fields, messageFields t path node = .ok fields := by
  unfold messageFields
  dsimp only
  split
  · next hlink =>
    obtain ⟨target, htarget⟩ : ∃ target, t.readLink path = .ok target := by
      unfold FileTree.readLink
      rw [h]
      cases hkind : node.kind with
      | symlink target => exact ⟨target, by simp [Except.bind, hkind]⟩
      | directory | regular | socket | fifo | blockDevice | characterDevice | other =>
        rw [hkind] at hlink
        cases hlink
    rw [htarget]
    exact ⟨_, rfl⟩
  · exact ⟨_, rfl⟩

theorem stat_eq_iff {t : FileTree} {flags : Flags} {token : Bytes} {fields : MessageFields} :
    stat t flags = [.stat token fields] ↔ statMessage t flags = .ok (.stat token fields) := by
  unfold stat
  constructor
  · intro h
    split at h
    · cases h
    · next hmessage =>
      cases h
      exact hmessage
  · intro h
    rw [h]

theorem emitPage_ok (t : FileTree) (dir relative : Bytes) {page : List Bytes}
    {P : Bytes × Bytes × MessageFields → Prop}
    (h : ∀ name ∈ page, ∃ token fields, P (name, token, fields) ∧
      pageMessage t dir relative name = .ok (.entry (encodeBase64 name) token fields)) :
    ∃ entries : List (Bytes × Bytes × MessageFields),
      emitPage t dir relative page =
        (entries.map fun e => .entry (encodeBase64 e.1) e.2.1 e.2.2, none) ∧
      entries.map Prod.fst = page ∧ ∀ e ∈ entries, P e := by
  induction page with
  | nil => exact ⟨[], rfl, rfl, fun e he => nomatch he⟩
  | cons name page ih =>
    obtain ⟨entries, hemit, hnames, hall⟩ := ih fun n hn => h n (List.mem_cons_of_mem _ hn)
    obtain ⟨token, fields, hp, hmessage⟩ := h name List.mem_cons_self
    refine ⟨(name, token, fields) :: entries, ?_, by rw [List.map_cons, hnames], ?_⟩
    · rw [emitPage, hmessage, hemit]
      rfl
    · rintro e (_ | ⟨_, he⟩)
      · exact hp
      · exact hall e he

section Directory

variable {t : FileTree} {root token dir relative : Bytes} {place : List Name} {node : FileNode}
  (hdir : resolveToken root token = .ok dir) (hrelative : decodeRelative token = .ok relative)
  (hresolve : t.resolve true dir = .ok place) (hnode : t.node place = some node)
  (hkind : node.kind = .directory)

include hdir hrelative hresolve hnode hkind

/-- **What `stat` says about a child**: its metadata, when it is in the directory. -/
theorem stat_child {name childTok : Bytes} {fields : MessageFields} (hname : name ≠ [])
    (hslash : slash ∉ name) (hchild : childToken relative name = .ok childTok) (flags : Flags) :
    stat t { flags with root := root, token := childTok } = [.stat childTok fields] ↔
      ∃ child, t.node (place ++ [name]) = some child ∧
        messageFields t (FileTree.join dir name) child = .ok fields := by
  have hne : dir ≠ [] := by
    rintro rfl
    cases hresolve
  have hvalid := (childToken_isOk hrelative hname hslash).mp ⟨childTok, hchild⟩
  have hpath := resolveToken_child hdir hrelative hname hne hchild
  have hmetadata := FileTree.symlinkMetadata_join hresolve hnode hkind hvalid
  rw [stat_eq_iff]
  constructor
  · intro h
    obtain ⟨path, hpath', h⟩ := bind_eq_ok.mp h
    cases hpath.symm.trans hpath'
    obtain ⟨child, hchild, h⟩ := bind_eq_ok.mp h
    obtain ⟨fields', hfields, h⟩ := bind_eq_ok.mp h
    cases h
    rw [liftIo_eq_ok, hmetadata, FileTree.nodeAt] at hchild
    split at hchild
    · cases hchild
    · next hsome =>
      cases hchild
      exact ⟨child, hsome, hfields⟩
  · rintro ⟨child, hsome, hfields⟩
    refine bind_eq_ok.mpr ⟨_, hpath, bind_eq_ok.mpr ⟨child, ?_, bind_eq_ok.mpr ⟨_, hfields, rfl⟩⟩⟩
    rw [liftIo_eq_ok, hmetadata, FileTree.nodeAt, hsome]

/-- What `list` says about a name in the directory, `stat` says too. -/
theorem pageMessage_child {name : Bytes} (hmem : name ∈ t.names place) (flags : Flags) :
    ∃ childTok fields, childToken relative name = .ok childTok ∧
      stat t { flags with root := root, token := childTok } = [.stat childTok fields] ∧
      pageMessage t dir relative name = .ok (.entry (encodeBase64 name) childTok fields) := by
  have hvalid := FileTree.validName_of_mem_names hmem
  obtain ⟨child, hchild⟩ := FileTree.mem_names.mp hmem
  obtain ⟨childTok, htoken⟩ :=
    (childToken_isOk hrelative hvalid.nonempty hvalid.noSeparator).mpr hvalid
  have hmetadata : t.symlinkMetadata (FileTree.join dir name) = .ok child := by
    rw [FileTree.symlinkMetadata_join hresolve hnode hkind hvalid, FileTree.nodeAt, hchild]
  obtain ⟨fields, hfields⟩ := messageFields_isOk hmetadata
  refine ⟨childTok, fields, htoken, ?_, ?_⟩
  · exact (stat_child hdir hrelative hresolve hnode hkind hvalid.nonempty hvalid.noSeparator htoken
      flags).mpr ⟨child, hchild, hfields⟩
  · exact bind_eq_ok.mpr ⟨child, liftIo_eq_ok.mpr hmetadata,
      bind_eq_ok.mpr ⟨fields, hfields, bind_eq_ok.mpr ⟨childTok, htoken, rfl⟩⟩⟩

end Directory

/-! ## The agreement -/

theorem keepsName_all {flags : Flags} {isBrowseRoot : Bool} {name : Bytes} (hvalid : ValidName name)
    (hhidden : flags.showHidden = true) : keepsName flags isBrowseRoot none name =
      !(isBrowseRoot && hiddenInRoot name) := by
  have hself : name ≠ [dot] := hvalid.notSelf
  have hparent : name ≠ [dot, dot] := hvalid.notParent
  unfold keepsName
  simp [hself, hparent, hhidden]

/-- **List and stat agree.** With hidden files shown and no limit, `list` of a directory sends
valid names in strict byte order, and a name, a token and metadata are sent together exactly if
the token is that of the name below the directory and `stat` answers it with this metadata;
names that are hidden in a browse root are left out of this there, and below the root of the
container they are not sent. -/
theorem list_agrees_with_stat {t : FileTree} {flags : Flags} {dir relative : Bytes}
    {node : FileNode} (hhidden : flags.showHidden = true) (hlimit : flags.limit = none)
    (hcursor : flags.cursor = none) (hdir : resolveToken flags.root flags.token = .ok dir)
    (hrelative : decodeRelative flags.token = .ok relative) (hnode : t.metadata dir = .ok node)
    (hkind : node.kind = .directory) :
    ∃ entries : List (Bytes × Bytes × MessageFields),
      list t flags = some ((entries.map fun e => .entry (encodeBase64 e.1) e.2.1 e.2.2) ++
        [.finish false none]) ∧
      (entries.Pairwise fun a b => compare a.1 b.1 = .lt) ∧
      (∀ e ∈ entries, ValidName e.1) ∧
      (∀ name childTok fields, name ≠ [] → slash ∉ name →
        ¬ (relative = [] ∧ hiddenInRoot name = true) →
        ((name, childTok, fields) ∈ entries ↔ childToken relative name = .ok childTok ∧
          stat t { flags with token := childTok } = [.stat childTok fields])) ∧
      (relative = [] → flags.root = [slash] → ∀ e ∈ entries, hiddenInRoot e.1 = false) := by
  obtain ⟨place, hresolve, hplace⟩ := FileTree.metadata_eq_ok.mp hnode
  let names := sortByKey id ((t.names place).filter (keepsName flags (relative = []) none))
  have hnames : ∀ {name}, name ∈ names ↔ name ∈ t.names place ∧
      ¬ (relative = [] ∧ hiddenInRoot name = true) := by
    intro name
    rw [(perm_sortByKey id _).mem_iff, List.mem_filter]
    refine and_congr_right fun hmem => ?_
    rw [keepsName_all (FileTree.validName_of_mem_names hmem) hhidden]
    simp [imp_iff_not_or]
  have hlisted : listedNames t flags = .ok (dir, relative, names) := by
    unfold listedNames
    refine bind_eq_ok.mpr ⟨dir, hdir, bind_eq_ok.mpr ⟨relative, liftToken_eq_ok.mpr hrelative,
      bind_eq_ok.mpr ⟨node, liftIo_eq_ok.mpr hnode, ?_⟩⟩⟩
    rw [if_neg (not_not.mpr hkind)]
    refine bind_eq_ok.mpr ⟨t.names place, ?_, ?_⟩
    · exact liftIo_eq_ok.mpr (FileTree.readDir_directory hresolve hplace hkind)
    · rw [hcursor]
      rfl
  have hmessages : ∀ name ∈ names, ∃ childTok fields,
      (name ∈ names ∧ childToken relative name = .ok childTok ∧
        stat t { flags with token := childTok } = [.stat childTok fields]) ∧
      pageMessage t dir relative name = .ok (.entry (encodeBase64 name) childTok fields) := by
    intro name hname
    obtain ⟨childTok, fields, htoken, hstat, hmessage⟩ :=
      pageMessage_child hdir hrelative hresolve hplace hkind (hnames.mp hname).1 flags
    exact ⟨childTok, fields, ⟨hname, htoken, hstat⟩, hmessage⟩
  -- without a limit the one page emits a message for every name
  obtain ⟨entries, hemit, hfirst, hall⟩ := emitPage_ok t dir relative
    (P := fun e => e.1 ∈ names ∧ childToken relative e.1 = .ok e.2.1 ∧
      stat t { flags with token := e.2.1 } = [.stat e.2.1 e.2.2]) hmessages
  refine ⟨entries, ?_, ?_, ?_, ?_, ?_⟩
  · unfold list
    rw [hlisted]
    simp [pageOf, hlimit, hemit]
  · have hsorted : names.Pairwise fun a b => compare a b = .lt := by
      refine pairwise_lt_sortByKey id ?_
      rw [List.map_id]
      exact (FileTree.nodup_names place).filter _
    rw [← hfirst, List.pairwise_map] at hsorted
    exact hsorted
  · intro e he
    exact FileTree.validName_of_mem_names (hnames.mp (hall e he).1).1
  · intro name childTok fields hne hslash hshown
    constructor
    · intro hmem
      exact (hall _ hmem).2
    · rintro ⟨htoken, hstat⟩
      obtain ⟨child, hchild, -⟩ := (stat_child hdir hrelative hresolve hplace hkind hne hslash
        htoken flags).mp hstat
      have hname : name ∈ names := hnames.mpr ⟨FileTree.mem_names.mpr ⟨child, hchild⟩, hshown⟩
      rw [← hfirst] at hname
      obtain ⟨⟨name', childTok', fields'⟩, he, hsame⟩ := List.mem_map.mp hname
      obtain ⟨-, htoken', hstat'⟩ := hall _ he
      cases hsame
      cases htoken.symm.trans htoken'
      cases hstat.symm.trans hstat'
      exact he
  · intro hroot _ e he
    have hshown := (hnames.mp (hall e he).1).2
    simpa [hroot] using hshown

/-! ## A volume with a directory `run` -/

def directoryNode : FileNode := ⟨.directory, 0, 0o755, 0, 0⟩

/-- The helper's file system with a volume at `/mnt/data`. -/
def volumeTree : FileTree where
  entries :=
    [([], directoryNode), ([ascii "mnt"], directoryNode),
      ([ascii "mnt", ascii "data"], directoryNode),
      ([ascii "mnt", ascii "data", ascii "run"], directoryNode),
      ([ascii "mnt", ascii "data", ascii "app.log"], ⟨.regular (ascii "hi"), 7, 0o644, 0, 0⟩)]
  nodup := by decide +kernel
  rooted := by decide +kernel
  placed := by decide +kernel

def volumeFlags : Flags := ⟨ascii "/mnt/data", ascii "v1:", true, none, none⟩

def logFields : MessageFields :=
  ⟨.file, some 2, some 7, some 0o644, some 0, some 0, none, true⟩

def runFields : MessageFields :=
  ⟨.directory, none, some 0, some 0o755, some 0, some 0, none, true⟩

theorem volume_is_directory : resolveToken volumeFlags.root volumeFlags.token =
      .ok (ascii "/mnt/data") ∧
    decodeRelative volumeFlags.token = .ok [] ∧
    volumeTree.metadata (ascii "/mnt/data") = .ok directoryNode := by
  decide +kernel

/-- A container with a directory `run`, and its root. -/
def containerTree : FileTree where
  entries :=
    [([], directoryNode), ([ascii "run"], directoryNode),
      ([ascii "app.log"], ⟨.regular (ascii "hi"), 7, 0o644, 0, 0⟩)]
  nodup := by decide +kernel
  rooted := by decide +kernel
  placed := by decide +kernel

def containerFlags : Flags := { volumeFlags with root := ascii "/" }

/-- A directory is listed without `run`, which `stat` finds in it. -/
def HidesRun (t : FileTree) (flags : Flags) (dir : Bytes) : Prop :=
  resolveToken flags.root flags.token = .ok dir ∧ t.metadata dir = .ok directoryNode ∧
    (∃ lines, list t flags = some lines ∧ ∀ childTok fields,
      .entry (encodeBase64 (ascii "run")) childTok fields ∉ lines) ∧
    ∃ childTok, childToken [] (ascii "run") = .ok childTok ∧
      stat t { flags with token := childTok } = [.stat childTok runFields]

theorem hidesRun_of_list {t : FileTree} {flags : Flags} {dir : Bytes}
    (hdir : resolveToken flags.root flags.token = .ok dir)
    (hnode : t.metadata dir = .ok directoryNode)
    (hlist : list t flags =
      some [.entry (encodeBase64 (ascii "app.log")) (ascii "v1:YXBwLmxvZw==") logFields,
        .finish false none])
    (hstat : stat t { flags with token := ascii "v1:cnVu" } = [.stat (ascii "v1:cnVu") runFields]) :
    HidesRun t flags dir := by
  have hname : encodeBase64 (ascii "run") ≠ encodeBase64 (ascii "app.log") := by decide +kernel
  have htoken : childToken [] (ascii "run") = .ok (ascii "v1:cnVu") := by decide +kernel
  refine ⟨hdir, hnode, ⟨_, hlist, ?_⟩, ascii "v1:cnVu", htoken, hstat⟩
  intro childTok fields hmem
  rcases List.mem_cons.mp hmem with hentry | hmem
  · exact hname (HelperMessage.entry.inj hentry).1
  · cases List.mem_singleton.mp hmem

/-- **A hidden directory**: the listing of the root of a container does not send `run`, and
`stat` finds it there; the same happens in the root of a volume. -/
theorem run_hidden :
    HidesRun containerTree containerFlags (ascii "/") ∧
      HidesRun volumeTree volumeFlags (ascii "/mnt/data") := by
  constructor
  · exact hidesRun_of_list (by decide +kernel) (by decide +kernel) (by decide +kernel)
      (by decide +kernel)
  · exact hidesRun_of_list volume_is_directory.1 volume_is_directory.2.2 (by decide +kernel)
      (by decide +kernel)

/-- The log file of the volume is listed as it is found by `stat`. -/
theorem volume_log_agrees : ∃ entries : List (Bytes × Bytes × MessageFields),
    list volumeTree volumeFlags = some ((entries.map fun e =>
      .entry (encodeBase64 e.1) e.2.1 e.2.2) ++ [.finish false none]) ∧
    (ascii "app.log", ascii "v1:YXBwLmxvZw==", logFields) ∈ entries := by
  obtain ⟨hdir, hrelative, hnode⟩ := volume_is_directory
  obtain ⟨entries, hlist, -, -, hagree, -⟩ :=
    @list_agrees_with_stat volumeTree volumeFlags _ _ _ rfl rfl rfl hdir hrelative hnode rfl
  refine ⟨entries, hlist, (hagree _ _ _ ?_ ?_ ?_).mpr ?_⟩
  · decide
  · decide
  · rintro ⟨-, hhidden⟩
    cases hhidden
  · decide +kernel

end TuxStack.FsHelper
