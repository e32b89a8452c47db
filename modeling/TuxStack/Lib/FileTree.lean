import Mathlib.Data.List.Induction
import Mathlib.Data.List.Nodup

/-!
# File trees and path resolution

A finite tree of files, and how a POSIX kernel resolves a path in it: symbolic links are
followed wherever they stand in the path, the last one on request only, `..` is taken after
what comes before it is resolved, and a path that leads through more than 40 links is an
error. Permissions and limits on the length of a path are left out, and relative paths start
at the root.

`resolve_join` is the rule for a path with one more name: its directory is resolved first,
links included, and the name is looked up there.
-/

namespace TuxStack.Files

abbrev Name := List UInt8

/-- `/` -/
def separator : UInt8 := 47

/-- What a directory can have as a name. -/
structure ValidName (name : Name) : Prop where
  nonempty : name ≠ []
  noSeparator : separator ∉ name
  noNul : 0 ∉ name
  notSelf : name ≠ [46]
  notParent : name ≠ [46, 46]

instance (name : Name) : Decidable (ValidName name) :=
  decidable_of_iff (name ≠ [] ∧ separator ∉ name ∧ 0 ∉ name ∧ name ≠ [46] ∧ name ≠ [46, 46])
    ⟨fun ⟨h₁, h₂, h₃, h₄, h₅⟩ => ⟨h₁, h₂, h₃, h₄, h₅⟩,
      fun h => ⟨h.nonempty, h.noSeparator, h.noNul, h.notSelf, h.notParent⟩⟩

/-- A name that is looked up as it stands: no part of a path but itself. -/
structure PlainName (name : Name) : Prop where
  nonempty : name ≠ []
  noSeparator : separator ∉ name
  notSelf : name ≠ [46]
  notParent : name ≠ [46, 46]

theorem ValidName.plain {name : Name} (h : ValidName name) : PlainName name :=
  ⟨h.nonempty, h.noSeparator, h.notSelf, h.notParent⟩

instance (name : Name) : Decidable (PlainName name) :=
  decidable_of_iff (name ≠ [] ∧ separator ∉ name ∧ name ≠ [46] ∧ name ≠ [46, 46])
    ⟨fun ⟨h₁, h₂, h₃, h₄⟩ => ⟨h₁, h₂, h₃, h₄⟩,
      fun h => ⟨h.nonempty, h.noSeparator, h.notSelf, h.notParent⟩⟩

inductive FileKind where
  | directory
  | regular (content : List UInt8)
  | symlink (target : List UInt8)
  | socket
  | fifo
  | blockDevice
  | characterDevice
  | other
deriving DecidableEq

structure FileNode where
  kind : FileKind
  mtime : Int
  mode : Nat
  uid : Nat
  gid : Nat
deriving DecidableEq

/-- `st_size`; it is nothing for what has no content. -/
def FileNode.size (node : FileNode) : Nat :=
  match node.kind with
  | .regular content => content.length
  | .symlink target => target.length
  | _ => 0

/-- The files by the names on the way to them from the root. Every file but the root is in a
directory, under a valid name. -/
structure FileTree where
  entries : List (List Name × FileNode)
  nodup : (entries.map Prod.fst).Nodup
  rooted : ∃ e ∈ entries, e.1 = [] ∧ e.2.kind = .directory
  placed : ∀ e ∈ entries, ∀ h : e.1 ≠ [], ValidName (e.1.getLast h) ∧
    ∃ d ∈ entries, d.1 = e.1.dropLast ∧ d.2.kind = .directory

inductive IoError where
  | notFound
  | notDirectory
  | loop
  | notLink
deriving DecidableEq

namespace FileTree

variable (t : FileTree)

def node (place : List Name) : Option FileNode :=
  (t.entries.find? fun e => e.1 = place).map Prod.snd

/-- The names in a directory, in the order of `readdir`, which is any. -/
def names (place : List Name) : List Name :=
  t.entries.filterMap fun e => if e.1.dropLast = place then e.1.getLast? else none

/-- The names of a path between its slashes; the first is empty if the path is absolute. -/
def components (path : List UInt8) : List Name := path.splitOn separator

/-- The way through `rest` from the place `here`; a link leads on to `jump`. -/
def walkComponents (follow : Bool) (jump : List Name → List Name → Except IoError (List Name)) :
    List Name → List Name → Except IoError (List Name)
  | here, [] => .ok here
  | here, name :: rest =>
    match t.node here with
    | none => .error .notDirectory
    | some node =>
      if node.kind ≠ .directory then .error .notDirectory
      else if name = [] ∨ name = [46] then walkComponents follow jump here rest
      else if name = [46, 46] then walkComponents follow jump here.dropLast rest
      else
        match t.node (here ++ [name]) with
        | none => .error .notFound
        | some child =>
          match child.kind with
          | .symlink target =>
            if rest = [] ∧ follow = false then .ok (here ++ [name])
            else jump (if target.head? = some separator then [] else here)
              (components target ++ rest)
          | _ => walkComponents follow jump (here ++ [name]) rest

/-- The place that `rest` leads to from `here`, through at most `links` links. -/
def walk (follow : Bool) : Nat → List Name → List Name → Except IoError (List Name)
  | 0 => t.walkComponents follow fun _ _ => .error .loop
  | links + 1 => t.walkComponents follow (walk follow links)

def maxLinks : Nat := 40

def resolve (follow : Bool) (path : List UInt8) : Except IoError (List Name) :=
  if path = [] then .error .notFound else t.walk follow maxLinks [] (components path)

def nodeAt (place : List Name) : Except IoError FileNode :=
  match t.node place with
  | none => .error .notFound
  | some node => .ok node

/-- `lstat` -/
def symlinkMetadata (path : List UInt8) : Except IoError FileNode :=
  (t.resolve false path).bind t.nodeAt

/-- `stat` -/
def metadata (path : List UInt8) : Except IoError FileNode :=
  (t.resolve true path).bind t.nodeAt

def readDir (path : List UInt8) : Except IoError (List Name) :=
  (t.resolve true path).bind fun place =>
    (t.nodeAt place).bind fun node =>
      if node.kind = .directory then .ok (t.names place) else .error .notDirectory

def readLink (path : List UInt8) : Except IoError (List UInt8) :=
  (t.symlinkMetadata path).bind fun node =>
    match node.kind with
    | .symlink target => .ok target
    | _ => .error .notLink

/-! ## Names and nodes -/

variable {t}

theorem node_eq_some {place : List Name} {node : FileNode} :
    t.node place = some node ↔ (place, node) ∈ t.entries := by
  have hkey : ∀ {e}, t.entries.find? (fun e => e.1 = place) = some e →
      e ∈ t.entries ∧ e.1 = place := by
    intro e hfind
    have hplace := List.find?_some hfind
    exact ⟨List.mem_of_find?_eq_some hfind, by simpa using hplace⟩
  unfold FileTree.node
  rw [Option.map_eq_some_iff]
  constructor
  · rintro ⟨⟨place', node'⟩, hfind, rfl⟩
    obtain ⟨hmem, rfl⟩ := hkey hfind
    exact hmem
  · intro hmem
    have hsome : (t.entries.find? fun e => e.1 = place).isSome := by
      rw [List.find?_isSome]
      exact ⟨(place, node), hmem, by simp⟩
    obtain ⟨e, hfind⟩ := Option.isSome_iff_exists.mp hsome
    obtain ⟨he, hplace⟩ := hkey hfind
    have hsame : e = (place, node) := List.inj_on_of_nodup_map t.nodup he hmem hplace
    exact ⟨e, hfind, by rw [hsame]⟩

theorem mem_names {place : List Name} {name : Name} :
    name ∈ t.names place ↔ ∃ node, t.node (place ++ [name]) = some node := by
  unfold names
  rw [List.mem_filterMap]
  constructor
  · rintro ⟨⟨place', node⟩, hmem, hname⟩
    dsimp only at hname
    split at hname
    · next hplace =>
      have hwhole := List.dropLast_append_getLast? name hname
      rw [hplace] at hwhole
      exact ⟨node, node_eq_some.mpr (hwhole ▸ hmem)⟩
    · cases hname
  · rintro ⟨node, hnode⟩
    exact ⟨_, node_eq_some.mp hnode, by simp⟩

theorem nodup_names (place : List Name) : (t.names place).Nodup := by
  have hkeys : t.names place = (t.entries.map Prod.fst).filterMap fun key =>
      if key.dropLast = place then key.getLast? else none := by
    rw [List.filterMap_map]
    rfl
  rw [hkeys]
  refine t.nodup.filterMap fun key key' name hname hname' => ?_
  split at hname
  · next hplace =>
    split at hname'
    · next hplace' =>
      rw [← List.dropLast_append_getLast? name hname,
        ← List.dropLast_append_getLast? name hname', hplace, hplace']
    · cases hname'
  · cases hname

theorem validName_of_mem_names {place : List Name} {name : Name} (h : name ∈ t.names place) :
    ValidName name := by
  obtain ⟨node, hnode⟩ := mem_names.mp h
  have hvalid := (t.placed _ (node_eq_some.mp hnode) (by simp)).1
  simpa using hvalid

/-! ## One more name -/

def child (t : FileTree) (place : List Name) (name : Name) : Except IoError (List Name) :=
  match t.node place with
  | none => .error .notDirectory
  | some node =>
    if node.kind ≠ .directory then .error .notDirectory
    else
      match t.node (place ++ [name]) with
      | none => .error .notFound
      | some _ => .ok (place ++ [name])

/-- A place that a slash follows. -/
def asDirectory (t : FileTree) (place : List Name) : Except IoError (List Name) :=
  match t.node place with
  | none => .error .notDirectory
  | some node => if node.kind ≠ .directory then .error .notDirectory else .ok place

theorem walkComponents_child {name : Name} (h : PlainName name)
    (jump : List Name → List Name → Except IoError (List Name)) (here : List Name) :
    t.walkComponents false jump here [name] = t.child here name := by
  unfold walkComponents child
  cases t.node here with
  | none => rfl
  | some node =>
    dsimp only
    split
    · rfl
    · rw [if_neg (by simp [h.nonempty, h.notSelf]), if_neg h.notParent]
      cases t.node (here ++ [name]) with
      | none => rfl
      | some child =>
        dsimp only
        split
        · simp
        · rfl

theorem walkComponents_slash (follow : Bool)
    (jump : List Name → List Name → Except IoError (List Name)) (here : List Name) :
    t.walkComponents follow jump here [[]] = t.asDirectory here := by
  unfold walkComponents asDirectory
  cases t.node here with
  | none => rfl
  | some node =>
    dsimp only
    split
    · rfl
    · simp [walkComponents]

/-- **One more component** that is no link to follow: what comes before it is resolved as it
is when every link is followed. -/
theorem walk_snoc {follow : Bool} {name : Name}
    {last : List Name → Except IoError (List Name)}
    (hlast : ∀ jump here, t.walkComponents follow jump here [name] = last here) :
    ∀ (links : Nat) (here rest : List Name),
      t.walk follow links here (rest ++ [name]) = (t.walk true links here rest).bind last := by
  have hcomponents : ∀ jump jump' : List Name → List Name → Except IoError (List Name),
      (∀ here rest, jump here (rest ++ [name]) = (jump' here rest).bind last) →
      ∀ rest here, t.walkComponents follow jump here (rest ++ [name]) =
        (t.walkComponents true jump' here rest).bind last := by
    intro jump jump' hjump rest
    induction rest with
    | nil =>
      intro here
      exact hlast jump here
    | cons name' rest ih =>
      intro here
      rw [List.cons_append, walkComponents, walkComponents]
      cases t.node here with
      | none => rfl
      | some node =>
        dsimp only
        split
        · rfl
        · split
          · exact ih here
          · split
            · exact ih here.dropLast
            · cases t.node (here ++ [name']) with
              | none => rfl
              | some child =>
                dsimp only
                split
                · rw [if_neg (show ¬ (rest ++ [name] = [] ∧ follow = false) by simp),
                    if_neg (show ¬ (rest = [] ∧ true = false) by simp), ← List.append_assoc]
                  exact hjump _ _
                · exact ih (here ++ [name'])
  intro links
  induction links with
  | zero => exact fun here rest => hcomponents _ _ (fun _ _ => rfl) rest here
  | succ links ih => exact fun here rest => hcomponents _ _ ih rest here

/-- `Path::join` with a name. -/
def join (path : List UInt8) (name : Name) : List UInt8 :=
  if path = [] ∨ path.getLast? = some separator then path ++ name else path ++ separator :: name

/-- **A name in a directory.** -/
theorem resolve_join {path : List UInt8} {name : Name} (hpath : path ≠ []) (h : PlainName name) :
    t.resolve false (join path name) = (t.resolve true path).bind fun place =>
      t.child place name := by
  have hchild : ∀ links here rest, t.walk false links here (rest ++ [name]) =
      (t.walk true links here rest).bind fun place => t.child place name :=
    walk_snoc fun jump here => walkComponents_child h jump here
  have hslash : ∀ links here rest, t.walk true links here (rest ++ [[]]) =
      (t.walk true links here rest).bind t.asDirectory :=
    walk_snoc fun jump here => walkComponents_slash true jump here
  have hname : components name = [name] := List.splitOn_eq_singleton h.noSeparator
  unfold join
  split
  · next hend =>
    -- the path ends with a slash: its last component is empty
    obtain ⟨front, rfl⟩ : ∃ front, path = front ++ [separator] :=
      ⟨path.dropLast, (List.dropLast_append_getLast? _ (hend.resolve_left hpath)).symm⟩
    have hwith : components (front ++ [separator] ++ name) = components front ++ [name] := by
      rw [List.append_assoc, List.singleton_append, ← hname]
      exact List.splitOn_append_cons_self ..
    have hwithout : components (front ++ [separator]) = components front ++ [[]] :=
      List.splitOn_append_cons_self ..
    unfold resolve
    rw [if_neg (by simp), if_neg (by simp), hwith, hwithout, hchild, hslash]
    cases t.walk true maxLinks [] (components front) with
    | error error => rfl
    | ok place =>
      show t.child place name = (t.asDirectory place).bind _
      unfold child asDirectory
      cases hnode : t.node place with
      | none => rfl
      | some node =>
        dsimp only
        split
        · rfl
        · next hdirectory =>
          show _ = t.child place name
          simp only [child, hnode, if_neg hdirectory]
  · have hwith : components (path ++ separator :: name) = components path ++ [name] := by
      rw [← hname]
      exact List.splitOn_append_cons_self ..
    unfold resolve
    rw [if_neg (by simp), if_neg hpath, hwith, hchild]

theorem metadata_eq_ok {path : List UInt8} {node : FileNode} :
    t.metadata path = .ok node ↔ ∃ place, t.resolve true path = .ok place ∧
      t.node place = some node := by
  unfold metadata nodeAt
  cases hresolve : t.resolve true path with
  | error error => exact ⟨fun h => (by cases h), fun ⟨_, h, _⟩ => (by cases h)⟩
  | ok place =>
    show (match t.node place with | none => _ | some node => _) = _ ↔ _
    constructor
    · intro h
      refine ⟨place, rfl, ?_⟩
      split at h
      · cases h
      · next hnode =>
        cases h
        exact hnode
    · rintro ⟨place', hplace, hnode⟩
      cases hplace
      rw [hnode]

theorem readDir_eq_ok {path : List UInt8} {names : List Name} :
    t.readDir path = .ok names ↔ ∃ place, t.resolve true path = .ok place ∧
      ∃ node, t.node place = some node ∧ node.kind = .directory ∧ t.names place = names := by
  unfold readDir nodeAt
  cases hresolve : t.resolve true path with
  | error error => exact ⟨fun h => (by cases h), fun ⟨_, h, _⟩ => (by cases h)⟩
  | ok place =>
    cases hnode : t.node place with
    | none =>
      simp only [Except.bind, hnode]
      exact ⟨fun h => (by cases h), fun ⟨_, h, _, h', _⟩ => (by cases h; cases hnode.symm.trans h')⟩
    | some node =>
      simp only [Except.bind, hnode]
      constructor
      · intro h
        split at h
        · next hkind =>
          cases h
          exact ⟨place, rfl, node, hnode, hkind, rfl⟩
        · cases h
      · rintro ⟨place', hplace, node', hnode', hkind, rfl⟩
        cases hplace
        cases hnode.symm.trans hnode'
        rw [if_pos hkind]

section Directory

variable {path : List UInt8} {place : List Name} {node : FileNode}
  (hresolve : t.resolve true path = .ok place) (hnode : t.node place = some node)
  (hdirectory : node.kind = .directory)

include hresolve hnode hdirectory

theorem readDir_directory : t.readDir path = .ok (t.names place) := by
  have hat : t.nodeAt place = .ok node := by rw [nodeAt, hnode]
  unfold readDir
  rw [hresolve]
  show (t.nodeAt place).bind _ = _
  rw [hat]
  exact if_pos hdirectory

/-- What is in a directory is found below its path. -/
theorem symlinkMetadata_join {name : Name} (hname : ValidName name) :
    t.symlinkMetadata (join path name) = t.nodeAt (place ++ [name]) := by
  have hpath : path ≠ [] := by
    rintro rfl
    cases hresolve
  unfold symlinkMetadata
  rw [resolve_join hpath hname.plain, hresolve]
  show (t.child place name).bind t.nodeAt = _
  unfold child
  rw [hnode]
  dsimp only
  rw [if_neg (not_not.mpr hdirectory)]
  cases hchild : t.node (place ++ [name]) with
  | none =>
    show _ = t.nodeAt (place ++ [name])
    rw [nodeAt, hchild]
    rfl
  | some child => rfl

end Directory

end FileTree

end TuxStack.Files
