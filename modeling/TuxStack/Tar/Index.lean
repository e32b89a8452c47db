import TuxStack.Tar.Reader

/-!
# The tar index

`TarIndex` of `crates/docker-core/src/vfs_providers/tar_index.rs`: an ordered map
from paths to entries, filled by `from_stream`. The `BTreeMap` is a
`Std.TreeMap` over the same order of paths.
-/

namespace TuxStack.Tar

open Vfs Result Chunks

instance : Ord TarPath := ⟨fun a b => compare a.components b.components⟩

instance : Std.TransOrd TarPath where
  eq_swap := Std.OrientedOrd.eq_swap (α := List Bytes)
  isLE_trans := Std.TransOrd.isLE_trans (α := List Bytes)

instance : Std.LawfulEqOrd TarPath where
  compare_self := Std.ReflOrd.compare_self (α := List Bytes)
  eq_of_compare h := TarPath.ext (Std.LawfulEqOrd.eq_of_compare (α := List Bytes) h)

structure TarIndex where
  entries : Std.TreeMap TarPath TarEntry

/-- The proper ancestors of a path, from its parent up to the root: what the
`parent()` loops of the source go through. -/
def TarPath.ancestors (p : TarPath) : List TarPath :=
  (List.range p.depth).reverse.map fun k => ⟨p.components.take k⟩

namespace TarIndex

/-! ## The operations -/

def empty : TarIndex := ⟨(∅ : Std.TreeMap TarPath TarEntry).insert TarPath.root TarEntry.root⟩

def len (index : TarIndex) : Nat := index.entries.size

def get (index : TarIndex) (path : TarPath) : Option TarEntry := index.entries[path]?

def getVirtual (index : TarIndex) (path : VirtualPath) : Option TarEntry :=
  index.get (TarPath.fromVirtual path)

/-- `resolve_hardlink` over any lookup function: at most 40 hops, no path twice. -/
def resolveLoop (get : TarPath → Option TarEntry) : Nat → List TarPath → TarPath →
    Except VfsError TarEntry
  | 0, _, _ => .error .symlinkLoop
  | rounds + 1, visited, current =>
    if current ∈ visited then .error .symlinkLoop
    else
      match get current with
      | none => .error .notFound
      | some entry =>
        if entry.kind ≠ .hardlink then .ok entry
        else
          match entry.linkTarget with
          | none => .error (.io "hardlink has no target")
          | some target => do
              let next ← TarPath.fromTarBytes target TarLimits.standard
              resolveLoop get rounds (current :: visited) next

def resolveHardlink (index : TarIndex) (path : TarPath) : Except VfsError TarEntry :=
  resolveLoop index.get 40 [] path

def metadata (index : TarIndex) (path : TarPath) (identityPrefix : Bytes) (generation : Nat) :
    Except VfsError VirtualMetadata :=
  match index.get path with
  | none => .error .notFound
  | some entry =>
    if entry.kind ≠ .hardlink then .ok (entry.metadata identityPrefix generation)
    else do
      let target ← index.resolveHardlink path
      let metadata := target.metadata identityPrefix generation
      .ok { metadata with nlink := max metadata.nlink 2 }

/-- `TarIndex::children`, in key order. -/
def children (index : TarIndex) (parent : TarPath) : List TarEntry :=
  (index.entries.toList.map Prod.snd).filter fun entry =>
    entry.path.depth = parent.depth + 1 && entry.path.parent = some parent

/-- One row of `directory_entries`. -/
def directoryEntry (index : TarIndex) (identityPrefix : Bytes) (generation : Nat)
    (entry : TarEntry) : Except VfsError VirtualDirectoryEntry :=
  match entry.path.name with
  | none => .error .notFound
  | some raw => do
      let name ← VirtualFileName.new raw
      let metadata ← index.metadata entry.path identityPrefix generation
      .ok ⟨name, metadata⟩

def directoryEntries (index : TarIndex) (parent : VirtualPath) (identityPrefix : Bytes)
    (generation : Nat) : Except VfsError (List VirtualDirectoryEntry) :=
  let path := TarPath.fromVirtual parent
  match index.get path with
  | none => .error .notFound
  | some entry =>
    if entry.kind ≠ .directory then .error .notDirectory
    else (index.children path).mapM (index.directoryEntry identityPrefix generation)

def ensureCapacity (index : TarIndex) (maxEntries : Nat) : Except VfsError Unit :=
  if index.len - 1 ≥ maxEntries then .error (.unavailable "tar entry limit exceeded")
  else .ok ()

def put (index : TarIndex) (entry : TarEntry) : TarIndex :=
  ⟨index.entries.insert entry.path entry⟩

def putParent (maxEntries : Nat) (index : TarIndex) (path : TarPath) :
    Except VfsError TarIndex := do
  index.ensureCapacity maxEntries
  .ok (index.put (TarEntry.syntheticDirectory path))

/-- `TarIndex::insert_with_parents`. Only the absence of the parents is looked
at, never their kind. -/
def insertWithParents (index : TarIndex) (entry : TarEntry) (maxEntries : Nat) :
    Except VfsError TarIndex := do
  let missing := entry.path.ancestors.takeWhile fun path => (index.get path).isNone
  let index ← missing.reverse.foldlM (putParent maxEntries) index
  match index.get entry.path with
  | some existing =>
    if existing.synthetic && !entry.synthetic then .ok (index.put entry)
    else .error (.invalidInput "duplicate tar entry path")
  | none => do
      index.ensureCapacity maxEntries
      .ok (index.put entry)

def insertSyntheticDirectory (index : TarIndex) (path : TarPath) (maxEntries : Nat) :
    Except VfsError TarIndex :=
  if path.isRoot then .ok index
  else index.insertWithParents (TarEntry.syntheticDirectory path) maxEntries

def removeDescendants (index : TarIndex) (root : TarPath) : TarIndex :=
  ⟨index.entries.filter fun path _ => !path.isDescendantOf root⟩

/-- The loop of `from_stream`. Every round but the last reads at least one block,
so there are never more rounds than bytes (`fromLoop_rounds`). -/
def fromLoop (maxEntries : Nat) : Nat → TarIndex → ReaderM TarIndex
  | 0, index => pure index
  | rounds + 1, index => do
      match ← TarStreamReader.nextEntry with
      | none => return index
      | some entry => do
          TarStreamReader.skipEntryBody
          if entry.path.isRoot then fromLoop maxEntries rounds index
          else
            let index ← index.insertWithParents entry maxEntries
            fromLoop maxEntries rounds index

def fromStream (stream : ArchiveByteStream) (limits : TarLimits) : Except VfsError TarIndex := do
  limits.validate
  let reader := TarStreamReader.new stream limits
  (fromLoop limits.maxEntries (reader.source.left.length + 1) empty reader).map Prod.fst

/-- **The loop of `from_stream` ends by itself**: more rounds than bytes left
change nothing. -/
theorem fromLoop_rounds {maxEntries : Nat} : ∀ (rounds more : Nat) (index : TarIndex)
    (r : TarStreamReader), r.source.left.length < rounds →
      fromLoop maxEntries (rounds + more) index r = fromLoop maxEntries rounds index r
  | 0, _, _, _, h => absurd h (Nat.not_lt_zero _)
  | rounds + 1, more, index, r, h => by
      rw [Nat.add_right_comm]
      unfold fromLoop
      refine run_bind_congr fun out r₁ hnext => ?_
      cases out with
      | none => rfl
      | some entry =>
        have hlt := TarStreamReader.nextEntry_left hnext
        refine run_bind_congr fun u r₂ hskip => ?_
        have hle := TarStreamReader.skipEntryBody_left hskip
        split
        · exact fromLoop_rounds rounds more index r₂ (by omega)
        · refine run_bind_congr fun index' r₃ hinsert => ?_
          obtain ⟨-, rfl⟩ := TarStreamReader.lift_ok hinsert
          exact fromLoop_rounds rounds more index' r₃ (by omega)

end TarIndex

end TuxStack.Tar
