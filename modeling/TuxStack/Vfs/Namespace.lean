import Mathlib.Data.List.AList
import Mathlib.Data.List.MinMax
import TuxStack.Vfs.Provider
import TuxStack.Vfs.Symlink

/-!
# The namespace

`crates/tuxstack-vfs/src/namespace.rs`. Providers are mounted at paths, friendly
aliases are absolute links, and every operation goes to the provider at the
deepest mount covering the path. The two Rust hash maps are association lists
without repeated keys; `providerAt` picks the deepest of the covering mounts,
which is unique because two prefixes of one path of equal length are equal.

`readlinkText` is the computation of the FUSE adapter's `readlink`: the namespace's
answer, rewritten for the path of the link. `readlink_confined_iff` says for which
targets the result stays below the mount the link lives in.
-/

namespace TuxStack.Vfs

open Lexical

/-! ## Mounts and aliases -/

structure MountedProvider where
  key : String
  provider : Provider

/-- What `provider_at` resolves a path to. -/
structure ResolvedNamespaceProvider where
  key : String
  provider : Provider
  mountPath : VirtualPath
  relativePath : VirtualPath

structure NamespaceProvider where
  mounts : AList fun _ : VirtualPath => MountedProvider
  aliases : AList fun _ : VirtualPath => VirtualPathBytes

namespace NamespaceProvider

def new : NamespaceProvider := ⟨∅, ∅⟩

def mount (ns : NamespaceProvider) (path : VirtualPath) (key : String) (provider : Provider) :
    Except VfsError NamespaceProvider :=
  if path.isRoot then .error (.invalidInput "namespace root cannot be replaced")
  else .ok { ns with mounts := ns.mounts.insert path ⟨key, provider⟩ }

def addAlias (ns : NamespaceProvider) (path : VirtualPath) (target : VirtualPathBytes) :
    Except VfsError NamespaceProvider :=
  if path.isRoot || !target.isAbsolute then
    .error (.invalidInput "namespace alias must be absolute and non-root")
  else .ok { ns with aliases := ns.aliases.insert path target }

/-- `NamespaceProvider::unmount`: aliases below the path go with the mount. -/
def unmount (ns : NamespaceProvider) (path : VirtualPath) : NamespaceProvider where
  mounts := ns.mounts.erase path
  aliases :=
    ⟨ns.aliases.entries.filter fun e => !e.1.startsWith path,
      ns.aliases.nodupKeys.sublist List.filter_sublist⟩

def clear (_ : NamespaceProvider) : NamespaceProvider := new

/-- `NamespaceProvider::provider_at`: the deepest mount that is a component
prefix of the path, and the rest of the path below it. -/
def providerAt (ns : NamespaceProvider) (path : VirtualPath) :
    Option ResolvedNamespaceProvider :=
  (((ns.mounts.entries.filter fun e => path.startsWith e.1).argmax fun e => e.1.depth).bind
    fun e => (path.stripPrefix e.1).map fun relativePath =>
      { key := e.2.key
        provider := e.2.provider
        mountPath := e.1
        relativePath := relativePath })

def syntheticMetadata (path : VirtualPath) : VirtualMetadata :=
  let metadata := VirtualMetadata.directory path.asBytes
  { metadata with original := { metadata.original with mode := 0o555 } }

def aliasMetadata (path : VirtualPath) (target : VirtualPathBytes) : VirtualMetadata :=
  VirtualMetadata.symlink path.asBytes target.bytes.length

/-- `is_synthetic_directory`: the root, and every proper ancestor of a mount. -/
def isSyntheticDirectory (ns : NamespaceProvider) (path : VirtualPath) : Bool :=
  path.isRoot || ns.mounts.keys.any fun mount => mount.startsWith path && mount ≠ path

def aliasFor (ns : NamespaceProvider) (path : VirtualPath) : Option VirtualPathBytes :=
  ns.aliases.lookup path

/-- `NamespaceProvider::metadata`, behind both `lookup` and `getattr`. -/
def metadata (ns : NamespaceProvider) (path : VirtualPath) : Except VfsError VirtualMetadata :=
  match ns.aliasFor path with
  | some target => .ok (aliasMetadata path target)
  | none =>
    match ns.providerAt path with
    | some route => route.provider.getattr route.relativePath
    | none =>
      if ns.isSyntheticDirectory path then .ok (syntheticMetadata path)
      else .error .notFound

/-- The ordered map `read_dir` collects its children in. -/
abbrev Children : Type :=
  Std.TreeMap VirtualFileName VirtualMetadata fun a b => compare a.bytes b.bytes

/-- `read_dir` on one mount: a child mount shows its provider's root, a deeper
mount makes its first component a synthetic directory unless it is listed. -/
def addMountChild (path : VirtualPath) (children : Children)
    (e : Sigma fun _ : VirtualPath => MountedProvider) : Except VfsError Children :=
  if e.1.parent = some path then
    match e.1.fileName with
    | none => .error (.invalidInput "mount has no name")
    | some name => do
        let metadata ← e.2.provider.getattr VirtualPath.root
        .ok (children.insert name metadata)
  else if e.1.startsWith path && path.depth < e.1.depth then
    match e.1.components[path.depth]? with
    | none => .ok children
    | some child => do
        let childPath ← path.join child
        .ok (children.insertIfNew child (syntheticMetadata childPath))
  else .ok children

/-- `read_dir` on one alias. -/
def addAliasChild (path : VirtualPath) (children : Children)
    (e : Sigma fun _ : VirtualPath => VirtualPathBytes) : Except VfsError Children :=
  if e.1.parent = some path then
    match e.1.fileName with
    | none => .error (.invalidInput "alias has no name")
    | some name => .ok (children.insert name (aliasMetadata e.1 e.2))
  else .ok children

def readDir (ns : NamespaceProvider) (path : VirtualPath) :
    Except VfsError (List VirtualDirectoryEntry) :=
  match ns.providerAt path with
  | some route => route.provider.readDir route.relativePath
  | none =>
    if ns.isSyntheticDirectory path then do
      let mounted ← ns.mounts.entries.foldlM (addMountChild path) ∅
      let children ← ns.aliases.entries.foldlM (addAliasChild path) mounted
      .ok (children.toList.map fun c => ⟨c.1, c.2⟩)
    else .error .notDirectory

/-- `NamespaceProvider::read_link`. An absolute answer of a provider is rooted
in that provider's mount; a relative one is passed on as it is. -/
def readLink (ns : NamespaceProvider) (path : VirtualPath) : Except VfsError VirtualPathBytes :=
  match ns.aliasFor path with
  | some target => .ok target
  | none =>
    match ns.providerAt path with
    | none => .error (.invalidInput "node is not a symlink")
    | some route => do
        let target ← route.provider.readLink route.relativePath
        if target.isAbsolute then
          let providerTarget ← VirtualPath.fromAbsolute target.bytes
          let anchored ← VirtualPath.fromComponents
            (route.mountPath.components ++ providerTarget.components)
          VirtualPathBytes.new anchored.asBytes
        else .ok target

def toProvider (ns : NamespaceProvider) : Provider where
  lookup parent name := do
    let path ← parent.join name
    ns.metadata path
  getattr := ns.metadata
  readDir := ns.readDir
  readLink := ns.readLink

/-! ## Routing -/

theorem mountPath_prefix {ns : NamespaceProvider} {path : VirtualPath}
    {route : ResolvedNamespaceProvider} (h : ns.providerAt path = some route) :
    route.mountPath.components <+: path.components := by
  unfold providerAt at h
  obtain ⟨e, he, h⟩ := Option.bind_eq_some_iff.mp h
  obtain ⟨rel, -, rfl⟩ := Option.map_eq_some_iff.mp h
  have hmem := List.argmax_mem he
  exact VirtualPath.startsWith_iff.mp (List.mem_filter.mp hmem).2

/-! ## Where a link leads -/

/-- The computation of `ReadOnlyFuseAdapter::readlink` for a link at `path`. -/
def readlinkText (ns : NamespaceProvider) (path : VirtualPath) :
    Except VfsError VirtualPathBytes := do
  let target ← ns.readLink path
  rewriteSymlink path target

/-- The text `r` of a link at `path` leads below `root`. -/
def LeadsBelow (path root : VirtualPath) (r : VirtualPathBytes) : Prop :=
  ∃ parent q, path.parent = some parent ∧ resolveTarget parent r = .ok q ∧
    q.startsWith root = true

/-- How many levels a target climbs above the directory of its link. -/
def climb (target : VirtualPathBytes) : Nat := (normal (segs (pieces target))).1

def descent (target : VirtualPathBytes) : List Bytes := (normal (segs (pieces target))).2

theorem parent_components {p parent : VirtualPath} (h : p.parent = some parent) :
    ∃ last, p.components = parent.components ++ [last] := by
  unfold VirtualPath.parent at h
  split at h
  · cases h
  · rename_i hne
    cases h
    exact ⟨p.components.getLast hne, (List.dropLast_append_getLast hne).symm⟩

/-- A mount covering `p` covers the parent of `p` or is `p` itself. -/
theorem prefix_parent_or_self {p parent root : VirtualPath}
    (hroot : root.components <+: p.components) (hp : p.parent = some parent) :
    root.components <+: parent.components ∨
      ∃ last, root.components = parent.components ++ [last] := by
  obtain ⟨last, hlast⟩ := parent_components hp
  rw [hlast] at hroot
  rcases List.prefix_concat_iff.mp hroot with h | h
  · exact .inr ⟨last, h⟩
  · exact .inl h

/-- A relative target leads below `root` exactly when the names it descends
into start with the part of `root` that its climb leaves. -/
theorem leadsBelow_relative_iff {p parent root q : VirtualPath} {target : VirtualPathBytes}
    (hroot : root.components <+: p.components) (hp : p.parent = some parent)
    (habs : target.isAbsolute = false) (hq : resolveTarget parent target = .ok q) :
    LeadsBelow p root target ↔
      (texts root.components).drop (parent.depth - climb target) <+: descent target := by
  have hwalk : walk (texts parent.components) (segs (pieces target))
      = some (texts q.components) := by
    unfold resolveTarget at hq
    simp only [habs, Bool.false_eq_true, if_false] at hq
    cases hfold : (pieces target).foldlM resolveStep parent.components with
    | error e =>
      rw [hfold] at hq
      cases hq
    | ok cs =>
      rw [hfold] at hq
      rw [VirtualPath.fromComponents_ok hq]
      exact resolve_walk hfold
  have hstart : texts root.components <+: texts parent.components ∨
      ∃ x, texts root.components = texts parent.components ++ [x] := by
    rcases prefix_parent_or_self hroot hp with h | ⟨last, h⟩
    · exact .inl (texts_prefix_iff.mpr h)
    · exact .inr ⟨last.bytes, by simp [texts, h]⟩
  have hiff := prefix_walk_iff hstart hwalk
  rw [texts_prefix_iff, List.length_map] at hiff
  constructor
  · rintro ⟨parent', q', hp', hq', hbelow⟩
    cases hp.symm.trans hp'
    cases hq.symm.trans hq'
    exact hiff.mp (VirtualPath.startsWith_iff.mp hbelow)
  · intro h
    exact ⟨parent, q, hp, hq, VirtualPath.startsWith_iff.mpr (hiff.mpr h)⟩

/-- An absolute target anchored at `root` leads below `root` from everywhere. -/
theorem leadsBelow_anchored {p root anchored : VirtualPath} {target r : VirtualPathBytes}
    (hroot : root.components <+: anchored.components)
    (htarget : target.bytes = anchored.asBytes) (habs : target.isAbsolute = true)
    (hr : rewriteSymlink p target = .ok r) : LeadsBelow p root r := by
  obtain ⟨parent, q, hp, hq, hbytes⟩ := rewriteSymlink_absolute habs hr
  rw [htarget, VirtualPath.fromAbsolute_asBytes] at hq
  cases hq
  refine ⟨parent, anchored, hp, ?_, VirtualPath.startsWith_iff.mpr hroot⟩
  rw [resolveTarget_relText hbytes, if_pos le_rfl]
  simp

/-- **Which links stay in their resource.** Let `p` be a provider's link below
the mount of `route`, `raw` the bytes the provider stores, and `r` the text the
adapter answers. Absolute targets always stay below the mount. A relative
target stays exactly when the names after its climb re-enter whatever part of
the mount path the climb left, so a climb past the mount that goes elsewhere
leaves the resource although it passes the check against the namespace root. -/
theorem readlink_confined_iff {ns : NamespaceProvider} {p : VirtualPath}
    {route : ResolvedNamespaceProvider} {raw r : VirtualPathBytes}
    (hroute : ns.providerAt p = some route) (halias : ns.aliasFor p = none)
    (hraw : route.provider.readLink route.relativePath = .ok raw)
    (hr : ns.readlinkText p = .ok r) :
    LeadsBelow p route.mountPath r ↔
      raw.isAbsolute = true ∨
        (texts route.mountPath.components).drop (p.depth - 1 - climb raw) <+: descent raw := by
  have hroot := mountPath_prefix hroute
  unfold readlinkText readLink at hr
  simp only [halias, hroute, hraw] at hr
  cases habs : raw.isAbsolute with
  | true =>
    refine iff_of_true ?_ (Or.inl rfl)
    have hlink : ∃ (target : VirtualPathBytes) (anchored : VirtualPath),
        target.bytes = anchored.asBytes ∧
        target.isAbsolute = true ∧
        route.mountPath.components <+: anchored.components ∧
        rewriteSymlink p target = .ok r := by
      simp only [bind, Except.bind, habs, if_true] at hr
      cases hpt : VirtualPath.fromAbsolute raw.bytes with
      | error e => simp [hpt] at hr
      | ok providerTarget =>
        simp only [hpt] at hr
        cases han : VirtualPath.fromComponents
            (route.mountPath.components ++ providerTarget.components) with
        | error e => simp [han] at hr
        | ok anchored =>
          simp only [han] at hr
          obtain ⟨target, hnew, hbytes, htabs⟩ := VirtualPathBytes.new_asBytes anchored
          simp only [hnew] at hr
          refine ⟨target, anchored, hbytes, htabs, ?_, hr⟩
          rw [VirtualPath.fromComponents_ok han]
          exact List.prefix_append _ _
    obtain ⟨target, anchored, hbytes, htabs, hpre, hrw⟩ := hlink
    exact leadsBelow_anchored hpre hbytes htabs hrw
  | false =>
    simp only [bind, Except.bind, habs, Bool.false_eq_true, if_false] at hr
    obtain ⟨parent, q, hp, hq, rfl⟩ := rewriteSymlink_relative habs hr
    obtain ⟨last, hlast⟩ := parent_components hp
    have hdepth : p.depth - 1 = parent.depth := by
      simp [VirtualPath.depth, hlast]
    rw [leadsBelow_relative_iff hroot hp habs hq, hdepth]
    simp

/-- Two volumes side by side; every link of the first stores `target`. -/
def twoVolumes (target : VirtualPathBytes) : NamespaceProvider where
  mounts := (AList.singleton (pathOf "/volumes/b")
      ⟨"volume:b", ⟨fun _ _ => .error .notFound, fun _ => .error .notFound,
        fun _ => .error .notFound, fun _ => .error .notFound⟩⟩).insert (pathOf "/volumes/a")
      ⟨"volume:a", ⟨fun _ _ => .error .notFound, fun _ => .error .notFound,
        fun _ => .error .notFound, fun _ => .ok target⟩⟩
  aliases := ∅

/-- `/volumes/a/link -> ../b/secret` is answered as it is and leads into the
other volume. -/
theorem relative_link_leaves_its_volume :
    ((twoVolumes (targetOf "../b/secret")).providerAt (pathOf "/volumes/a/link")).map
        (·.mountPath) = some (pathOf "/volumes/a") ∧
      (twoVolumes (targetOf "../b/secret")).readlinkText (pathOf "/volumes/a/link") =
        .ok (targetOf "../b/secret") ∧
      ¬ LeadsBelow (pathOf "/volumes/a/link") (pathOf "/volumes/a") (targetOf "../b/secret") := by
  refine ⟨by decide, by decide, ?_⟩
  rintro ⟨parent, q, hp, hq, hbelow⟩
  have hparent : (pathOf "/volumes/a/link").parent = some (pathOf "/volumes/a") := by decide
  cases hparent.symm.trans hp
  have hres : resolveTarget (pathOf "/volumes/a") (targetOf "../b/secret") =
      .ok (pathOf "/volumes/b/secret") := by decide
  cases hres.symm.trans hq
  exact absurd hbelow (by decide)

/-- The iff at a relative link that stays: `/volumes/a/link -> ../a/file`. -/
theorem readlink_confined_reentering :
    LeadsBelow (pathOf "/volumes/a/link") (pathOf "/volumes/a") (targetOf "../a/file") := by
  let route : ResolvedNamespaceProvider :=
    { key := "volume:a"
      provider := ⟨fun _ _ => .error .notFound, fun _ => .error .notFound,
        fun _ => .error .notFound, fun _ => .ok (targetOf "../a/file")⟩
      mountPath := pathOf "/volumes/a"
      relativePath := pathOf "/link" }
  have hroute : (twoVolumes (targetOf "../a/file")).providerAt (pathOf "/volumes/a/link") =
      some route := rfl
  have hraw : route.provider.readLink route.relativePath = .ok (targetOf "../a/file") := rfl
  refine (readlink_confined_iff hroute rfl hraw (by decide)).mpr (Or.inr ?_)
  decide

end NamespaceProvider

end TuxStack.Vfs
