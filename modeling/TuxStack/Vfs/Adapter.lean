import TuxStack.Lib.Result
import TuxStack.Vfs.Inode
import TuxStack.Vfs.Namespace

/-!
# The FUSE adapter

`crates/tuxstack-vfs/src/adapter.rs`: the node cache and the inode table of
`ReadOnlyFuseAdapter`, and the calls that fill and read them. Requests that only
read the cache (`open`, `access`, the xattr calls) or that are refused outright
change nothing and are left out.

Each call gets the provider it finds. `served` is a history variable: what
`cache_node` answered, newest first.

The cache keeps one path for each inode, the inode table merges paths with equal
provider identity. So `readlink` writes its text for the alias that was served
last, and `readlink_aliases_iff` says for which other aliases that text is right.
-/

namespace TuxStack.Vfs

open Runs Result

/-- `DockerFilesystemResource`; the platform of an image is not read. -/
inductive DockerFilesystemResource where
  | container (containerId : String)
  | image (imageId : String)
  | volume (volumeName : String)
deriving DecidableEq

def DockerFilesystemResource.canonicalId : DockerFilesystemResource → String
  | .container containerId => containerId
  | .image imageId => imageId
  | .volume volumeName => volumeName

def DockerFilesystemResource.kindName : DockerFilesystemResource → String
  | .container _ => "container"
  | .image _ => "image"
  | .volume _ => "volume"

structure CachedNode where
  path : VirtualPath
  metadata : VirtualMetadata
deriving DecidableEq

/-- One answer of `cache_node`. -/
structure Served where
  path : VirtualPath
  metadata : VirtualMetadata
  inode : Nat
deriving DecidableEq

structure Adapter where
  resource : DockerFilesystemResource
  daemonIdentity : String
  providerKey : String
  inodes : InodeTable
  nodes : AList fun _ : Nat => CachedNode
  served : List Served

namespace Adapter

/-! ## The calls -/

/-- `ReadOnlyFuseAdapter::new`. -/
def new (provider : Provider) (resource : DockerFilesystemResource)
    (daemonIdentity providerKey : String) : Except VfsError Adapter := do
  let rootMetadata ← provider.getattr VirtualPath.root
  if rootMetadata.fileType ≠ .directory then
    .error (.invalidInput "provider root must be a directory")
  else
    .ok
      { resource := resource
        daemonIdentity := daemonIdentity
        providerKey := providerKey
        inodes := InodeTable.new
        nodes := AList.singleton rootInode ⟨VirtualPath.root, rootMetadata⟩
        served := [] }

def node (a : Adapter) (inode : Nat) : Except VfsError CachedNode :=
  match a.nodes.lookup inode with
  | some node => .ok node
  | none => .error .notFound

def nodeKey (a : Adapter) (path : VirtualPath) (metadata : VirtualMetadata) :
    VirtualNodeKey where
  daemonIdentity := a.daemonIdentity
  resourceKind := a.resource.kindName
  resourceId := a.resource.canonicalId
  providerKey := a.providerKey
  logicalPath := path
  generation := metadata.generation

def hardlinkKey (a : Adapter) (metadata : VirtualMetadata) : HardlinkKey where
  daemonIdentity := a.daemonIdentity
  resourceKind := a.resource.kindName
  resourceId := a.resource.canonicalId
  providerKey := a.providerKey
  providerNodeId := metadata.nodeId
  generation := metadata.generation

def cacheNode (a : Adapter) (path : VirtualPath) (metadata : VirtualMetadata) :
    Except VfsError Nat × Adapter :=
  match a.inodes.inodeFor (a.nodeKey path metadata) (some (a.hardlinkKey metadata)) with
  | (.error e, inodes) => (.error e, { a with inodes := inodes })
  | (.ok inode, inodes) =>
    (.ok inode,
      { a with
        inodes := inodes
        nodes := a.nodes.insert inode ⟨path, metadata⟩
        served := ⟨path, metadata, inode⟩ :: a.served })

/-- The part of `Filesystem::lookup` before `cache_node`. -/
def found (a : Adapter) (provider : Provider) (parent : Nat) (name : Bytes) :
    Except VfsError (VirtualPath × VirtualMetadata) := do
  let parent ← a.node parent
  let name ← VirtualFileName.new name
  let path ← parent.path.join name
  let metadata ← provider.lookup parent.path name
  .ok (path, metadata)

/-- `Filesystem::lookup`. -/
def lookup (a : Adapter) (provider : Provider) (parent : Nat) (name : Bytes) :
    Except VfsError (Nat × VirtualMetadata) × Adapter :=
  match a.found provider parent name with
  | .error e => (.error e, a)
  | .ok (path, metadata) =>
    match a.cacheNode path metadata with
    | (.error e, a) => (.error e, a)
    | (.ok inode, a) => (.ok (inode, metadata), a)

/-- `Filesystem::forget`: the node cache is not told. -/
def forget (a : Adapter) (inode lookupCount : Nat) : Adapter :=
  { a with inodes := a.inodes.forget inode lookupCount }

/-- The part of `Filesystem::getattr` before the node is cached again. -/
def renewed (a : Adapter) (provider : Provider) (inode : Nat) : Except VfsError CachedNode := do
  let node ← a.node inode
  let metadata ← provider.getattr node.path
  .ok ⟨node.path, metadata⟩

/-- `Filesystem::getattr` renews the metadata and keeps the cached path. -/
def getattr (a : Adapter) (provider : Provider) (inode : Nat) :
    Except VfsError VirtualMetadata × Adapter :=
  match a.renewed provider inode with
  | .error e => (.error e, a)
  | .ok node => (.ok node.metadata, { a with nodes := a.nodes.insert inode node })

/-- `Filesystem::readlink`. -/
def readlink (a : Adapter) (provider : Provider) (inode : Nat) :
    Except VfsError VirtualPathBytes := do
  let node ← a.node inode
  if node.metadata.fileType ≠ .symlink then
    .error (.invalidInput "node is not a symlink")
  else
    let target ← provider.readLink node.path
    rewriteSymlink node.path target

/-- A row of a directory reply. -/
structure DirRow where
  inode : Nat
  kind : VirtualFileType
  name : Bytes
deriving DecidableEq

/-- The loop of `readdir`: entries before a failing one stay cached. -/
def cacheEntries (path : VirtualPath) : Adapter → List VirtualDirectoryEntry →
    Except VfsError (List DirRow) × Adapter
  | a, [] => (.ok [], a)
  | a, entry :: entries =>
    match path.join entry.name with
    | .error e => (.error e, a)
    | .ok childPath =>
      match a.cacheNode childPath entry.metadata with
      | (.error e, a) => (.error e, a)
      | (.ok inode, a) =>
        match cacheEntries path a entries with
        | (.error e, a) => (.error e, a)
        | (.ok rows, a) =>
          (.ok (⟨inode, entry.metadata.fileType, entry.name.bytes⟩ :: rows), a)

/-- The inode `readdir` answers for `..`: any cached node with the parent's path
(the first of the map here, in Rust an arbitrary one). -/
def parentInode (a : Adapter) (path : VirtualPath) : Nat :=
  ((path.parent.bind fun parent =>
    a.nodes.entries.findSome? fun e => if e.2.path = parent then some e.1 else none)).getD
      rootInode

/-- The part of `Filesystem::readdir` before its loop. -/
def listed (a : Adapter) (provider : Provider) (inode : Nat) :
    Except VfsError (CachedNode × List VirtualDirectoryEntry) := do
  let node ← a.node inode
  if node.metadata.fileType ≠ .directory then .error .notDirectory
  else
    let entries ← provider.readDir node.path
    .ok (node, entries)

/-- `Filesystem::readdir`, before the rows from `offset` on are written. -/
def readdir (a : Adapter) (provider : Provider) (inode : Nat) :
    Except VfsError (List DirRow) × Adapter :=
  match a.listed provider inode with
  | .error e => (.error e, a)
  | .ok (node, entries) =>
    match cacheEntries node.path a entries with
    | (.error e, a') => (.error e, a')
    | (.ok rows, a') =>
      (.ok (⟨inode, .directory, [dot]⟩ ::
        ⟨a.parentInode node.path, .directory, dotDot⟩ :: rows), a')

/-! ## Runs -/

inductive Call where
  | lookup (parent : Nat) (name : Bytes)
  | readdir (inode : Nat)
  | getattr (inode : Nat)
  | forget (inode lookupCount : Nat)

def after (a : Adapter) (provider : Provider) : Call → Adapter
  | .lookup parent name => (a.lookup provider parent name).2
  | .readdir inode => (a.readdir provider inode).2
  | .getattr inode => (a.getattr provider inode).2
  | .forget inode lookupCount => a.forget inode lookupCount

def machine : Machine Adapter (Provider × Call) where
  init a := ∃ provider resource daemonIdentity providerKey,
    new provider resource daemonIdentity providerKey = .ok a
  step a c := some (a.after c.1 c.2)

/-- The provider gave this metadata for this path, to a lookup or in a listing. -/
def Answers (provider : Provider) (path : VirtualPath) (metadata : VirtualMetadata) : Prop :=
  ∃ parent name, parent.join name = .ok path ∧
    (provider.lookup parent name = .ok metadata ∨
      ∃ entries, provider.readDir parent = .ok entries ∧ ⟨name, metadata⟩ ∈ entries)

/-- A call changes the adapter by caching answers of the provider, by renewing
the metadata of a cached node, or by forgetting. -/
structure Stable (provider : Provider) (I : Adapter → Prop) : Prop where
  cache : ∀ a path metadata, I a → Answers provider path metadata →
    I (a.cacheNode path metadata).2
  renew : ∀ a inode node metadata, I a → a.nodes.lookup inode = some node →
    I { a with nodes := a.nodes.insert inode ⟨node.path, metadata⟩ }
  forget : ∀ a inode lookupCount, I a → I (a.forget inode lookupCount)

variable {a : Adapter} {parent path : VirtualPath} {provider : Provider} {ns : NamespaceProvider}

variable {I : Adapter → Prop} {cached cachedNode : VirtualPath}
  {daemonIdentity providerKey : String} {inode : Nat} {metadata : VirtualMetadata}
  {r : VirtualPathBytes} {resource : DockerFilesystemResource}

theorem node_ok {n : CachedNode} (h : a.node inode = .ok n) : a.nodes.lookup inode = some n := by
  unfold node at h
  split at h
  · rename_i hn
    cases h
    exact hn
  · cases h

theorem stable_cacheEntries (hI : Stable provider I) {all : List VirtualDirectoryEntry}
    (hall : provider.readDir path = .ok all) :
    ∀ (entries : List VirtualDirectoryEntry) (a : Adapter), (∀ e ∈ entries, e ∈ all) →
      I a → I (cacheEntries path a entries).2
  | [], a, _, ha => ha
  | entry :: entries, a, hsub, ha => by
      unfold cacheEntries
      split
      · exact ha
      · rename_i childPath hjoin
        have hans : Answers provider childPath entry.metadata :=
          ⟨path, entry.name, hjoin, .inr ⟨all, hall, hsub entry (by simp)⟩⟩
        have hnext := hI.cache a childPath entry.metadata ha hans
        split
        · rename_i e a' hc
          rw [hc] at hnext
          exact hnext
        · rename_i inode a' hc
          rw [hc] at hnext
          have hrest := stable_cacheEntries hI hall entries a'
            (fun e he => hsub e (by simp [he])) hnext
          split
          · rename_i hr
            rwa [hr] at hrest
          · rename_i hr
            rwa [hr] at hrest

theorem answers_of_lookup {parent : Nat} {name : Bytes}
    (h : a.found provider parent name = .ok (path, metadata)) : Answers provider path metadata := by
  obtain ⟨node, -, h⟩ := bind_eq_ok.mp h
  obtain ⟨name, -, h⟩ := bind_eq_ok.mp h
  obtain ⟨path, hjoin, h⟩ := bind_eq_ok.mp h
  obtain ⟨metadata, hlookup, h⟩ := bind_eq_ok.mp h
  cases h
  exact ⟨node.path, name, hjoin, .inl hlookup⟩

/-- **The call rule**: what survives the three kinds of change survives every
call. -/
theorem Stable.after (hI : Stable provider I) (ha : I a) (c : Call) : I (a.after provider c) := by
  cases c with
  | lookup parent name =>
    change I (a.lookup provider parent name).2
    unfold lookup
    split
    · exact ha
    · rename_i path metadata hfound
      have hnext := hI.cache a path metadata ha (answers_of_lookup hfound)
      split
      · rename_i hc
        rwa [hc] at hnext
      · rename_i hc
        rwa [hc] at hnext
  | readdir inode =>
    change I (a.readdir provider inode).2
    unfold readdir
    split
    · exact ha
    · rename_i node entries hlisted
      obtain ⟨node', -, hlisted⟩ := bind_eq_ok.mp hlisted
      split at hlisted
      · cases hlisted
      · obtain ⟨entries', hread, hlisted⟩ := bind_eq_ok.mp hlisted
        cases hlisted
        have hnext := stable_cacheEntries hI hread entries a (fun _ he => he) ha
        split
        · rename_i hc
          rwa [hc] at hnext
        · rename_i hc
          rwa [hc] at hnext
  | getattr inode =>
    change I (a.getattr provider inode).2
    unfold getattr
    split
    · exact ha
    · rename_i node hrenewed
      obtain ⟨old, hold, hrenewed⟩ := bind_eq_ok.mp hrenewed
      obtain ⟨metadata, -, hrenewed⟩ := bind_eq_ok.mp hrenewed
      cases hrenewed
      exact hI.renew a inode old metadata ha (node_ok hold)
  | forget inode lookupCount => exact hI.forget a inode lookupCount ha

/-! ## What the cache holds -/

/-- The path `cache_node` last answered `inode` for. -/
def lastServed (a : Adapter) (inode : Nat) : Option VirtualPath :=
  (a.served.find? fun s => s.inode = inode).map Served.path

/-- The cached path of an inode is the one it was last served for, and served
paths lie below the root. -/
structure CacheSound (a : Adapter) : Prop where
  last : ∀ inode path, a.lastServed inode = some path →
    ∃ metadata, a.nodes.lookup inode = some ⟨path, metadata⟩
  belowRoot : ∀ s ∈ a.served, ∃ parent, s.path.parent = some parent

theorem parent_of_join {name : VirtualFileName} (h : parent.join name = .ok path) :
    ∃ up, path.parent = some up := by
  have hcs := VirtualPath.fromComponents_ok h
  unfold VirtualPath.parent
  rw [if_neg (by simp [hcs])]
  exact ⟨_, rfl⟩

/-- What `cache_node` does to the adapter. -/
theorem cacheNode_cases (a : Adapter) (path : VirtualPath) (metadata : VirtualMetadata) :
    ((a.cacheNode path metadata).2.nodes = a.nodes ∧
        (a.cacheNode path metadata).2.served = a.served) ∨
      ∃ inode, (a.cacheNode path metadata).1 = .ok inode ∧
        (a.cacheNode path metadata).2.nodes = a.nodes.insert inode ⟨path, metadata⟩ ∧
        (a.cacheNode path metadata).2.served = ⟨path, metadata, inode⟩ :: a.served := by
  unfold cacheNode
  split
  · exact .inl ⟨rfl, rfl⟩
  · exact .inr ⟨_, rfl, rfl, rfl⟩

theorem cacheSound_cacheNode (ha : CacheSound a) (hpath : path.parent = some parent) :
    CacheSound (a.cacheNode path metadata).2 := by
  obtain ⟨hnodes, hserved⟩ | ⟨inode, -, hnodes, hserved⟩ := cacheNode_cases a path metadata
  · refine ⟨fun i p hp => ?_, fun s hs => ?_⟩
    · rw [hnodes]
      exact ha.last i p (by rwa [lastServed, hserved] at hp)
    · exact ha.belowRoot s (hserved ▸ hs)
  · refine ⟨fun i p hp => ?_, fun s hs => ?_⟩
    · rw [lastServed, hserved] at hp
      rw [hnodes]
      by_cases hi : i = inode
      · subst hi
        simp only [List.find?_cons, decide_true, Option.map_some, Option.some.injEq] at hp
        subst hp
        exact ⟨metadata, AList.lookup_insert _⟩
      · rw [AList.lookup_insert_ne hi]
        refine ha.last i p ?_
        rwa [List.find?_cons, decide_eq_false (fun h => hi h.symm)] at hp
    · rw [hserved] at hs
      rcases List.mem_cons.mp hs with rfl | hs
      · exact ⟨parent, hpath⟩
      · exact ha.belowRoot s hs

theorem stable_cacheSound (provider : Provider) : Stable provider CacheSound where
  cache := by
    rintro a path metadata ha ⟨up, name, hjoin, -⟩
    obtain ⟨parent, hparent⟩ := parent_of_join hjoin
    exact cacheSound_cacheNode ha hparent
  renew := by
    intro a inode node metadata ha hnode
    refine ⟨fun i p hp => ?_, ha.belowRoot⟩
    obtain ⟨m, hm⟩ := ha.last i p hp
    by_cases hi : i = inode
    · subst hi
      cases hnode.symm.trans hm
      exact ⟨metadata, AList.lookup_insert _⟩
    · exact ⟨m, by rw [AList.lookup_insert_ne hi, hm]⟩
  forget := fun a _ _ ha => { ha with }

theorem cacheSound_of_new (h : new provider resource daemonIdentity providerKey = .ok a) :
    CacheSound a := by
  obtain ⟨m, -, h⟩ := bind_eq_ok.mp h
  split at h
  · cases h
  · cases h
    exact ⟨fun i p hp => by simp [lastServed] at hp, fun s hs => by cases hs⟩

theorem cacheSound_of_reach {ok : Adapter → Provider × Call → Prop} (h : machine.Reach ok a) :
    CacheSound a := by
  refine h.invariant ?_ ?_
  · rintro s ⟨provider, resource, daemonIdentity, providerKey, hnew⟩
    exact cacheSound_of_new hnew
  · rintro s ⟨provider, c⟩ s' hs - hstep
    cases hstep
    exact (stable_cacheSound provider).after hs c

/-! ## Inodes and generations -/

/-- Served inodes carry the generation they were served for. -/
structure GenerationSound (a : Adapter) : Prop where
  stamped : a.inodes.Stamped
  served : ∀ s ∈ a.served, a.inodes.stamp s.inode = some s.metadata.generation

theorem stable_generationSound (provider : Provider) : Stable provider GenerationSound where
  cache := by
    intro a path metadata ha _
    have hfor : InodeTable.Stamps a.inodes (a.nodeKey path metadata)
        (a.inodes.inodeFor (a.nodeKey path metadata) (some (a.hardlinkKey metadata))) :=
      InodeTable.stamps_inodeFor ha.stamped rfl
    unfold cacheNode
    split
    · rename_i e inodes hout
      rw [hout] at hfor
      exact ⟨hfor.stamped, fun s hs => hfor.old _ _ (ha.served s hs)⟩
    · rename_i inode inodes hout
      rw [hout] at hfor
      refine ⟨hfor.stamped, fun s hs => ?_⟩
      rcases List.mem_cons.mp hs with rfl | hs
      · exact hfor.answer inode rfl
      · exact hfor.old _ _ (ha.served s hs)
  renew := fun _ _ _ _ ha _ => { ha with }
  forget := by
    intro a inode lookupCount ha
    obtain ⟨hstamped, hstamp⟩ := InodeTable.stamped_forget ha.stamped inode lookupCount
    refine ⟨hstamped, fun s hs => ?_⟩
    change (a.inodes.forget inode lookupCount).stamp s.inode = _
    rw [hstamp]
    exact ha.served s hs

theorem generationSound_of_new (h : new provider resource daemonIdentity providerKey = .ok a) :
    GenerationSound a := by
  obtain ⟨m, -, h⟩ := bind_eq_ok.mp h
  split at h
  · cases h
  · cases h
    exact ⟨InodeTable.stamped_new, fun s hs => by cases hs⟩

/-- **One inode, one generation.** -/
theorem GenerationSound.eq (ha : GenerationSound a) {s s' : Served} (hs : s ∈ a.served)
    (hs' : s' ∈ a.served) (hinode : s.inode = s'.inode) :
    s.metadata.generation = s'.metadata.generation := by
  have h := ha.served s hs
  rw [hinode, ha.served s' hs'] at h
  exact (Option.some.inj h).symm

/-! ## Links seen under several names -/

/-- The namespace's link at `path` is absolute and denotes the node `node`. -/
def Denotes (ns : NamespaceProvider) (path node : VirtualPath) : Prop :=
  ∃ target, ns.readLink path = .ok target ∧ target.isAbsolute = true ∧
    VirtualPath.fromAbsolute target.bytes = .ok node

/-- The text `r`, read as a link at `path`, leads to what the namespace says the
link at `path` denotes. -/
def RightAt (ns : NamespaceProvider) (path : VirtualPath) (r : VirtualPathBytes) : Prop :=
  ∃ node parent, Denotes ns path node ∧ path.parent = some parent ∧
    resolveTarget parent r = .ok node

/-- `path` agrees with the alias `cached` of the same inode, whose link denotes
`cachedNode`: it is at least as deep, and its link denotes `cachedNode` put below
the first `path.depth - cached.depth` components of `path`. -/
def Aligned (ns : NamespaceProvider) (path cached cachedNode : VirtualPath) : Prop :=
  cached.depth ≤ path.depth ∧
    ∃ node, Denotes ns path node ∧
      node.components =
        path.components.take (path.depth - cached.depth) ++ cachedNode.components

theorem readlink_ok {node : CachedNode} (hnode : a.nodes.lookup inode = some node)
    (hr : a.readlink ns.toProvider inode = .ok r) : ns.readlinkText node.path = .ok r := by
  obtain ⟨n, hn, hr⟩ := bind_eq_ok.mp hr
  cases hnode.symm.trans (node_ok hn)
  split at hr
  · cases hr
  · exact hr

/-- **One alias**: the text written for `cached` is right at `path` exactly when
the two are aligned. -/
theorem rightAt_iff_aligned (hpath : path.parent = some parent)
    (hcached : Denotes ns cached cachedNode) (hr : ns.readlinkText cached = .ok r) :
    RightAt ns path r ↔ Aligned ns path cached cachedNode := by
  obtain ⟨target, hread, habs, hnode⟩ := hcached
  unfold NamespaceProvider.readlinkText at hr
  rw [hread] at hr
  obtain ⟨up, q, hup, hq, hbytes⟩ := rewriteSymlink_absolute habs hr
  cases hnode.symm.trans hq
  obtain ⟨last, hlast⟩ := NamespaceProvider.parent_components hpath
  obtain ⟨lastc, hlastc⟩ := NamespaceProvider.parent_components hup
  have hdepth : path.depth = parent.depth + 1 := by simp [VirtualPath.depth, hlast]
  have hdepthc : cached.depth = up.depth + 1 := by simp [VirtualPath.depth, hlastc]
  have htake : path.components.take (path.depth - cached.depth) =
      parent.components.take (parent.depth - up.depth) := by
    rw [hlast, show path.depth - cached.depth = parent.depth - up.depth by omega,
      List.take_append_of_le_length (by unfold VirtualPath.depth; omega)]
  unfold RightAt Aligned
  rw [htake]
  constructor
  · rintro ⟨node, parent', hdenotes, hp', hres⟩
    cases hpath.symm.trans hp'
    rw [resolveTarget_relText hbytes] at hres
    split at hres
    · rename_i hle
      exact ⟨by omega, node, hdenotes, VirtualPath.fromComponents_ok hres⟩
    · cases hres
  · rintro ⟨hle, node, hdenotes, hcs⟩
    refine ⟨node, parent, hdenotes, hpath, ?_⟩
    rw [resolveTarget_relText hbytes, if_pos (by omega), ← hcs]
    exact VirtualPath.fromComponents_components node

/-- One volume seen at the mounts `m` and `n` under the same relative path: the
text written for `n` is right at `m` when `n` is a suffix of `m`. -/
theorem aligned_iff_suffix {node : VirtualPath} {m n rel target : List VirtualFileName}
    (hpath : path.components = m ++ rel) (hcached : cached.components = n ++ rel)
    (hnode : node.components = m ++ target) (hcachedNode : cachedNode.components = n ++ target)
    (hdenotes : Denotes ns path node) : Aligned ns path cached cachedNode ↔ n <:+ m := by
  have hdepth : path.depth - cached.depth = m.length - n.length := by
    simp only [VirtualPath.depth, hpath, hcached, List.length_append]
    omega
  have htake : path.components.take (m.length - n.length) = m.take (m.length - n.length) := by
    rw [hpath, List.take_append_of_le_length (Nat.sub_le _ _)]
  unfold Aligned
  rw [hdepth, htake]
  constructor
  · rintro ⟨-, node', ⟨t, ht, -, hpt⟩, hcs⟩
    obtain ⟨t', ht', -, hpt'⟩ := hdenotes
    cases ht.symm.trans ht'
    cases hpt.symm.trans hpt'
    rw [hnode, hcachedNode, ← List.append_assoc] at hcs
    exact ⟨_, (List.append_cancel_right hcs).symm⟩
  · rintro ⟨pre, rfl⟩
    refine ⟨by simp [VirtualPath.depth, hpath, hcached], node, hdenotes, ?_⟩
    simp [hnode, hcachedNode]

/-- **Links of merged inodes.** In every reachable state, let `p` and `q` have
been served with the inode `i`, let `c` be the path `i` was served for last, and
let its link be absolute. The text a `readlink` of `i` answers leads from `p` and
from `q` to what the namespace says exactly when both are aligned with `c`. -/
theorem readlink_aliases_iff {a : Adapter} (ha : machine.Reach (fun _ _ => True) a)
    {ns : NamespaceProvider} {i : Nat} {p q c nodeC : VirtualPath}
    {mp mq : VirtualMetadata} {r : VirtualPathBytes}
    (hp : ⟨p, mp, i⟩ ∈ a.served) (hq : ⟨q, mq, i⟩ ∈ a.served)
    (hc : a.lastServed i = some c) (hnodeC : Denotes ns c nodeC)
    (hr : a.readlink ns.toProvider i = .ok r) :
    (RightAt ns p r ∧ RightAt ns q r) ↔
      (Aligned ns p c nodeC ∧ Aligned ns q c nodeC) := by
  have hsound := cacheSound_of_reach ha
  obtain ⟨m, hm⟩ := hsound.last _ _ hc
  have htext := readlink_ok hm hr
  obtain ⟨parentP, hparentP⟩ := hsound.belowRoot _ hp
  obtain ⟨parentQ, hparentQ⟩ := hsound.belowRoot _ hq
  rw [rightAt_iff_aligned hparentP hnodeC htext, rightAt_iff_aligned hparentQ hnodeC htext]

/-- A volume with one link `/link -> /file`, shown below `inner` in the tree of
`owner`. -/
def linkVolume (owner : String) (inner : VirtualPath) : Provider where
  lookup _ _ := .error .notFound
  getattr path :=
    if path.components = inner.components ++ (pathOf "/link").components then
      .ok { VirtualMetadata.symlink (ascii "volume:link") 5 with generation := 1 }
    else .ok (VirtualMetadata.directory (ascii owner ++ path.asBytes))
  readDir _ := .error .notFound
  readLink _ := .ok (targetOf "/file")

/-- The volume mounted at `m`, and below `inner` in what is mounted at `n`. -/
def sharedVolume (m n inner : VirtualPath) : NamespaceProvider where
  mounts := (AList.singleton n ⟨"second", linkVolume "second" inner⟩).insert m
    ⟨"first", linkVolume "first" VirtualPath.root⟩
  aliases := ∅

def fresh : Adapter where
  resource := .volume "namespace"
  daemonIdentity := "daemon"
  providerKey := "docker-namespace"
  inodes := InodeTable.new
  nodes := AList.singleton rootInode
    ⟨VirtualPath.root, NamespaceProvider.syntheticMetadata VirtualPath.root⟩
  served := []

def lookups (ns : NamespaceProvider) (steps : List (Nat × String)) : List (Provider × Call) :=
  steps.map fun s => (ns.toProvider, .lookup s.1 (ascii s.2))

def run (calls : List (Provider × Call)) : Adapter :=
  calls.foldl (fun a c => a.after c.1 c.2) fresh

theorem reach_run (calls : List (Provider × Call)) :
    machine.Reach (fun _ _ => True) (run calls) := by
  have hexec : ∀ (cs : List (Provider × Call)) (a : Adapter),
      machine.exec a cs = some (cs.foldl (fun a c => a.after c.1 c.2) a) := by
    intro cs
    induction cs with
    | nil => exact fun a => rfl
    | cons c cs ih => exact fun a => ih (a.after c.1 c.2)
  refine Machine.reach_of_exec (.init ?_)
    (Machine.allSteps_of_forall (fun _ _ => trivial) calls fresh) (hexec calls fresh)
  exact ⟨NamespaceProvider.new.toProvider, .volume "namespace", "daemon", "docker-namespace",
    rfl⟩

/-- The volume `v`, and the container `c` that has it at `/data`; the link is
looked up in the volume first and in the container afterwards. -/
def volumeThenContainer : List (Nat × String) :=
  [(1, "volumes"), (2, "v"), (3, "link"), (1, "containers"), (5, "c"), (6, "data"), (7, "link")]

def linkMetadata : VirtualMetadata :=
  { VirtualMetadata.symlink (ascii "volume:link") 5 with generation := 1 }

/-- After the container's name for the link, `readlink` answers
`../../../containers/c/file`, which climbs above the root from `/volumes/v`. -/
theorem readlink_wrong_for_first_alias :
    let ns := sharedVolume (pathOf "/volumes/v") (pathOf "/containers/c") (pathOf "/data")
    let a := run (lookups ns volumeThenContainer)
    machine.Reach (fun _ _ => True) a ∧
      ⟨pathOf "/volumes/v/link", linkMetadata, 4⟩ ∈ a.served ∧
      ⟨pathOf "/containers/c/data/link", linkMetadata, 4⟩ ∈ a.served ∧
      Denotes ns (pathOf "/volumes/v/link") (pathOf "/volumes/v/file") ∧
      a.readlink ns.toProvider 4 = .ok (targetOf "../../../containers/c/file") ∧
      ¬ RightAt ns (pathOf "/volumes/v/link") (targetOf "../../../containers/c/file") := by
  intro ns a
  refine ⟨reach_run _, by decide, by decide, ?_, by decide, ?_⟩
  · exact ⟨targetOf "/volumes/v/file", by decide, by decide, by decide⟩
  · rintro ⟨node, parent, -, hparent, hres⟩
    have hup : (pathOf "/volumes/v/link").parent = some (pathOf "/volumes/v") := by decide
    cases hup.symm.trans hparent
    have hescape : resolveTarget (pathOf "/volumes/v")
        (targetOf "../../../containers/c/file") = .error .symlinkEscape := by decide
    rw [hescape] at hres
    cases hres

/-- A volume mounted at `/a/b` and at `/b`: the text written for the second is
right for both. -/
theorem readlink_right_for_suffix_mount :
    let ns := sharedVolume (pathOf "/a/b") (pathOf "/b") VirtualPath.root
    RightAt ns (pathOf "/a/b/link") (targetOf "../b/file") ∧
      RightAt ns (pathOf "/b/link") (targetOf "../b/file") := by
  intro ns
  have hsecond : Denotes ns (pathOf "/b/link") (pathOf "/b/file") :=
    ⟨targetOf "/b/file", by decide, by decide, by decide⟩
  have hfirst : Denotes ns (pathOf "/a/b/link") (pathOf "/a/b/file") :=
    ⟨targetOf "/a/b/file", by decide, by decide, by decide⟩
  let a := run (lookups ns [(1, "a"), (2, "b"), (3, "link"), (1, "b"), (5, "link")])
  have hp : ⟨pathOf "/a/b/link", linkMetadata, 4⟩ ∈ a.served := by decide
  have hq : ⟨pathOf "/b/link", linkMetadata, 4⟩ ∈ a.served := by decide
  refine (readlink_aliases_iff (reach_run _) hp hq (by decide) hsecond (by decide)).mpr ⟨?_, ?_⟩
  · exact ⟨by decide, pathOf "/a/b/file", hfirst, by decide⟩
  · exact ⟨by decide, pathOf "/b/file", hsecond, by decide⟩

end Adapter

end TuxStack.Vfs
