import Mathlib.Data.List.Destutter
import TuxStack.Tar.Index
import TuxStack.Vfs.Adapter

/-!
# Containers in the namespace

`crates/docker-core/src/vfs_providers/container.rs` and
`crates/tuxstack-vfs/src/router.rs`: the snapshot of a container's root
filesystem, the router that lays the container's mounts over it, and the
directories on the way to a mount that the router makes up (synthetic
mount-route directories).

The providers are shared by reference in Rust; here the snapshot provider is a
field of the router and the path router is given its answers when it routes.
Locks and timeouts are left out: a capture that times out is a failed export.
-/

namespace TuxStack.Docker

open Vfs Tar Result

/-- `validate_identity`: 64 hexadecimal digits. -/
def validateIdentity (identity : String) : Except VfsError Unit :=
  if identity.length = 64 ∧ identity.toList.all fun c =>
      c.isDigit || ('a' ≤ c && c ≤ 'f') || ('A' ≤ c && c ≤ 'F') then .ok ()
  else .error (.invalidInput "container snapshot identity must be a full immutable container ID")

/-! ## The snapshot of the root filesystem -/

structure SnapshotState where
  index : TarIndex
  generation : Nat

structure ContainerRootfsSnapshotProvider where
  immutableContainerId : String
  generation : Nat
  limits : TarLimits
  mounts : List VirtualPath
  state : Option SnapshotState

def applyMountOverlay (maxEntries : Nat) (index : TarIndex) (destination : VirtualPath) :
    Except VfsError TarIndex :=
  let path := TarPath.fromVirtual destination
  let index := index.removeDescendants path
  if (index.get path).isSome then .ok (index.put (TarEntry.syntheticDirectory path))
  else index.insertSyntheticDirectory path maxEntries

def applyMountOverlays (index : TarIndex) (mounts : List VirtualPath) (maxEntries : Nat) :
    Except VfsError TarIndex :=
  mounts.foldlM (applyMountOverlay maxEntries) index

namespace ContainerRootfsSnapshotProvider

def overlayLe (left right : VirtualPath) : Bool :=
  left.depth < right.depth ||
    (left.depth = right.depth && (compare left.asBytes right.asBytes).isLE)

/-- `ContainerRootfsSnapshotProvider::new`. -/
def new (immutableContainerId : String) (generation : Nat) (limits : TarLimits)
    (mounts : List VirtualPath) : Except VfsError ContainerRootfsSnapshotProvider := do
  validateIdentity immutableContainerId
  limits.validate
  .ok
    { immutableContainerId := immutableContainerId
      generation := generation
      limits := limits
      mounts := (mounts.mergeSort overlayLe).destutter (· ≠ ·)
      state := none }

def captureGeneration (p : ContainerRootfsSnapshotProvider)
    (exported : Except VfsError ArchiveByteStream) (generation : Nat) :
    Except VfsError ContainerRootfsSnapshotProvider := do
  let stream ← exported
  let index ← TarIndex.fromStream stream p.limits
  let index ← applyMountOverlays index p.mounts p.limits.maxEntries
  .ok { p with generation := generation, state := some ⟨index, generation⟩ }

/-- `capture`; a failed capture changes nothing. -/
def capture (p : ContainerRootfsSnapshotProvider) (exported : Except VfsError ArchiveByteStream) :
    Except VfsError ContainerRootfsSnapshotProvider :=
  p.captureGeneration exported p.generation

/-- `refresh`: the next generation, counted up from the provider's own one. -/
def refresh (p : ContainerRootfsSnapshotProvider) (exported : Except VfsError ArchiveByteStream) :
    Except VfsError ContainerRootfsSnapshotProvider :=
  if p.generation + 1 ≤ u64Max then p.captureGeneration exported (p.generation + 1)
  else .error (.unavailable "snapshot generation exhausted")

/-- `identity_prefix`: the container and the generation. -/
def identityPrefix (p : ContainerRootfsSnapshotProvider) (generation : Nat) : Bytes :=
  ascii ("container:" ++ p.immutableContainerId ++ ":" ++ toString generation)

def rootMetadata (p : ContainerRootfsSnapshotProvider) : VirtualMetadata :=
  { VirtualMetadata.directory (p.identityPrefix p.generation) with generation := p.generation }

/-- `snapshot`, when a capture that is still to be made fails with `failure`; one
that succeeds is a `capture` before. -/
def snapshot (p : ContainerRootfsSnapshotProvider) (failure : VfsError) :
    Except VfsError SnapshotState :=
  match p.state with
  | some state => .ok state
  | none => .error failure

def stat (p : ContainerRootfsSnapshotProvider) (failure : VfsError) (path : VirtualPath) :
    Except VfsError VirtualMetadata := do
  let snapshot ← p.snapshot failure
  match snapshot.index.getVirtual path with
  | none => .error .notFound
  | some entry =>
    snapshot.index.metadata entry.path (p.identityPrefix snapshot.generation)
      snapshot.generation

def toProvider (p : ContainerRootfsSnapshotProvider) (failure : VfsError) : Provider where
  lookup parent name := do
    let path ← parent.join name
    p.stat failure path
  getattr path := if path.isRoot then .ok p.rootMetadata else p.stat failure path
  readDir path := do
    let snapshot ← p.snapshot failure
    snapshot.index.directoryEntries path (p.identityPrefix snapshot.generation)
      snapshot.generation
  readLink path := do
    let snapshot ← p.snapshot failure
    match snapshot.index.getVirtual path with
    | none => .error .notFound
    | some entry =>
      if entry.kind ≠ .symlink then .error (.invalidInput "node is not a symlink")
      else VirtualPathBytes.new (entry.linkTarget.getD [])

end ContainerRootfsSnapshotProvider

/-! ## Routing -/

structure ResolvedContainerMount where
  destination : VirtualPath
  providerKey : String
  providerRoot : VirtualPath
  provider : Provider

structure ResolvedRoute where
  providerKey : String
  providerPath : VirtualPath
  provider : Provider
  mount : Option ResolvedContainerMount

structure ContainerPathRouter where
  containerId : String
  mounts : List ResolvedContainerMount
  rootfsKey : String

namespace ContainerPathRouter

def mountLe (left right : ResolvedContainerMount) : Bool :=
  right.destination.depth < left.destination.depth ||
    (left.destination.depth = right.destination.depth &&
      (compare left.destination.asBytes right.destination.asBytes).isLE)

def new (containerId rootfsKey : String) (mounts : List ResolvedContainerMount) :
    Except VfsError ContainerPathRouter :=
  if mounts.any fun mount => mount.destination.isRoot then
    .error (.invalidInput "a mount cannot replace the container root")
  else .ok ⟨containerId, mounts.mergeSort mountLe, rootfsKey⟩

/-- `ContainerPathRouter::route`: the first, hence deepest, mount that is a
component prefix, and the path below its provider root. -/
def route (router : ContainerPathRouter) (rootfs : Provider) (path : VirtualPath) :
    Except VfsError ResolvedRoute :=
  match router.mounts.find? fun mount => path.startsWith mount.destination with
  | some mount => do
      let providerPath ← VirtualPath.fromComponents
        (mount.providerRoot.components ++ path.components.drop mount.destination.depth)
      .ok ⟨mount.providerKey, providerPath, mount.provider, some mount⟩
  | none => .ok ⟨router.rootfsKey, path, rootfs, none⟩

end ContainerPathRouter

structure ContainerProviderRouter where
  router : ContainerPathRouter
  rootfs : ContainerRootfsSnapshotProvider

namespace ContainerProviderRouter

def new (containerId : String) (rootfs : ContainerRootfsSnapshotProvider)
    (mounts : List ResolvedContainerMount) : Except VfsError ContainerProviderRouter := do
  validateIdentity containerId
  let router ← ContainerPathRouter.new containerId ("rootfs:" ++ toString rootfs.generation) mounts
  .ok ⟨router, rootfs⟩

/-- The private `route`, with the key of the current root snapshot. -/
def route (c : ContainerProviderRouter) (failure : VfsError) (path : VirtualPath) :
    Except VfsError ResolvedRoute := do
  let route ← c.router.route (c.rootfs.toProvider failure) path
  if route.mount.isNone then
    .ok { route with providerKey := "rootfs:" ++ toString c.rootfs.generation }
  else .ok route

def isMountRouteParent (c : ContainerProviderRouter) (path : VirtualPath) : Bool :=
  c.router.mounts.any fun mount =>
    path.depth < mount.destination.depth && mount.destination.startsWith path

/-- `synthetic_mount_route_metadata`: the identity is the path alone, the
generation is that of the root snapshot. -/
def syntheticMountRouteMetadata (c : ContainerProviderRouter) (path : VirtualPath) :
    VirtualMetadata :=
  { VirtualMetadata.directory (ascii "container-mount-route:" ++ path.asBytes) with
    generation := c.rootfs.generation }

/-- Replace the metadata of the first entry of that name, or add one. -/
def setEntry (name : VirtualFileName) (metadata : VirtualMetadata) :
    List VirtualDirectoryEntry → List VirtualDirectoryEntry
  | [] => [⟨name, metadata⟩]
  | entry :: entries =>
    if entry.name = name then ⟨entry.name, metadata⟩ :: entries
    else entry :: setEntry name metadata entries

def mergeMount (c : ContainerProviderRouter) (path : VirtualPath)
    (entries : List VirtualDirectoryEntry) (mount : ResolvedContainerMount) :
    Except VfsError (List VirtualDirectoryEntry) :=
  if mount.destination.depth ≤ path.depth ∨ !mount.destination.startsWith path then .ok entries
  else
    match mount.destination.components[path.depth]? with
    | none => .ok entries
    | some name => do
        let child ← path.join name
        let metadata ←
          if child = mount.destination then mount.provider.getattr mount.providerRoot
          else .ok (c.syntheticMountRouteMetadata child)
        .ok (setEntry name metadata entries)

def mergeMountRouteChildren (c : ContainerProviderRouter) (path : VirtualPath)
    (entries : List VirtualDirectoryEntry) : Except VfsError (List VirtualDirectoryEntry) := do
  let merged ← c.router.mounts.foldlM (c.mergeMount path) entries
  .ok (merged.mergeSort fun left right => (compare left.name.bytes right.name.bytes).isLE)

/-- `getattr`, behind `lookup` too. -/
def getattr (c : ContainerProviderRouter) (failure : VfsError) (path : VirtualPath) :
    Except VfsError VirtualMetadata := do
  let route ← c.route failure path
  let isExactMount := route.mount.any fun mount => mount.destination = path
  if c.isMountRouteParent path && !isExactMount then .ok (c.syntheticMountRouteMetadata path)
  else route.provider.getattr route.providerPath

/-- `read_dir`: a missing lower directory is an empty one on the way to a mount. -/
def readDir (c : ContainerProviderRouter) (failure : VfsError) (path : VirtualPath) :
    Except VfsError (List VirtualDirectoryEntry) := do
  let route ← c.route failure path
  match route.provider.readDir route.providerPath with
  | .ok entries => c.mergeMountRouteChildren path entries
  | .error e =>
    if (e = .notFound ∨ e = .notDirectory) ∧ c.isMountRouteParent path then
      c.mergeMountRouteChildren path []
    else .error e

def toProvider (c : ContainerProviderRouter) (failure : VfsError) : Provider where
  lookup parent name := do
    let path ← parent.join name
    c.getattr failure path
  getattr := c.getattr failure
  readDir := c.readDir failure
  readLink path := do
    let route ← c.route failure path
    route.provider.readLink route.providerPath

/-- `refresh(None)`: only the root snapshot. -/
def refresh (c : ContainerProviderRouter) (exported : Except VfsError ArchiveByteStream) :
    Except VfsError ContainerProviderRouter := do
  let rootfs ← c.rootfs.refresh exported
  .ok { c with rootfs := rootfs }

def capture (c : ContainerProviderRouter) (exported : Except VfsError ArchiveByteStream) :
    Except VfsError ContainerProviderRouter := do
  let rootfs ← c.rootfs.capture exported
  .ok { c with rootfs := rootfs }

end ContainerProviderRouter

end TuxStack.Docker
