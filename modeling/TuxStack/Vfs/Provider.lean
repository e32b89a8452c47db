import TuxStack.Vfs.Path

/-!
# Metadata and providers

`crates/tuxstack-vfs/src/model.rs` and the trait of `provider.rs`. A provider is
what it answers: one function for each read-only trait method the namespace and
the adapter call. The request context is not read by any modelled code and is
left out; a value of `Provider` is the provider at one instant.
-/

namespace TuxStack.Vfs

inductive VirtualFileType where
  | regularFile
  | directory
  | symlink
  | characterDevice
  | blockDevice
  | namedPipe
  | socket
deriving DecidableEq, Repr

structure OriginalMetadata where
  mode : Nat
  uid : Nat
  gid : Nat
deriving DecidableEq, Repr

/-- `VirtualMetadata`; `mtime` in seconds relative to the epoch. -/
structure VirtualMetadata where
  nodeId : Bytes
  fileType : VirtualFileType
  size : Nat
  nlink : Nat
  mtime : Int
  original : OriginalMetadata
  deviceId : Option Nat
  generation : Nat
deriving DecidableEq, Repr

namespace VirtualMetadata

/-- The private `VirtualMetadata::new`, with the default mode of each type. -/
def new (nodeId : Bytes) (fileType : VirtualFileType) (size : Nat) : VirtualMetadata where
  nodeId := nodeId
  fileType := fileType
  size := size
  nlink := 1
  mtime := 0
  original :=
    { mode :=
        match fileType with
        | .directory => 0o755
        | .symlink => 0o777
        | _ => 0o644
      uid := 0
      gid := 0 }
  deviceId := none
  generation := 0

def directory (nodeId : Bytes) : VirtualMetadata := new nodeId .directory 0

def symlink (nodeId : Bytes) (size : Nat) : VirtualMetadata := new nodeId .symlink size

end VirtualMetadata

structure VirtualDirectoryEntry where
  name : VirtualFileName
  metadata : VirtualMetadata
deriving DecidableEq

structure ProviderFileHandle where
  id : Nat
  path : VirtualPath
  contentGeneration : Nat
deriving DecidableEq

/-- `is_read_only_open`: no write access and none of `O_CREAT`, `O_EXCL`,
`O_TRUNC`, `O_APPEND`. -/
def isReadOnlyOpen (flags : BitVec 32) : Bool :=
  flags &&& 3 = 0 && flags &&& 0o3300 = 0

/-- `ReadOnlyFilesystemProvider`: the metadata and link methods. -/
structure Provider where
  lookup : VirtualPath → VirtualFileName → Except VfsError VirtualMetadata
  getattr : VirtualPath → Except VfsError VirtualMetadata
  readDir : VirtualPath → Except VfsError (List VirtualDirectoryEntry)
  readLink : VirtualPath → Except VfsError VirtualPathBytes

end TuxStack.Vfs
