import TuxStack.Lib.LexicalPath
import TuxStack.Lib.LongestPrefix
import TuxStack.Lib.Separated
import TuxStack.Lib.Result
import TuxStack.Lib.Utf8
import TuxStack.Lib.Runs
import TuxStack.Lib.Tasks
import TuxStack.Lib.ChunkSource
import TuxStack.Lib.ShortReads
import TuxStack.Lib.Effects
import TuxStack.Lib.FrameReader
import TuxStack.Lib.MapWeight
import TuxStack.Lib.Sql
import TuxStack.Lib.AssocList
import TuxStack.Lib.FileTree
import TuxStack.Lib.PathComponents
import TuxStack.Lib.TreeWalks
import TuxStack.Lib.SortedKeys
import TuxStack.Lib.BlockStream
import TuxStack.Lib.Blocks
import TuxStack.Lib.HostFiles
import TuxStack.Lib.DistinctKeys
import TuxStack.Lib.IpAddr
import TuxStack.Lib.Lines
import TuxStack.Lib.BoundedHistory
import TuxStack.Lib.Votes
import TuxStack.Lib.Sha2
import TuxStack.Vfs.Path
import TuxStack.Vfs.PathLaws
import TuxStack.Vfs.NameCodec
import TuxStack.Vfs.CollisionSuffix
import TuxStack.Vfs.Symlink
import TuxStack.Vfs.LinkRewriting
import TuxStack.Vfs.Provider
import TuxStack.Vfs.Namespace
import TuxStack.Vfs.Walk
import TuxStack.Vfs.NamespaceListing
import TuxStack.Vfs.Inode
import TuxStack.Vfs.InodeHistory
import TuxStack.Vfs.Adapter
import TuxStack.Vfs.Handle
import TuxStack.Vfs.OpenFiles
import TuxStack.Tar.Header
import TuxStack.Tar.Reader
import TuxStack.Tar.Extensions
import TuxStack.Tar.Index
import TuxStack.Tar.Tree
import TuxStack.Tar.Persisted
import TuxStack.Tar.Chunking
import TuxStack.Tar.Members
import TuxStack.Tar.Bodies
import TuxStack.Tar.Pax
import TuxStack.Tar.Writer
import TuxStack.Docker.Container
import TuxStack.Docker.MountOverlays
import TuxStack.Docker.MountedListing
import TuxStack.Docker.HardlinkContent
import TuxStack.Docker.Identity
import TuxStack.Docker.Listing
import TuxStack.Docker.Routing
import TuxStack.Docker.Spool
import TuxStack.Docker.SpoolAccounts
import TuxStack.Docker.SpoolContent
import TuxStack.Docker.Archive
import TuxStack.Docker.Subtree
import TuxStack.Docker.Events
import TuxStack.Docker.VolumeClone
import TuxStack.Docker.VolumeExport
import TuxStack.Docker.CreateContainer
import TuxStack.Docker.HelperCore
import TuxStack.Docker.HelperFreshness
import TuxStack.Docker.HelperShutdown
import TuxStack.Docker.SnapshotGenerations
import TuxStack.Docker.TerminalStates
import TuxStack.Docker.TerminalSession
import TuxStack.Docker.TerminalOutput
import TuxStack.FsHelper.Token
import TuxStack.FsHelper.Listing
import TuxStack.FsHelper.CommandLine
import TuxStack.FsHelper.Pagination
import TuxStack.FsHelper.Confinement
import TuxStack.FsHelper.RealPath
import TuxStack.FsHelper.ReadLink
import TuxStack.FsHelper.Preview
import TuxStack.FsHelper.CanonicalBase64
import TuxStack.FsHelper.Sha256
import TuxStack.Docker.HelperClient
import TuxStack.Docker.EventBatches
import TuxStack.Docker.HelperHandles
import TuxStack.Docker.ImageListOrder
import TuxStack.Docker.Sha256Hex
import TuxStack.Ipc.Protocol
import TuxStack.Ipc.Framing
import TuxStack.Ipc.Daemon
import TuxStack.Ipc.Client
import TuxStack.Ipc.System
import TuxStack.Ipc.Generations
import TuxStack.Ipc.Numbering
import TuxStack.Ipc.Limits
import TuxStack.Ipc.Streams
import TuxStack.Ipc.Delivery
import TuxStack.Ipc.Terminals
import TuxStack.Ipc.Termination
import TuxStack.Ipc.Responses
import TuxStack.Ipc.Socket
import TuxStack.Ipc.Pending
import TuxStack.Ipc.SessionClosing
import TuxStack.Ipc.SessionSimulation
import TuxStack.Ipc.ImageExport
import TuxStack.Daemon.Plan
import TuxStack.Daemon.Rebuild
import TuxStack.Daemon.MountState
import TuxStack.Daemon.Changes
import TuxStack.Daemon.Holdings
import TuxStack.Daemon.ResourceRefresh
import TuxStack.Ipc.ResourceChanges
import TuxStack.Cache.Coordinator
import TuxStack.Cache.Persistent
import TuxStack.Cache.WriteBehind
import TuxStack.Cache.Isolation
import TuxStack.Cache.VolumeUsage
import TuxStack.Gui.FileBrowser
import TuxStack.Gui.Containers
import TuxStack.Gui.InspectResults
import TuxStack.Gui.LogStreams
import TuxStack.Gui.TerminalIsolation
import TuxStack.Gui.TerminalPreference
import TuxStack.Gui.SinceFilter
import TuxStack.Gui.ContainerStats
import TuxStack.Gui.ComposeOrder
import TuxStack.Gui.ContainerSections
import TuxStack.Gui.VolumeRows
import TuxStack.Gui.VolumeSelection
import TuxStack.Gui.VolumePatches
import TuxStack.Gui.TokenPaths
import TuxStack.FsHelper.PathTokens
import TuxStack.Vfs.DirectoryPages
