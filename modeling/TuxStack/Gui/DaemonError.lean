import Mathlib.Tactic.Common

/-!
# Errors of the daemon

`DaemonError` of `crates/tuxstack-client/src/services.rs`, which the pages of the GUI turn
into what they show.
-/

namespace TuxStack.Gui

inductive DaemonError where
  | daemonUnavailable (message : String)
  | socketNotFound (path : String)
  | engineUnavailable
  | connectionTimeout
  | permissionDenied
  | operationTimeout
  | operationCancelled
  | containerNotFound (id : String)
  | imageNotFound (id : String)
  | networkNotFound (id : String)
  | volumeNotFound (name : String)
  | conflict (message : String)
  | invalidRequest (message : String)
  | invalidContainerConfig (message : String)
  | invalidImageReference (message : String)
  | invalidNetworkConfig (message : String)
  | invalidVolumeName (message : String)
  | invalidResponse (message : String)
  | networkProtected (message : String)
  | networkInUse (message : String)
  | volumeInUse (message : String)
  | volumeAlreadyExists (message : String)
  | volumeDriverUnavailable (message : String)
  | volumePluginError (message : String)
  | registryAuthenticationFailed
  | registryUnavailable (message : String)
  | pullFailed (message : String)
  | exportFailed (message : String)
  | cloneFailed (message : String)
  | cleanupFailed (message : String)
  | destinationPermissionDenied (path : String)
  | diskFull (path : String)
  | api (message : String)
  | fuseUnavailable (message : String)
  | providerUnavailable (message : String)
  | internal (message : String)
deriving DecidableEq

/-- `Display for DaemonError`. -/
def DaemonError.display : DaemonError → String
  | daemonUnavailable message => "TuxStack service is unavailable: " ++ message
  | socketNotFound path => "control socket is unavailable: " ++ path
  | engineUnavailable => "Docker Engine is unavailable"
  | connectionTimeout => "connection timed out"
  | permissionDenied => "permission denied"
  | operationTimeout => "operation timed out"
  | operationCancelled => "operation cancelled"
  | containerNotFound id => "container not found: " ++ id
  | imageNotFound id => "image not found: " ++ id
  | networkNotFound id => "network not found: " ++ id
  | volumeNotFound name => "volume not found: " ++ name
  | conflict message => "conflict: " ++ message
  | invalidRequest message => "invalid request: " ++ message
  | invalidContainerConfig message => "invalid container configuration: " ++ message
  | invalidImageReference message => "invalid image reference: " ++ message
  | invalidNetworkConfig message => "invalid network configuration: " ++ message
  | invalidVolumeName message => "invalid volume name: " ++ message
  | invalidResponse message => "invalid daemon response: " ++ message
  | networkProtected message => "network is protected: " ++ message
  | networkInUse message => "network is in use: " ++ message
  | volumeInUse message => "volume is in use: " ++ message
  | volumeAlreadyExists message => "volume already exists: " ++ message
  | volumeDriverUnavailable message => "volume driver is unavailable: " ++ message
  | volumePluginError message => "volume plugin failed: " ++ message
  | registryAuthenticationFailed => "registry authentication failed"
  | registryUnavailable message => "registry is unavailable: " ++ message
  | pullFailed message => "image pull failed: " ++ message
  | exportFailed message => "volume export failed: " ++ message
  | cloneFailed message => "volume clone failed: " ++ message
  | cleanupFailed message => "operation cleanup failed: " ++ message
  | destinationPermissionDenied path => "destination permission denied: " ++ path
  | diskFull path => "destination is full: " ++ path
  | api message => "daemon API failed: " ++ message
  | fuseUnavailable message => "FUSE filesystem is unavailable: " ++ message
  | providerUnavailable message => "provider is unavailable: " ++ message
  | internal message => "daemon request failed: " ++ message

end TuxStack.Gui
