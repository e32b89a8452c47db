import TuxStack.Vfs.Path

/-!
# Frames between client and daemon

The part of `crates/tuxstack-protocol/src/lib.rs` that the client library
(`crates/tuxstack-client/src/lib.rs`) and the daemon's connection loop
(`crates/tuxstack-daemon/src/ipc.rs`) act on. Payloads that neither side looks
into (statuses, statistics, log lines, Docker requests and answers) are byte
strings.

Two fields are history variables: the `serial` of a `Subscribed` frame counts
the subscriptions that its connection has accepted, and the `issuer` of an envelope
is the `Subscription` on whose behalf the client sent it. The daemon numbers
subscriptions from 1 on every connection and its counter wraps, so a `SubscriptionId`
names a subscription neither across connections nor, in principle, on one.
-/

namespace TuxStack.Ipc

open Vfs

abbrev RequestId : Type := Nat
abbrev SubscriptionId : Type := Nat

/-- `u64::wrapping_add(1)`. -/
def wrappingSucc (n : Nat) : Nat := (n + 1) % 2 ^ 64

/-! ## Errors and answers -/

inductive ProtocolErrorCode where
  | invalidRequest
  | notFound
  | conflict
  | permissionDenied
  | daemonUnavailable
  | dockerUnavailable
  | fuseUnavailable
  | providerUnavailable
  | operationTimedOut
  | cancelled
  | resourceBusy
  | internal
deriving DecidableEq, Repr

structure ProtocolError where
  code : ProtocolErrorCode
  message : String
  retryable : Bool
deriving DecidableEq, Repr

inductive Response where
  | acknowledged
  | error (error : ProtocolError)
  | answer (payload : Bytes)
deriving DecidableEq, Repr

/-! ## Requests -/

/-- `Request`; `service` stands for the daemon, mount, resource and Docker
requests. -/
inductive Request where
  | containerTerminalInput (subscriptionId : SubscriptionId) (bytes : Bytes)
  | containerTerminalResize (subscriptionId : SubscriptionId) (rows cols : Nat)
  | containerTerminalClose (subscriptionId : SubscriptionId)
  | service (payload : Bytes)
deriving DecidableEq, Repr

def Request.terminalId : Request → Option SubscriptionId
  | .containerTerminalInput id _ => some id
  | .containerTerminalResize id _ _ => some id
  | .containerTerminalClose id => some id
  | .service _ => none

/-- `SubscriptionRequest`, with the parameters that the connection loop checks. -/
inductive SubscriptionRequest where
  | daemonStatus
  | mountStatus
  | resourceChanges
  | providerStatus
  | containerStats (containerIds : List String)
  | containerLogs (containerIds : List String)
  | imagePull
  | imagePullAuthenticated
  | containerTerminal (containerId : String) (rows cols : Nat) (user workdir : Option String)
deriving DecidableEq, Repr

/-! ## Events -/

inductive TerminalState where
  | connecting
  | running (shell : String)
  | exited (exitCode : Option Int)
  | failed (reason : String)
deriving DecidableEq, Repr

inductive SubscriptionEndReason where
  | completed
  | unsubscribed
  | serverShutdown
  | resourceRemoved
  | error (error : ProtocolError)
deriving DecidableEq, Repr

/-- `ServerEvent`; `update` stands for the status, resource, statistics, log and
progress events. -/
inductive ServerEvent where
  | update (subscriptionId : SubscriptionId) (payload : Bytes)
  | terminalOutput (subscriptionId : SubscriptionId) (bytes : Bytes)
  | terminalState (subscriptionId : SubscriptionId) (state : TerminalState)
  | subscriptionEnded (subscriptionId : SubscriptionId) (reason : SubscriptionEndReason)
deriving DecidableEq, Repr

def ServerEvent.subscriptionId : ServerEvent → SubscriptionId
  | .update id _ => id
  | .terminalOutput id _ => id
  | .terminalState id _ => id
  | .subscriptionEnded id _ => id

/-! ## Envelopes -/

inductive ProtocolBody where
  | hello
  | accepted
  | rejected (message : String)
  | request (request : Request)
  | response (response : Response)
  | subscribe (request : SubscriptionRequest)
  | subscribed (subscriptionId : SubscriptionId) (serial : Nat)
  | unsubscribe (subscriptionId : SubscriptionId)
  | event (event : ServerEvent)
  | cancelRequest (requestId : RequestId)
  | ping
  | pong
deriving DecidableEq, Repr

structure ProtocolEnvelope where
  requestId : RequestId
  body : ProtocolBody
  issuer : Option Nat
deriving DecidableEq, Repr

def ProtocolEnvelope.new (requestId : RequestId) (body : ProtocolBody) : ProtocolEnvelope :=
  ⟨requestId, body, none⟩

def ProtocolEnvelope.event? (e : ProtocolEnvelope) : Option ServerEvent :=
  match e.body with
  | .event event => some event
  | _ => none

end TuxStack.Ipc
