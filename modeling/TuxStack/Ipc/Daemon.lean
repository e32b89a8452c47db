import TuxStack.Ipc.Protocol
import TuxStack.Lib.Text

/-!
# The daemon's side of one connection

`serve_client` (`crates/tuxstack-daemon/src/ipc.rs`) runs a loop over the frames
of one client, with one task for each running request and one for each
subscription. A `Server` holds the loop's local variables, its tasks and the
frames on their way in and out; `Server.step` is one atomic section of the loop
or of a task, so that a run interleaves them in any order. Frames arrive whole
here; how the loop reads them byte by byte is in `Socket`.

What Docker does is left to the action: whether a terminal connects, which items
a stream yields and how it ends. An action also says whether a send succeeded,
since every send here may time out (`OUTBOUND_SEND_TIMEOUT`).
-/

namespace TuxStack.Ipc

open Vfs

def maxClientRequests : Nat := 64
def maxClientSubscriptions : Nat := 32
def maxClientStreamTasks : Nat := 32
def maxSubscriptionMembers : Nat := 16
def maxTerminalInputBytes : Nat := 64 * 1024
def maxTerminalDimension : Nat := 4096
def maxTerminalSessionsTotal : Nat := 32
def maxTerminalSessionsPerContainer : Nat := 8

/-! ## Checks on requests -/

/-- `text.trim().is_empty()`. -/
def isBlank (text : String) : Bool := text.toList.all isWhitespace

/-- `protocol_error(InvalidRequest, message, false)`. -/
def invalidRequest (message : String) : ProtocolError := ⟨.invalidRequest, message, false⟩

def validateTerminalSize (rows cols : Nat) : Except ProtocolError Unit :=
  if rows = 0 ∨ cols = 0 ∨ maxTerminalDimension < rows ∨ maxTerminalDimension < cols then
    .error (invalidRequest "terminal rows and columns must be between 1 and 4096")
  else .ok ()

/-- A text option that is empty or holds a NUL. -/
def isBadOption (text : String) : Bool := text.toList.isEmpty || text.toList.contains (Char.ofNat 0)

def validateTerminalOption (user workdir : Option String) : Except ProtocolError Unit :=
  if user.any isBadOption ||
      workdir.any (fun value => isBadOption value || value.toList.head? != some '/') then
    .error (invalidRequest "terminal user and workdir options are invalid")
  else .ok ()

def memberCost (containerIds : List String) : Except ProtocolError Nat :=
  if containerIds = [] then .error (invalidRequest "at least one container ID is required")
  else if maxSubscriptionMembers < containerIds.length then
    .error (invalidRequest "too many container IDs in one subscription")
  else if containerIds.any isBlank then
    .error (invalidRequest "container IDs must not be empty")
  else .ok containerIds.length

def subscriptionTaskCost : SubscriptionRequest → Except ProtocolError Nat
  | .containerStats containerIds => memberCost containerIds
  | .containerLogs containerIds => memberCost containerIds
  | .containerTerminal containerId rows cols user workdir => do
      if isBlank containerId then throw (invalidRequest "container ID must not be empty")
      validateTerminalSize rows cols
      validateTerminalOption user workdir
      return 1
  | _ => .ok 1

/-! ## State -/

/-- `SubscriptionControl`; the cancellation token is the one of the task `serial`. -/
structure SubscriptionControl where
  serial : Nat
  taskCost : Nat
deriving DecidableEq, Repr

/-- Where a subscription task stands. The phases up to `registered` belong to
`run_terminal_subscription`; the others start in `streaming`. -/
inductive TaskPhase where
  | started
  | connecting
  | admitted
  | connected (shell : String)
  | registered (shell : String)
  | streaming
  | reporting (state : TerminalState) (reason : SubscriptionEndReason)
  | returned (reason : SubscriptionEndReason)
  | closed (reason : SubscriptionEndReason)
  | ended
  | finished
deriving DecidableEq, Repr

structure SubscriptionTask where
  id : SubscriptionId
  request : SubscriptionRequest
  cancelled : Bool
  phase : TaskPhase
deriving DecidableEq, Repr

/-- A session in the terminal registry; `serial` is the subscription that
registered it. -/
structure Terminal where
  serial : Nat
  containerId : String
deriving DecidableEq, Repr

inductive RequestPhase where
  | running
  | responding (response : Response)
  | responded
  | finished
deriving DecidableEq, Repr

structure RequestTask where
  requestId : RequestId
  request : Request
  issuer : Option Nat
  cancelled : Bool
  phase : RequestPhase
deriving DecidableEq, Repr

/-- Where the loop stands: `closing` is inside the `Unsubscribe` arm, before
`close_terminal`; `leaving` is past the loop, before `close_all_terminals`. -/
inductive LoopPhase where
  | serving
  | closing (requestId : RequestId) (subscriptionId : SubscriptionId)
  | leaving
  | left
deriving DecidableEq, Repr

/-- A terminal request that `dispatch_request` handed to a session: the
`Subscription` it was issued for and the one that registered the session. -/
structure Applied where
  issuer : Option Nat
  serial : Nat
deriving DecidableEq, Repr

/-- One run of `serve_client` after its handshake. `outbound` is everything sent
and not yet read by the client. `accepted`, `sent` and `applied` are history
variables: how many subscriptions were accepted, all events sent, and all
terminal requests that reached a session. -/
structure Server where
  inbound : List ProtocolEnvelope
  outbound : List ProtocolEnvelope
  loop : LoopPhase
  requests : Std.TreeMap RequestId Nat
  subscriptions : Std.TreeMap SubscriptionId SubscriptionControl
  subscriptionTasks : Nat
  nextSubscriptionId : Nat
  terminals : Std.TreeMap SubscriptionId Terminal
  requestDone : List RequestId
  subscriptionDone : List SubscriptionId
  requestTasks : Nat → Option RequestTask
  tasks : Nat → Option SubscriptionTask
  accepted : Nat
  sent : List ServerEvent
  applied : List Applied

namespace Server

/-- The state in which `serve_client` enters its loop. -/
def new : Server where
  inbound := []
  outbound := []
  loop := .serving
  requests := ∅
  subscriptions := ∅
  subscriptionTasks := 0
  nextSubscriptionId := 1
  terminals := ∅
  requestDone := []
  subscriptionDone := []
  requestTasks _ := none
  tasks _ := none
  accepted := 0
  sent := []
  applied := []

def sendEnvelope (s : Server) (envelope : ProtocolEnvelope) : Server :=
  { s with outbound := s.outbound ++ [envelope] }

def sendResponse (s : Server) (requestId : RequestId) (response : Response) : Server :=
  s.sendEnvelope (.new requestId (.response response))

def sendEvent (s : Server) (event : ServerEvent) : Server :=
  { s.sendEnvelope (.new 0 (.event event)) with sent := s.sent ++ [event] }

/-- Cancel the token of a subscription. -/
def cancelTask (s : Server) (serial : Nat) : Server :=
  { s with
    tasks := Function.update s.tasks serial
      ((s.tasks serial).map fun task => { task with cancelled := true }) }

def cancelRequestTask (s : Server) (key : Nat) : Server :=
  { s with
    requestTasks := Function.update s.requestTasks key
      ((s.requestTasks key).map fun task => { task with cancelled := true }) }

/-! ## The loop -/

/-- The successor of a subscription id: `wrapping_add(1).max(1)`. -/
def succId (id : SubscriptionId) : SubscriptionId := max (wrappingSucc id) 1

/-- `while subscriptions.contains_key(&id) { id = succ(id) }`; `fuel` is the
number of ids in use. -/
def skipUsed (used : SubscriptionId → Bool) : Nat → SubscriptionId → SubscriptionId
  | 0, id => id
  | fuel + 1, id => if used id then skipUsed used fuel (succId id) else id

def freeId (s : Server) : SubscriptionId :=
  skipUsed s.subscriptions.contains s.subscriptions.size s.nextSubscriptionId

/-- The tokens that the code after the loop cancels. -/
def cancelAll (s : Server) : Server :=
  { s with
    loop := .leaving
    requestTasks := fun key => (s.requestTasks key).map fun task =>
      if s.requests[task.requestId]? = some key then { task with cancelled := true } else task
    tasks := fun serial => (s.tasks serial).map fun task =>
      if (s.subscriptions[task.id]?).map (·.serial) = some serial then
        { task with cancelled := true }
      else task }

/-- The `Request` arm; `key` names the task it spawns. -/
def serveRequest (s : Server) (key : Nat) (envelope : ProtocolEnvelope) (request : Request) :
    Option Server :=
  if envelope.requestId = 0 ∨ s.requests.contains envelope.requestId = true ∨
      maxClientRequests ≤ s.requests.size then
    some (s.sendResponse envelope.requestId (.error
      (if maxClientRequests ≤ s.requests.size then
        ⟨.resourceBusy, "per-client request limit reached", true⟩
      else invalidRequest "request ID must be nonzero and unique while active")))
  else if s.requestTasks key = none then
    some { s with
      requests := s.requests.insert envelope.requestId key
      requestTasks := Function.update s.requestTasks key
        (some ⟨envelope.requestId, request, envelope.issuer, false, .running⟩) }
  else none

def firstPhase : SubscriptionRequest → TaskPhase
  | .containerTerminal .. => .started
  | _ => .streaming

/-- The `Subscribe` arm past its checks. -/
def accept (s : Server) (requestId : RequestId) (request : SubscriptionRequest)
    (taskCost : Nat) : Server :=
  { s.sendEnvelope (.new requestId (.subscribed s.freeId s.accepted)) with
    nextSubscriptionId := succId s.freeId
    subscriptions := s.subscriptions.insert s.freeId ⟨s.accepted, taskCost⟩
    subscriptionTasks := s.subscriptionTasks + taskCost
    tasks := Function.update s.tasks s.accepted
      (some ⟨s.freeId, request, false, firstPhase request⟩)
    accepted := s.accepted + 1 }

def serveSubscribe (s : Server) (requestId : RequestId) (request : SubscriptionRequest) :
    Server :=
  match subscriptionTaskCost request with
  | .error e => s.sendResponse requestId (.error e)
  | .ok taskCost =>
    if maxClientSubscriptions ≤ s.subscriptions.size ∨
        maxClientStreamTasks < s.subscriptionTasks + taskCost then
      s.sendResponse requestId
        (.error ⟨.resourceBusy, "per-client subscription limit reached", true⟩)
    else s.accept requestId request taskCost

/-- The `Unsubscribe` arm up to `close_terminal`. -/
def serveUnsubscribe (s : Server) (requestId : RequestId) (id : SubscriptionId) : Server :=
  match s.subscriptions[id]? with
  | some control =>
    { s.cancelTask control.serial with
      subscriptions := s.subscriptions.erase id
      subscriptionTasks := s.subscriptionTasks - control.taskCost
      loop := .closing requestId id }
  | none => { s with loop := .closing requestId id }

def serveFrame (s : Server) (key : Nat) (envelope : ProtocolEnvelope) : Option Server :=
  match envelope.body with
  | .request request => s.serveRequest key envelope request
  | .cancelRequest requestId =>
    match s.requests[requestId]? with
    | some task => some (s.cancelRequestTask task)
    | none => some s
  | .subscribe request => some (s.serveSubscribe envelope.requestId request)
  | .unsubscribe id => some (s.serveUnsubscribe envelope.requestId id)
  | .ping => some (s.sendEnvelope (.new envelope.requestId .pong))
  | _ => some s.cancelAll

/-- Read and serve the next frame. When a send fails the loop is left. -/
def serve (s : Server) (key : Nat) (sent : Bool) : Option Server :=
  match s.loop, s.inbound with
  | .serving, envelope :: rest =>
    if sent then { s with inbound := rest }.serveFrame key envelope
    else some { s with inbound := rest }.cancelAll
  | _, _ => none

/-- `close_terminal(..)` and the acknowledgement of the `Unsubscribe` arm. -/
def serveClosing (s : Server) (sent : Bool) : Option Server :=
  match s.loop with
  | .closing requestId id =>
    let closed := { s with terminals := s.terminals.erase id, loop := .serving }
    if sent then some (closed.sendResponse requestId .acknowledged) else some closed.cancelAll
  | _ => none

/-- `request_done_rx.recv()`. -/
def takeRequestDone (s : Server) : Option Server :=
  match s.loop, s.requestDone with
  | .serving, requestId :: rest =>
    some { s with requestDone := rest, requests := s.requests.erase requestId }
  | _, _ => none

/-- `subscription_done_rx.recv()`. -/
def takeSubscriptionDone (s : Server) : Option Server :=
  match s.loop, s.subscriptionDone with
  | .serving, id :: rest =>
    some { s with
      subscriptionDone := rest
      subscriptions := s.subscriptions.erase id
      subscriptionTasks :=
        s.subscriptionTasks - ((s.subscriptions[id]?).map (·.taskCost)).getD 0 }
  | _, _ => none

/-- The loop is left: shutdown, a read error, or a closed peer. -/
def leave (s : Server) : Option Server :=
  match s.loop with
  | .serving => some s.cancelAll
  | _ => none

def closeAllTerminals (s : Server) : Option Server :=
  match s.loop with
  | .leaving => some { s with terminals := ∅, loop := .left }
  | _ => none

/-! ## Requests -/

/-- `terminal_session` with a request for it; `outcome` is what the session answers. -/
def applyToTerminal (s : Server) (issuer : Option Nat) (id : SubscriptionId)
    (outcome : Except ProtocolError Bytes) : Server × Response :=
  match s.terminals[id]? with
  | none => (s, .error ⟨.notFound, "terminal subscription is not active", false⟩)
  | some terminal =>
    ({ s with applied := s.applied ++ [⟨issuer, terminal.serial⟩] },
      match outcome with
      | .ok _ => .acknowledged
      | .error e => .error e)

def dispatchRequest (s : Server) (issuer : Option Nat) (request : Request)
    (outcome : Except ProtocolError Bytes) : Server × Response :=
  match request with
  | .containerTerminalInput id bytes =>
    if maxTerminalInputBytes < bytes.length then
      (s, .error (invalidRequest "terminal input exceeds the 64 KiB request limit"))
    else s.applyToTerminal issuer id outcome
  | .containerTerminalResize id rows cols =>
    match validateTerminalSize rows cols with
    | .error e => (s, .error e)
    | .ok () => s.applyToTerminal issuer id outcome
  | .containerTerminalClose id =>
    let applied := s.applyToTerminal issuer id (.ok [])
    ({ applied.1 with terminals := s.terminals.erase id }, applied.2)
  | .service _ =>
    match outcome with
    | .ok payload => (s, .answer payload)
    | .error e => (s, .error e)

inductive RequestAction where
  | dispatch (outcome : Except ProtocolError Bytes)
  | cancelled
  | respond (sent : Bool)
  | done

def setRequestPhase (s : Server) (key : Nat) (task : RequestTask) (phase : RequestPhase) :
    Server :=
  { s with requestTasks := Function.update s.requestTasks key (some { task with phase := phase }) }

def stepRequest (s : Server) (key : Nat) (a : RequestAction) : Option Server :=
  match s.requestTasks key with
  | none => none
  | some task =>
    match task.phase, a with
    | .running, .dispatch outcome =>
      let (s', response) := s.dispatchRequest task.issuer task.request outcome
      some (s'.setRequestPhase key task (.responding response))
    | .running, .cancelled =>
      if task.cancelled then
        some (s.setRequestPhase key task
          (.responding (.error ⟨.cancelled, "request cancelled", true⟩)))
      else none
    | .responding response, .respond sent =>
      let s' := if sent then s.sendResponse task.requestId response else s
      some (s'.setRequestPhase key task .responded)
    | .responded, .done =>
      some ({ s with requestDone := s.requestDone ++ [task.requestId] }.setRequestPhase key
        task .finished)
    | _, _ => none

/-! ## Subscription tasks -/

/-- What a subscription task does next. `connect` is Docker's connect, the first
resize and `take_output`; `.error (message, error)` reports `message` as
`Failed` when there is one. -/
inductive TaskAction where
  | connecting (sent : Bool)
  | checkCapacity
  | connect (outcome : Except (Option String × ProtocolError) String)
  | register
  | running (sent : Bool)
  | item (bytes : Bytes) (sent : Bool)
  | streamEnd (exitCode : Option Int)
  | streamError (message : String) (error : ProtocolError)
  | cancelled
  | report (sent : Bool)
  | close (shutdown : Bool)
  | ended (sent : Bool)
  | done

def setTaskPhase (s : Server) (serial : Nat) (task : SubscriptionTask) (phase : TaskPhase) :
    Server :=
  { s with tasks := Function.update s.tasks serial (some { task with phase := phase }) }

/-- `send_event(.., Some(cancellation))` followed by `phase`, or by the return
of the task when it does not send. -/
def sendOrReturn (s : Server) (serial : Nat) (task : SubscriptionTask) (event : ServerEvent)
    (sent : Bool) (phase : TaskPhase) : Server :=
  if sent && !task.cancelled then (s.sendEvent event).setTaskPhase serial task phase
  else s.setTaskPhase serial task (.returned .unsubscribed)

def sessionsOf (s : Server) (containerId : String) : Nat :=
  (s.terminals.values.filter fun t => t.containerId == containerId).length

def terminalCapacityAvailable (s : Server) (containerId : String) : Bool :=
  s.terminals.size < maxTerminalSessionsTotal &&
    s.sessionsOf containerId < maxTerminalSessionsPerContainer

def terminalOf : SubscriptionRequest → Option String
  | .containerTerminal containerId .. => some containerId
  | _ => none

def stepTerminal (s : Server) (serial : Nat) (task : SubscriptionTask) (containerId : String) :
    TaskPhase → TaskAction → Option Server
  | .started, .connecting sent =>
    some (s.sendOrReturn serial task (.terminalState task.id .connecting) sent .connecting)
  | .connecting, .checkCapacity =>
    if s.terminalCapacityAvailable containerId then some (s.setTaskPhase serial task .admitted)
    else
      let reason := "Too many terminal sessions are already open."
      some (s.setTaskPhase serial task
        (.reporting (.failed reason) (.error ⟨.conflict, reason, false⟩)))
  | .admitted, .connect (.ok shell) => some (s.setTaskPhase serial task (.connected shell))
  | .admitted, .connect (.error (some message, e)) =>
    some (s.setTaskPhase serial task (.reporting (.failed message) (.error e)))
  | .admitted, .connect (.error (none, e)) =>
    some (s.setTaskPhase serial task (.returned (.error e)))
  | .connected shell, .register =>
    some ({ s with terminals := s.terminals.insert task.id ⟨serial, containerId⟩ }.setTaskPhase
      serial task (.registered shell))
  | .registered shell, .running sent =>
    some (s.sendOrReturn serial task (.terminalState task.id (.running shell)) sent .streaming)
  | _, _ => none

def stepStream (s : Server) (serial : Nat) (task : SubscriptionTask) :
    TaskAction → Option Server
  | .item bytes sent =>
    let event := if (terminalOf task.request).isSome then .terminalOutput task.id bytes
      else .update task.id bytes
    some (s.sendOrReturn serial task event sent .streaming)
  | .streamEnd exitCode =>
    some (s.setTaskPhase serial task
      (if (terminalOf task.request).isSome then .reporting (.exited exitCode) .completed
      else .returned .completed))
  | .streamError message e =>
    some (s.setTaskPhase serial task
      (if (terminalOf task.request).isSome then .reporting (.failed message) (.error e)
      else .returned (.error e)))
  | .cancelled =>
    if task.cancelled then some (s.setTaskPhase serial task (.returned .unsubscribed)) else none
  | _ => none

def stepTask (s : Server) (serial : Nat) (a : TaskAction) : Option Server :=
  match s.tasks serial with
  | none => none
  | some task =>
    match task.phase, a with
    | .streaming, a => s.stepStream serial task a
    | .reporting state reason, .report sent =>
      let s' := if sent && !task.cancelled then s.sendEvent (.terminalState task.id state) else s
      some (s'.setTaskPhase serial task (.returned reason))
    | .returned reason, .close shutdown =>
      some ({ s with terminals := s.terminals.erase task.id }.setTaskPhase serial task
        (.closed (if shutdown then .serverShutdown else reason)))
    | .closed reason, .ended sent =>
      let s' := if sent then s.sendEvent (.subscriptionEnded task.id reason) else s
      some (s'.setTaskPhase serial task .ended)
    | .ended, .done =>
      some ({ s with subscriptionDone := s.subscriptionDone ++ [task.id] }.setTaskPhase serial
        task .finished)
    | phase, a =>
      match terminalOf task.request with
      | some containerId => s.stepTerminal serial task containerId phase a
      | none => none

/-! ## Steps -/

inductive Action where
  | serve (key : Nat) (sent : Bool)
  | serveClosing (sent : Bool)
  | takeRequestDone
  | takeSubscriptionDone
  | leave
  | closeAllTerminals
  | request (key : Nat) (a : RequestAction)
  | task (serial : Nat) (a : TaskAction)

def step (s : Server) : Action → Option Server
  | .serve key sent => s.serve key sent
  | .serveClosing sent => s.serveClosing sent
  | .takeRequestDone => s.takeRequestDone
  | .takeSubscriptionDone => s.takeSubscriptionDone
  | .leave => s.leave
  | .closeAllTerminals => s.closeAllTerminals
  | .request key a => s.stepRequest key a
  | .task serial a => s.stepTask serial a

end Server

end TuxStack.Ipc
