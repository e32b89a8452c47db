import TuxStack.Ipc.Daemon

/-!
# The client library and its connections

The connection handling of `crates/tuxstack-client/src/lib.rs` together with the
daemon's side of every connection the client ever opened. A `State` holds the
shared `Inner` of the client, the calls that are under way, the `Subscription`
values, and for each connection its two halves: the client's writer queue,
reader and writer task, and the daemon's `Server`.

Every section that the source runs under one lock is one function here. Reading a
frame is local to the reader task, so a read and the section that dispatches it are
one step. Calls, subscriptions and connections have keys of the model; the code goes
by request ids, subscription ids and generation numbers, `u64` counters that wrap.
-/

namespace TuxStack.Ipc

open Vfs

def writerQueueCapacity : Nat := 128
def subscriptionQueueCapacity : Nat := 128
def earlyEventLimit : Nat := 16
def earlySubscriptionLimit : Nat := 32

/-! ## Subscriptions -/

structure ReadEvent where
  event : ServerEvent
  readOn : Nat
deriving DecidableEq, Repr

/-- Where a `Subscription` value stands. In `replaying` the `subscribe` call still
owns it; `lost` is a call dropped there. `leaving` and `dropping` are between the
two sections of `unsubscribe` and of `Drop`. -/
inductive HandlePhase where
  | replaying
  | held
  | lost
  | leaving
  | dropping
  | closed
deriving DecidableEq, Repr

/-- What `ContainerTerminalService::connect` made of a subscription: nothing yet,
an error, or a session, whose pump task still reads (`true`) or has stopped. -/
inductive Session where
  | none
  | connecting
  | failed
  | ready (pumping : Bool)
deriving DecidableEq, Repr

/-- A `Subscription` with its channel. `early` is what `subscribe` still has to
replay; `received` is the history of what was taken out of the channel. -/
structure Handle where
  id : SubscriptionId
  serial : Nat
  acceptedOn : Nat
  early : List ReadEvent
  queue : List ReadEvent
  received : List ReadEvent
  phase : HandlePhase
  session : Session
deriving DecidableEq, Repr

/-- Whether the receiving end of the channel still exists. -/
def Handle.isOpen (x : Handle) : Bool :=
  match x.phase with
  | .replaying => true
  | .held => true
  | _ => false

/-- What the loop in `connect`, and later the pump, make of an event. -/
def Session.onEvent : Session → ServerEvent → Session
  | .connecting, .terminalState _ (.running _) => .ready true
  | .connecting, .terminalState _ (.failed _) => .failed
  | .connecting, .subscriptionEnded .. => .failed
  | .ready true, .subscriptionEnded .. => .ready false
  | session, _ => session

/-- Whether somebody still calls `recv`. -/
def Session.isReading : Session → Bool
  | .failed => false
  | .ready false => false
  | _ => true

/-! ## Calls -/

/-- Who makes a `round_trip`. -/
inductive Purpose where
  | subscribe (terminal : Bool)
  | unsubscribe (handle : Nat)
  | session (handle : Nat)
  | other
deriving DecidableEq, Repr

/-- The subscription a call is made for. -/
def Purpose.issuer : Purpose → Option Nat
  | .unsubscribe h => some h
  | .session h => some h
  | _ => none

/-- Where a `round_trip` stands. `settling` is before its last section;
`abandoned` and `cancelling` are the two sections of `PendingGuard::drop`;
`accepted` is `subscribe` with a `Subscribed` answer in hand. -/
inductive CallPhase where
  | registered
  | sending (conn : Nat)
  | waiting
  | timedOut
  | settling (answered : Bool)
  | accepted
  | abandoned
  | cancelling
  | done
deriving DecidableEq, Repr

structure Reply where
  body : ProtocolBody
  readOn : Nat
deriving DecidableEq, Repr

/-- One `round_trip`; `reply` is the value in its oneshot channel. -/
structure Call where
  requestId : RequestId
  body : ProtocolBody
  purpose : Purpose
  phase : CallPhase
  reply : Option (Except String Reply)

/-- A value put into the oneshot channel, which takes only one. -/
def Call.answer (call : Call) (reply : Except String Reply) : Call :=
  { call with reply := call.reply.or (some reply) }

/-! ## Connections -/

/-- Where the reader or writer task of a connection stands; `checked` and `taken`
are inside `terminate_generation`. -/
inductive LinkPhase where
  | idle
  | running
  | checked
  | taken
  | stopped
deriving DecidableEq, Repr

/-- One connection: the client's ends of it and the daemon's `serve_client`. -/
structure Link where
  opened : Bool
  generation : Nat
  writerQueue : List ProtocolEnvelope
  reader : LinkPhase
  writer : LinkPhase
  server : Server

/-- A connection that does not exist yet. -/
def Link.unopened : Link := ⟨false, 0, [], .idle, .idle, .new⟩

def Link.trySend (l : Link) (envelope : ProtocolEnvelope) : Link :=
  if l.writer ≠ .stopped ∧ l.writerQueue.length < writerQueueCapacity then
    { l with writerQueue := l.writerQueue ++ [envelope] }
  else l

/-- The two tasks that end in `terminate_generation`. -/
inductive LinkTask where
  | reader
  | writer
deriving DecidableEq, Repr

def Link.phaseOf (l : Link) : LinkTask → LinkPhase
  | .reader => l.reader
  | .writer => l.writer

def Link.setPhase (l : Link) : LinkTask → LinkPhase → Link
  | .reader, phase => { l with reader := phase }
  | .writer, phase => { l with writer := phase }

/-- `Connection`; the writer end is named by its connection. -/
structure Connection where
  generation : Nat
  writer : Nat
deriving DecidableEq, Repr

structure Dispatch where
  pending : Std.TreeMap RequestId Nat
  subscriptions : Std.TreeMap SubscriptionId Nat
  earlyEvents : Std.TreeMap SubscriptionId (List ReadEvent)

/-- What `establish` still has to do, while it holds `reconnect_lock`. -/
inductive Replacing where
  | connected (conn : Nat)
  | taken (conn : Nat)
  | cleared (conn : Nat)
deriving DecidableEq, Repr

structure Inner where
  nextRequestId : Nat
  nextGeneration : Nat
  connection : Option Connection
  dispatch : Dispatch
  reconnectLock : Option Replacing

/-- The client, its calls and subscriptions, and all connections. `latest` is the
connection installed last, a history variable. -/
structure State where
  inner : Inner
  calls : Nat → Option Call
  handles : Nat → Option Handle
  links : Nat → Link
  latest : Option Nat

namespace State

/-- `Client::connect` before it establishes its first connection. -/
def fresh : State where
  inner := ⟨1, 1, none, ⟨∅, ∅, ∅⟩, none⟩
  calls _ := none
  handles _ := none
  links _ := .unopened
  latest := none

def setCall (s : State) (c : Nat) (call : Call) : State :=
  { s with calls := Function.update s.calls c (some call) }

def setHandle (s : State) (h : Nat) (x : Handle) : State :=
  { s with handles := Function.update s.handles h (some x) }

def setLink (s : State) (k : Nat) (l : Link) : State :=
  { s with links := Function.update s.links k l }

/-- `next_request_id`: zero is skipped. -/
def requestId (s : State) : RequestId :=
  if s.inner.nextRequestId = 0 then 1 else s.inner.nextRequestId

def takeRequestId (s : State) : State :=
  { s with inner.nextRequestId := wrappingSucc s.requestId }

def trySendCurrent (s : State) (envelope : ProtocolEnvelope) : State :=
  match s.inner.connection with
  | some connection => s.setLink connection.writer ((s.links connection.writer).trySend envelope)
  | none => s

/-! ## Replacing and terminating a connection -/

/-- `terminate_current`, first section. -/
def takeConnection (s : State) : State := { s with inner.connection := none }

/-- `terminate_current`, second section. -/
def clearDispatch (s : State) (reason : String) : State :=
  { s with
    inner.dispatch := ⟨∅, ∅, ∅⟩
    calls := fun c => (s.calls c).map fun call =>
      if s.inner.dispatch.pending[call.requestId]? = some c
      then call.answer (.error reason) else call }

inductive EstablishAction where
  | handshake (conn : Nat)
  | take
  | clear
  | install

/-- `establish`: the handshake on a new stream, then `replace_connection`. -/
def establish (s : State) : EstablishAction → Option State
  | .handshake k =>
    if s.inner.reconnectLock = none ∧ (s.links k).opened = false then
      some { s.setLink k { s.links k with opened := true } with
        inner.reconnectLock := some (.connected k) }
    else none
  | .take =>
    match s.inner.reconnectLock with
    | some (.connected k) => some { s.takeConnection with inner.reconnectLock := some (.taken k) }
    | _ => none
  | .clear =>
    match s.inner.reconnectLock with
    | some (.taken k) =>
      some { s.clearDispatch "connection replaced" with
        inner.reconnectLock := some (.cleared k) }
    | _ => none
  | .install =>
    match s.inner.reconnectLock with
    | some (.cleared k) =>
      let link := { s.links k with
        generation := s.inner.nextGeneration, reader := .running, writer := .running }
      some { s.setLink k link with
        inner.nextGeneration := wrappingSucc s.inner.nextGeneration
        inner.connection := some ⟨s.inner.nextGeneration, k⟩
        inner.reconnectLock := none
        latest := some k }
    | _ => none

inductive TerminateAction where
  | check
  | take
  | clear (reason : String)

/-- `terminate_generation`, called by a task of connection `k` when it cannot go
on. The task stops at its end, or at once when its generation is not current. -/
def terminate (s : State) (k : Nat) (t : LinkTask) (a : TerminateAction) : Option State :=
  let link := s.links k
  match link.phaseOf t, a with
  | .running, .check =>
    if s.inner.connection.any (·.generation == link.generation) then
      some (s.setLink k (link.setPhase t .checked))
    else some (s.setLink k (link.setPhase t .stopped))
  | .checked, .take => some (s.takeConnection.setLink k (link.setPhase t .taken))
  | .taken, .clear reason => some ((s.clearDispatch reason).setLink k (link.setPhase t .stopped))
  | _, _ => none

/-! ## The reader and writer tasks -/

def trySendEvent (s : State) (h : Nat) (e : ReadEvent) : State :=
  match s.handles h with
  | some x =>
    if x.isOpen ∧ x.queue.length < subscriptionQueueCapacity then
      s.setHandle h { x with queue := x.queue ++ [e] }
    else s
  | none => s

def parked (s : State) (id : SubscriptionId) : List ReadEvent :=
  s.inner.dispatch.earlyEvents.getD id []

def dispatchEvent (s : State) (e : ReadEvent) : State :=
  let id := e.event.subscriptionId
  match s.inner.dispatch.subscriptions[id]? with
  | some h => s.trySendEvent h e
  | none =>
    if (s.inner.dispatch.earlyEvents.contains id = true ∨
          s.inner.dispatch.earlyEvents.size < earlySubscriptionLimit) ∧
        (s.parked id).length < earlyEventLimit then
      { s with
        inner.dispatch.earlyEvents :=
          s.inner.dispatch.earlyEvents.insert id (s.parked id ++ [e]) }
    else s

/-- `dispatch_pending`, and the same section for a rejection. -/
def dispatchPending (s : State) (requestId : RequestId) (reply : Except String Reply) : State :=
  match s.inner.dispatch.pending[requestId]? with
  | some c =>
    { s with
      inner.dispatch.pending := s.inner.dispatch.pending.erase requestId
      calls := Function.update s.calls c ((s.calls c).map fun call => call.answer reply) }
  | none => s

/-- One frame through the loop of the reader of connection `k`. -/
def readFrame (s : State) (k : Nat) (envelope : ProtocolEnvelope) : Option State :=
  match envelope.body with
  | .response response =>
    some (s.dispatchPending envelope.requestId (.ok ⟨.response response, k⟩))
  | .subscribed id serial =>
    some (s.dispatchPending envelope.requestId (.ok ⟨.subscribed id serial, k⟩))
  | .pong => some (s.dispatchPending envelope.requestId (.ok ⟨.pong, k⟩))
  | .rejected message =>
    some (s.dispatchPending envelope.requestId
      (.error ("server rejected request: " ++ message)))
  | .event event => some (s.dispatchEvent ⟨event, k⟩)
  | _ => s.terminate k .reader .check

/-- The stream of connection `k` after its reader has taken the first frame. -/
def pop (s : State) (k : Nat) (rest : List ProtocolEnvelope) : State :=
  s.setLink k { s.links k with server := { (s.links k).server with outbound := rest } }

/-- `reader_task`, one turn of its loop. -/
def read (s : State) (k : Nat) : Option State :=
  match (s.links k).reader, (s.links k).server.outbound with
  | .running, envelope :: rest => (s.pop k rest).readFrame k envelope
  | _, _ => none

/-- `writer_task`, one turn of its loop. -/
def write (s : State) (k : Nat) : Option State :=
  match (s.links k).writer, (s.links k).writerQueue with
  | .running, envelope :: rest =>
    some (s.setLink k { s.links k with
      writerQueue := rest
      server := { (s.links k).server with
        inbound := (s.links k).server.inbound ++ [envelope] } })
  | _, _ => none

/-! ## `round_trip` -/

/-- The first section: a request id and an entry in `pending`. -/
def register (s : State) (c : Nat) (purpose : Purpose) (body : ProtocolBody) : Option State :=
  if s.calls c = none then
    some { s.takeRequestId.setCall c ⟨s.requestId, body, purpose, .registered, none⟩ with
      inner.dispatch.pending := s.inner.dispatch.pending.insert s.requestId c }
  else none

inductive CallAction where
  | takeWriter
  | send
  | timeout
  | answer
  | abandon
  | sendCancel
  | removePending

def setPhase (s : State) (c : Nat) (call : Call) (phase : CallPhase) : State :=
  s.setCall c { call with phase := phase }

def sendCancel (s : State) (target : RequestId) : State :=
  s.takeRequestId.trySendCurrent (.new s.requestId (.cancelRequest target))

/-- `pending.remove(&request_id)`. -/
def removePending (s : State) (requestId : RequestId) : State :=
  { s with inner.dispatch.pending := s.inner.dispatch.pending.erase requestId }

/-- `writer.send(envelope)` with the writer end of connection `k`: it waits while
the queue is full and fails when the writer task is gone. -/
def sendOn (s : State) (c : Nat) (call : Call) (k : Nat) : Option State :=
  let link := s.links k
  if link.writer = .stopped then some (s.setPhase c call (.settling false))
  else if link.writerQueue.length < writerQueueCapacity then
    some ((s.setLink k { link with
      writerQueue := link.writerQueue ++ [⟨call.requestId, call.body, call.purpose.issuer⟩]
      }).setPhase c call .waiting)
  else none

/-- Where a call goes after its last section: `subscribe` has more to do with a
`Subscribed` answer, everything else returns. -/
def afterSettling (call : Call) (answered : Bool) : CallPhase :=
  match answered, call.purpose, call.reply with
  | true, .subscribe _, some (.ok ⟨.subscribed _ _, _⟩) => .accepted
  | _, _, _ => .done

/-- One section of the `round_trip` with key `c`. -/
def stepCall (s : State) (c : Nat) (a : CallAction) : Option State :=
  match s.calls c with
  | none => none
  | some call =>
    match call.phase, a with
    | .registered, .takeWriter =>
      match s.inner.connection with
      | some connection => some (s.setPhase c call (.sending connection.writer))
      | none => some (s.setPhase c call .abandoned)
    | .sending k, .send => s.sendOn c call k
    | .sending _, .timeout => some (s.setPhase c call .timedOut)
    | .waiting, .timeout => some (s.setPhase c call .timedOut)
    | .sending _, .abandon => some (s.setPhase c call .abandoned)
    | .waiting, .abandon => some (s.setPhase c call .abandoned)
    | .waiting, .answer =>
      match call.reply with
      | some (.ok _) => some (s.setPhase c call (.settling true))
      | some (.error _) => some (s.setPhase c call (.settling false))
      | none => none
    | .timedOut, .sendCancel =>
      some ((s.sendCancel call.requestId).setPhase c call (.settling false))
    | .settling answered, .removePending =>
      some ((s.removePending call.requestId).setPhase c call (afterSettling call answered))
    | .abandoned, .removePending =>
      some ((s.removePending call.requestId).setPhase c call .cancelling)
    | .cancelling, .sendCancel =>
      some ((s.sendCancel call.requestId).setPhase c call .done)
    | _, _ => none

/-! ## The public calls -/

inductive Start where
  | subscribe (request : SubscriptionRequest)
  | connect (containerId : String) (rows cols : Nat) (user workdir : Option String)
  | writeInput (handle : Nat) (bytes : Bytes)
  | resize (handle : Nat) (rows cols : Nat)
  | close (handle : Nat)
  | request (payload : Bytes)
  | ping

def sessionRequest (s : State) (c h : Nat) (request : SubscriptionId → Request) :
    Option State :=
  match s.handles h with
  | some x =>
    match x.session with
    | .ready _ => s.register c (.session h) (.request (request x.id))
    | _ => none
  | none => none

/-- The start of a call to `Client`, `ContainerTerminalService` or
`ContainerTerminalSession`. -/
def start (s : State) (c : Nat) : Start → Option State
  | .subscribe request => s.register c (.subscribe false) (.subscribe request)
  | .connect containerId rows cols user workdir =>
    s.register c (.subscribe true)
      (.subscribe (.containerTerminal containerId rows cols user workdir))
  | .writeInput h bytes => s.sessionRequest c h (.containerTerminalInput · bytes)
  | .resize h rows cols => s.sessionRequest c h (.containerTerminalResize · rows cols)
  | .close h => s.sessionRequest c h .containerTerminalClose
  | .request payload => s.register c .other (.request (.service payload))
  | .ping => s.register c .other .ping

/-- The section in which `subscribe` enters its subscription and takes what was
parked for it. -/
def insertSubscription (s : State) (c h : Nat) : Option State :=
  match s.calls c, s.handles h with
  | some call, none =>
    match call.phase, call.purpose, call.reply with
    | .accepted, .subscribe terminal, some (.ok ⟨.subscribed id serial, k⟩) =>
      some { (s.setPhase c call .done).setHandle h
          ⟨id, serial, k, s.parked id, [], [], .replaying,
            if terminal then .connecting else .none⟩ with
        inner.dispatch.subscriptions := s.inner.dispatch.subscriptions.insert id h
        inner.dispatch.earlyEvents := s.inner.dispatch.earlyEvents.erase id }
    | _, _, _ => none
  | _, _ => none

inductive HandleAction where
  | replay
  | abandon
  | return
  | recv
  | unsubscribe
  | request (call : Nat)
  | drop
  | sendUnsubscribe

/-- `subscriptions.remove(&self.id)`. -/
def removeSubscription (s : State) (id : SubscriptionId) : State :=
  { s with inner.dispatch.subscriptions := s.inner.dispatch.subscriptions.erase id }

/-- `recv`, and what its caller makes of the event. -/
def recv (s : State) (h : Nat) (x : Handle) : Option State :=
  match x.queue with
  | e :: rest =>
    if x.session.isReading then
      some (s.setHandle h { x with
        queue := rest
        received := x.received ++ [e]
        session := x.session.onEvent e.event })
    else none
  | [] => none

/-- One section of `subscribe` after its insertion, of `recv`, `unsubscribe` or `Drop`. -/
def stepHandle (s : State) (h : Nat) (a : HandleAction) : Option State :=
  match s.handles h with
  | none => none
  | some x =>
    match x.phase, a with
    | .replaying, .replay =>
      match x.early with
      | e :: rest =>
        if x.queue.length < subscriptionQueueCapacity then
          some (s.setHandle h { x with early := rest, queue := x.queue ++ [e] })
        else none
      | [] => none
    | .replaying, .abandon => some (s.setHandle h { x with phase := .lost })
    | .replaying, .return =>
      if x.early = [] then some (s.setHandle h { x with phase := .held }) else none
    | .held, .recv => s.recv h x
    | .held, .unsubscribe =>
      some ((s.removeSubscription x.id).setHandle h { x with phase := .leaving })
    | .leaving, .request c =>
      (s.setHandle h { x with phase := .closed }).register c (.unsubscribe h)
        (.unsubscribe x.id)
    | .held, .drop =>
      some ((s.removeSubscription x.id).setHandle h { x with phase := .dropping })
    | .dropping, .sendUnsubscribe =>
      some ((s.takeRequestId.trySendCurrent ⟨s.requestId, .unsubscribe x.id, some h⟩).setHandle h
        { x with phase := .closed })
    | _, _ => none

/-! ## Steps -/

inductive Action where
  | establish (a : EstablishAction)
  | terminate (conn : Nat) (t : LinkTask) (a : TerminateAction)
  | read (conn : Nat)
  | write (conn : Nat)
  | start (call : Nat) (a : Start)
  | call (call : Nat) (a : CallAction)
  | insert (call handle : Nat)
  | handle (handle : Nat) (a : HandleAction)
  | server (conn : Nat) (a : Server.Action)

def stepServer (s : State) (k : Nat) (a : Server.Action) : Option State :=
  if (s.links k).opened then
    ((s.links k).server.step a).map fun server => s.setLink k { s.links k with server := server }
  else none

/-- One atomic section of the client, of one of its tasks or of the daemon. -/
def step (s : State) : Action → Option State
  | .establish a => s.establish a
  | .terminate k t a => s.terminate k t a
  | .read k => s.read k
  | .write k => s.write k
  | .start c a => s.start c a
  | .call c a => s.stepCall c a
  | .insert c h => s.insertSubscription c h
  | .handle h a => s.stepHandle h a
  | .server k a => s.stepServer k a

end State

end TuxStack.Ipc
