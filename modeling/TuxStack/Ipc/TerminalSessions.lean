import TuxStack.Ipc.Daemon
import TuxStack.Lib.AssocList
import TuxStack.Lib.Runs

/-!
# Terminal sessions on a connection

The life of a session between `connect` and `close`, in the steps in which
`run_terminal_subscription`, `spawn_subscription`, `dispatch_request` and `serve_client`
(`crates/tuxstack-daemon/src/ipc.rs`) take it there. Whoever takes a session out of the
registry closes it, and these are two steps: the lock on the registry is free in between. A `Server`
takes larger steps of the same kind (`Server.reach_sessions`).

The session that a subscription obtains has the number of the subscription.
-/

namespace TuxStack.Ipc

open Runs
open Server (succId skipUsed)

/-- Where the task of a subscription stands; `streaming` is a subscription without a
terminal. -/
inductive SessionPhase where
  | streaming
  | started
  | checking
  | connecting
  | obtained
  | resized
  | refused
  | taken
  | registered
  | running
  | returned
  | removed (session : Option Nat)
  | closed
  | ended
  | finished
deriving DecidableEq

structure SessionTask where
  id : SubscriptionId
  containerId : String
  cancelled : Bool := false
  phase : SessionPhase
deriving DecidableEq

/-- A request waits for its session, is served by one, or is about to close the one that it
has removed. -/
inductive SessionRequestPhase where
  | running
  | serving (session : Nat)
  | closing (session : Nat)
  | finished
deriving DecidableEq

structure SessionRequest where
  request : Request
  cancelled : Bool := false
  phase : SessionRequestPhase := .running
deriving DecidableEq

/-- The loop of the connection; in `closing` and `closingAll` sessions were removed and are
still to be closed. -/
inductive SessionLoop where
  | serving
  | unsubscribing (id : SubscriptionId)
  | closing (session : Option Nat)
  | leaving
  | closingAll (sessions : List Nat)
deriving DecidableEq

/-- A request that found a session, and the sessions that had been removed by then. -/
structure ServedRequest where
  session : Nat
  removed : List Nat
deriving DecidableEq

/-- One connection. The last four fields are its history: the sessions that were obtained,
those on which `close` was called, those removed from the registry, and the requests that
found one. -/
structure SessionServer where
  loop : SessionLoop := .serving
  subscriptions : AList fun _ : SubscriptionId => SubscriptionControl := ∅
  subscriptionTasks : Nat := 0
  nextSubscriptionId : SubscriptionId := 1
  terminals : AList fun _ : SubscriptionId => Terminal := ∅
  subscriptionDone : List SubscriptionId := []
  tasks : Nat → Option SessionTask := fun _ => none
  requests : Nat → Option SessionRequest := fun _ => none
  accepted : Nat := 0
  obtained : List Nat := []
  closed : List Nat := []
  removed : List Nat := []
  served : List ServedRequest := []

namespace SessionServer

variable (s : SessionServer)

/-! ## The registry -/

def sessionAt (id : SubscriptionId) : Option Nat := (s.terminals.lookup id).map (·.serial)

/-- `terminals.lock().await.remove(&id)`. -/
def removeTerminal (id : SubscriptionId) : SessionServer :=
  { s with
    terminals := s.terminals.erase id
    removed := s.removed ++ (s.sessionAt id).toList }

/-- `session.close()`. -/
def close (sessions : List Nat) : SessionServer := { s with closed := s.closed ++ sessions }

def terminalCapacityAvailable (containerId : String) : Bool :=
  (Assoc.values s.terminals).length < maxTerminalSessionsTotal &&
    ((Assoc.values s.terminals).filter (·.containerId = containerId)).length <
      maxTerminalSessionsPerContainer

/-! ## The tasks of subscriptions -/

def setPhase (k : Nat) (t : SessionTask) (phase : SessionPhase) : SessionServer :=
  { s with tasks := Function.update s.tasks k (some { t with phase }) }

/-- The next step of the task `k`: `ok` is whether it sends, connects, resizes, takes the
output over, or has another item. -/
def stepTask (k : Nat) (t : SessionTask) (ok : Bool) : Option SessionServer :=
  match t.phase with
  | .streaming => some (s.setPhase k t (if ok && !t.cancelled then .streaming else .returned))
  | .started => some (s.setPhase k t (if ok && !t.cancelled then .checking else .returned))
  | .checking =>
    some (s.setPhase k t
      (if s.terminalCapacityAvailable t.containerId then .connecting else .returned))
  | .connecting =>
    if ok then some ({ s with obtained := s.obtained ++ [k] }.setPhase k t .obtained)
    else some (s.setPhase k t .returned)
  | .obtained => some (s.setPhase k t (if ok then .resized else .refused))
  | .resized => some (s.setPhase k t (if ok then .taken else .refused))
  | .refused => some ((s.close [k]).setPhase k t .returned)
  | .taken =>
    some ({ s with terminals := s.terminals.insert t.id ⟨k, t.containerId⟩ }.setPhase k t
      .registered)
  | .registered => some (s.setPhase k t (if ok && !t.cancelled then .running else .returned))
  | .running => some (s.setPhase k t (if ok && !t.cancelled then .running else .returned))
  | .returned => some ((s.removeTerminal t.id).setPhase k t (.removed (s.sessionAt t.id)))
  | .removed session => some ((s.close session.toList).setPhase k t .closed)
  | .closed => some (s.setPhase k t .ended)
  | .ended =>
    some ({ s with subscriptionDone := s.subscriptionDone ++ [t.id] }.setPhase k t .finished)
  | .finished => none

/-! ## Requests -/

def setRequest (key : Nat) (r : SessionRequest) (phase : SessionRequestPhase) : SessionServer :=
  { s with requests := Function.update s.requests key (some { r with phase }) }

def found (session : Nat) : SessionServer :=
  { s with served := s.served ++ [{ session, removed := s.removed }] }

/-- `terminal_session`. -/
def serveBy (key : Nat) (r : SessionRequest) (id : SubscriptionId) : SessionServer :=
  match s.sessionAt id with
  | none => s.setRequest key r .finished
  | some session => (s.found session).setRequest key r (.serving session)

/-- `dispatch_request`, and what is left to do of it. -/
def stepRequest (key : Nat) (r : SessionRequest) : Option SessionServer :=
  match r.phase with
  | .running =>
    match r.request with
    | .containerTerminalInput id bytes =>
      if maxTerminalInputBytes < bytes.length then some (s.setRequest key r .finished)
      else some (s.serveBy key r id)
    | .containerTerminalResize id rows cols =>
      match validateTerminalSize rows cols with
      | .error _ => some (s.setRequest key r .finished)
      | .ok () => some (s.serveBy key r id)
    | .containerTerminalClose id =>
      match s.sessionAt id with
      | none => some (s.setRequest key r .finished)
      | some session =>
        some (((s.found session).removeTerminal id).setRequest key r (.closing session))
    | .service _ => some (s.setRequest key r .finished)
  | .serving _ => some (s.setRequest key r .finished)
  | .closing session => some ((s.close [session]).setRequest key r .finished)
  | .finished => none

/-- `token.cancelled()` drops a request where it waits. -/
def dropRequest (key : Nat) (r : SessionRequest) : Option SessionServer :=
  match r.phase with
  | .running | .serving _ => if r.cancelled then some (s.setRequest key r .finished) else none
  | .closing _ | .finished => none

/-! ## The loop -/

def cancelTask (k : Nat) : SessionServer :=
  { s with
    tasks := Function.update s.tasks k ((s.tasks k).map fun t => { t with cancelled := true }) }

/-- The loop is left: the tokens of the requests and of the subscriptions are cancelled. -/
def leave : SessionServer :=
  { s with
    loop := .leaving
    tasks := fun k => (s.tasks k).map fun t =>
      if (s.subscriptions.lookup t.id).any (·.serial = k) then { t with cancelled := true }
      else t
    requests := fun key => (s.requests key).map fun r => { r with cancelled := true } }

def freeId : SubscriptionId :=
  skipUsed (fun id => (s.subscriptions.lookup id).isSome) (Assoc.values s.subscriptions).length
    s.nextSubscriptionId

def newTask (id : SubscriptionId) : SubscriptionRequest → SessionTask
  | .containerTerminal containerId .. => { id, containerId, phase := .started }
  | _ => { id, containerId := "", phase := .streaming }

/-- The `Subscribe` arm past its checks. When the id cannot be sent, no task is started. -/
def accept (request : SubscriptionRequest) (taskCost : Nat) (sent : Bool) : SessionServer :=
  let id := s.freeId
  let s := { s with
    nextSubscriptionId := succId id
    subscriptions := s.subscriptions.insert id ⟨s.accepted, taskCost⟩
    subscriptionTasks := s.subscriptionTasks + taskCost
    accepted := s.accepted + 1 }
  if sent then
    { s with tasks := Function.update s.tasks (s.accepted - 1) (some (newTask id request)) }
  else s.leave

def subscribe (request : SubscriptionRequest) (sent : Bool) : SessionServer :=
  match subscriptionTaskCost request with
  | .error _ => if sent then s else s.leave
  | .ok taskCost =>
    if maxClientSubscriptions ≤ (Assoc.values s.subscriptions).length ∨
        maxClientStreamTasks < s.subscriptionTasks + taskCost then
      if sent then s else s.leave
    else s.accept request taskCost sent

/-- The `Unsubscribe` arm up to `close_terminal`. -/
def unsubscribe (id : SubscriptionId) : SessionServer :=
  match s.subscriptions.lookup id with
  | some control =>
    { s.cancelTask control.serial with
      subscriptions := s.subscriptions.erase id
      subscriptionTasks := s.subscriptionTasks - control.taskCost
      loop := .unsubscribing id }
  | none => { s with loop := .unsubscribing id }

/-- `subscription_done_rx.recv()`. -/
def takeDone (id : SubscriptionId) (rest : List SubscriptionId) : SessionServer :=
  { s with
    subscriptionDone := rest
    subscriptions := s.subscriptions.erase id
    subscriptionTasks :=
      s.subscriptionTasks - ((s.subscriptions.lookup id).map (·.taskCost)).getD 0 }

end SessionServer

inductive SessionAction where
  | subscribe (request : SubscriptionRequest) (sent : Bool)
  | unsubscribe (id : SubscriptionId)
  | removeTerminal
  | closeTerminal (sent : Bool)
  | takeDone
  | leave
  | takeTerminals
  | closeOne (session : Nat)
  | request (key : Nat) (request : Request)
  | cancelRequest (key : Nat)
  | stepRequest (key : Nat)
  | dropRequest (key : Nat)
  | stepTask (k : Nat) (ok : Bool)
deriving DecidableEq

open SessionServer in
def sessionServer : Machine SessionServer SessionAction where
  init s := s = {}
  step s
    | .subscribe request sent =>
      if s.loop = .serving then some (s.subscribe request sent) else none
    | .unsubscribe id => if s.loop = .serving then some (s.unsubscribe id) else none
    | .removeTerminal =>
      match s.loop with
      | .unsubscribing id =>
        some { s.removeTerminal id with loop := .closing (s.sessionAt id) }
      | _ => none
    | .closeTerminal sent =>
      match s.loop with
      | .closing session =>
        some (if sent then { s.close session.toList with loop := .serving }
          else (s.close session.toList).leave)
      | _ => none
    | .takeDone =>
      match s.loop, s.subscriptionDone with
      | .serving, id :: rest => some (s.takeDone id rest)
      | _, _ => none
    | .leave => if s.loop = .serving then some s.leave else none
    | .takeTerminals =>
      match s.loop with
      | .leaving =>
        let sessions := (Assoc.values s.terminals).map (·.serial)
        some { s with
          loop := .closingAll sessions
          terminals := ∅
          removed := s.removed ++ sessions }
      | _ => none
    | .closeOne session =>
      match s.loop with
      | .closingAll sessions =>
        if session ∈ sessions then
          some { s.close [session] with loop := .closingAll (sessions.erase session) }
        else none
      | _ => none
    | .request key request =>
      if s.loop = .serving ∧ s.requests key = none then
        some { s with requests := Function.update s.requests key (some { request }) }
      else none
    | .cancelRequest key =>
      if s.loop = .serving then
        some { s with
          requests := Function.update s.requests key
            ((s.requests key).map fun r => { r with cancelled := true }) }
      else none
    | .stepRequest key => (s.requests key).bind (s.stepRequest key)
    | .dropRequest key => (s.requests key).bind (s.dropRequest key)
    | .stepTask k ok => (s.tasks k).bind fun t => s.stepTask k t ok

namespace SessionServer

variable (s : SessionServer)

/-- A session that was removed is about to be closed by the task of a subscription, by a
request or by the loop. -/
def Doomed (session : Nat) : Prop :=
  (∃ k t, s.tasks k = some t ∧ t.phase = .removed (some session)) ∨
  (∃ key r, s.requests key = some r ∧ r.phase = .closing session) ∨
  s.loop = .closing (some session) ∨
  ∃ sessions, s.loop = .closingAll sessions ∧ session ∈ sessions

def Finished (k : Nat) : Prop := ∃ t, s.tasks k = some t ∧ t.phase = .finished

/-- The registry has no entry for the subscription `k`. -/
def Unregistered (k : Nat) : Prop := ∀ t, s.tasks k = some t → s.terminals.lookup t.id = none

/-- No request found a session that had been removed. -/
def ServedLive : Prop := ∀ r ∈ s.served, r.session ∉ r.removed

def HasFreshId : SessionAction → Prop
  | .subscribe _ _ => s.accepted + 1 < 2 ^ 64
  | _ => True

end SessionServer

end TuxStack.Ipc
