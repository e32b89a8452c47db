import TuxStack.Ipc.Limits

/-!
# Subscription streams

`Server` leaves open how a subscription task comes by its events. A `Hub` adds what the
tasks of `spawn_subscription` do inside: the broadcast loop of
`run_daemon_subscription`, and the member streams of `run_stats_subscription` and
`run_logs_subscription`, which run side by side under one cancellation token until
`wait_for_members` returns and drops them. Image pulls and terminals have one stream and
are as in `Server`.

`stream_shape` says that all of them funnel into the same shape: the frames for an id
are one `Subscribed`, then events, then one `SubscriptionEnded` if and when the task is
over, and nothing else, as long as the id counter has not wrapped.
-/

namespace TuxStack.Ipc

open Vfs Runs

/-! ## The tasks from inside -/

/-- `DaemonEvent`. A resource event is `listed` when its kind is among those that the
subscription asks for. -/
inductive DaemonEvent where
  | status (payload : Bytes)
  | mount (payload : Bytes)
  | resource (listed : Bool) (payload : Bytes)
deriving DecidableEq, Repr

def daemonUpdate : SubscriptionRequest → DaemonEvent → Option Bytes
  | .daemonStatus, .status payload => some payload
  | .mountStatus, .mount payload => some payload
  | .resourceChanges, .resource true payload => some payload
  | _, _ => none

def isDaemonRequest : SubscriptionRequest → Bool
  | .daemonStatus => true
  | .mountStatus => true
  | .resourceChanges => true
  | .providerStatus => true
  | _ => false

def memberIds : SubscriptionRequest → Option (List String)
  | .containerStats containerIds => some containerIds
  | .containerLogs containerIds => some containerIds
  | _ => none

/-- One member future; `joined` when `members.next()` has yielded it. -/
inductive Member where
  | polling
  | sending (payload : Bytes)
  | finished (result : Except ProtocolError Unit)
  | joined
deriving DecidableEq

/-- A connection with the members of its subscription tasks. -/
structure Hub where
  server : Server
  members : Nat → Option (List Member)

namespace Hub

def new : Hub := ⟨.new, fun _ => none⟩

/-- A turn of the loop of `run_daemon_subscription`. -/
inductive DaemonAction where
  | recv (event : DaemonEvent) (sent : Bool)
  | lagged
  | closed
  | cancelled

inductive MemberAction where
  | item (payload : Bytes)
  | streamEnd
  | streamError (error : ProtocolError)
  | cancelled
  | send (sent : Bool)

/-- A turn of the task around the members: build them, then `wait_for_members`. -/
inductive JoinAction where
  | spawn
  | next (i : Nat)
  | exhausted
  | cancelled

inductive Action where
  | receive (e : ProtocolEnvelope)
  | server (a : Server.Action)
  | daemon (serial : Nat) (a : DaemonAction)
  | member (serial i : Nat) (a : MemberAction)
  | join (serial : Nat) (a : JoinAction)

def stepDaemon (s : Server) (serial : Nat) (task : SubscriptionTask) :
    DaemonAction → Option Server
  | .recv event sent =>
    match daemonUpdate task.request event with
    | some payload =>
      some (s.sendOrReturn serial task (.update task.id payload) sent .streaming)
    | none => some s
  | .lagged => some s
  | .closed => some (s.setTaskPhase serial task (.returned .serverShutdown))
  | .cancelled =>
    if task.cancelled then some (s.setTaskPhase serial task (.returned .unsubscribed)) else none

/-- A member of `run_stats_subscription` or `run_logs_subscription`. A send that fails
cancels the token that all members share. -/
def stepMember (s : Server) (serial : Nat) (task : SubscriptionTask) :
    Member → MemberAction → Option (Server × Member)
  | .polling, .item payload => some (s, .sending payload)
  | .polling, .streamEnd => some (s, .finished (.ok ()))
  | .polling, .streamError e => some (s, .finished (.error e))
  | .polling, .cancelled => if task.cancelled then some (s, .finished (.ok ())) else none
  | .sending payload, .send sent =>
    if sent && !task.cancelled then some (s.sendEvent (.update task.id payload), .polling)
    else some (s.cancelTask serial, .finished (.ok ()))
  | _, _ => none

/-- `wait_for_members`, past the building of the members. -/
def stepJoin (s : Server) (serial : Nat) (task : SubscriptionTask) (members : List Member) :
    JoinAction → Option (Server × List Member)
  | .spawn => none
  | .next i =>
    match members[i]? with
    | some (.finished (.ok ())) => some (s, members.set i .joined)
    | some (.finished (.error e)) =>
      some ((s.cancelTask serial).setTaskPhase serial { task with cancelled := true }
        (.returned (.error e)), members.set i .joined)
    | _ => none
  | .exhausted =>
    if members.all (· = .joined) then
      some (s.setTaskPhase serial task (.returned .completed), members)
    else none
  | .cancelled =>
    if task.cancelled then
      some (s.setTaskPhase serial task (.returned .unsubscribed), members)
    else none

def streaming (h : Hub) (serial : Nat) : Option SubscriptionTask :=
  (h.server.tasks serial).filter fun task => task.phase = .streaming

/-- The steps of `Server` that stand for the inside of a task. -/
def isInside (s : Server) : Server.Action → Bool
  | .task serial a =>
    ((s.tasks serial).any fun task =>
        isDaemonRequest task.request || (memberIds task.request).isSome) &&
      match a with
      | .item _ _ => true
      | .streamEnd _ => true
      | .streamError _ _ => true
      | .cancelled => true
      | _ => false
  | _ => false

def setMembers (h : Hub) (serial : Nat) (server : Server) (members : List Member) : Hub :=
  { server := server, members := Function.update h.members serial (some members) }

def step (h : Hub) : Action → Option Hub
  | .receive e => some { h with server := { h.server with inbound := h.server.inbound ++ [e] } }
  | .server a =>
    if isInside h.server a then none
    else (h.server.step a).map fun server => { h with server := server }
  | .daemon serial a =>
    match h.streaming serial with
    | some task =>
      if isDaemonRequest task.request then
        (stepDaemon h.server serial task a).map fun server => { h with server := server }
      else none
    | none => none
  | .member serial i a =>
    match h.streaming serial, h.members serial with
    | some task, some members =>
      match members[i]? with
      | some member =>
        (stepMember h.server serial task member a).map fun r =>
          h.setMembers serial r.1 (members.set i r.2)
      | none => none
    | _, _ => none
  | .join serial a =>
    match h.streaming serial with
    | some task =>
      match memberIds task.request, h.members serial, a with
      | some containerIds, none, .spawn =>
        some (h.setMembers serial h.server (containerIds.map fun _ => .polling))
      | _, some members, a =>
        (stepJoin h.server serial task members a).map fun r =>
          h.setMembers serial r.1 r.2
      | _, _, _ => none
    | none => none

def machine : Machine Hub Action where
  init h := h = new
  step := step

def delivers : Action → Bool
  | .server (.serve _ sent) => sent
  | .server (.serveClosing sent) => sent
  | .server (.request _ (.respond sent)) => sent
  | .server (.task _ (.connecting sent)) => sent
  | .server (.task _ (.running sent)) => sent
  | .server (.task _ (.item _ sent)) => sent
  | .server (.task _ (.report sent)) => sent
  | .server (.task _ (.ended sent)) => sent
  | .daemon _ (.recv _ sent) => sent
  | .member _ _ (.send sent) => sent
  | _ => true

/-- The step does not take the id counter over its end. -/
def hasFreshId (h : Hub) : Action → Bool
  | .server a => h.server.hasFreshId a
  | _ => true

/-! ## Frames of a subscription -/

def frameId (e : ProtocolEnvelope) : Option SubscriptionId :=
  match e.body with
  | .subscribed id _ => some id
  | .event event => some event.subscriptionId
  | _ => none

/-- The frames for `id`, in the order in which they were sent. -/
def framesOf (id : SubscriptionId) (frames : List ProtocolEnvelope) : List ProtocolEnvelope :=
  frames.filter fun e => frameId e = some id

def isEnd : ServerEvent → Bool
  | .subscriptionEnded _ _ => true
  | _ => false

/-- `SubscriptionEnded` has been sent. -/
def isOver : TaskPhase → Bool
  | .ended => true
  | .finished => true
  | _ => false

/-- One `Subscribed(id)`, then events of `id`, then one `SubscriptionEnded(id)` if the
stream is over. -/
structure IsStream (id : SubscriptionId) (complete : Bool) (frames : List ProtocolEnvelope) :
    Prop where
  split : ∃ first events last, frames = first :: (events ++ last) ∧
    (∃ serial, first.body = .subscribed id serial) ∧
    (∀ e ∈ events, ∃ event, e.body = .event event ∧ event.subscriptionId = id ∧
      isEnd event = false) ∧
    if complete then ∃ e reason, last = [e] ∧ e.body = .event (.subscriptionEnded id reason)
    else last = []

theorem framesOf_append (id : SubscriptionId) (frames new : List ProtocolEnvelope) :
    framesOf id (frames ++ new) = framesOf id frames ++ framesOf id new :=
  List.filter_append ..

variable {id : SubscriptionId} {a : Action} {e : ProtocolEnvelope} {reason : SubscriptionEndReason}
  {phase : TaskPhase} {complete : Bool} {frames : List ProtocolEnvelope} {key : Nat}
  {requestId : RequestId}

theorem framesOf_other {new : List ProtocolEnvelope} (h : ∀ e ∈ new, frameId e ≠ some id) :
    framesOf id new = [] := by
  unfold framesOf
  rw [List.filter_eq_nil_iff]
  intro e he
  simpa using h e he

theorem framesOf_single (h : frameId e = some id) : framesOf id [e] = [e] := by
  unfold framesOf
  rw [List.filter_cons_of_pos (by simpa using h)]
  rfl

theorem IsStream.event (h : IsStream id false frames) {event : ServerEvent}
    (he : e.body = .event event) (hid : event.subscriptionId = id) (hend : isEnd event = false) :
    IsStream id false (frames ++ [e]) := by
  obtain ⟨first, events, last, rfl, hfirst, hevents, hlast⟩ := h.split
  have hlast : last = [] := hlast
  refine ⟨first, events ++ [e], [], by simp [hlast], hfirst, ?_, rfl⟩
  intro e' he'
  rcases List.mem_append.mp he' with hold | hnew
  · exact hevents e' hold
  · rw [List.mem_singleton] at hnew
    subst hnew
    exact ⟨event, he, hid, hend⟩

theorem IsStream.ended (h : IsStream id false frames)
    (he : e.body = .event (.subscriptionEnded id reason)) : IsStream id true (frames ++ [e]) := by
  obtain ⟨first, events, last, rfl, hfirst, hevents, hlast⟩ := h.split
  have hlast : last = [] := hlast
  exact ⟨first, events, [e], by simp [hlast], hfirst, hevents, e, reason, rfl, he⟩

theorem isStream_subscribed {serial : Nat} (he : e.body = .subscribed id serial) :
    IsStream id false [e] :=
  ⟨e, [], [], rfl, ⟨serial, he⟩, fun _ hno => (by cases hno), rfl⟩

/-! ## What a step sends -/

/-- What the streams of a connection look like to a frame count: the id of each task and
whether it is over. -/
def view (s : Server) (serial : Nat) : Option (SubscriptionId × Bool) :=
  (s.tasks serial).map fun task => (task.id, isOver task.phase)

inductive StreamStep (s s' : Server) : Prop where
  | quiet (new : List ProtocolEnvelope) (hout : s'.outbound = s.outbound ++ new)
      (hnew : ∀ e ∈ new, frameId e = none) (hview : view s' = view s)
      (haccepted : s'.accepted = s.accepted)
  | event {serial : Nat} {id : SubscriptionId} (event : ServerEvent)
      (hopen : view s serial = some (id, false)) (hid : event.subscriptionId = id)
      (hend : isEnd event = false)
      (hout : s'.outbound = s.outbound ++ [.new 0 (.event event)]) (hview : view s' = view s)
      (haccepted : s'.accepted = s.accepted)
  | ended {serial : Nat} {id : SubscriptionId} (reason : SubscriptionEndReason)
      (hopen : view s serial = some (id, false))
      (hout : s'.outbound = s.outbound ++ [.new 0 (.event (.subscriptionEnded id reason))])
      (hview : view s' = Function.update (view s) serial (some (id, true)))
      (haccepted : s'.accepted = s.accepted)
  | accept (requestId : RequestId)
      (hout : s'.outbound = s.outbound ++ [.new requestId (.subscribed s.freeId s.accepted)])
      (hview : view s' = Function.update (view s) s.accepted (some (s.freeId, false)))
      (haccepted : s'.accepted = s.accepted + 1)

variable {s s' : Server} {serial : Nat} {task : SubscriptionTask}

theorem StreamStep.silent (hout : s'.outbound = s.outbound) (hview : view s' = view s)
    (haccepted : s'.accepted = s.accepted) : StreamStep s s' :=
  .quiet [] (by rw [List.append_nil, hout]) (fun _ hno => (by cases hno)) hview haccepted

theorem view_update (tasks : Nat → Option SubscriptionTask) (serial : Nat)
    (task : SubscriptionTask) :
    (fun j => (Function.update tasks serial (some task) j).map fun task =>
        (task.id, isOver task.phase)) =
      Function.update (fun j => (tasks j).map fun task => (task.id, isOver task.phase)) serial
        (some (task.id, isOver task.phase)) := by
  funext j
  by_cases hj : j = serial
  · subst hj
    rw [Function.update_self, Function.update_self]
    rfl
  · rw [Function.update_of_ne hj, Function.update_of_ne hj]

theorem view_setTaskPhase (s : Server) (serial : Nat) (task : SubscriptionTask)
    (phase : TaskPhase) :
    view (s.setTaskPhase serial task phase) =
      Function.update (view s) serial (some (task.id, isOver phase)) :=
  view_update s.tasks serial { task with phase := phase }

theorem view_of_task (htask : s.tasks serial = some task) :
    view s serial = some (task.id, isOver task.phase) := by
  unfold view
  rw [htask]
  rfl

theorem view_setTaskPhase_same (htask : s.tasks serial = some task)
    (h : isOver phase = isOver task.phase) : view (s.setTaskPhase serial task phase) = view s := by
  rw [view_setTaskPhase, h, ← view_of_task htask, Function.update_eq_self]

theorem view_map {tasks : Nat → Option SubscriptionTask}
    {f : Nat → SubscriptionTask → SubscriptionTask}
    (hf : ∀ serial task, (f serial task).id = task.id ∧ (f serial task).phase = task.phase) :
    (fun j => ((tasks j).map (f j)).map fun task => (task.id, isOver task.phase)) =
      fun j => (tasks j).map fun task => (task.id, isOver task.phase) := by
  funext j
  rw [Option.map_map]
  congr 1
  funext task
  show ((f j task).id, isOver (f j task).phase) = _
  rw [(hf j task).1, (hf j task).2]

theorem view_cancelTask (s : Server) (serial : Nat) : view (s.cancelTask serial) = view s := by
  funext j
  show (Function.update s.tasks serial _ j).map _ = _
  by_cases hj : j = serial
  · subst hj
    rw [Function.update_self, Option.map_map]
    rfl
  · rw [Function.update_of_ne hj]
    rfl

theorem view_cancelAll (s : Server) : view s.cancelAll = view s := by
  refine view_map ?_
  intro serial task
  split
  · exact ⟨rfl, rfl⟩
  · exact ⟨rfl, rfl⟩

theorem isOver_of_moves {a : Server.TaskAction} (h : Server.TaskMoves s task a phase)
    (hdelivers : delivers (.server (.task serial a)) = true) :
    isOver phase = isOver task.phase := by
  cases h with
  | failed hphase _ hstopped | stopped hphase hstopped =>
    rw [hphase]
    cases phase with
    | reporting | returned => rfl
    | _ => cases hstopped
  | unsent hphase =>
    rcases hphase with hphase | ⟨shell, hphase⟩ | hphase
    · rw [hphase]; rfl
    · rw [hphase]; rfl
    · rw [hphase]; rfl
  | unended => cases hdelivers
  | allow hphase | refuse hphase | connected hphase | unreported hphase => rw [hphase]; rfl

theorem streamStep_task {a : Server.TaskAction}
    (hdelivers : delivers (.server (.task serial a)) = true) (htask : s.tasks serial = some task)
    (hstep : Server.TaskStep s serial task a s') : StreamStep s s' := by
  have hevent : ∀ {event : ServerEvent} {phase : TaskPhase}, isOver task.phase = false →
      event.subscriptionId = task.id → isEnd event = false → isOver phase = false →
      StreamStep s ((s.sendEvent event).setTaskPhase serial task phase) := by
    intro event phase hopen hid hend hphase
    have hview : view s serial = some (task.id, false) := by rw [view_of_task htask, hopen]
    exact .event event hview hid hend rfl
      (view_setTaskPhase_same (s := s.sendEvent event) htask (hphase.trans hopen.symm)) rfl
  cases hstep with
  | move hmoves =>
    exact .silent rfl (view_setTaskPhase_same htask (isOver_of_moves hmoves hdelivers)) rfl
  | send hsends =>
    cases hsends with
    | @ended reason hphase =>
      have hview : view s serial = some (task.id, false) := by
        rw [view_of_task htask, hphase]
        rfl
      exact .ended reason hview rfl
        (view_setTaskPhase (s.sendEvent (.subscriptionEnded task.id reason)) serial task .ended)
        rfl
    | connecting hphase | running hphase | output hphase | update hphase | report hphase =>
      exact hevent (by rw [hphase]; rfl) rfl rfl rfl
  | @register containerId _ hphase =>
    refine .silent rfl ?_ rfl
    exact view_setTaskPhase_same
      (s := { s with terminals := s.terminals.insert task.id ⟨serial, containerId⟩ }) htask
      (by rw [hphase]; rfl)
  | close hphase =>
    refine .silent rfl ?_ rfl
    exact view_setTaskPhase_same
      (s := { s with terminals := s.terminals.erase task.id }) htask (by rw [hphase]; rfl)
  | done hphase =>
    refine .silent rfl ?_ rfl
    exact view_setTaskPhase_same
      (s := { s with subscriptionDone := s.subscriptionDone ++ [task.id] }) htask
      (by rw [hphase]; rfl)

theorem streamStep_serve (h : s.serveFrame key e = some s') : StreamStep s s' := by
  cases Server.serveFrame_inv h with
  | refuseRequest | refuseSubscribe | ping =>
    refine .quiet [.new e.requestId _] rfl ?_ rfl rfl
    intro e' he'
    rw [List.mem_singleton] at he'
    subst he'
    rfl
  | spawn | cancel | ignore => exact .silent rfl rfl rfl
  | @accept request taskCost hbody =>
    refine .accept e.requestId rfl ?_ rfl
    have hphase : isOver (Server.firstPhase request) = false := by
      unfold Server.firstPhase
      split
      · rfl
      · rfl
    refine (view_update s.tasks s.accepted _).trans ?_
    rw [hphase]
    rfl
  | unsubscribe id =>
    unfold Server.serveUnsubscribe
    split
    · exact .silent rfl (view_cancelTask s _) rfl
    · exact .silent rfl rfl rfl
  | unexpected => exact .silent rfl (view_cancelAll s) rfl

theorem streamStep_request {task : RequestTask} {a : Server.RequestAction}
    (h : Server.RequestStep s key task a s') : StreamStep s s' := by
  cases h with
  | @dispatch outcome =>
    obtain ⟨applied, terminals, -, -, heq⟩ :=
      s.dispatchRequest_frame task.issuer task.request outcome
    rw [heq]
    exact .silent rfl rfl rfl
  | @respond response =>
    refine .quiet [.new task.requestId (.response response)] rfl ?_ rfl rfl
    intro e he
    rw [List.mem_singleton] at he
    subst he
    rfl
  | _ => exact .silent rfl rfl rfl

/-- **What a step of the loop or of a task sends**, when its sends succeed. -/
theorem streamStep_server {a : Server.Action} (hdelivers : delivers (.server a) = true)
    (h : s.step a = some s') : StreamStep s s' := by
  cases Server.step_inv h with
  | serve hloop hin hserve =>
    cases streamStep_serve hserve with
    | quiet new hout hnew hview haccepted => exact .quiet new hout hnew hview haccepted
    | event event hopen hid hend hout hview haccepted =>
      exact .event event hopen hid hend hout hview haccepted
    | ended reason hopen hout hview haccepted => exact .ended reason hopen hout hview haccepted
    | accept requestId hout hview haccepted => exact .accept requestId hout hview haccepted
  | unserved | unacknowledged => cases hdelivers
  | @acknowledge requestId id =>
    refine .quiet [.new requestId (.response .acknowledged)] rfl ?_ rfl rfl
    intro e he
    rw [List.mem_singleton] at he
    subst he
    rfl
  | requestDone | subscriptionDone | closeTerminals => exact .silent rfl rfl rfl
  | leave => exact .silent rfl (view_cancelAll s) rfl
  | request htask hrequest => exact streamStep_request hrequest
  | task hstep =>
    obtain ⟨task, htask, hstep⟩ := Server.stepTask_inv hstep
    exact streamStep_task hdelivers htask hstep

/-! ## What a step of a hub does to its server -/

/-- A step of the inside of a task, or one that the server has anyway. -/
inductive HubStep (s : Server) (a : Action) : Server → Prop where
  | receive (e : ProtocolEnvelope) : HubStep s a { s with inbound := s.inbound ++ [e] }
  | server {b : Server.Action} {s' : Server} (ha : a = .server b) (hstep : s.step b = some s') :
      HubStep s a s'
  | same : HubStep s a s
  | offer {serial : Nat} {task : SubscriptionTask} (payload : Bytes) (sent : Bool)
      (htask : s.tasks serial = some task) (hphase : task.phase = .streaming) :
      HubStep s a (s.sendOrReturn serial task (.update task.id payload) sent .streaming)
  | emit {serial : Nat} {task : SubscriptionTask} (payload : Bytes)
      (htask : s.tasks serial = some task) (hphase : task.phase = .streaming) :
      HubStep s a (s.sendEvent (.update task.id payload))
  | cancel (serial : Nat) : HubStep s a (s.cancelTask serial)
  | move {serial : Nat} {task : SubscriptionTask} (reason : SubscriptionEndReason)
      (htask : s.tasks serial = some task) (hphase : task.phase = .streaming) :
      HubStep s a (s.setTaskPhase serial task (.returned reason))
  | fail {serial : Nat} {task : SubscriptionTask} (reason : SubscriptionEndReason)
      (htask : s.tasks serial = some task) (hphase : task.phase = .streaming) :
      HubStep s a ((s.cancelTask serial).setTaskPhase serial { task with cancelled := true }
        (.returned reason))

theorem streaming_eq {h : Hub} (hstreaming : h.streaming serial = some task) :
    h.server.tasks serial = some task ∧ task.phase = .streaming := by
  obtain ⟨htask, hphase⟩ := Option.filter_eq_some_iff.mp hstreaming
  exact ⟨htask, by simpa using hphase⟩

theorem hubStep_daemon {b : DaemonAction} (htask : s.tasks serial = some task)
    (hphase : task.phase = .streaming) (h : stepDaemon s serial task b = some s') :
    HubStep s a s' := by
  unfold stepDaemon at h
  split at h
  · split at h <;> cases h
    · exact .offer _ _ htask hphase
    · exact .same
  · cases h
    exact .same
  · cases h
    exact .move _ htask hphase
  · split at h <;> cases h
    exact .move _ htask hphase

theorem hubStep_member {b : MemberAction} {member : Member} {r : Server × Member}
    (htask : s.tasks serial = some task) (hphase : task.phase = .streaming)
    (h : stepMember s serial task member b = some r) : HubStep s a r.1 := by
  unfold stepMember at h
  split at h
  · cases h
    exact .same
  · cases h
    exact .same
  · cases h
    exact .same
  · split at h <;> cases h
    exact .same
  · split at h <;> cases h
    · exact .emit _ htask hphase
    · exact .cancel serial
  · cases h

theorem hubStep_join {b : JoinAction} {members : List Member} {r : Server × List Member}
    (htask : s.tasks serial = some task) (hphase : task.phase = .streaming)
    (h : stepJoin s serial task members b = some r) : HubStep s a r.1 := by
  unfold stepJoin at h
  split at h
  · cases h
  · split at h <;> cases h
    · exact .same
    · exact .fail _ htask hphase
  · split at h <;> cases h
    exact .move _ htask hphase
  · split at h <;> cases h
    exact .move _ htask hphase

/-- **What a step of a hub does to its server.** -/
theorem step_inv {h h' : Hub} (hstep : h.step a = some h') : HubStep h.server a h'.server := by
  cases a with
  | receive e =>
    cases hstep
    exact .receive e
  | server b =>
    change (if _ then none else _) = some h' at hstep
    split at hstep
    · cases hstep
    · obtain ⟨s', hs', rfl⟩ := Option.map_eq_some_iff.mp hstep
      exact .server rfl hs'
  | daemon serial b =>
    simp only [step] at hstep
    split at hstep
    · rename_i task hstreaming
      obtain ⟨htask, hphase⟩ := streaming_eq hstreaming
      split at hstep
      · obtain ⟨s', hs', rfl⟩ := Option.map_eq_some_iff.mp hstep
        exact hubStep_daemon htask hphase hs'
      · cases hstep
    · cases hstep
  | member serial i b =>
    simp only [step] at hstep
    split at hstep
    · rename_i task members hstreaming hmembers
      obtain ⟨htask, hphase⟩ := streaming_eq hstreaming
      split at hstep
      · obtain ⟨r, hr, rfl⟩ := Option.map_eq_some_iff.mp hstep
        exact hubStep_member htask hphase hr
      · cases hstep
    · cases hstep
  | join serial b =>
    simp only [step] at hstep
    split at hstep
    · rename_i task hstreaming
      obtain ⟨htask, hphase⟩ := streaming_eq hstreaming
      split at hstep
      · cases hstep
        exact .same
      · obtain ⟨r, hr, rfl⟩ := Option.map_eq_some_iff.mp hstep
        exact hubStep_join htask hphase hr
      · cases hstep
    · cases hstep

theorem tasks_cancelTask (htask : s.tasks serial = some task) :
    (s.cancelTask serial).tasks serial = some { task with cancelled := true } := by
  show Function.update s.tasks serial _ serial = _
  rw [Function.update_self, htask]
  rfl

theorem taskStep_offer {payload : Bytes} (sent : Bool) (hphase : task.phase = .streaming) :
    Server.TaskStep s serial task (.item payload true)
      (s.sendOrReturn serial task (.update task.id payload) sent .streaming) :=
  Server.taskStep_sendOrReturn (.inr (.inr hphase)) fun _ => .update hphase

theorem HubStep.stream (hdelivers : delivers a = true) (h : HubStep s a s') : StreamStep s s' := by
  have hopen : ∀ {task : SubscriptionTask}, task.phase = .streaming →
      isOver task.phase = false := by
    intro task hphase
    rw [hphase]
    rfl
  cases h with
  | receive e | same => exact .silent rfl rfl rfl
  | server ha hstep =>
    subst ha
    exact streamStep_server hdelivers hstep
  | offer payload sent htask hphase =>
    exact streamStep_task rfl htask (taskStep_offer sent hphase)
  | @emit serial task payload htask hphase =>
    have hview : view s serial = some (task.id, false) := by
      rw [view_of_task htask, hopen hphase]
    exact .event _ hview rfl rfl rfl rfl rfl
  | cancel serial => exact .silent rfl (view_cancelTask s serial) rfl
  | move reason htask hphase =>
    exact .silent rfl (view_setTaskPhase_same htask (hopen hphase).symm) rfl
  | @fail serial task reason htask hphase =>
    have hover : isOver (.returned reason) = isOver task.phase := (hopen hphase).symm
    have hview := view_setTaskPhase_same (tasks_cancelTask htask) hover
    exact .silent rfl (hview.trans (view_cancelTask s serial)) rfl

theorem HubStep.numbered (hs : s.Numbered) (hfresh : ∀ b, a = .server b → s.hasFreshId b = true)
    (h : HubStep s a s') : s'.Numbered := by
  cases h with
  | receive e => exact { hs with }
  | server ha hstep => exact Server.numbered_step hs (hfresh _ ha) hstep
  | same => exact hs
  | offer payload sent htask hphase =>
    exact Server.numbered_task hs htask (taskStep_offer sent hphase)
  | @emit serial task payload htask hphase =>
    have hsend := hs.sendEnvelope (e := .new 0 (.event (.update task.id payload)))
      (by rintro id serial ⟨⟩)
    exact { hsend with }
  | cancel serial => exact hs.cancelTask serial
  | move reason htask hphase => exact hs.setTaskPhase htask _
  | @fail serial task reason htask hphase =>
    exact (hs.cancelTask serial).setTaskPhase (tasks_cancelTask htask) _

/-! ## The shape -/

/-- Every task has a stream of its own, in the right shape, and there is nothing else. -/
structure Shaped (s : Server) : Prop where
  numbered : s.Numbered
  later : ∀ serial, s.accepted ≤ serial → view s serial = none
  shape : ∀ serial id complete, view s serial = some (id, complete) →
    IsStream id complete (framesOf id s.outbound)
  unused : ∀ id, (∀ serial complete, view s serial ≠ some (id, complete)) →
    framesOf id s.outbound = []

theorem shaped_new : Shaped .new where
  numbered := Server.numbered_new
  later _ _ := rfl
  shape serial id complete h := by cases h
  unused _ _ := rfl

theorem Shaped.id_eq (h : Shaped s) (hview : view s serial = some (id, complete)) :
    id = serial + 1 := by
  obtain ⟨task, htask, heq⟩ := Option.map_eq_some_iff.mp hview
  cases heq
  exact h.numbered.tasks serial task htask

theorem Shaped.same (h : Shaped s) {serial' : Nat} {complete' : Bool}
    (hview : view s serial = some (id, complete)) (hview' : view s serial' = some (id, complete')) :
    serial' = serial ∧ complete' = complete := by
  have hid : serial + 1 = serial' + 1 := (h.id_eq hview).symm.trans (h.id_eq hview')
  have hserial : serial' = serial := (Nat.succ_inj.mp hid).symm
  rw [hserial, hview] at hview'
  cases hview'
  exact ⟨hserial, rfl⟩

/-- One more frame, for the id that `serial` has afterwards and no other task. -/
theorem Shaped.send (h : Shaped s) (hnumbered : s'.Numbered) (hid : frameId e = some id)
    (hout : s'.outbound = s.outbound ++ [e])
    (hview : view s' = Function.update (view s) serial (some (id, complete)))
    (hlater : ∀ k, s'.accepted ≤ k → s.accepted ≤ k ∧ k ≠ serial)
    (hown : ∀ id' ended, view s serial = some (id', ended) → id' = id)
    (hother : ∀ k ended, k ≠ serial → view s k ≠ some (id, ended))
    (hstream : IsStream id complete (framesOf id s.outbound ++ [e])) : Shaped s' := by
  have hsame : ∀ id', id ≠ id' → framesOf id' s'.outbound = framesOf id' s.outbound := by
    intro id' hne
    have hnone : framesOf id' [e] = [] := by
      refine framesOf_other fun e' he' => ?_
      rw [List.mem_singleton.mp he', hid]
      exact fun heq => hne (Option.some.inj heq)
    rw [hout, framesOf_append, hnone, List.append_nil]
  refine ⟨hnumbered, ?_, ?_, ?_⟩
  · intro k hle
    obtain ⟨hle, hne⟩ := hlater k hle
    rw [hview, Function.update_of_ne hne]
    exact h.later k hle
  · intro k id' ended hview'
    by_cases hk : k = serial
    · rw [hk, hview, Function.update_self] at hview'
      cases hview'
      rw [hout, framesOf_append, framesOf_single hid]
      exact hstream
    · rw [hview, Function.update_of_ne hk] at hview'
      rw [hsame id' (by rintro rfl; exact hother k ended hk hview')]
      exact h.shape k id' ended hview'
  · intro id' hunused
    have hne : id ≠ id' := by
      rintro rfl
      exact hunused serial complete (by rw [hview, Function.update_self])
    rw [hsame id' hne]
    refine h.unused id' ?_
    intro k ended hk
    by_cases hserial : k = serial
    · exact hne (hown id' ended (hserial ▸ hk)).symm
    · exact hunused k ended (by rw [hview, Function.update_of_ne hserial, hk])

theorem Shaped.goesOn (h : Shaped s) (hnumbered : s'.Numbered)
    (hopen : view s serial = some (id, false)) (hid : frameId e = some id)
    (hout : s'.outbound = s.outbound ++ [e])
    (hview : view s' = Function.update (view s) serial (some (id, complete)))
    (haccepted : s'.accepted = s.accepted)
    (hstream : IsStream id false (framesOf id s.outbound) →
      IsStream id complete (framesOf id s.outbound ++ [e])) : Shaped s' := by
  refine h.send hnumbered hid hout hview ?_ ?_ ?_ (hstream (h.shape serial id false hopen))
  · intro k hle
    rw [haccepted] at hle
    refine ⟨hle, ?_⟩
    rintro rfl
    rw [h.later k hle] at hopen
    cases hopen
  · intro id' ended hsame
    rw [hopen] at hsame
    cases hsame
    rfl
  · exact fun k ended hne hsame => hne (h.same hopen hsame).1

theorem Shaped.accept (h : Shaped s) (hnumbered : s'.Numbered)
    (hout : s'.outbound = s.outbound ++ [.new requestId (.subscribed s.freeId s.accepted)])
    (hview : view s' = Function.update (view s) s.accepted (some (s.freeId, false)))
    (haccepted : s'.accepted = s.accepted + 1) : Shaped s' := by
  have hnew : ∀ serial complete, view s serial ≠ some (s.freeId, complete) := by
    intro serial complete hsame
    have hid : s.accepted + 1 = serial + 1 := h.numbered.freeId_eq.symm.trans (h.id_eq hsame)
    rw [h.later serial (Nat.le_of_eq (Nat.succ_inj.mp hid))] at hsame
    cases hsame
  refine h.send hnumbered rfl hout hview ?_ ?_ (fun k ended _ => hnew k ended) ?_
  · intro k hle
    rw [haccepted] at hle
    omega
  · intro id ended hsame
    rw [h.later s.accepted le_rfl] at hsame
    cases hsame
  · rw [h.unused _ hnew]
    exact isStream_subscribed rfl

theorem Shaped.step (h : Shaped s) (hnumbered : s'.Numbered) (hstep : StreamStep s s') :
    Shaped s' := by
  cases hstep with
  | quiet new hout hnew hview haccepted =>
    have hsame : ∀ id, framesOf id s'.outbound = framesOf id s.outbound := by
      intro id
      have hnone : framesOf id new = [] := framesOf_other fun e he => by simp [hnew e he]
      rw [hout, framesOf_append, hnone, List.append_nil]
    refine ⟨hnumbered, ?_, ?_, ?_⟩
    · rw [haccepted, hview]
      exact h.later
    · intro serial id complete hview'
      rw [hsame]
      exact h.shape serial id complete (hview ▸ hview')
    · intro id hnone
      rw [hsame]
      exact h.unused id (hview ▸ hnone)
  | event event hopen hid hend hout hview haccepted =>
    refine h.goesOn (e := .new 0 (.event event)) hnumbered hopen (congrArg some hid) hout ?_
      haccepted fun hstream => hstream.event rfl hid hend
    rw [hview, ← hopen, Function.update_eq_self]
  | ended reason hopen hout hview haccepted =>
    exact h.goesOn hnumbered hopen rfl hout hview haccepted fun hstream => hstream.ended rfl
  | accept requestId hout hview haccepted => exact h.accept hnumbered hout hview haccepted

/-! ## Every stream can come to its end -/

/-- The phases before the output loop of `run_terminal_subscription`. -/
def isStarting : TaskPhase → Bool
  | .started => true
  | .connecting => true
  | .admitted => true
  | .connected _ => true
  | .registered _ => true
  | _ => false

/-- Only terminals have something to start. -/
def Placed (task : SubscriptionTask) : Prop :=
  isStarting task.phase = true → (Server.terminalOf task.request).isSome = true

def AllPlaced (s : Server) : Prop := ∀ serial task, s.tasks serial = some task → Placed task

theorem placed_of_not_starting (h : isStarting task.phase = false) : Placed task := by
  intro hyes
  rw [h] at hyes
  cases hyes

theorem isStarting_of_stopped (h : Server.isStopped phase = true) : isStarting phase = false := by
  cases phase with
  | reporting | returned => rfl
  | _ => cases h

theorem AllPlaced.setTaskPhase (h : AllPlaced s) (hplaced : Placed { task with phase := phase }) :
    AllPlaced (s.setTaskPhase serial task phase) := by
  intro serial' task' htask'
  rcases update_eq_some htask' with ⟨-, rfl⟩ | ⟨-, hold⟩
  · exact hplaced
  · exact h serial' task' hold

theorem AllPlaced.cancelTask (h : AllPlaced s) (serial : Nat) : AllPlaced
    (s.cancelTask serial) := by
  intro serial' task' htask'
  change Function.update s.tasks serial _ serial' = some task' at htask'
  by_cases hserial : serial' = serial
  · rw [hserial, Function.update_self] at htask'
    obtain ⟨task, htask, rfl⟩ := Option.map_eq_some_iff.mp htask'
    exact h serial task htask
  · rw [Function.update_of_ne hserial] at htask'
    exact h serial' task' htask'

theorem AllPlaced.cancelAll (h : AllPlaced s) : AllPlaced s.cancelAll := by
  intro serial task htask
  obtain ⟨old, hold, rfl⟩ := Option.map_eq_some_iff.mp htask
  have hplaced := h serial old hold
  split
  · exact hplaced
  · exact hplaced

theorem AllPlaced.taskStep (h : AllPlaced s) {a : Server.TaskAction}
    (hstep : Server.TaskStep s serial task a s') : AllPlaced s' := by
  have hterminal : ∀ {containerId phase}, Server.terminalOf task.request = some containerId →
      Placed { task with phase := phase } := by
    intro containerId phase hcontainer _
    show (Server.terminalOf task.request).isSome = true
    rw [hcontainer]
    rfl
  cases hstep with
  | move hmoves =>
    cases hmoves with
    | allow _ hcontainer | refuse _ hcontainer | connected _ hcontainer | failed _ hcontainer =>
      exact h.setTaskPhase (hterminal hcontainer)
    | stopped _ hstopped =>
      exact h.setTaskPhase (placed_of_not_starting (isStarting_of_stopped hstopped))
    | unsent | unreported | unended => exact h.setTaskPhase (placed_of_not_starting rfl)
  | @send _ event _ hsends =>
    refine AllPlaced.setTaskPhase (s := s.sendEvent event) h ?_
    cases hsends with
    | connecting _ hcontainer => exact hterminal hcontainer
    | _ => exact placed_of_not_starting rfl
  | register _ hcontainer =>
    exact AllPlaced.setTaskPhase (s := { s with terminals := _ }) h (hterminal hcontainer)
  | close =>
    exact AllPlaced.setTaskPhase (s := { s with terminals := _ }) h (placed_of_not_starting rfl)
  | done =>
    exact AllPlaced.setTaskPhase (s := { s with subscriptionDone := _ }) h
      (placed_of_not_starting rfl)

theorem AllPlaced.serveFrame (h : AllPlaced s) (hstep : s.serveFrame key e = some s') :
    AllPlaced s' := by
  cases Server.serveFrame_inv hstep with
  | @accept request taskCost hbody =>
    intro serial task htask
    rcases update_eq_some htask with ⟨-, rfl⟩ | ⟨-, hold⟩
    · intro hstarting
      cases request with
      | containerTerminal => rfl
      | _ => cases hstarting
    · exact h serial task hold
  | unsubscribe id =>
    unfold Server.serveUnsubscribe
    split
    · exact h.cancelTask _
    · exact h
  | unexpected => exact h.cancelAll
  | _ => exact h

theorem AllPlaced.server (h : AllPlaced s) {a : Server.Action} (hstep : s.step a = some s') :
    AllPlaced s' := by
  cases Server.step_inv hstep with
  | @serve key envelope rest _ hloop hin hserve =>
    exact AllPlaced.serveFrame (s := { s with inbound := rest }) h hserve
  | @unserved key envelope rest => exact AllPlaced.cancelAll (s := { s with inbound := rest }) h
  | unacknowledged => exact AllPlaced.cancelAll (s := { s with terminals := _, loop := _ }) h
  | leave => exact h.cancelAll
  | @request key a task _ htask hrequest =>
    cases hrequest with
    | @dispatch outcome =>
      obtain ⟨applied, terminals, -, -, heq⟩ :=
        s.dispatchRequest_frame task.issuer task.request outcome
      rw [heq]
      exact h
    | _ => exact h
  | task hstep =>
    obtain ⟨task, htask, hstep⟩ := Server.stepTask_inv hstep
    exact h.taskStep hstep
  | acknowledge | requestDone | subscriptionDone | closeTerminals => exact h

theorem AllPlaced.step (h : AllPlaced s) (hstep : HubStep s a s') : AllPlaced s' := by
  cases hstep with
  | receive e => exact h
  | server ha hstep => exact h.server hstep
  | same => exact h
  | offer payload sent htask hphase => exact h.taskStep (taskStep_offer sent hphase)
  | emit payload htask hphase => exact h
  | cancel serial => exact h.cancelTask serial
  | move reason htask hphase => exact h.setTaskPhase (placed_of_not_starting rfl)
  | @fail serial task reason htask hphase =>
    exact (h.cancelTask serial).setTaskPhase (placed_of_not_starting rfl)

/-- Steps of the task alone, all sends of which succeed, take the stream to its end. -/
def CanEnd (h : Hub) (serial : Nat) (id : SubscriptionId) : Prop :=
  ∃ as h', (∀ a ∈ as, delivers a = true ∧ ∀ h, hasFreshId h a = true) ∧
    machine.exec h as = some h' ∧ view h'.server serial = some (id, true)

theorem CanEnd.cons {h h' : Hub} (hstep : h.step a = some h') (hdelivers : delivers a = true)
    (hfresh : ∀ h, hasFreshId h a = true) (hrest : CanEnd h' serial id) : CanEnd h serial id := by
  obtain ⟨as, last, hall, hexec, hover⟩ := hrest
  refine ⟨a :: as, last, ?_, ?_, hover⟩
  · intro b hb
    rcases List.mem_cons.mp hb with rfl | hb
    · exact ⟨hdelivers, hfresh⟩
    · exact hall b hb
  · show (h.step a).bind _ = some last
    rw [hstep]
    exact hexec

theorem step_task {h : Hub} {a : Server.TaskAction}
    (houtside : isInside h.server (.task serial a) = false)
    (hstep : h.server.stepTask serial a = some s') :
    h.step (.server (.task serial a)) = some { h with server := s' } := by
  show (if isInside h.server (.task serial a) = true then none
    else (h.server.stepTask serial a).map _) = _
  rw [if_neg (by rw [houtside]; exact Bool.false_ne_true), hstep]
  rfl

theorem isInside_of_plain {h : Hub} {a : Server.TaskAction}
    (ha : (match a with
      | .item _ _ | .streamEnd _ | .streamError _ _ | .cancelled => true
      | _ => false) = false) : isInside h.server (.task serial a) = false := by
  unfold isInside
  dsimp only
  rw [ha, Bool.and_false]

theorem tasks_setTaskPhase (s : Server) (serial : Nat) (task : SubscriptionTask)
    (phase : TaskPhase) :
    (s.setTaskPhase serial task phase).tasks serial = some { task with phase := phase } :=
  Function.update_self ..

section

variable {h : Hub}

/-- The step of a task to its next phase, when its stream can end from there. -/
theorem canEnd_via (a : Server.TaskAction) (t : Server) (phase : TaskPhase)
    (houtside : isInside h.server (.task serial a) = false)
    (hdelivers : delivers (.server (.task serial a)) = true)
    (hrest : ∀ {h : Hub}, h.server.tasks serial = some { task with phase := phase } →
      CanEnd h serial { task with phase := phase }.id)
    (hstep : h.server.stepTask serial a = some (t.setTaskPhase serial task phase)) :
    CanEnd h serial task.id :=
  .cons (step_task houtside hstep) hdelivers (fun _ => rfl)
    (hrest (h := { h with server := _ }) (tasks_setTaskPhase ..))

variable (htask : h.server.tasks serial = some task)
include htask

theorem canEnd_over (hover : isOver task.phase = true) : CanEnd h serial task.id := by
  refine ⟨[], h, fun _ hno => (by cases hno), rfl, ?_⟩
  rw [view_of_task htask, hover]

theorem canEnd_closed (hphase : task.phase = .closed reason) : CanEnd h serial task.id := by
  refine canEnd_via (.ended true) (h.server.sendEvent (.subscriptionEnded task.id reason)) .ended
    (isInside_of_plain rfl) rfl (fun htask => canEnd_over htask rfl) ?_
  unfold Server.stepTask
  simp only [htask, hphase]
  rfl

theorem canEnd_returned (hphase : task.phase = .returned reason) : CanEnd h serial task.id := by
  refine canEnd_via (.close false)
    { h.server with terminals := h.server.terminals.erase task.id } (.closed reason)
    (isInside_of_plain rfl) rfl (fun htask => canEnd_closed htask rfl) ?_
  unfold Server.stepTask
  simp only [htask, hphase]
  rfl

theorem canEnd_reporting {state : TerminalState} (hphase : task.phase = .reporting state reason) :
    CanEnd h serial task.id := by
  refine canEnd_via (.report true) (if true && !task.cancelled then
      h.server.sendEvent (.terminalState task.id state) else h.server) (.returned reason)
    (isInside_of_plain rfl) rfl (fun htask => canEnd_returned htask rfl) ?_
  unfold Server.stepTask
  simp only [htask, hphase]

end

/-! ### Members -/

theorem streaming_of {h : Hub} (htask : h.server.tasks serial = some task)
    (hphase : task.phase = .streaming) : h.streaming serial = some task := by
  unfold streaming
  rw [htask]
  exact Option.filter_some_pos (by simpa using hphase)

section

variable {h : Hub} {members : List Member} {i : Nat}

theorem members_setMembers (h : Hub) (serial : Nat) (server : Server) (members : List Member) :
    (h.setMembers serial server members).members serial = some members :=
  Function.update_self ..

def isUnjoined : Member → Bool
  | .joined => false
  | _ => true

theorem countP_set_joined {member : Member} (hmember : members[i]? = some member)
    (hunjoined : isUnjoined member = true) :
    (members.set i .joined).countP isUnjoined < members.countP isUnjoined := by
  obtain ⟨hlt, hget⟩ := List.getElem?_eq_some_iff.mp hmember
  have hpos : 0 < members.countP isUnjoined :=
    List.countP_pos_iff.mpr ⟨member, List.mem_of_getElem? hmember, hunjoined⟩
  have hset := List.countP_set (p := isUnjoined) (a := Member.joined) hlt
  rw [hget, if_pos hunjoined, if_neg (by decide)] at hset
  omega

section

variable (htask : h.server.tasks serial = some task) (hphase : task.phase = .streaming)
  (hmembers : h.members serial = some members)
include htask hphase hmembers

theorem step_member {member : Member} (hmember : members[i]? = some member) {a : MemberAction}
    {r : Server × Member}
    (hstep : stepMember h.server serial task member a = some r) :
    h.step (.member serial i a) = some (h.setMembers serial r.1 (members.set i r.2)) := by
  simp only [step, streaming_of htask hphase, hmembers, hmember, hstep, Option.map_some]

theorem step_join {a : JoinAction} {r : Server × List Member}
    (hstep : stepJoin h.server serial task members a = some r) :
    h.step (.join serial a) = some (h.setMembers serial r.1 r.2) := by
  simp only [step, streaming_of htask hphase, hmembers, hstep, Option.map_some]

theorem canEnd_next (hmember : members[i]? = some (.finished (.ok ())))
    (hrest : CanEnd (h.setMembers serial h.server (members.set i .joined)) serial task.id) :
    CanEnd h serial task.id := by
  have hstep : stepJoin h.server serial task members (.next i) =
      some (h.server, members.set i .joined) := by
    unfold stepJoin
    simp only [hmember]
  exact .cons (step_join htask hphase hmembers hstep) rfl (fun _ => rfl) hrest

theorem canEnd_polling (hmember : members[i]? = some .polling)
    (hrest : CanEnd (h.setMembers serial h.server (members.set i .joined)) serial task.id) :
    CanEnd h serial task.id := by
  have hlt : i < members.length := (List.getElem?_eq_some_iff.mp hmember).1
  refine .cons (step_member htask hphase hmembers hmember (a := .streamEnd) rfl) rfl
    (fun _ => rfl) ?_
  refine canEnd_next (h := h.setMembers serial _ (members.set i (.finished (.ok ())))) htask
    hphase (members_setMembers ..) (List.getElem?_set_self hlt) ?_
  rw [List.set_set]
  have hsame : ((h.setMembers serial h.server (members.set i (.finished (.ok ())))).setMembers
      serial h.server (members.set i .joined)) =
        h.setMembers serial h.server (members.set i .joined) := by
    unfold setMembers
    rw [Function.update_idem]
  exact hsame ▸ hrest

/-- A task that returns from `wait_for_members`. -/
theorem canEnd_of_join {a : JoinAction} {server : Server} {later : List Member}
    {last : SubscriptionTask} {reason : SubscriptionEndReason}
    (hstep : stepJoin h.server serial task members a = some (server, later))
    (hlast : server.tasks serial = some last) (hid : last.id = task.id)
    (hreturned : last.phase = .returned reason) : CanEnd h serial task.id := by
  refine .cons (step_join htask hphase hmembers hstep) ?_ (fun _ => rfl) ?_
  · rfl
  · rw [← hid]
    exact canEnd_returned (h := h.setMembers serial server later) hlast hreturned

end

theorem canEnd_members (n : Nat) : ∀ {h : Hub} {members : List Member},
    members.countP isUnjoined = n → h.server.tasks serial = some task →
      task.phase = .streaming → h.members serial = some members → CanEnd h serial task.id := by
  induction n using Nat.strong_induction_on with
  | _ n ih =>
    intro h members hn htask hphase hmembers
    by_cases hcancelled : task.cancelled = true
    · have hstep : stepJoin h.server serial task members .cancelled =
          some (h.server.setTaskPhase serial task (.returned .unsubscribed), members) := by
        unfold stepJoin
        rw [if_pos hcancelled]
      exact canEnd_of_join htask hphase hmembers hstep (tasks_setTaskPhase ..) rfl rfl
    · by_cases hall : members.all (· = .joined) = true
      · have hstep : stepJoin h.server serial task members .exhausted =
            some (h.server.setTaskPhase serial task (.returned .completed), members) := by
          unfold stepJoin
          rw [if_pos hall]
        exact canEnd_of_join htask hphase hmembers hstep (tasks_setTaskPhase ..) rfl rfl
      -- some member is not joined yet; joining it leaves fewer
      · obtain ⟨member, hmem, hne⟩ : ∃ member ∈ members, member ≠ .joined := by
          simpa using hall
        obtain ⟨i, hmember⟩ := List.getElem?_of_mem hmem
        have hlt : i < members.length := (List.getElem?_eq_some_iff.mp hmember).1
        have hless : isUnjoined member = true → (members.set i .joined).countP isUnjoined < n :=
          fun hunjoined => hn ▸ countP_set_joined hmember hunjoined
        cases member with
        | joined => exact absurd rfl hne
        | polling =>
          refine canEnd_polling htask hphase hmembers hmember ?_
          exact ih _ (hless rfl) rfl htask hphase (members_setMembers ..)
        | sending payload =>
          have hstep : stepMember h.server serial task (.sending payload) (.send true) =
              some (h.server.sendEvent (.update task.id payload), .polling) := by
            unfold stepMember
            simp [hcancelled]
          refine .cons (step_member htask hphase hmembers hmember hstep) rfl (fun _ => rfl) ?_
          refine canEnd_polling (h := h.setMembers serial _ (members.set i .polling)) htask
            hphase (members_setMembers ..) (List.getElem?_set_self hlt) ?_
          rw [List.set_set]
          exact ih _ (hless rfl) rfl htask hphase (members_setMembers ..)
        | finished result =>
          cases result with
          | ok u =>
            refine canEnd_next htask hphase hmembers hmember ?_
            exact ih _ (hless rfl) rfl htask hphase (members_setMembers ..)
          | error e =>
            have hstep : stepJoin h.server serial task members (.next i) =
                some ((h.server.cancelTask serial).setTaskPhase serial
                  { task with cancelled := true } (.returned (.error e)),
                  members.set i .joined) := by
              unfold stepJoin
              simp only [hmember]
            exact canEnd_of_join htask hphase hmembers hstep (tasks_setTaskPhase ..) rfl rfl

end

/-! ### All tasks -/

section

variable {h : Hub} {containerId shell : String}

theorem canEnd_send (a : Server.TaskAction) (event : ServerEvent) (phase : TaskPhase)
    (houtside : isInside h.server (.task serial a) = false)
    (hdelivers : delivers (.server (.task serial a)) = true)
    (hrest : ∀ {h : Hub}, h.server.tasks serial = some { task with phase := phase } →
      CanEnd h serial { task with phase := phase }.id)
    (hstep : h.server.stepTask serial a =
      some (h.server.sendOrReturn serial task event true phase)) : CanEnd h serial task.id := by
  unfold Server.sendOrReturn at hstep
  split at hstep
  · exact canEnd_via a _ phase houtside hdelivers hrest hstep
  · exact canEnd_via a _ (.returned .unsubscribed) houtside hdelivers
      (fun htask => canEnd_returned htask rfl) hstep

variable (htask : h.server.tasks serial = some task)
include htask

theorem canEnd_daemon (hphase : task.phase = .streaming)
    (hrequest : isDaemonRequest task.request = true) :
    CanEnd h serial task.id := by
  have hstep : h.step (.daemon serial .closed) =
      some { h with server := h.server.setTaskPhase serial task (.returned .serverShutdown) } := by
    simp only [step, streaming_of htask hphase, hrequest, if_true]
    rfl
  refine .cons hstep rfl (fun _ => rfl) ?_
  have hreturned : (h.server.setTaskPhase serial task (.returned .serverShutdown)).tasks serial =
      some { task with phase := .returned .serverShutdown } := tasks_setTaskPhase ..
  have hend := canEnd_returned (h := { h with server := _ }) hreturned rfl
  exact hend

theorem canEnd_fan (hphase : task.phase = .streaming) {containerIds : List String}
    (hrequest : memberIds task.request = some containerIds) : CanEnd h serial task.id := by
  cases hmembers : h.members serial with
  | some members => exact canEnd_members _ rfl htask hphase hmembers
  | none =>
    have hstep : h.step (.join serial .spawn) =
        some (h.setMembers serial h.server (containerIds.map fun _ => .polling)) := by
      simp only [step, streaming_of htask hphase, hrequest, hmembers]
    exact .cons hstep rfl (fun _ => rfl)
      (canEnd_members _ rfl htask hphase (members_setMembers ..))

theorem canEnd_single (hphase : task.phase = .streaming)
    (hdaemon : isDaemonRequest task.request = false) (hmembers : memberIds task.request = none) :
    CanEnd h serial task.id := by
  have houtside : isInside h.server (.task serial (.streamEnd none)) = false := by
    simp [isInside, htask, hdaemon, hmembers]
  have hstep : h.server.stepTask serial (.streamEnd none) = some (h.server.setTaskPhase serial task
      (if (Server.terminalOf task.request).isSome then .reporting (.exited none) .completed
      else .returned .completed)) := by
    unfold Server.stepTask
    simp only [htask, hphase]
    rfl
  split at hstep
  · exact canEnd_via _ _ _ houtside rfl (fun htask => canEnd_reporting htask rfl) hstep
  · exact canEnd_via _ _ _ houtside rfl (fun htask => canEnd_returned htask rfl) hstep

theorem canEnd_streaming (hphase : task.phase = .streaming) : CanEnd h serial task.id := by
  by_cases hdaemon : isDaemonRequest task.request = true
  · exact canEnd_daemon htask hphase hdaemon
  · cases hmembers : memberIds task.request with
    | some containerIds => exact canEnd_fan htask hphase hmembers
    | none => exact canEnd_single htask hphase (Bool.eq_false_iff.mpr hdaemon) hmembers

section

variable (hcontainer : Server.terminalOf task.request = some containerId)
include hcontainer

theorem canEnd_registered (hphase : task.phase = .registered shell) : CanEnd h serial task.id := by
  refine canEnd_send (.running true) (.terminalState task.id (.running shell)) .streaming
    (isInside_of_plain rfl) rfl (fun htask => canEnd_streaming htask rfl) ?_
  unfold Server.stepTask
  simp only [htask, hphase, hcontainer]
  rfl

theorem canEnd_connected (hphase : task.phase = .connected shell) : CanEnd h serial task.id := by
  refine canEnd_via .register
    { h.server with terminals := h.server.terminals.insert task.id ⟨serial, containerId⟩ }
    (.registered shell) (isInside_of_plain rfl) rfl
    (fun htask => canEnd_registered htask hcontainer rfl) ?_
  unfold Server.stepTask
  simp only [htask, hphase, hcontainer]
  rfl

theorem canEnd_admitted (hphase : task.phase = .admitted) : CanEnd h serial task.id := by
  refine canEnd_via (.connect (.ok "")) h.server (.connected "") (isInside_of_plain rfl) rfl
    (fun htask => canEnd_connected htask hcontainer rfl) ?_
  unfold Server.stepTask
  simp only [htask, hphase, hcontainer]
  rfl

theorem canEnd_connecting (hphase : task.phase = .connecting) : CanEnd h serial task.id := by
  by_cases hroom : h.server.terminalCapacityAvailable containerId = true
  · refine canEnd_via .checkCapacity h.server .admitted (isInside_of_plain rfl) rfl
      (fun htask => canEnd_admitted htask hcontainer rfl) ?_
    unfold Server.stepTask Server.stepTerminal
    simp only [htask, hphase, hcontainer, hroom, if_true]
  · refine canEnd_via .checkCapacity h.server
      (.reporting (.failed "Too many terminal sessions are already open.")
        (.error ⟨.conflict, "Too many terminal sessions are already open.", false⟩))
      (isInside_of_plain rfl) rfl (fun htask => canEnd_reporting htask rfl) ?_
    unfold Server.stepTask Server.stepTerminal
    simp only [htask, hphase, hcontainer, hroom]
    rfl

theorem canEnd_started (hphase : task.phase = .started) : CanEnd h serial task.id := by
  refine canEnd_send (.connecting true) (.terminalState task.id .connecting) .connecting
    (isInside_of_plain rfl) rfl (fun htask => canEnd_connecting htask hcontainer rfl) ?_
  unfold Server.stepTask
  simp only [htask, hphase, hcontainer]
  rfl

end

/-- **Every stream can come to its end** by steps of its own task. -/
theorem canEnd_of_placed (hplaced : AllPlaced h.server) : CanEnd h serial task.id := by
  have hterminal : isStarting task.phase = true →
      ∃ containerId, Server.terminalOf task.request = some containerId := fun hstarting =>
    Option.isSome_iff_exists.mp (hplaced serial task htask hstarting)
  cases hphase : task.phase with
  | started =>
    obtain ⟨containerId, hcontainer⟩ := hterminal (by rw [hphase]; rfl)
    exact canEnd_started htask hcontainer hphase
  | connecting =>
    obtain ⟨containerId, hcontainer⟩ := hterminal (by rw [hphase]; rfl)
    exact canEnd_connecting htask hcontainer hphase
  | admitted =>
    obtain ⟨containerId, hcontainer⟩ := hterminal (by rw [hphase]; rfl)
    exact canEnd_admitted htask hcontainer hphase
  | connected shell =>
    obtain ⟨containerId, hcontainer⟩ := hterminal (by rw [hphase]; rfl)
    exact canEnd_connected htask hcontainer hphase
  | registered shell =>
    obtain ⟨containerId, hcontainer⟩ := hterminal (by rw [hphase]; rfl)
    exact canEnd_registered htask hcontainer hphase
  | streaming => exact canEnd_streaming htask hphase
  | reporting state reason => exact canEnd_reporting htask hphase
  | returned reason => exact canEnd_returned htask hphase
  | closed reason => exact canEnd_closed htask hphase
  | ended | finished => exact canEnd_over htask (by rw [hphase]; rfl)

end

/-! ## The main result -/

/-- **The shape of a subscription stream.** In every run of a connection in which all
sends succeed and the id counter does not wrap: the frames for the id of a subscription
are one `Subscribed`, events, and one `SubscriptionEnded` at the end exactly if its task
is past it; its task can be run to its end; the id is its own; and every frame for an id
is that of a subscription. -/
theorem stream_shape {h : Hub}
    (hreach : machine.Reach (fun h a => delivers a = true ∧ h.hasFreshId a = true) h) :
    (∀ serial task, h.server.tasks serial = some task →
      IsStream task.id (isOver task.phase) (framesOf task.id h.server.outbound) ∧
        CanEnd h serial task.id ∧
        ∀ serial' task', h.server.tasks serial' = some task' → task'.id = task.id →
          serial' = serial) ∧
    ∀ e ∈ h.server.outbound, ∀ id, frameId e = some id →
      ∃ serial task, h.server.tasks serial = some task ∧ task.id = id := by
  have hinv : Shaped h.server ∧ AllPlaced h.server := by
    refine hreach.invariant (I := fun h => Shaped h.server ∧ AllPlaced h.server) ?_ ?_
    · rintro _ rfl
      exact ⟨shaped_new, fun serial task htask => (by cases htask)⟩
    · rintro h a h' ⟨hshaped, hplaced⟩ ⟨hdelivers, hfresh⟩ hstep
      have hhub := step_inv hstep
      have hnumbered : h'.server.Numbered := by
        refine hhub.numbered hshaped.numbered ?_
        rintro b rfl
        exact hfresh
      exact ⟨hshaped.step hnumbered (hhub.stream hdelivers), hplaced.step hhub⟩
  obtain ⟨hshaped, hplaced⟩ := hinv
  refine ⟨?_, ?_⟩
  · intro serial task htask
    have hview := view_of_task htask
    refine ⟨hshaped.shape serial _ _ hview, canEnd_of_placed htask hplaced, ?_⟩
    intro serial' task' htask' hid
    have hview' := view_of_task htask'
    rw [hid] at hview'
    exact (hshaped.same hview hview').1
  · intro e he id hid
    by_contra hnone
    have hempty : framesOf id h.server.outbound = [] := by
      refine hshaped.unused id ?_
      intro serial complete hview
      obtain ⟨task, htask, heq⟩ := Option.map_eq_some_iff.mp hview
      cases heq
      exact hnone ⟨serial, task, htask, rfl⟩
    have hmem : e ∈ framesOf id h.server.outbound :=
      List.mem_filter.mpr ⟨he, decide_eq_true hid⟩
    rw [hempty] at hmem
    cases hmem

/-- Statistics of two containers: an item of each, then one stream fails. -/
def failingMember : List Action :=
  [.receive (.new 1 (.subscribe (.containerStats ["a", "b"]))), .server (.serve 0 true),
    .join 0 .spawn, .member 0 1 (.item [1]), .member 0 0 (.item [2]), .member 0 1 (.send true),
    .member 0 1 (.streamError ⟨.notFound, "gone", false⟩), .member 0 0 (.send true),
    .join 0 (.next 1), .server (.task 0 (.close false)), .server (.task 0 (.ended true)),
    .server (.task 0 .done)]

/-- The result after such a run: four frames, the last one the end. -/
theorem failing_member_ends_stream :
    ∃ h, machine.exec new failingMember = some h ∧ (framesOf 1 h.server.outbound).length = 4 ∧
      IsStream 1 true (framesOf 1 h.server.outbound) := by
  have hrun : ∃ h ∈ machine.exec new failingMember,
      (framesOf 1 h.server.outbound).length = 4 ∧ view h.server 0 = some (1, true) := by
    decide +kernel
  have hsteps : machine.AllSteps (fun h a => delivers a = true ∧ h.hasFreshId a = true) new
      failingMember := by
    decide +kernel
  obtain ⟨h, hh, hlength, hview⟩ := hrun
  have hexec := Option.mem_def.mp hh
  obtain ⟨task, htask, heq⟩ := Option.map_eq_some_iff.mp hview
  obtain ⟨hid, hover⟩ := Prod.mk.inj heq
  have hstream := ((stream_shape (Machine.reach_of_exec (.init rfl) hsteps hexec)).1 0 task htask).1
  rw [hid, hover] at hstream
  exact ⟨h, hexec, hlength, hstream⟩

/-! ## The counter goes around -/

/-- `n` subscriptions have been accepted and cancelled again. -/
structure Cycled (s : Server) (n : Nat) : Prop where
  loop : s.loop = .serving
  inbound : s.inbound = []
  empty : ∀ id : SubscriptionId, s.subscriptions[id]? = none
  tasks : s.subscriptionTasks = 0
  next : s.nextSubscriptionId = Server.idAfter 1 n
  accepted : s.accepted = n
  announced : ∀ i < n, ∃ e ∈ s.outbound, e.body = .subscribed (Server.idAfter 1 i) i

theorem size_eq_zero {t : Std.TreeMap SubscriptionId SubscriptionControl}
    (h : ∀ id : SubscriptionId, t[id]? = none) : t.size = 0 := by
  have hempty : t.isEmpty = true := by
    rw [Std.TreeMap.isEmpty_iff_forall_not_mem]
    intro id
    rw [Std.TreeMap.mem_iff_isSome_getElem?, h id]
    exact Bool.false_ne_true
  rw [Std.TreeMap.isEmpty_eq_size_eq_zero] at hempty
  simpa using hempty

theorem freeId_of_empty (h : ∀ id : SubscriptionId, s.subscriptions[id]? = none) :
    s.freeId = s.nextSubscriptionId := by
  unfold Server.freeId
  rw [size_eq_zero h]
  rfl

theorem serve_subscribe (hloop : s.loop = .serving)
    (hin : s.inbound = [.new 1 (.subscribe .daemonStatus)])
    (hempty : ∀ id : SubscriptionId, s.subscriptions[id]? = none)
    (htasks : s.subscriptionTasks = 0) :
    s.serve 0 true = some ({ s with inbound := [] }.accept 1 .daemonStatus 1) := by
  have hlimits : ¬ (maxClientSubscriptions ≤ s.subscriptions.size ∨
      maxClientStreamTasks < s.subscriptionTasks + 1) := by
    rw [size_eq_zero hempty, htasks]
    decide
  unfold Server.serve
  rw [hloop, hin]
  show some (Server.serveSubscribe _ _ _) = _
  unfold Server.serveSubscribe
  dsimp only [subscriptionTaskCost]
  rw [if_neg hlimits]
  rfl

theorem serve_unsubscribe {control : SubscriptionControl} (hloop : s.loop = .serving)
    (hin : s.inbound = [.new 2 (.unsubscribe id)])
    (hcontrol : s.subscriptions[id]? = some control) :
    s.serve 0 true = some
      { ({ s with inbound := [] } : Server).cancelTask control.serial with
        subscriptions := s.subscriptions.erase id
        subscriptionTasks := s.subscriptionTasks - control.taskCost
        loop := .closing 2 id } := by
  unfold Server.serve
  rw [hloop, hin]
  show some (Server.serveUnsubscribe _ _ _) = _
  unfold Server.serveUnsubscribe
  dsimp only
  rw [hcontrol]
  rfl

theorem serveClosing_true (hloop : s.loop = .closing requestId id) : s.serveClosing true = some
      ({ s with terminals := s.terminals.erase id, loop := .serving }.sendResponse requestId
        .acknowledged) := by
  unfold Server.serveClosing
  rw [hloop]
  rfl

theorem succId_idAfter (n : Nat) :
    Server.succId (Server.idAfter 1 n) = Server.idAfter 1 (n + 1) := by
  have hmod : n % 18446744073709551615 < 18446744073709551615 := Nat.mod_lt _ (by decide)
  have hlt : Server.idAfter 1 n < 2 ^ 64 := by
    show (1 - 1 + n) % 18446744073709551615 + 1 < 18446744073709551616
    omega
  have hsucc := Server.succId_eq (n := Server.idAfter 1 n) (Nat.succ_pos _) hlt
  rw [hsucc]
  show ((1 - 1 + n) % 18446744073709551615 + 1) % 18446744073709551615 + 1 =
    (1 - 1 + (n + 1)) % 18446744073709551615 + 1
  omega

/-- The subscription `n` is live; it is the only one. -/
structure Accepted (s : Server) (n : Nat) : Prop where
  loop : s.loop = .serving
  inbound : s.inbound = []
  live : s.subscriptions[Server.idAfter 1 n]? = some ⟨n, 1⟩
  others : ∀ id : SubscriptionId, (s.subscriptions.erase (Server.idAfter 1 n))[id]? = none
  tasks : s.subscriptionTasks = 1
  next : s.nextSubscriptionId = Server.idAfter 1 (n + 1)
  accepted : s.accepted = n + 1
  announced : ∀ i < n + 1, ∃ e ∈ s.outbound, e.body = .subscribed (Server.idAfter 1 i) i

theorem Cycled.accept {n : Nat} (h : Cycled s n) :
    ∃ s', ({ s with inbound := [.new 1 (.subscribe .daemonStatus)] } : Server).serve 0 true =
      some s' ∧ Accepted s' n := by
  have hfree : s.freeId = Server.idAfter 1 n := (freeId_of_empty h.empty).trans h.next
  refine ⟨_, serve_subscribe h.loop rfl h.empty h.tasks, ?_⟩
  have hsubscriptions : ∀ id : SubscriptionId,
      (s.subscriptions.insert s.freeId ⟨s.accepted, 1⟩)[id]? =
        if Server.idAfter 1 n = id then some ⟨n, 1⟩ else none := by
    intro id
    rw [Std.TreeMap.getElem?_insert, h.empty id, hfree, h.accepted]
    simp only [compare_eq_iff_eq]
  refine ⟨h.loop, rfl, ?_, ?_, ?_, ?_, ?_, ?_⟩
  · refine (hsubscriptions _).trans ?_
    rw [if_pos rfl]
  · intro id
    rw [Std.TreeMap.getElem?_erase]
    split
    · rfl
    · rename_i hne
      refine (hsubscriptions id).trans ?_
      rw [if_neg (by simpa using hne)]
  · show s.subscriptionTasks + 1 = 1
    rw [h.tasks]
  · show Server.succId s.freeId = _
    rw [hfree, succId_idAfter]
  · show s.accepted + 1 = n + 1
    rw [h.accepted]
  · intro i hi
    by_cases hin : i = n
    · subst hin
      refine ⟨.new 1 (.subscribed s.freeId s.accepted),
        List.mem_append_right _ (List.mem_singleton.mpr rfl), ?_⟩
      show ProtocolBody.subscribed s.freeId s.accepted = _
      rw [hfree, h.accepted]
    · obtain ⟨e, he, hbody⟩ := h.announced i (by omega)
      exact ⟨e, List.mem_append_left _ he, hbody⟩

theorem Accepted.cancel {n : Nat} (h : Accepted s n) :
    ∃ s' s'', ({ s with
        inbound := [.new 2 (.unsubscribe (Server.idAfter 1 n))] } : Server).serve 0 true = some s' ∧
      s'.serveClosing true = some s'' ∧ Cycled s'' (n + 1) := by
  refine ⟨_, _, serve_unsubscribe h.loop rfl h.live, serveClosing_true rfl, ?_⟩
  refine ⟨rfl, rfl, h.others, ?_, h.next, h.accepted, ?_⟩
  · show s.subscriptionTasks - 1 = 0
    rw [h.tasks]
  · intro i hi
    obtain ⟨e, he, hbody⟩ := h.announced i hi
    exact ⟨e, List.mem_append_left _ he, hbody⟩

theorem reach_serve {h : Hub} (hreach : machine.Reach (fun _ a => delivers a = true) h)
    (hin : h.server.inbound = [])
    (hserve : ({ h.server with inbound := [e] } : Server).serve 0 true = some s') :
    machine.Reach (fun _ a => delivers a = true) ⟨s', h.members⟩ := by
  have hreceive : machine.step h (.receive e) =
      some ⟨{ h.server with inbound := [e] }, h.members⟩ := by
    show some (Hub.mk { h.server with inbound := h.server.inbound ++ _ } _) = _
    rw [hin]
    rfl
  refine .step (.step hreach rfl hreceive) (a := .server (.serve 0 true)) rfl ?_
  show (Server.serve _ 0 true).map _ = _
  rw [hserve]
  rfl

theorem exists_cycled (n : Nat) :
    ∃ h, machine.Reach (fun _ a => delivers a = true) h ∧ Cycled h.server n := by
  induction n with
  | zero =>
    refine ⟨new, .init rfl, rfl, rfl, fun id => ?_, rfl, rfl, rfl, fun i hi => ?_⟩
    · simp [new, Server.new]
    · exact absurd hi (Nat.not_lt_zero i)
  | succ n ih =>
    obtain ⟨h, hreach, hcycled⟩ := ih
    obtain ⟨s₁, hserve₁, haccepted⟩ := hcycled.accept
    obtain ⟨s₂, s₃, hserve₂, hclosing, hnext⟩ := haccepted.cancel
    have hsubscribed := reach_serve hreach hcycled.inbound hserve₁
    have hcancelled := reach_serve hsubscribed haccepted.inbound hserve₂
    refine ⟨⟨s₃, h.members⟩, .step hcancelled (a := .server (.serveClosing true)) rfl ?_, hnext⟩
    show (Server.serveClosing _ true).map _ = _
    rw [hclosing]
    rfl

/-- A stream has one `Subscribed` only. -/
theorem IsStream.subscribed_unique (h : IsStream id complete frames) (he : e ∈ frames)
    {id' : SubscriptionId} {serial : Nat} (hbody : e.body = .subscribed id' serial) :
    frames.head? = some e := by
  obtain ⟨first, events, last, rfl, -, hevents, hlast⟩ := h.split
  rcases List.mem_cons.mp he with rfl | he
  · rfl
  · rcases List.mem_append.mp he with he | he
    · obtain ⟨event, hevent, -⟩ := hevents e he
      rw [hbody] at hevent
      cases hevent
    · cases complete with
      | false =>
        have hnil : last = [] := hlast
        rw [hnil] at he
        cases he
      | true =>
        obtain ⟨e', reason, hone, hend⟩ := hlast
        rw [hone, List.mem_singleton] at he
        subst he
        rw [hbody] at hend
        cases hend

/-- After `2^64` subscriptions, all accepted and cancelled in turn, the id 1 has been
announced twice, and what has been sent for it is not a stream. -/
theorem id_announced_twice :
    ∃ h, machine.Reach (fun _ a => delivers a = true) h ∧
      (∃ e ∈ h.server.outbound, e.body = .subscribed 1 0) ∧
      (∃ e ∈ h.server.outbound, e.body = .subscribed 1 (2 ^ 64 - 1)) ∧
      ∀ complete, ¬ IsStream 1 complete (framesOf 1 h.server.outbound) := by
  obtain ⟨h, hreach, hcycled⟩ := exists_cycled (2 ^ 64)
  obtain ⟨e, he, hbody⟩ := hcycled.announced 0 (by decide)
  obtain ⟨e', he', hbody'⟩ := hcycled.announced (2 ^ 64 - 1) (by decide)
  have hid : Server.idAfter 1 0 = 1 := by decide
  have hid' : Server.idAfter 1 (2 ^ 64 - 1) = 1 := by decide
  rw [hid] at hbody
  rw [hid'] at hbody'
  refine ⟨h, hreach, ⟨e, he, hbody⟩, ⟨e', he', hbody'⟩, ?_⟩
  intro complete hstream
  have hmem : ∀ {e : ProtocolEnvelope} {serial : Nat}, e ∈ h.server.outbound →
      e.body = .subscribed 1 serial → e ∈ framesOf 1 h.server.outbound := by
    intro e serial he hbody
    refine List.mem_filter.mpr ⟨he, decide_eq_true ?_⟩
    unfold frameId
    rw [hbody]
  have hfirst := hstream.subscribed_unique (hmem he hbody) hbody
  have hsecond := hstream.subscribed_unique (hmem he' hbody') hbody'
  rw [hfirst] at hsecond
  cases hsecond
  rw [hbody] at hbody'
  cases hbody'

end Hub

end TuxStack.Ipc
