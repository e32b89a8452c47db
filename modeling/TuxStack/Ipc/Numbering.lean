import TuxStack.Ipc.System

/-!
# What the daemon sends, and how it numbers

Inversion lemmas for `Server.step`, and two consequences. `emits_step`: what a
step adds to the stream of its connection, where every event is also recorded in
`sent`. `numbered_step`: until the id counter of a connection wraps, its `n`-th
subscription has the id `n` (counting from 1), and so has everything the daemon
keeps under that id.
-/

namespace TuxStack.Ipc

/-- The frames a client sends after its handshake. -/
def isClientFrame (e : ProtocolEnvelope) : Bool :=
  match e.body with
  | .request _ => true
  | .cancelRequest _ => true
  | .subscribe _ => true
  | .unsubscribe _ => true
  | .ping => true
  | _ => false

namespace Server

/-! ## Inversion -/

/-- The task has nothing more to stream. -/
def isStopped : TaskPhase → Bool
  | .reporting _ _ | .returned _ => true
  | _ => false

/-- The phases in which a subscription task goes on without sending anything. -/
inductive TaskMoves (s : Server) (task : SubscriptionTask) : TaskAction → TaskPhase → Prop where
  | allow {containerId} (hphase : task.phase = .connecting)
      (hcontainer : terminalOf task.request = some containerId)
      (havailable : s.terminalCapacityAvailable containerId = true) :
      TaskMoves s task .checkCapacity .admitted
  | refuse {containerId state reason} (hphase : task.phase = .connecting)
      (hcontainer : terminalOf task.request = some containerId)
      (hfull : s.terminalCapacityAvailable containerId = false) :
      TaskMoves s task .checkCapacity (.reporting state reason)
  | connected {containerId shell} (hphase : task.phase = .admitted)
      (hcontainer : terminalOf task.request = some containerId) :
      TaskMoves s task (.connect (.ok shell)) (.connected shell)
  | failed {containerId e phase} (hphase : task.phase = .admitted)
      (hcontainer : terminalOf task.request = some containerId)
      (hstopped : isStopped phase = true) : TaskMoves s task (.connect (.error e)) phase
  | unsent {a} (hphase : task.phase = .started ∨ (∃ shell, task.phase = .registered shell) ∨
        task.phase = .streaming) :
      TaskMoves s task a (.returned .unsubscribed)
  | stopped {a phase} (hphase : task.phase = .streaming) (hstopped : isStopped phase = true) :
      TaskMoves s task a phase
  | unreported {state reason sent} (hphase : task.phase = .reporting state reason) :
      TaskMoves s task (.report sent) (.returned reason)
  | unended {reason} (hphase : task.phase = .closed reason) : TaskMoves s task (.ended false) .ended

inductive TaskSends (task : SubscriptionTask) : TaskAction → ServerEvent → TaskPhase → Prop where
  | connecting {containerId} (hphase : task.phase = .started)
      (hcontainer : terminalOf task.request = some containerId) (hlive : task.cancelled = false) :
      TaskSends task (.connecting true) (.terminalState task.id .connecting) .connecting
  | running {containerId shell} (hphase : task.phase = .registered shell)
      (hcontainer : terminalOf task.request = some containerId) (hlive : task.cancelled = false) :
      TaskSends task (.running true) (.terminalState task.id (.running shell)) .streaming
  | output {bytes} (hphase : task.phase = .streaming) (hlive : task.cancelled = false) :
      TaskSends task (.item bytes true) (.terminalOutput task.id bytes) .streaming
  | update {bytes} (hphase : task.phase = .streaming) (hlive : task.cancelled = false) :
      TaskSends task (.item bytes true) (.update task.id bytes) .streaming
  | report {state reason} (hphase : task.phase = .reporting state reason) :
      TaskSends task (.report true) (.terminalState task.id state) (.returned reason)
  | ended {reason} (hphase : task.phase = .closed reason) :
      TaskSends task (.ended true) (.subscriptionEnded task.id reason) .ended

/-- What a step of the subscription task `serial` can do. -/
inductive TaskStep (s : Server) (serial : Nat) (task : SubscriptionTask) :
    TaskAction → Server → Prop where
  | move {a phase} (hmoves : TaskMoves s task a phase) :
      TaskStep s serial task a (s.setTaskPhase serial task phase)
  | send {a event phase} (hsends : TaskSends task a event phase) :
      TaskStep s serial task a ((s.sendEvent event).setTaskPhase serial task phase)
  | register {containerId shell} (hphase : task.phase = .connected shell)
      (hcontainer : terminalOf task.request = some containerId) :
      TaskStep s serial task .register
        ({ s with terminals := s.terminals.insert task.id ⟨serial, containerId⟩ }.setTaskPhase
          serial task (.registered shell))
  | close {reason reason' shutdown} (hphase : task.phase = .returned reason) :
      TaskStep s serial task (.close shutdown)
        ({ s with terminals := s.terminals.erase task.id }.setTaskPhase serial task
          (.closed reason'))
  | done (hphase : task.phase = .ended) :
      TaskStep s serial task .done
        ({ s with subscriptionDone := s.subscriptionDone ++ [task.id] }.setTaskPhase
          serial task .finished)

variable {s' : Server} {key serial : Nat} {task : SubscriptionTask} {a : TaskAction}
  {envelope : ProtocolEnvelope}

theorem taskStep_sendOrReturn {s : Server} {event : ServerEvent} {sent : Bool} {phase : TaskPhase}
    (hphase : task.phase = .started ∨ (∃ shell, task.phase = .registered shell) ∨
      task.phase = .streaming)
    (hsends : sent = true → task.cancelled = false → TaskSends task a event phase) :
    TaskStep s serial task a (s.sendOrReturn serial task event sent phase) := by
  unfold sendOrReturn
  split
  · next hsent =>
    rw [Bool.and_eq_true, Bool.not_eq_true'] at hsent
    exact .send (hsends hsent.1 hsent.2)
  · exact .move (.unsent hphase)

theorem stepTerminal_inv {s : Server} {containerId : String}
    (hcontainer : terminalOf task.request = some containerId)
    (h : s.stepTerminal serial task containerId task.phase a = some s') :
    TaskStep s serial task a s' := by
  unfold stepTerminal at h
  split at h
  case h_1 hphase =>
    cases h
    exact taskStep_sendOrReturn (.inl hphase) fun hsent hlive =>
      hsent ▸ .connecting hphase hcontainer hlive
  case h_2 hphase =>
    split at h <;> cases h
    · next havailable => exact .move (.allow hphase hcontainer havailable)
    · next hfull => exact .move (.refuse hphase hcontainer (Bool.not_eq_true _ ▸ hfull))
  case h_3 hphase =>
    cases h
    exact .move (.connected hphase hcontainer)
  case h_4 hphase | h_5 hphase =>
    cases h
    exact .move (.failed hphase hcontainer rfl)
  case h_6 shell hphase =>
    cases h
    exact .register hphase hcontainer
  case h_7 shell sent hphase =>
    cases h
    exact taskStep_sendOrReturn (.inr (.inl ⟨shell, hphase⟩)) fun hsent hlive =>
      hsent ▸ .running hphase hcontainer hlive
  case h_8 => cases h

theorem stepStream_inv {s : Server} (hphase : task.phase = .streaming)
    (h : s.stepStream serial task a = some s') : TaskStep s serial task a s' := by
  unfold stepStream at h
  split at h
  · cases h
    refine taskStep_sendOrReturn (.inr (.inr hphase)) fun hsent hlive => ?_
    subst hsent
    split
    · exact .output hphase hlive
    · exact .update hphase hlive
  · cases h
    refine .move (.stopped hphase ?_)
    split <;> rfl
  · cases h
    refine .move (.stopped hphase ?_)
    split <;> rfl
  · split at h <;> cases h
    exact .move (.stopped hphase rfl)
  · cases h

theorem stepTask_inv {s : Server} (h : s.stepTask serial a = some s') :
    ∃ task, s.tasks serial = some task ∧ TaskStep s serial task a s' := by
  unfold stepTask at h
  split at h
  · cases h
  · rename_i task htask
    refine ⟨task, htask, ?_⟩
    split at h
    case h_1 hphase => exact stepStream_inv hphase h
    case h_2 state reason sent hphase =>
      cases h
      split
      · next hsent =>
        obtain rfl : sent = true := ((Bool.and_eq_true ..).mp hsent).1
        exact .send (.report hphase)
      · exact .move (.unreported hphase)
    case h_3 hphase =>
      cases h
      exact .close hphase
    case h_4 reason sent hphase =>
      cases h
      cases sent with
      | true => exact .send (.ended hphase)
      | false => exact .move (.unended hphase)
    case h_5 hphase =>
      cases h
      exact .done hphase
    case h_6 =>
      split at h
      · exact stepTerminal_inv ‹_› h
      · cases h

/-- What a step of the request task `key` can do. -/
inductive RequestStep (s : Server) (key : Nat) (task : RequestTask) :
    RequestAction → Server → Prop where
  | dispatch {outcome response} (hphase : task.phase = .running) :
      RequestStep s key task (.dispatch outcome)
        ((s.dispatchRequest task.issuer task.request outcome).1.setRequestPhase key task
          (.responding response))
  | cancelled {response} (hphase : task.phase = .running) (hcancelled : task.cancelled = true) :
      RequestStep s key task .cancelled (s.setRequestPhase key task (.responding response))
  | unsent {response} (hphase : task.phase = .responding response) :
      RequestStep s key task (.respond false) (s.setRequestPhase key task .responded)
  | respond {response} (hphase : task.phase = .responding response) :
      RequestStep s key task (.respond true)
        ((s.sendResponse task.requestId response).setRequestPhase key task .responded)
  | done (hphase : task.phase = .responded) :
      RequestStep s key task .done
        ({ s with requestDone := s.requestDone ++ [task.requestId] }.setRequestPhase key task
          .finished)

theorem stepRequest_inv {s : Server} {a : RequestAction} (h : s.stepRequest key a = some s') :
    ∃ task, s.requestTasks key = some task ∧ RequestStep s key task a s' := by
  unfold stepRequest at h
  split at h
  · cases h
  · rename_i task htask
    refine ⟨task, htask, ?_⟩
    split at h
    · next hphase =>
      cases h
      exact .dispatch hphase
    · next hphase =>
      split at h <;> cases h
      exact .cancelled hphase ‹_›
    · next sent hphase =>
      cases h
      cases sent with
      | true => exact .respond hphase
      | false => exact .unsent hphase
    · next hphase =>
      cases h
      exact .done hphase
    · cases h

inductive ServeStep (s : Server) (key : Nat) (e : ProtocolEnvelope) : Server → Prop where
  | refuseRequest {request : Request} (response : Response) (hbody : e.body = .request request) :
      ServeStep s key e (s.sendResponse e.requestId response)
  | spawn {request : Request} (hbody : e.body = .request request)
      (hkey : s.requestTasks key = none) :
      ServeStep s key e { s with
        requests := s.requests.insert e.requestId key
        requestTasks := Function.update s.requestTasks key
          (some ⟨e.requestId, request, e.issuer, false, .running⟩) }
  | cancel {target : RequestId} (task : Nat) (hbody : e.body = .cancelRequest target) :
      ServeStep s key e (s.cancelRequestTask task)
  | ignore {target : RequestId} (hbody : e.body = .cancelRequest target) : ServeStep s key e s
  | refuseSubscribe {request : SubscriptionRequest} (response : Response)
      (hbody : e.body = .subscribe request) :
      ServeStep s key e (s.sendResponse e.requestId response)
  | accept {request : SubscriptionRequest} (taskCost : Nat) (hbody : e.body = .subscribe request)
      (hcost : subscriptionTaskCost request = .ok taskCost)
      (hroom : ¬ (maxClientSubscriptions ≤ s.subscriptions.size ∨
        maxClientStreamTasks < s.subscriptionTasks + taskCost)) :
      ServeStep s key e (s.accept e.requestId request taskCost)
  | unsubscribe (id : SubscriptionId) (hbody : e.body = .unsubscribe id) :
      ServeStep s key e (s.serveUnsubscribe e.requestId id)
  | ping (hbody : e.body = .ping) : ServeStep s key e (s.sendEnvelope (.new e.requestId .pong))
  | unexpected (hbody : isClientFrame e = false) : ServeStep s key e s.cancelAll

theorem serveFrame_inv {s : Server} (h : s.serveFrame key envelope = some s') :
    ServeStep s key envelope s' := by
  unfold serveFrame at h
  split at h
  · next request hbody =>
    unfold serveRequest at h
    split at h
    · cases h
      exact .refuseRequest _ hbody
    · split at h <;> cases h
      exact .spawn hbody ‹_›
  · next hbody =>
    split at h <;> cases h
    · exact .cancel _ hbody
    · exact .ignore hbody
  · next request hbody =>
    cases h
    unfold serveSubscribe
    split
    · exact .refuseSubscribe _ hbody
    · next hcost =>
      split
      · exact .refuseSubscribe _ hbody
      · next hroom => exact .accept _ hbody hcost hroom
  · next hbody =>
    cases h
    exact .unsubscribe _ hbody
  · next hbody =>
    cases h
    exact .ping hbody
  · next hrequest hcancel hsubscribe hunsubscribe hping =>
    cases h
    refine .unexpected ?_
    unfold isClientFrame
    split
    · exact absurd ‹_› (hrequest _)
    · exact absurd ‹_› (hcancel _)
    · exact absurd ‹_› (hsubscribe _)
    · exact absurd ‹_› (hunsubscribe _)
    · exact absurd ‹_› hping
    · rfl

/-- **What a step can do**: the queues and the phase of the loop it has found, and the daemon
it leaves. -/
inductive Step (s : Server) : Action → Server → Prop where
  | serve {key : Nat} {envelope : ProtocolEnvelope} {rest : List ProtocolEnvelope} {s' : Server}
      (hloop : s.loop = .serving) (hin : s.inbound = envelope :: rest)
      (h : { s with inbound := rest }.serveFrame key envelope = some s') :
      Step s (.serve key true) s'
  | unserved {key : Nat} {envelope : ProtocolEnvelope} {rest : List ProtocolEnvelope}
      (hloop : s.loop = .serving) (hin : s.inbound = envelope :: rest) :
      Step s (.serve key false) { s with inbound := rest }.cancelAll
  | acknowledge {requestId : RequestId} {id : SubscriptionId}
      (hloop : s.loop = .closing requestId id) :
      Step s (.serveClosing true)
        ({ s with terminals := s.terminals.erase id, loop := .serving }.sendResponse requestId
          .acknowledged)
  | unacknowledged {requestId : RequestId} {id : SubscriptionId}
      (hloop : s.loop = .closing requestId id) :
      Step s (.serveClosing false)
        { s with terminals := s.terminals.erase id, loop := .serving }.cancelAll
  | requestDone {requestId : RequestId} {rest : List RequestId}
      (hdone : s.requestDone = requestId :: rest) :
      Step s .takeRequestDone
        { s with requestDone := rest, requests := s.requests.erase requestId }
  | subscriptionDone {id : SubscriptionId} {rest : List SubscriptionId}
      (hloop : s.loop = .serving) (hdone : s.subscriptionDone = id :: rest) :
      Step s .takeSubscriptionDone { s with
        subscriptionDone := rest
        subscriptions := s.subscriptions.erase id
        subscriptionTasks :=
          s.subscriptionTasks - ((s.subscriptions[id]?).map (·.taskCost)).getD 0 }
  | leave (hloop : s.loop = .serving) : Step s .leave s.cancelAll
  | closeTerminals (hloop : s.loop = .leaving) :
      Step s .closeAllTerminals { s with terminals := ∅, loop := .left }
  | request {key : Nat} {a : RequestAction} {task : RequestTask} {s' : Server}
      (htask : s.requestTasks key = some task) (h : RequestStep s key task a s') :
      Step s (.request key a) s'
  | task {serial : Nat} {a : TaskAction} {s' : Server} (h : s.stepTask serial a = some s') :
      Step s (.task serial a) s'

theorem step_inv {s : Server} {a : Action} (h : s.step a = some s') : Step s a s' := by
  unfold step at h
  cases a with
  | serve key sent =>
    dsimp only [serve] at h
    split at h
    · next envelope rest hloop hin =>
      cases sent with
      | true => exact .serve hloop hin h
      | false =>
        cases h
        exact .unserved hloop hin
    · cases h
  | serveClosing sent =>
    dsimp only [serveClosing] at h
    split at h
    · next requestId id hloop =>
      cases sent with
      | true =>
        cases h
        exact .acknowledge hloop
      | false =>
        cases h
        exact .unacknowledged hloop
    · cases h
  | takeRequestDone =>
    dsimp only [takeRequestDone] at h
    split at h <;> cases h
    exact .requestDone ‹_›
  | takeSubscriptionDone =>
    dsimp only [takeSubscriptionDone] at h
    split at h <;> cases h
    exact .subscriptionDone ‹_› ‹_›
  | leave =>
    dsimp only [Server.leave] at h
    split at h <;> cases h
    exact .leave ‹_›
  | closeAllTerminals =>
    dsimp only [closeAllTerminals] at h
    split at h <;> cases h
    exact .closeTerminals ‹_›
  | request key a =>
    obtain ⟨task, htask, hrequest⟩ := stepRequest_inv h
    exact .request htask hrequest
  | task serial a => exact .task h

/-! ## What a step sends -/

/-- A step adds some frames that are not `Subscribed`, their events recorded, or
it accepts a subscription. -/
inductive Emits (s s' : Server) : Prop where
  | frames (new : List ProtocolEnvelope) (hout : s'.outbound = s.outbound ++ new)
      (hsent : s'.sent = s.sent ++ new.filterMap ProtocolEnvelope.event?)
      (hplain : ∀ e ∈ new, ∀ id serial, e.body ≠ .subscribed id serial)
      (haccepted : s'.accepted = s.accepted)
  | accepted (requestId : RequestId)
      (hout : s'.outbound = s.outbound ++ [.new requestId (.subscribed s.freeId s.accepted)])
      (hsent : s'.sent = s.sent) (haccepted : s'.accepted = s.accepted + 1)

theorem Emits.nothing {s : Server} (hout : s'.outbound = s.outbound) (hsent : s'.sent = s.sent)
    (haccepted : s'.accepted = s.accepted) : Emits s s' := by
  refine .frames [] ?_ ?_ ?_ haccepted
  · rw [List.append_nil, hout]
  · rw [List.filterMap_nil, List.append_nil, hsent]
  · intro e he
    cases he

theorem Emits.one {s : Server} {e : ProtocolEnvelope} (hout : s'.outbound = s.outbound ++ [e])
    (hsent : s'.sent = s.sent ++ e.event?.toList)
    (hplain : ∀ id serial, e.body ≠ .subscribed id serial) (haccepted : s'.accepted = s.accepted) :
    Emits s s' := by
  refine .frames [e] hout ?_ ?_ haccepted
  · rw [hsent]
    cases hevent : e.event? <;> simp [hevent]
  · intro e' he'
    rw [List.mem_singleton] at he'
    subst he'
    exact hplain

theorem emits_task {s : Server} (h : TaskStep s serial task a s') : Emits s s' := by
  cases h with
  | send hsends => exact .one rfl rfl (by rintro id serial ⟨⟩) rfl
  | _ => exact .nothing rfl rfl rfl

/-- The record after `request` has been handed to a session: nothing is added, or
the session registered under the id of the request. -/
def Hands (s : Server) (issuer : Option Nat) (request : Request) (applied : List Applied) : Prop :=
  applied = s.applied ∨ ∃ (id : SubscriptionId) (t : Terminal), request.terminalId = some id ∧
    s.terminals[id]? = some t ∧ applied = s.applied ++ [⟨issuer, t.serial⟩]

theorem applyToTerminal_frame (s : Server) (issuer : Option Nat) (request : Request)
    {id : SubscriptionId} (hid : request.terminalId = some id)
    (outcome : Except ProtocolError Vfs.Bytes) :
    ∃ applied, s.Hands issuer request applied ∧
      (s.applyToTerminal issuer id outcome).1 = { s with applied := applied } := by
  unfold applyToTerminal
  split
  · exact ⟨s.applied, .inl rfl, rfl⟩
  · rename_i t ht
    exact ⟨_, .inr ⟨id, t, hid, ht, rfl⟩, rfl⟩

/-- `dispatch_request` touches nothing but the registry and the record of what
reached a session. -/
theorem dispatchRequest_frame (s : Server) (issuer : Option Nat) (request : Request)
    (outcome : Except ProtocolError Vfs.Bytes) :
    ∃ applied terminals, s.Hands issuer request applied ∧
      (∀ (id : SubscriptionId) t, terminals[id]? = some t → s.terminals[id]? = some t) ∧
      (s.dispatchRequest issuer request outcome).1 =
        { s with applied := applied, terminals := terminals } := by
  cases request with
  | containerTerminalInput id bytes =>
    unfold dispatchRequest
    dsimp only
    split
    · exact ⟨s.applied, s.terminals, .inl rfl, fun _ _ h => h, rfl⟩
    · obtain ⟨applied, hhands, happlied⟩ :=
          s.applyToTerminal_frame issuer (.containerTerminalInput id bytes) rfl outcome
      exact ⟨applied, s.terminals, hhands, fun _ _ h => h, happlied⟩
  | containerTerminalResize id rows cols =>
    unfold dispatchRequest
    dsimp only
    split
    · exact ⟨s.applied, s.terminals, .inl rfl, fun _ _ h => h, rfl⟩
    · obtain ⟨applied, hhands, happlied⟩ :=
          s.applyToTerminal_frame issuer (.containerTerminalResize id rows cols) rfl outcome
      exact ⟨applied, s.terminals, hhands, fun _ _ h => h, happlied⟩
  | containerTerminalClose id =>
    obtain ⟨applied, hhands, happlied⟩ :=
      s.applyToTerminal_frame issuer (.containerTerminalClose id) rfl (.ok [])
    refine ⟨applied, s.terminals.erase id, hhands, ?_, ?_⟩
    · intro id' t ht
      rw [Std.TreeMap.getElem?_erase] at ht
      split at ht
      · cases ht
      · exact ht
    · unfold dispatchRequest
      dsimp only
      rw [happlied]
  | service payload =>
    unfold dispatchRequest
    dsimp only
    split
    · exact ⟨s.applied, s.terminals, .inl rfl, fun _ _ h => h, rfl⟩
    · exact ⟨s.applied, s.terminals, .inl rfl, fun _ _ h => h, rfl⟩

theorem emits_request {s : Server} {task : RequestTask} {a : RequestAction}
    (h : RequestStep s key task a s') : Emits s s' := by
  cases h with
  | @dispatch outcome =>
    obtain ⟨applied, terminals, -, -, heq⟩ :=
      s.dispatchRequest_frame task.issuer task.request outcome
    rw [heq]
    exact .nothing rfl rfl rfl
  | respond =>
    exact .one rfl (List.append_nil _).symm (by rintro id serial ⟨⟩) rfl
  | _ => exact .nothing rfl rfl rfl

theorem emits_serveUnsubscribe (s : Server) (requestId : RequestId) (id : SubscriptionId) :
    Emits s (s.serveUnsubscribe requestId id) := by
  unfold serveUnsubscribe
  split
  · exact .nothing rfl rfl rfl
  · exact .nothing rfl rfl rfl

theorem emits_serveFrame {s : Server} (h : ServeStep s key envelope s') : Emits s s' := by
  cases h with
  | refuseRequest | refuseSubscribe | ping =>
    exact .one rfl (List.append_nil _).symm (by rintro id serial ⟨⟩) rfl
  | accept taskCost hbody => exact .accepted envelope.requestId rfl rfl rfl
  | unsubscribe id => exact emits_serveUnsubscribe s envelope.requestId id
  | _ => exact .nothing rfl rfl rfl

/-- The read at the head of the loop changes nothing that `Emits` looks at. -/
theorem Emits.of_inbound {s : Server} {rest : List ProtocolEnvelope}
    (h : Emits { s with inbound := rest } s') : Emits s s' := by
  cases h with
  | frames new hout hsent hplain haccepted => exact .frames new hout hsent hplain haccepted
  | accepted requestId hout hsent haccepted => exact .accepted requestId hout hsent haccepted

/-- **What a step sends**, for every step of the daemon. -/
theorem emits_step {s : Server} {a : Action} (h : s.step a = some s') : Emits s s' := by
  cases step_inv h with
  | serve hloop hin hserve => exact (emits_serveFrame (serveFrame_inv hserve)).of_inbound
  | acknowledge => exact .one rfl (List.append_nil _).symm (by rintro id serial ⟨⟩) rfl
  | request htask hrequest => exact emits_request hrequest
  | task htask =>
    obtain ⟨task, -, hstep⟩ := stepTask_inv htask
    exact emits_task hstep
  | _ => exact .nothing rfl rfl rfl

/-! ## Numbering -/

/-- The step does not accept a subscription at which the id counter wraps. -/
def hasFreshId (s : Server) : Action → Bool
  | .serve _ _ =>
    match s.inbound with
    | ⟨_, .subscribe _, _⟩ :: _ => decide (s.nextSubscriptionId + 1 < 2 ^ 64)
    | _ => true
  | _ => true

/-- The subscription with serial number `n` has the id `n + 1`, wherever that id
is kept: in `subscriptions`, by its task, by its terminal and on its way to the
client. -/
structure Numbered (s : Server) : Prop where
  next : s.nextSubscriptionId = s.accepted + 1
  live : ∀ (id : SubscriptionId) control, s.subscriptions[id]? = some control → id ≤ s.accepted
  tasks : ∀ serial task, s.tasks serial = some task → task.id = serial + 1
  terminals : ∀ (id : SubscriptionId) t, s.terminals[id]? = some t → id = t.serial + 1
  subscribed : ∀ e ∈ s.outbound, ∀ id serial, e.body = .subscribed id serial →
    id = serial + 1 ∧ serial < s.accepted

variable {s : Server}

theorem numbered_new : Numbered new where
  next := rfl
  live := by
    intro id control h
    simp [new] at h
  tasks := by
    intro serial task h
    cases h
  terminals := by
    intro id t h
    simp [new] at h
  subscribed := by
    intro e he
    cases he

/-- The loop over ids in use does not turn: no id in use has come up yet. -/
theorem Numbered.freeId_eq (h : Numbered s) : s.freeId = s.accepted + 1 := by
  have hfree : s.subscriptions.contains s.nextSubscriptionId = false := by
    rw [Std.TreeMap.contains_eq_isSome_getElem?]
    cases hget : s.subscriptions[s.nextSubscriptionId]? with
    | none => rfl
    | some control =>
      have hle := h.live _ _ hget
      rw [h.next] at hle
      exact absurd hle (Nat.not_succ_le_self _)
  unfold freeId
  rw [← h.next]
  cases s.subscriptions.size with
  | zero => rfl
  | succ fuel =>
    unfold skipUsed
    rw [hfree]
    rfl

theorem Numbered.sendEnvelope (h : Numbered s) {e : ProtocolEnvelope}
    (he : ∀ id serial, e.body ≠ .subscribed id serial) : Numbered (s.sendEnvelope e) where
  next := h.next
  live := h.live
  tasks := h.tasks
  terminals := h.terminals
  subscribed := by
    intro e' he' id serial hbody
    rcases List.mem_append.mp he' with hold | hnew
    · exact h.subscribed e' hold id serial hbody
    · rw [List.mem_singleton] at hnew
      subst hnew
      exact absurd hbody (he id serial)

theorem Numbered.setTaskPhase (h : Numbered s) (htask : s.tasks serial = some task)
    (phase : TaskPhase) : Numbered (s.setTaskPhase serial task phase) where
  next := h.next
  live := h.live
  tasks := by
    intro i t ht
    rcases update_eq_some ht with ⟨rfl, rfl⟩ | ⟨-, hold⟩
    · exact h.tasks i task htask
    · exact h.tasks i t hold
  terminals := h.terminals
  subscribed := h.subscribed

theorem Numbered.eraseTerminal (h : Numbered s) (id : SubscriptionId) :
    Numbered { s with terminals := s.terminals.erase id } where
  next := h.next
  live := h.live
  tasks := h.tasks
  terminals := by
    intro id' t ht
    simp only [Std.TreeMap.getElem?_erase] at ht
    split at ht
    · cases ht
    · exact h.terminals id' t ht
  subscribed := h.subscribed

theorem Numbered.register (h : Numbered s) (htask : s.tasks serial = some task)
    (containerId : String) :
    Numbered { s with terminals := s.terminals.insert task.id ⟨serial, containerId⟩ } where
  next := h.next
  live := h.live
  tasks := h.tasks
  terminals := by
    intro id t ht
    simp only [Std.TreeMap.getElem?_insert] at ht
    split at ht
    · rename_i hid
      have hid' : task.id = id := by simpa using hid
      cases ht
      rw [← hid']
      exact h.tasks serial task htask
    · exact h.terminals id t ht
  subscribed := h.subscribed

theorem numbered_task (h : Numbered s) (htask : s.tasks serial = some task)
    (hstep : TaskStep s serial task a s') : Numbered s' := by
  cases hstep with
  | move => exact h.setTaskPhase htask _
  | @send _ event phase =>
    have hsend : Numbered (s.sendEnvelope (.new 0 (.event event))) :=
      h.sendEnvelope (by rintro id serial ⟨⟩)
    have hsent : Numbered (s.sendEvent event) :=
      { hsend with }
    exact hsent.setTaskPhase htask phase
  | register => exact (h.register htask _).setTaskPhase htask _
  | close => exact (h.eraseTerminal task.id).setTaskPhase htask _
  | done =>
    have hdone : Numbered { s with subscriptionDone := s.subscriptionDone ++ [task.id] } :=
      { h with }
    exact hdone.setTaskPhase htask .finished

theorem numbered_request {task : RequestTask} {a : RequestAction} (h : Numbered s)
    (hstep : RequestStep s key task a s') : Numbered s' := by
  cases hstep with
  | @dispatch outcome =>
    obtain ⟨applied, terminals, -, hsub, heq⟩ :=
      s.dispatchRequest_frame task.issuer task.request outcome
    rw [heq]
    exact ⟨h.next, h.live, h.tasks, fun id t ht => h.terminals id t (hsub id t ht),
      h.subscribed⟩
  | @respond response =>
    have hsend : Numbered (s.sendResponse task.requestId response) :=
      h.sendEnvelope (by rintro id serial ⟨⟩)
    exact { hsend with }
  | _ => exact { h with }

theorem Numbered.eraseSubscription (h : Numbered s) (id : SubscriptionId) (tasks : Nat) :
    Numbered { s with
      subscriptions := s.subscriptions.erase id, subscriptionTasks := tasks } where
  next := h.next
  live := by
    intro id' control hget
    simp only [Std.TreeMap.getElem?_erase] at hget
    split at hget
    · cases hget
    · exact h.live id' control hget
  tasks := h.tasks
  terminals := h.terminals
  subscribed := h.subscribed

theorem Numbered.mapTasks (h : Numbered s) {tasks : Nat → Option SubscriptionTask}
    (htasks : ∀ serial task, tasks serial = some task →
      ∃ t, s.tasks serial = some t ∧ t.id = task.id) : Numbered { s with tasks := tasks } where
  next := h.next
  live := h.live
  tasks := by
    intro serial task htask
    obtain ⟨t, ht, hid⟩ := htasks serial task htask
    rw [← hid]
    exact h.tasks serial t ht
  terminals := h.terminals
  subscribed := h.subscribed

theorem Numbered.cancelTask (h : Numbered s) (serial : Nat) : Numbered (s.cancelTask serial) := by
  refine h.mapTasks ?_
  intro i task htask
  by_cases hi : i = serial
  · subst hi
    rw [Function.update_self] at htask
    obtain ⟨t, ht, rfl⟩ := Option.map_eq_some_iff.mp htask
    exact ⟨t, ht, rfl⟩
  · rw [Function.update_of_ne hi] at htask
    exact ⟨task, htask, rfl⟩

theorem Numbered.cancelAll (h : Numbered s) : Numbered s.cancelAll := by
  have hmap : Numbered { s with tasks := s.cancelAll.tasks } := by
    refine h.mapTasks ?_
    intro serial task htask
    obtain ⟨t, ht, rfl⟩ := Option.map_eq_some_iff.mp htask
    refine ⟨t, ht, ?_⟩
    split <;> rfl
  exact { hmap with }

theorem Numbered.serveUnsubscribe (h : Numbered s) (requestId : RequestId)
    (id : SubscriptionId) : Numbered (s.serveUnsubscribe requestId id) := by
  unfold Server.serveUnsubscribe
  split
  · rename_i control hcontrol
    have hcancel := (h.cancelTask control.serial).eraseSubscription id
      (s.subscriptionTasks - control.taskCost)
    exact { hcancel with }
  · exact { h with }

theorem Numbered.accept (h : Numbered s) (hroom : s.nextSubscriptionId + 1 < 2 ^ 64)
    (requestId : RequestId) (request : SubscriptionRequest) (taskCost : Nat) :
    Numbered (s.accept requestId request taskCost) where
  next := by
    show max ((s.freeId + 1) % 2 ^ 64) 1 = s.accepted + 1 + 1
    have hnext := h.next
    rw [h.freeId_eq, Nat.mod_eq_of_lt (by omega)]
    omega
  live := by
    intro id control hget
    simp only [Server.accept, Std.TreeMap.getElem?_insert] at hget
    show id ≤ s.accepted + 1
    split at hget
    · rename_i hid
      have hid' : s.freeId = id := by simpa using hid
      rw [← hid', h.freeId_eq]
    · exact Nat.le_succ_of_le (h.live id control hget)
  tasks := by
    intro serial task htask
    rcases update_eq_some htask with ⟨rfl, rfl⟩ | ⟨-, hold⟩
    · exact h.freeId_eq
    · exact h.tasks serial task hold
  terminals := h.terminals
  subscribed := by
    intro e he id serial hbody
    show id = serial + 1 ∧ serial < s.accepted + 1
    rcases List.mem_append.mp he with hold | hnew
    · obtain ⟨hid, hlt⟩ := h.subscribed e hold id serial hbody
      exact ⟨hid, by omega⟩
    · rw [List.mem_singleton] at hnew
      subst hnew
      cases hbody
      exact ⟨h.freeId_eq, by omega⟩

theorem numbered_serve (h : Numbered s)
    (hroom : ∀ request, envelope.body = .subscribe request → s.nextSubscriptionId + 1 < 2 ^ 64)
    (hstep : ServeStep s key envelope s') : Numbered s' := by
  cases hstep with
  | refuseRequest | refuseSubscribe | ping => exact h.sendEnvelope (by rintro id serial ⟨⟩)
  | accept taskCost hbody => exact h.accept (hroom _ hbody) _ _ taskCost
  | unsubscribe id => exact h.serveUnsubscribe envelope.requestId id
  | unexpected => exact h.cancelAll
  | _ => exact { h with }

/-- **Numbering**: kept by every step that does not wrap the id counter. -/
theorem numbered_step {a : Action} (h : Numbered s) (hfresh : s.hasFreshId a = true)
    (hstep : s.step a = some s') : Numbered s' := by
  have hread : ∀ rest, Numbered { s with inbound := rest } :=
    fun rest => { h with }
  have hclosed : ∀ id,
      Numbered { s with terminals := s.terminals.erase id, loop := .serving } := by
    intro id
    have herase := h.eraseTerminal id
    exact { herase with }
  cases step_inv hstep with
  | @serve key envelope rest _ hloop hin hserve =>
    refine numbered_serve (hread rest) ?_ (serveFrame_inv hserve)
    intro request hbody
    obtain ⟨requestId, body, issuer⟩ := envelope
    cases hbody
    simpa [hasFreshId, hin] using hfresh
  | unserved => exact (hread _).cancelAll
  | acknowledge => exact (hclosed _).sendEnvelope (by rintro id serial ⟨⟩)
  | unacknowledged => exact (hclosed _).cancelAll
  | requestDone => exact { h with }
  | @subscriptionDone id =>
    have herase := h.eraseSubscription id
      (s.subscriptionTasks - ((s.subscriptions[id]?).map (·.taskCost)).getD 0)
    exact { herase with }
  | leave => exact h.cancelAll
  | closeTerminals => exact ⟨h.next, h.live, h.tasks, fun id t ht => by simp at ht, h.subscribed⟩
  | request htask hrequest => exact numbered_request h hrequest
  | task hstep =>
    obtain ⟨task, htask, htaskStep⟩ := stepTask_inv hstep
    exact numbered_task h htask htaskStep

end Server

end TuxStack.Ipc
