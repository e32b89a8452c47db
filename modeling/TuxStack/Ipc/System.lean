import TuxStack.Ipc.Client
import TuxStack.Lib.Runs

/-!
# What a step can do

The machine of client and daemon, and the lemmas that later proofs use in place
of its definitions: which steps leave the dispatch tables and the subscriptions
alone (`board_*`), that a subscription never changes its identity
(`handle_kept`), where a call and its answer can come from (`call_origin`,
`answer_origin`), and what happens to a connection (`link_step`).
-/

namespace TuxStack.Ipc

open Vfs Runs

/-- An entry of an updated table is the new one or an old one under another key. -/
theorem update_eq_some {α : Type} {f : Nat → Option α} {i j : Nat} {a b : α}
    (h : Function.update f i (some a) j = some b) : (j = i ∧ b = a) ∨ (j ≠ i ∧ f j = some b) := by
  by_cases hj : j = i
  · subst hj
    rw [Function.update_self] at h
    exact .inl ⟨rfl, (Option.some.inj h).symm⟩
  · rw [Function.update_of_ne hj] at h
    exact .inr ⟨hj, h⟩

namespace State

/-- Client and daemon, from the moment `Client::connect` is called. -/
def machine : Machine State Action where
  init s := s = fresh
  step := State.step

/-- The connection the dispatch tables belong to: the last one installed, until
its replacement has cleared them. -/
def owner (s : State) : Option Nat :=
  match s.inner.reconnectLock with
  | some (.cleared _) => none
  | _ => s.latest

/-! ## Inversion of calls and subscriptions -/

inductive CallStep (s : State) (c : Nat) (call : Call) : CallAction → State → Prop where
  | takeWriter {connection : Connection} (hphase : call.phase = .registered)
      (hconn : s.inner.connection = some connection) :
      CallStep s c call .takeWriter (s.setPhase c call (.sending connection.writer))
  | noConnection (hphase : call.phase = .registered) (hconn : s.inner.connection = none) :
      CallStep s c call .takeWriter (s.setPhase c call .abandoned)
  | refused {k : Nat} (hphase : call.phase = .sending k) :
      CallStep s c call .send (s.setPhase c call (.settling false))
  | send {k : Nat} (hphase : call.phase = .sending k)
      (hroom : (s.links k).writerQueue.length < writerQueueCapacity) :
      CallStep s c call .send
        ((s.setLink k { s.links k with
          writerQueue := (s.links k).writerQueue ++
            [⟨call.requestId, call.body, call.purpose.issuer⟩] }).setPhase c call .waiting)
  | timeout (hphase : (∃ k, call.phase = .sending k) ∨ call.phase = .waiting) :
      CallStep s c call .timeout (s.setPhase c call .timedOut)
  | abandon (hphase : (∃ k, call.phase = .sending k) ∨ call.phase = .waiting) :
      CallStep s c call .abandon (s.setPhase c call .abandoned)
  | answered (hphase : call.phase = .waiting) :
      CallStep s c call .answer (s.setPhase c call (.settling true))
  | failed (hphase : call.phase = .waiting) :
      CallStep s c call .answer (s.setPhase c call (.settling false))
  | timedOut (hphase : call.phase = .timedOut) : CallStep s c call .sendCancel
      ((s.sendCancel call.requestId).setPhase c call (.settling false))
  | settled {answered : Bool} (hphase : call.phase = .settling answered) :
      CallStep s c call .removePending
        ((s.removePending call.requestId).setPhase c call (afterSettling call answered))
  | guardRemoved (hphase : call.phase = .abandoned) : CallStep s c call .removePending
      ((s.removePending call.requestId).setPhase c call .cancelling)
  | guardCancelled (hphase : call.phase = .cancelling) : CallStep s c call .sendCancel
      ((s.sendCancel call.requestId).setPhase c call .done)

variable {s s' t : State} {c h j k : Nat} {a : Action} {call : Call} {r : Reply} {x : Handle}
  {body : ProtocolBody} {purpose : Purpose}

theorem stepCall_inv {a : CallAction} (h : s.stepCall c a = some s') :
    ∃ call, s.calls c = some call ∧ CallStep s c call a s' := by
  unfold stepCall at h
  cases hc : s.calls c with
  | none => simp [hc] at h
  | some call =>
    refine ⟨call, rfl, ?_⟩
    simp only [hc] at h
    split at h
    case h_1 hphase =>
      split at h <;> cases h
      · exact .takeWriter hphase ‹_›
      · exact .noConnection hphase ‹_›
    case h_2 k hphase =>
      unfold sendOn at h
      dsimp only at h
      split at h
      · cases h
        exact .refused hphase
      · split at h <;> cases h
        exact .send hphase ‹_›
    case h_3 k hphase => cases h; exact .timeout (.inl ⟨k, hphase⟩)
    case h_4 hphase => cases h; exact .timeout (.inr hphase)
    case h_5 k hphase => cases h; exact .abandon (.inl ⟨k, hphase⟩)
    case h_6 hphase => cases h; exact .abandon (.inr hphase)
    case h_7 hphase =>
      split at h <;> cases h
      · exact .answered hphase
      · exact .failed hphase
    case h_8 hphase => cases h; exact .timedOut hphase
    case h_9 answered hphase => cases h; exact .settled hphase
    case h_10 hphase => cases h; exact .guardRemoved hphase
    case h_11 hphase => cases h; exact .guardCancelled hphase
    case h_12 => cases h

/-- What a section of the subscription `h` can do. -/
inductive HandleStep (s : State) (h : Nat) (x : Handle) : HandleAction → State → Prop where
  | replay {e : ReadEvent} {rest : List ReadEvent} (hphase : x.phase = .replaying)
      (hearly : x.early = e :: rest) (hroom : x.queue.length < subscriptionQueueCapacity) :
      HandleStep s h x .replay (s.setHandle h { x with early := rest, queue := x.queue ++ [e] })
  | abandon (hphase : x.phase = .replaying) :
      HandleStep s h x .abandon (s.setHandle h { x with phase := .lost })
  | returned (hphase : x.phase = .replaying) (hearly : x.early = []) :
      HandleStep s h x .return (s.setHandle h { x with phase := .held })
  | recv {e : ReadEvent} {rest : List ReadEvent} (hphase : x.phase = .held)
      (hqueue : x.queue = e :: rest) :
      HandleStep s h x .recv (s.setHandle h { x with
        queue := rest, received := x.received ++ [e], session := x.session.onEvent e.event })
  | unsubscribe (hphase : x.phase = .held) :
      HandleStep s h x .unsubscribe
        ((s.removeSubscription x.id).setHandle h { x with phase := .leaving })
  | request {c : Nat} {s' : State} (hphase : x.phase = .leaving)
      (hreg : (s.setHandle h { x with phase := .closed }).register c (.unsubscribe h)
        (.unsubscribe x.id) = some s') :
      HandleStep s h x (.request c) s'
  | drop (hphase : x.phase = .held) :
      HandleStep s h x .drop
        ((s.removeSubscription x.id).setHandle h { x with phase := .dropping })
  | sendUnsubscribe (hphase : x.phase = .dropping) :
      HandleStep s h x .sendUnsubscribe
        ((s.takeRequestId.trySendCurrent ⟨s.requestId, .unsubscribe x.id, some h⟩).setHandle h
          { x with phase := .closed })

theorem stepHandle_inv {a : HandleAction} (hs : s.stepHandle h a = some s') :
    ∃ x, s.handles h = some x ∧ HandleStep s h x a s' := by
  unfold stepHandle at hs
  cases hx : s.handles h with
  | none => simp [hx] at hs
  | some x =>
    refine ⟨x, rfl, ?_⟩
    simp only [hx] at hs
    split at hs
    case h_1 hphase =>
      split at hs
      · split at hs <;> cases hs
        exact .replay hphase ‹_› ‹_›
      · cases hs
    case h_2 hphase => cases hs; exact .abandon hphase
    case h_3 hphase =>
      split at hs <;> cases hs
      exact .returned hphase ‹_›
    case h_4 hphase =>
      unfold State.recv at hs
      split at hs
      · split at hs <;> cases hs
        exact .recv hphase ‹_›
      · cases hs
    case h_5 hphase => cases hs; exact .unsubscribe hphase
    case h_6 c hphase => exact .request hphase hs
    case h_7 hphase => cases hs; exact .drop hphase
    case h_8 hphase => cases hs; exact .sendUnsubscribe hphase
    case h_9 => cases hs

/-- What a turn of the reader of connection `k` can do. -/
inductive ReadStep (s : State) (k : Nat) (envelope : ProtocolEnvelope) : State → Prop where
  | event {event : ServerEvent} (hbody : envelope.body = .event event) :
      ReadStep s k envelope (s.dispatchEvent ⟨event, k⟩)
  | answer {reply : Except String Reply} (hevent : envelope.event? = none)
      (hreply : ∀ id serial j, reply = .ok ⟨.subscribed id serial, j⟩ →
        j = k ∧ envelope.body = .subscribed id serial) :
      ReadStep s k envelope (s.dispatchPending envelope.requestId reply)
  | unexpected {s' : State} (hevent : envelope.event? = none)
      (hterm : s.terminate k .reader .check = some s') :
      ReadStep s k envelope s'

theorem read_inv (h : s.read k = some s') :
    ∃ envelope rest, (s.links k).server.outbound = envelope :: rest ∧
      (s.links k).reader = .running ∧ ReadStep (s.pop k rest) k envelope s' := by
  unfold read at h
  split at h
  · rename_i envelope rest hreader hout
    refine ⟨envelope, rest, hout, hreader, ?_⟩
    unfold readFrame at h
    split at h
    case h_1 response hbody =>
      cases h
      exact .answer (by simp [ProtocolEnvelope.event?, hbody]) (by rintro id serial j ⟨⟩)
    case h_2 id serial hbody =>
      cases h
      refine .answer (by simp [ProtocolEnvelope.event?, hbody]) ?_
      intro id' serial' j heq
      cases heq
      exact ⟨rfl, hbody⟩
    case h_3 hbody =>
      cases h
      exact .answer (by simp [ProtocolEnvelope.event?, hbody]) (by rintro id serial j ⟨⟩)
    case h_4 message hbody =>
      cases h
      exact .answer (by simp [ProtocolEnvelope.event?, hbody]) (by rintro id serial j ⟨⟩)
    case h_5 event hbody =>
      cases h
      exact .event hbody
    case h_6 hevent =>
      refine .unexpected ?_ h
      unfold ProtocolEnvelope.event?
      split
      · rename_i event hbody
        exact absurd hbody (hevent event)
      · rfl
  · cases h

theorem write_inv (h : s.write k = some s') :
    ∃ e rest, (s.links k).writerQueue = e :: rest ∧ s' = s.setLink k { s.links k with
      writerQueue := rest
      server := { (s.links k).server with inbound := (s.links k).server.inbound ++ [e] } } := by
  unfold write at h
  split at h
  · exact ⟨_, _, ‹_›, (Option.some.inj h).symm⟩
  · cases h

theorem stepServer_inv {a : Server.Action} (h : s.stepServer k a = some s') :
    (s.links k).opened = true ∧ ∃ server, (s.links k).server.step a = some server ∧
      s' = s.setLink k { s.links k with server := server } := by
  unfold stepServer at h
  split at h
  · obtain ⟨server, hstep, rfl⟩ := Option.map_eq_some_iff.mp h
    exact ⟨‹_›, server, hstep, rfl⟩
  · cases h

/-- What `terminate_generation` can do in one section. -/
inductive TerminateStep (s : State) (k : Nat) (t : LinkTask) : TerminateAction → State → Prop where
  | check (phase : LinkPhase) : TerminateStep s k t .check
      (s.setLink k ((s.links k).setPhase t phase))
  | take : TerminateStep s k t .take
      (s.takeConnection.setLink k ((s.links k).setPhase t .taken))
  | clear (reason : String) : TerminateStep s k t (.clear reason)
      ((s.clearDispatch reason).setLink k ((s.links k).setPhase t .stopped))

theorem terminate_inv {t : LinkTask} {a : TerminateAction} (h : s.terminate k t a = some s') :
    TerminateStep s k t a s' := by
  unfold terminate at h
  dsimp only at h
  split at h
  · split at h <;> cases h
    · exact .check .checked
    · exact .check .stopped
  · cases h
    exact .take
  · cases h
    exact .clear _
  · cases h

/-- What `establish` can do in one section. -/
inductive EstablishStep (s : State) : EstablishAction → State → Prop where
  | handshake {k : Nat} (hlock : s.inner.reconnectLock = none)
      (hnew : (s.links k).opened = false) :
      EstablishStep s (.handshake k) { s.setLink k { s.links k with opened := true } with
        inner.reconnectLock := some (.connected k) }
  | take {k : Nat} (hlock : s.inner.reconnectLock = some (.connected k)) :
      EstablishStep s .take { s.takeConnection with inner.reconnectLock := some (.taken k) }
  | clear {k : Nat} (hlock : s.inner.reconnectLock = some (.taken k)) :
      EstablishStep s .clear { s.clearDispatch "connection replaced" with
        inner.reconnectLock := some (.cleared k) }
  | install {k : Nat} (hlock : s.inner.reconnectLock = some (.cleared k)) :
      EstablishStep s .install
        { s.setLink k { s.links k with
            generation := s.inner.nextGeneration, reader := .running, writer := .running } with
          inner.nextGeneration := wrappingSucc s.inner.nextGeneration
          inner.connection := some ⟨s.inner.nextGeneration, k⟩
          inner.reconnectLock := none
          latest := some k }

theorem establish_inv {a : EstablishAction} (h : s.establish a = some s') :
    EstablishStep s a s' := by
  unfold establish at h
  split at h
  · split at h
    · rename_i hnew
      cases h
      exact .handshake hnew.1 hnew.2
    · cases h
  · split at h <;> cases h
    exact .take ‹_›
  · split at h <;> cases h
    exact .clear ‹_›
  · split at h <;> cases h
    exact .install ‹_›

/-- What `subscribe` does when it enters its subscription. -/
theorem insert_inv (hs : s.insertSubscription c h = some s') :
    ∃ (call : Call) (terminal : Bool) (id serial k : Nat), s.calls c = some call ∧
      s.handles h = none ∧
      call.phase = .accepted ∧ call.reply = some (.ok ⟨.subscribed id serial, k⟩) ∧
      s' = { (s.setPhase c call .done).setHandle h
          ⟨id, serial, k, s.parked id, [], [], .replaying,
            if terminal then .connecting else .none⟩ with
        inner.dispatch.subscriptions := s.inner.dispatch.subscriptions.insert id h
        inner.dispatch.earlyEvents := s.inner.dispatch.earlyEvents.erase id } := by
  unfold insertSubscription at hs
  split at hs
  · rename_i call hcall hnone
    split at hs
    · rename_i terminal id serial k hphase hpurpose hreply
      exact ⟨call, terminal, id, serial, k, hcall, hnone, hphase, hreply,
        (Option.some.inj hs).symm⟩
    · cases hs
  · cases hs

/-- A call is addressed to the subscription it is made for: that subscription
exists, and a terminal request carries its id. -/
structure Addressed (s : State) (purpose : Purpose) (body : ProtocolBody) : Prop where
  issuer : ∀ h, purpose.issuer = some h → ∃ x, s.handles h = some x
  terminal : ∀ r id, body = .request r → r.terminalId = some id →
    ∃ h x, purpose = .session h ∧ s.handles h = some x ∧ x.id = id

theorem addressed_other (hpurpose : purpose.issuer = none)
    (hbody : ∀ r id, body = .request r → r.terminalId = some id → False) :
    Addressed s purpose body where
  issuer := by
    intro h hh
    rw [hpurpose] at hh
    cases hh
  terminal := by
    intro r id hr hid
    exact (hbody r id hr hid).elim

theorem sessionRequest_inv {request : SubscriptionId → Request}
    (hrequest : ∀ id, (request id).terminalId = some id)
    (hs : s.sessionRequest c h request = some s') :
    ∃ purpose body, Addressed s purpose body ∧ s.register c purpose body = some s' := by
  unfold sessionRequest at hs
  split at hs
  · rename_i x hx
    split at hs
    · refine ⟨_, _, ⟨?_, ?_⟩, hs⟩
      · intro key hkey
        cases hkey
        exact ⟨x, hx⟩
      · intro r id hr hid
        cases hr
        rw [hrequest] at hid
        cases hid
        exact ⟨h, x, rfl, hx, rfl⟩
    · cases hs
  · cases hs

/-- Every public call starts with an addressed `round_trip`. -/
theorem start_inv {a : Start} (h : s.start c a = some s') :
    ∃ purpose body, Addressed s purpose body ∧ s.register c purpose body = some s' := by
  cases a with
  | subscribe request | connect containerId rows cols user workdir | ping =>
    exact ⟨_, _, addressed_other rfl (by rintro r id ⟨⟩), h⟩
  | writeInput x bytes =>
    exact @sessionRequest_inv s s' c x (.containerTerminalInput · bytes) (fun _ => rfl) h
  | resize x rows cols =>
    exact @sessionRequest_inv s s' c x (.containerTerminalResize · rows cols) (fun _ => rfl) h
  | close x => exact sessionRequest_inv (fun _ => rfl) h
  | request payload =>
    refine ⟨_, _, addressed_other rfl ?_, h⟩
    rintro r id ⟨⟩ hid
    cases hid

/-! ## The board

The board is what decides where an event goes: the two event tables, the
subscriptions and the owner of the tables. -/

structure Board where
  subscriptions : Std.TreeMap SubscriptionId Nat
  earlyEvents : Std.TreeMap SubscriptionId (List ReadEvent)
  handles : Nat → Option Handle
  owner : Option Nat

def board (s : State) : Board :=
  ⟨s.inner.dispatch.subscriptions, s.inner.dispatch.earlyEvents, s.handles, s.owner⟩

theorem board_trySendCurrent (s : State) (e : ProtocolEnvelope) :
    (s.trySendCurrent e).board = s.board := by
  unfold trySendCurrent
  cases s.inner.connection with
  | none => rfl
  | some connection => rfl

theorem board_sendCancel (s : State) (target : RequestId) :
    (s.sendCancel target).board = s.board :=
  board_trySendCurrent s.takeRequestId _

theorem board_dispatchPending (s : State) (requestId : RequestId) (reply : Except String Reply) :
    (s.dispatchPending requestId reply).board = s.board := by
  unfold dispatchPending
  cases s.inner.dispatch.pending[requestId]? with
  | none => rfl
  | some c => rfl

theorem board_register (h : s.register c purpose body = some s') : s'.board = s.board := by
  unfold register at h
  split at h
  · cases h
    rfl
  · cases h

theorem board_callStep {a : CallAction} (h : CallStep s c call a s') : s'.board = s.board := by
  cases h with
  | timedOut | guardCancelled => exact board_sendCancel s call.requestId
  | _ => rfl

theorem board_stepServer {a : Server.Action} (h : s.stepServer k a = some s') :
    s'.board = s.board := by
  obtain ⟨-, server, -, rfl⟩ := stepServer_inv h
  rfl

theorem board_write (h : s.write k = some s') : s'.board = s.board := by
  obtain ⟨e, rest, -, rfl⟩ := write_inv h
  rfl

/-! ## Ports

The ports of a connection are the part of it that the client's calls and
subscriptions do not touch. -/

structure Ports where
  opened : Bool
  reader : LinkPhase
  server : Server

def ports (s : State) (k : Nat) : Ports :=
  ⟨(s.links k).opened, (s.links k).reader, (s.links k).server⟩

@[simp] theorem links_setLink_self (s : State) (k : Nat) (l : Link) :
    (s.setLink k l).links k = l := by
  simp [setLink]

@[simp] theorem links_setLink_ne (s : State) (l : Link) (h : j ≠ k) :
    (s.setLink k l).links j = s.links j := by
  simp [setLink, h]

theorem ports_setLink_self (s : State) (k : Nat) (l : Link) :
    (s.setLink k l).ports k = ⟨l.opened, l.reader, l.server⟩ := by
  rw [ports, links_setLink_self]

theorem ports_setLink_ne (s : State) (l : Link) (h : j ≠ k) :
    (s.setLink k l).ports j = s.ports j := by
  rw [ports, links_setLink_ne s l h]
  rfl

variable {b : CallAction} {before : Call} {id serial : Nat} {l : Link} {phase : CallPhase}
  {reason : String} {reply : Except String Reply} {requestId : RequestId}

theorem ports_setLink (hopened : l.opened = (s.links k).opened)
    (hreader : l.reader = (s.links k).reader) (hserver : l.server = (s.links k).server) :
    (s.setLink k l).ports = s.ports := by
  funext j
  by_cases hj : j = k
  · subst hj
    rw [ports_setLink_self, hopened, hreader, hserver]
    rfl
  · exact ports_setLink_ne s l hj

theorem ports_trySendCurrent (s : State) (e : ProtocolEnvelope) :
    (s.trySendCurrent e).ports = s.ports := by
  unfold trySendCurrent
  split
  · refine ports_setLink ?_ ?_ ?_
    all_goals
      unfold Link.trySend
      split <;> rfl
  · rfl

theorem ports_register (h : s.register c purpose body = some s') : s'.ports = s.ports := by
  unfold register at h
  split at h
  · cases h
    rfl
  · cases h

theorem ports_callStep {a : CallAction} (h : CallStep s c call a s') : s'.ports = s.ports := by
  cases h with
  | @send k hphase hroom =>
    have hset : (s.setLink k { s.links k with
        writerQueue := (s.links k).writerQueue ++
          [⟨call.requestId, call.body, call.purpose.issuer⟩] }).ports = s.ports :=
      ports_setLink rfl rfl rfl
    exact hset
  | timedOut | guardCancelled => exact ports_trySendCurrent s.takeRequestId _
  | _ => rfl

theorem ports_handleStep {a : HandleAction} (hs : HandleStep s h x a s') : s'.ports = s.ports := by
  cases hs with
  | request hphase hreg =>
    have hsame := ports_register hreg
    exact hsame
  | sendUnsubscribe hphase => exact ports_trySendCurrent s.takeRequestId _
  | _ => rfl

/-! ## Subscriptions keep their identity -/

/-- Which subscriptions there are: the id, the number on its connection and the
connection of each. -/
def identities (s : State) (h : Nat) : Option (SubscriptionId × Nat × Nat) :=
  (s.handles h).map fun x => (x.id, x.serial, x.acceptedOn)

theorem identities_of_handles (h : s'.handles = s.handles) : s'.identities = s.identities := by
  funext key
  rw [identities, identities, h]

theorem identities_of_board (h : s'.board = s.board) : s'.identities = s.identities :=
  identities_of_handles (congrArg Board.handles h)

theorem identities_setHandle {y : Handle} (hx : s.handles h = some x) (hid : y.id = x.id)
    (hserial : y.serial = x.serial) (hon : y.acceptedOn = x.acceptedOn) :
    (s.setHandle h y).identities = s.identities := by
  funext key
  unfold identities
  by_cases hkey : key = h
  · subst hkey
    rw [show (s.setHandle key y).handles key = some y from Function.update_self .., hx]
    simp [hid, hserial, hon]
  · rw [show (s.setHandle h y).handles key = s.handles key from Function.update_of_ne hkey ..]

theorem identities_trySendEvent (s : State) (h : Nat) (e : ReadEvent) :
    (s.trySendEvent h e).identities = s.identities := by
  unfold trySendEvent
  split
  · rename_i x hx
    split
    · exact identities_setHandle hx rfl rfl rfl
    · rfl
  · rfl

theorem identities_dispatchEvent (s : State) (e : ReadEvent) :
    (s.dispatchEvent e).identities = s.identities := by
  unfold dispatchEvent
  dsimp only
  split
  · exact identities_trySendEvent s _ e
  · split
    · rfl
    · rfl

theorem TerminateStep.handles {t : LinkTask} {a : TerminateAction} (h : TerminateStep s k t a s') :
    s'.handles = s.handles := by
  cases h with
  | check phase => rfl
  | take => rfl
  | clear reason => rfl

theorem EstablishStep.handles {a : EstablishAction} (h : EstablishStep s a s') :
    s'.handles = s.handles := by
  cases h with
  | _ => rfl

theorem identities_read (h : s.read k = some s') : s'.identities = s.identities := by
  obtain ⟨envelope, rest, -, -, hread⟩ := read_inv h
  cases hread with
  | event hbody => exact identities_dispatchEvent (s.pop k rest) _
  | answer hevent hreply =>
    exact identities_of_board (board_dispatchPending (s.pop k rest) _ _)
  | unexpected hevent hterm => exact identities_of_handles (terminate_inv hterm).handles

theorem HandleStep.identities {a : HandleAction} (hx : s.handles h = some x)
    (hs : HandleStep s h x a s') : s'.identities = s.identities := by
  cases hs with
  | request hphase hreg =>
    refine (identities_of_board (board_register hreg)).trans ?_
    exact identities_setHandle hx rfl rfl rfl
  | sendUnsubscribe hphase =>
    have hboard := board_trySendCurrent s.takeRequestId
      ⟨s.requestId, .unsubscribe x.id, some h⟩
    have hx' : (s.takeRequestId.trySendCurrent
        ⟨s.requestId, .unsubscribe x.id, some h⟩).handles h = some x :=
      (congrFun (congrArg Board.handles hboard) h).trans hx
    have hsent : (s.takeRequestId.trySendCurrent
        ⟨s.requestId, .unsubscribe x.id, some h⟩).identities = s.identities :=
      identities_of_board hboard
    rw [← hsent]
    exact identities_setHandle hx' rfl rfl rfl
  | _ => exact identities_setHandle hx rfl rfl rfl

/-- Every step but the insertion of a new subscription keeps all identities. -/
theorem identities_step (h : s.step a = some s') (ha : ∀ c key, a ≠ .insert c key) :
    s'.identities = s.identities := by
  cases a with
  | establish a => exact identities_of_handles (establish_inv h).handles
  | terminate k t a => exact identities_of_handles (terminate_inv h).handles
  | read k => exact identities_read h
  | write k => exact identities_of_board (board_write h)
  | start c a =>
    obtain ⟨purpose, body, -, hreg⟩ := start_inv h
    exact identities_of_board (board_register hreg)
  | call c a =>
    obtain ⟨call, -, hcall⟩ := stepCall_inv h
    exact identities_of_board (board_callStep hcall)
  | insert c key => exact absurd rfl (ha c key)
  | handle key a =>
    obtain ⟨x, hx, hstep⟩ := stepHandle_inv h
    exact hstep.identities hx
  | server k a => exact identities_of_board (board_stepServer h)

theorem exists_handle_of_identity (hid : s.identities h = some (id, serial, k)) :
    ∃ x, s.handles h = some x ∧ x.id = id ∧ x.serial = serial ∧ x.acceptedOn = k := by
  obtain ⟨x, hx, heq⟩ := Option.map_eq_some_iff.mp hid
  cases heq
  exact ⟨x, hx, rfl, rfl, rfl⟩

theorem identity_of_handle (hx : s.handles h = some x) :
    s.identities h = some (x.id, x.serial, x.acceptedOn) := by
  rw [identities, hx]
  rfl

/-- **Subscriptions keep their identity** in every step. -/
theorem handle_kept (h : s.step a = some s') {key : Nat} (hx : s.handles key = some x) :
    ∃ x', s'.handles key = some x' ∧ x'.id = x.id ∧ x'.serial = x.serial ∧
      x'.acceptedOn = x.acceptedOn := by
  by_cases ha : ∃ c h', a = .insert c h'
  · obtain ⟨c, h', rfl⟩ := ha
    obtain ⟨call, terminal, id, serial, k, -, hnone, -, -, rfl⟩ := insert_inv h
    have hkey : key ≠ h' := by
      rintro rfl
      rw [hnone] at hx
      cases hx
    exact ⟨x, (Function.update_of_ne hkey ..).trans hx, rfl, rfl, rfl⟩
  · have hsame := identities_step h fun c h' heq => ha ⟨c, h', heq⟩
    refine exists_handle_of_identity ?_
    rw [hsame]
    exact identity_of_handle hx

/-! ## Where calls come from -/

/-- How the call `c` after a step relates to the state before it: it is new, or it
is an old call that is about to send on the connection that was current when it
took its writer. -/
inductive CallOrigin (s : State) (a : Action) (c : Nat) (call : Call) : Prop where
  | new (hphase : call.phase = .registered) (hreply : call.reply = none)
      (haddr : Addressed s call.purpose call.body)
  | old (before : Call) (hbefore : s.calls c = some before)
      (hpurpose : call.purpose = before.purpose) (hbody : call.body = before.body)
      (hsending : ∀ k, call.phase = .sending k → before.phase = .sending k ∨
        (a = .call c .takeWriter ∧ ∃ connection, s.inner.connection = some connection ∧
          connection.writer = k))

theorem CallOrigin.same (hcalls : s'.calls = s.calls) (hcall : s'.calls c = some call) :
    CallOrigin s a c call := by
  rw [hcalls] at hcall
  exact .old call hcall rfl rfl fun k hk => .inl hk

theorem calls_trySendCurrent (s : State) (e : ProtocolEnvelope) :
    (s.trySendCurrent e).calls = s.calls := by
  unfold trySendCurrent
  cases s.inner.connection with
  | none => rfl
  | some connection => rfl

theorem calls_sendCancel (s : State) (target : RequestId) :
    (s.sendCancel target).calls = s.calls :=
  calls_trySendCurrent s.takeRequestId _

theorem calls_register (h : s.register c purpose body = some s') :
    s'.calls =
      Function.update s.calls c (some ⟨s.requestId, body, purpose, .registered, none⟩) := by
  unfold register at h
  split at h
  · cases h
    rfl
  · cases h

theorem origin_register (hcalls : t.calls = s.calls) (haddr : Addressed s purpose body)
    (h : t.register c purpose body = some s') (hcall : s'.calls j = some call) :
    CallOrigin s a j call := by
  rw [calls_register h, hcalls] at hcall
  rcases update_eq_some hcall with ⟨rfl, rfl⟩ | ⟨hj, hold⟩
  · exact .new rfl rfl haddr
  · exact .old call hold rfl rfl fun k hk => .inl hk

theorem origin_setPhase (hcalls : t.calls = s.calls) (hbefore : s.calls c = some before)
    (hphase : ∀ k, phase = .sending k → a = .call c .takeWriter ∧
      ∃ connection, s.inner.connection = some connection ∧ connection.writer = k)
    (hcall : (t.setPhase c before phase).calls j = some call) : CallOrigin s a j call := by
  rcases update_eq_some hcall with ⟨rfl, rfl⟩ | ⟨hj, hold⟩
  · exact .old before hbefore rfl rfl fun k hk => .inr (hphase k hk)
  · exact .same hcalls hold

theorem CallStep.origin (hbefore : s.calls c = some before) (hs : CallStep s c before b s')
    (hcall : s'.calls j = some call) : CallOrigin s (.call c b) j call := by
  cases hs with
  | @takeWriter connection hphase hconn =>
    refine origin_setPhase rfl hbefore ?_ hcall
    intro k hk
    cases hk
    exact ⟨rfl, connection, hconn, rfl⟩
  | timedOut | guardCancelled =>
    exact origin_setPhase (calls_sendCancel s _) hbefore (by rintro k ⟨⟩) hcall
  | settled hphase =>
    refine origin_setPhase rfl hbefore ?_ hcall
    intro k hk
    unfold afterSettling at hk
    split at hk <;> cases hk
  | _ => exact origin_setPhase rfl hbefore (by rintro k ⟨⟩) hcall

theorem origin_answer {f : Call → Call}
    (hf : ∀ x, (f x).purpose = x.purpose ∧ (f x).body = x.body ∧ (f x).phase = x.phase)
    (hcall : (s.calls c).map f = some call) : CallOrigin s a c call := by
  obtain ⟨before, hbefore, rfl⟩ := Option.map_eq_some_iff.mp hcall
  obtain ⟨hpurpose, hbody, hphase⟩ := hf before
  exact .old before hbefore hpurpose hbody fun k hk => .inl (hphase ▸ hk)

theorem origin_clearDispatch (hcall : (s.clearDispatch reason).calls c = some call) :
    CallOrigin s a c call := by
  refine origin_answer ?_ hcall
  intro x
  split
  · exact ⟨rfl, rfl, rfl⟩
  · exact ⟨rfl, rfl, rfl⟩

theorem origin_dispatchPending (ht : t.calls = s.calls)
    (hcall : (t.dispatchPending requestId reply).calls c = some call) : CallOrigin s a c call := by
  unfold dispatchPending at hcall
  split at hcall
  · rename_i j hj
    change Function.update t.calls j _ c = _ at hcall
    by_cases hc : c = j
    · subst hc
      rw [Function.update_self, ht] at hcall
      refine origin_answer ?_ hcall
      exact fun x => ⟨rfl, rfl, rfl⟩
    · rw [Function.update_of_ne hc] at hcall
      exact .same ht hcall
  · exact .same ht hcall

theorem calls_dispatchEvent (s : State) (e : ReadEvent) : (s.dispatchEvent e).calls = s.calls := by
  unfold dispatchEvent trySendEvent
  dsimp only
  split
  · split
    · split
      · rfl
      · rfl
    · rfl
  · split
    · rfl
    · rfl

theorem TerminateStep.origin {t : LinkTask} {b : TerminateAction} (h : TerminateStep s k t b s')
    (hcall : s'.calls c = some call) : CallOrigin s a c call := by
  cases h with
  | check phase | take => exact .same rfl hcall
  | clear reason => exact origin_clearDispatch hcall

theorem EstablishStep.origin {b : EstablishAction} (h : EstablishStep s b s')
    (hcall : s'.calls c = some call) : CallOrigin s a c call := by
  cases h with
  | clear hlock => exact origin_clearDispatch hcall
  | _ => exact .same rfl hcall

theorem HandleStep.origin {b : HandleAction} (hx : s.handles h = some x)
    (hs : HandleStep s h x b s') (hcall : s'.calls c = some call) : CallOrigin s a c call := by
  cases hs with
  | request hphase hreg =>
    have hcalls : (s.setHandle h { x with phase := .closed }).calls = s.calls := rfl
    refine origin_register hcalls ⟨?_, ?_⟩ hreg hcall
    · intro key hkey
      cases hkey
      exact ⟨x, hx⟩
    · rintro r id ⟨⟩
  | sendUnsubscribe hphase =>
    exact .same (calls_trySendCurrent s.takeRequestId _) hcall
  | _ => exact .same rfl hcall

/-- **Where calls come from**, in every step. -/
theorem call_origin (h : s.step a = some s') (hcall : s'.calls c = some call) :
    CallOrigin s a c call := by
  cases a with
  | establish b => exact (establish_inv h).origin hcall
  | terminate k t b => exact (terminate_inv h).origin hcall
  | read k =>
    obtain ⟨envelope, rest, -, -, hread⟩ := read_inv h
    cases hread with
    | event hbody => exact .same (calls_dispatchEvent (s.pop k rest) _) hcall
    | answer hevent hreply =>
      have hcalls : (s.pop k rest).calls = s.calls := rfl
      exact origin_dispatchPending hcalls hcall
    | unexpected hevent hterm =>
      cases terminate_inv hterm with
      | check phase => exact .same rfl hcall
  | write k =>
    obtain ⟨e, rest, -, rfl⟩ := write_inv h
    exact .same rfl hcall
  | start j b =>
    obtain ⟨purpose, body, haddr, hreg⟩ := start_inv h
    exact origin_register rfl haddr hreg hcall
  | call j b =>
    obtain ⟨before, hbefore, hstep⟩ := stepCall_inv h
    exact hstep.origin hbefore hcall
  | insert j key =>
    obtain ⟨before, terminal, id, serial, k, hbefore, -, -, -, rfl⟩ := insert_inv h
    exact origin_setPhase rfl hbefore (by rintro k ⟨⟩) hcall
  | handle key b =>
    obtain ⟨x, hx, hstep⟩ := stepHandle_inv h
    exact hstep.origin hx hcall
  | server k b =>
    obtain ⟨-, server, -, rfl⟩ := stepServer_inv h
    exact .same rfl hcall

/-! ## Where answers come from -/

def isLive : CallPhase → Bool
  | .registered => true
  | .sending _ => true
  | .waiting => true
  | .settling answered => answered
  | .accepted => true
  | _ => false

def Answered (s : State) (c : Nat) (r : Reply) : Prop :=
  ∃ call, s.calls c = some call ∧ isLive call.phase = true ∧ call.reply = some (.ok r)

theorem answered_of_calls (h : s'.calls = s.calls) (ha : Answered s' c r) : Answered s c r := by
  unfold Answered at ha ⊢
  rw [h] at ha
  exact ha

theorem answered_register (ht : t.calls = s.calls) (h : t.register c purpose body = some s')
    (ha : Answered s' j r) : Answered s j r := by
  obtain ⟨call, hcall, hlive, hreply⟩ := ha
  rw [calls_register h, ht] at hcall
  rcases update_eq_some hcall with ⟨rfl, rfl⟩ | ⟨-, hold⟩
  · cases hreply
  · exact ⟨call, hold, hlive, hreply⟩

theorem answered_setPhase (ht : t.calls = s.calls) (hcall : s.calls c = some call)
    (hlive : isLive phase = true → isLive call.phase = true)
    (ha : Answered (t.setPhase c call phase) j r) : Answered s j r := by
  obtain ⟨call', hcall', hlive', hreply⟩ := ha
  rcases update_eq_some hcall' with ⟨rfl, rfl⟩ | ⟨-, hold⟩
  · exact ⟨call, hcall, hlive hlive', hreply⟩
  · rw [ht] at hold
    exact ⟨call', hold, hlive', hreply⟩

theorem answered_callStep {a : CallAction} (hcall : s.calls c = some call)
    (h : CallStep s c call a s') (ha : Answered s' j r) : Answered s j r := by
  cases h with
  | takeWriter hphase hconn | send hphase hroom | answered hphase =>
    exact answered_setPhase rfl hcall (fun _ => by rw [hphase]; rfl) ha
  | timedOut | guardCancelled =>
    exact answered_setPhase (calls_sendCancel s _) hcall (fun hlive => by cases hlive) ha
  | @settled answered hphase =>
    refine answered_setPhase rfl hcall ?_ ha
    intro hlive
    rw [hphase]
    unfold afterSettling at hlive
    split at hlive
    · rfl
    · cases hlive
  | _ => exact answered_setPhase rfl hcall (fun hlive => by cases hlive) ha

theorem answered_dispatchPending (ht : t.calls = s.calls)
    (ha : Answered (t.dispatchPending requestId reply) j r) :
    Answered s j r ∨ (reply = .ok r ∧ t.inner.dispatch.pending[requestId]? = some j) := by
  unfold dispatchPending at ha
  split at ha
  · rename_i c hc
    obtain ⟨call, hcall, hlive, hreply⟩ := ha
    change Function.update t.calls c _ j = _ at hcall
    by_cases hj : j = c
    · subst hj
      rw [Function.update_self, ht] at hcall
      obtain ⟨before, hbefore, rfl⟩ := Option.map_eq_some_iff.mp hcall
      change before.reply.or (some reply) = some (.ok r) at hreply
      cases hold : before.reply with
      | none =>
        rw [hold] at hreply
        exact .inr ⟨Option.some.inj hreply, hc⟩
      | some old =>
        rw [hold] at hreply
        exact .inl ⟨before, hbefore, hlive, by rw [hold]; exact hreply⟩
    · rw [Function.update_of_ne hj, ht] at hcall
      exact .inl ⟨call, hcall, hlive, hreply⟩
  · exact .inl (answered_of_calls ht ha)

theorem answered_handleStep {a : HandleAction} (hs : HandleStep s h x a s') (ha : Answered s' j r) :
    Answered s j r := by
  cases hs with
  | request hphase hreg =>
    have hcalls : (s.setHandle h { x with phase := .closed }).calls = s.calls := rfl
    exact answered_register hcalls hreg ha
  | sendUnsubscribe hphase =>
    exact answered_of_calls (calls_trySendCurrent s.takeRequestId _) ha
  | _ => exact answered_of_calls rfl ha

theorem answered_clearDispatch (ha : Answered (s.clearDispatch reason) j r) : Answered s j r := by
  obtain ⟨call, hcall, hlive, hreply⟩ := ha
  obtain ⟨before, hbefore, rfl⟩ := Option.map_eq_some_iff.mp hcall
  refine ⟨before, hbefore, ?_, ?_⟩
  · split at hlive
    · exact hlive
    · exact hlive
  · split at hreply
    · change before.reply.or (some (.error reason)) = some (.ok r) at hreply
      cases hold : before.reply with
      | none =>
        rw [hold] at hreply
        cases hreply
      | some old =>
        rw [hold] at hreply
        exact hreply
    · exact hreply

theorem TerminateStep.answered {t : LinkTask} {a : TerminateAction} (h : TerminateStep s k t a s')
    (ha : Answered s' j r) : Answered s j r := by
  cases h with
  | check phase | take => exact answered_of_calls rfl ha
  | clear reason => exact answered_clearDispatch ha

theorem EstablishStep.answered {a : EstablishAction} (h : EstablishStep s a s')
    (ha : Answered s' j r) : Answered s j r := by
  cases h with
  | clear hlock => exact answered_clearDispatch ha
  | _ => exact answered_of_calls rfl ha

/-- **Where answers come from**: a call that holds a `Subscribed` answer after a
step held it before, or the frame was in the stream that the answer names. -/
theorem answer_origin (h : s.step a = some s') (ha : Answered s' c ⟨.subscribed id serial, k⟩) :
    Answered s c ⟨.subscribed id serial, k⟩ ∨
      ∃ e ∈ (s.links k).server.outbound, e.body = .subscribed id serial := by
  cases a with
  | establish b => exact .inl ((establish_inv h).answered ha)
  | terminate j t b => exact .inl ((terminate_inv h).answered ha)
  | read j =>
    obtain ⟨envelope, rest, hout, -, hread⟩ := read_inv h
    cases hread with
    | event hbody => exact .inl (answered_of_calls (calls_dispatchEvent (s.pop j rest) _) ha)
    | answer hevent hreply =>
      have hcalls : (s.pop j rest).calls = s.calls := rfl
      rcases answered_dispatchPending hcalls ha with hold | ⟨heq, -⟩
      · exact .inl hold
      · obtain ⟨rfl, hbody⟩ := hreply id serial k heq
        exact .inr ⟨envelope, by rw [hout]; exact List.mem_cons_self, hbody⟩
    | unexpected hevent hterm => exact .inl ((terminate_inv hterm).answered ha)
  | write j =>
    obtain ⟨e, rest, -, rfl⟩ := write_inv h
    exact .inl (answered_of_calls rfl ha)
  | start j b =>
    obtain ⟨purpose, body, -, hreg⟩ := start_inv h
    exact .inl (answered_register rfl hreg ha)
  | call j b =>
    obtain ⟨call, hcall, hstep⟩ := stepCall_inv h
    exact .inl (answered_callStep hcall hstep ha)
  | insert j key =>
    obtain ⟨call, terminal, id, serial, k, hcall, -, -, -, rfl⟩ := insert_inv h
    refine .inl (answered_setPhase rfl hcall ?_ ha)
    intro hlive
    cases hlive
  | handle key b =>
    obtain ⟨x, -, hstep⟩ := stepHandle_inv h
    exact .inl (answered_handleStep hstep ha)
  | server j b =>
    obtain ⟨-, server, -, rfl⟩ := stepServer_inv h
    exact .inl (answered_of_calls rfl ha)

/-! ## What happens to a connection -/

theorem links_dispatchEvent (s : State) (e : ReadEvent) : (s.dispatchEvent e).links = s.links := by
  unfold dispatchEvent trySendEvent
  dsimp only
  split
  · split
    · split
      · rfl
      · rfl
    · rfl
  · split
    · rfl
    · rfl

theorem links_dispatchPending (s : State) (requestId : RequestId) (reply : Except String Reply) :
    (s.dispatchPending requestId reply).links = s.links := by
  unfold dispatchPending
  split
  · rfl
  · rfl

theorem links_register (h : s.register c purpose body = some s') : s'.links = s.links := by
  unfold register at h
  split at h
  · cases h
    rfl
  · cases h

/-- What a step can do to connection `k`, apart from the phases of its tasks. A
request in its queue comes from a call that holds the writer of `k`. -/
inductive LinkStep (s : State) (a : Action) (k : Nat) (l : Link) : Prop where
  | same (hqueue : l.writerQueue = (s.links k).writerQueue)
      (hserver : l.server = (s.links k).server)
  | read {envelope : ProtocolEnvelope} {rest : List ProtocolEnvelope}
      (hout : (s.links k).server.outbound = envelope :: rest)
      (hqueue : l.writerQueue = (s.links k).writerQueue)
      (hserver : l.server = { (s.links k).server with outbound := rest })
  | queued (e : ProtocolEnvelope) (hqueue : l.writerQueue = (s.links k).writerQueue ++ [e])
      (hserver : l.server = (s.links k).server)
      (hfrom : (∀ request, e.body ≠ .request request) ∨
        ∃ c call, s.calls c = some call ∧ call.phase = .sending k ∧ e.body = call.body ∧
          e.issuer = call.purpose.issuer)
  | written {e : ProtocolEnvelope} (hwas : (s.links k).writerQueue = e :: l.writerQueue)
      (hserver : l.server = { (s.links k).server with
        inbound := (s.links k).server.inbound ++ [e] })
  | served {b : Server.Action} (ha : a = .server k b)
      (hqueue : l.writerQueue = (s.links k).writerQueue)
      (hstep : (s.links k).server.step b = some l.server)

theorem linkStep_update {links : Nat → Link} (hlinks : links = Function.update s.links j l)
    (h : LinkStep s a j l) (k : Nat) : LinkStep s a k (links k) := by
  rw [hlinks]
  by_cases hk : k = j
  · subst hk
    rw [Function.update_self]
    exact h
  · rw [Function.update_of_ne hk]
    exact .same rfl rfl

theorem linkStep_trySendCurrent {e : ProtocolEnvelope} (he : ∀ request, e.body ≠ .request request)
    (k : Nat) : LinkStep s a k ((s.takeRequestId.trySendCurrent e).links k) := by
  unfold trySendCurrent
  split
  · rename_i connection hconn
    refine linkStep_update rfl ?_ k
    change LinkStep s a connection.writer ((s.links connection.writer).trySend e)
    unfold Link.trySend
    split
    · exact .queued e rfl rfl (.inl he)
    · exact .same rfl rfl
  · exact .same rfl rfl

theorem Link.setPhase_queue (l : Link) (t : LinkTask) (phase : LinkPhase) :
    (l.setPhase t phase).writerQueue = l.writerQueue ∧ (l.setPhase t phase).server = l.server := by
  cases t with
  | reader | writer => exact ⟨rfl, rfl⟩

theorem TerminateStep.link {t : LinkTask} {b : TerminateAction} (h : TerminateStep s j t b s')
    (a : Action) (k : Nat) : LinkStep s a k (s'.links k) := by
  have hphase : ∀ phase, LinkStep s a j ((s.links j).setPhase t phase) := by
    intro phase
    obtain ⟨hqueue, hserver⟩ := Link.setPhase_queue (s.links j) t phase
    exact .same hqueue hserver
  cases h with
  | check phase => exact linkStep_update rfl (hphase phase) k
  | take => exact linkStep_update rfl (hphase .taken) k
  | clear reason => exact linkStep_update rfl (hphase .stopped) k

theorem EstablishStep.link {b : EstablishAction} (h : EstablishStep s b s') (a : Action) (k : Nat) :
    LinkStep s a k (s'.links k) := by
  cases h with
  | handshake hlock hnew | install hlock =>
    refine linkStep_update rfl ?_ k
    exact .same rfl rfl
  | take hlock | clear hlock => exact .same rfl rfl

theorem link_read (h : s.read j = some s') (a : Action) (k : Nat) :
    LinkStep s a k (s'.links k) := by
  obtain ⟨envelope, rest, hout, -, hread⟩ := read_inv h
  have hpop : LinkStep s a k ((s.pop j rest).links k) := by
    refine linkStep_update rfl ?_ k
    exact .read hout rfl rfl
  cases hread with
  | event hbody =>
    rw [links_dispatchEvent]
    exact hpop
  | answer hevent hreply =>
    rw [links_dispatchPending]
    exact hpop
  | unexpected hevent hterm =>
    cases terminate_inv hterm with
    | check phase =>
      by_cases hk : k = j
      · subst hk
        rw [links_setLink_self]
        obtain ⟨hqueue, hserver⟩ :=
          Link.setPhase_queue ((s.pop k rest).links k) .reader phase
        refine .read hout ?_ ?_
        · rw [hqueue, pop, links_setLink_self]
        · rw [hserver, pop, links_setLink_self]
      · rw [links_setLink_ne _ _ hk]
        exact hpop

theorem CallStep.link (hcall : s.calls c = some call) (h : CallStep s c call b s') (a : Action)
    (k : Nat) : LinkStep s a k (s'.links k) := by
  cases h with
  | send hphase hroom =>
    refine linkStep_update rfl ?_ k
    exact .queued _ rfl rfl (.inr ⟨c, call, hcall, hphase, rfl, rfl⟩)
  | timedOut | guardCancelled =>
    refine linkStep_trySendCurrent ?_ k
    rintro r ⟨⟩
  | _ => exact .same rfl rfl

theorem HandleStep.link {b : HandleAction} (hs : HandleStep s h x b s') (a : Action) (k : Nat) :
    LinkStep s a k (s'.links k) := by
  cases hs with
  | request hphase hreg =>
    rw [links_register hreg]
    exact .same rfl rfl
  | sendUnsubscribe hphase =>
    refine linkStep_trySendCurrent ?_ k
    rintro r ⟨⟩
  | _ => exact .same rfl rfl

/-- **What happens to a connection**, in every step. -/
theorem link_step (h : s.step a = some s') (k : Nat) : LinkStep s a k (s'.links k) := by
  cases a with
  | establish b => exact (establish_inv h).link _ k
  | terminate j t b => exact (terminate_inv h).link _ k
  | read j => exact link_read h _ k
  | write j =>
    obtain ⟨e, rest, hqueue, rfl⟩ := write_inv h
    refine linkStep_update rfl ?_ k
    exact .written hqueue rfl
  | start c b =>
    obtain ⟨purpose, body, -, hreg⟩ := start_inv h
    rw [links_register hreg]
    exact .same rfl rfl
  | call c b =>
    obtain ⟨call, hcall, hstep⟩ := stepCall_inv h
    exact hstep.link hcall _ k
  | insert c key =>
    obtain ⟨call, terminal, id, serial, j, -, -, -, -, rfl⟩ := insert_inv h
    exact .same rfl rfl
  | handle key b =>
    obtain ⟨x, -, hstep⟩ := stepHandle_inv h
    exact hstep.link _ k
  | server j b =>
    obtain ⟨-, server, hstep, rfl⟩ := stepServer_inv h
    refine linkStep_update rfl ?_ k
    exact .served rfl rfl hstep

end State

end TuxStack.Ipc
