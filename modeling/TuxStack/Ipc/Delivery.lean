import TuxStack.Ipc.Numbering
import TuxStack.Ipc.Generations

/-!
# Delivery order on one connection

The daemon sends the events of a subscription right after its `Subscribed` frame,
so the reader may see some of them before `subscribe` has entered the
subscription. These are parked in `early_events` and replayed later, after the
dispatch lock has been released.

`received_is_prefix` says what a `Subscription` gets on one connection: a prefix
of what was sent for it, as long as the reader does not hand it newer events
while old ones are still to be replayed, and no event finds the table of parked
events full. Neither is ensured (`replay_overtaken_and_table_full`).

The proof follows an event through its stations: on the wire, parked, to be
replayed, queued, received. `History` says that these, in order, are everything
that was sent, `Tokens` that a subscription id is in one place at a time.
-/

namespace TuxStack.Ipc

open Runs

/-! ## Events of one subscription -/

def eventsFor (id : SubscriptionId) (events : List ServerEvent) : List ServerEvent :=
  events.filter fun event => event.subscriptionId = id

def Server.inFlight (s : Server) (id : SubscriptionId) : List ServerEvent :=
  eventsFor id (s.outbound.filterMap ProtocolEnvelope.event?)

def Server.sentFor (s : Server) (id : SubscriptionId) : List ServerEvent :=
  eventsFor id s.sent

def eventsOf (events : List ReadEvent) : List ServerEvent := events.map (·.event)

theorem eventsFor_append (id : SubscriptionId) (first second : List ServerEvent) :
    eventsFor id (first ++ second) = eventsFor id first ++ eventsFor id second :=
  List.filter_append ..

theorem eventsOf_append (first second : List ReadEvent) :
    eventsOf (first ++ second) = eventsOf first ++ eventsOf second :=
  List.map_append

namespace State

/-! ## The history of a subscription -/

/-- Everything sent for a subscription is, in order, in the places an event passes
through. The events of an id without a subscription are parked or on the wire;
those of one that still receives are received, queued, to be replayed or on the
wire; one that has been closed keeps a prefix. -/
structure History (b : Board) (server : Server) : Prop where
  table : ∀ (id : SubscriptionId) (h : Nat), b.subscriptions[id]? = some h →
    ∃ x, b.handles h = some x ∧ x.id = id
  waiting : ∀ id : SubscriptionId, (∀ h x, b.handles h = some x → x.id ≠ id) →
    eventsOf (b.earlyEvents.getD id []) ++ server.inFlight id = server.sentFor id
  receiving : ∀ h x, b.handles h = some x → b.subscriptions[x.id]? = some h → x.isOpen = true →
    eventsOf (x.received ++ x.queue ++ x.early) ++ server.inFlight x.id = server.sentFor x.id
  prefixed : ∀ h x, b.handles h = some x →
    eventsOf (x.received ++ x.queue ++ x.early) <+: server.sentFor x.id

variable {b : Board} {server : Server}

theorem History.emits {server' : Server} (hb : History b server) (h : server.Emits server') :
    History b server' := by
  obtain ⟨new, hwire, hsent⟩ : ∃ new : List ServerEvent,
      (∀ id, server'.inFlight id = server.inFlight id ++ eventsFor id new) ∧
        ∀ id, server'.sentFor id = server.sentFor id ++ eventsFor id new := by
    cases h with
    | frames new hout hsent hplain haccepted =>
      refine ⟨new.filterMap ProtocolEnvelope.event?, ?_, ?_⟩
      · intro id
        rw [Server.inFlight, hout, List.filterMap_append, eventsFor_append]
        rfl
      · intro id
        rw [Server.sentFor, hsent, eventsFor_append]
        rfl
    | accepted requestId hout hsent haccepted =>
      refine ⟨[], ?_, ?_⟩
      · intro id
        rw [Server.inFlight, hout, List.filterMap_append, eventsFor_append]
        rfl
      · intro id
        rw [Server.sentFor, hsent]
        exact (List.append_nil _).symm
  refine ⟨hb.table, ?_, ?_, ?_⟩
  · intro id hid
    rw [hwire, hsent, ← List.append_assoc, hb.waiting id hid]
  · intro h x hx hentry hopen
    rw [hwire, hsent, ← List.append_assoc, hb.receiving h x hx hentry hopen]
  · intro h x hx
    rw [hsent]
    exact (hb.prefixed h x hx).trans (List.prefix_append _ _)

theorem History.congr {server' : Server} (hb : History b server)
    (hwire : ∀ id, server'.inFlight id = server.inFlight id)
    (hsent : server'.sent = server.sent) : History b server' := by
  have hsentFor : ∀ id, server'.sentFor id = server.sentFor id := by
    intro id
    rw [Server.sentFor, hsent, Server.sentFor]
  refine ⟨hb.table, ?_, ?_, ?_⟩
  · intro id hid
    rw [hwire, hsentFor]
    exact hb.waiting id hid
  · intro h x hx hentry hopen
    rw [hwire, hsentFor]
    exact hb.receiving h x hx hentry hopen
  · intro h x hx
    rw [hsentFor]
    exact hb.prefixed h x hx

theorem History.erase (hb : History b server) (id : SubscriptionId) :
    History { b with subscriptions := b.subscriptions.erase id } server := by
  have hsub : ∀ (id' : SubscriptionId) (h : Nat),
      (b.subscriptions.erase id)[id']? = some h → b.subscriptions[id']? = some h := by
    intro id' h hget
    rw [Std.TreeMap.getElem?_erase] at hget
    split at hget
    · cases hget
    · exact hget
  exact ⟨fun id' h hget => hb.table id' h (hsub id' h hget), hb.waiting,
    fun h x hx hentry => hb.receiving h x hx (hsub x.id h hentry), hb.prefixed⟩

variable {c h k : Nat} {x : Handle} {envelope : ProtocolEnvelope} {rest : List ProtocolEnvelope}

theorem History.move (hb : History b server) {y : Handle} (hx : b.handles h = some x)
    (hid : y.id = x.id)
    (hevents : y.received ++ y.queue ++ y.early = x.received ++ x.queue ++ x.early)
    (hopen : y.isOpen = true → x.isOpen = true) :
    History { b with handles := Function.update b.handles h (some y) } server where
  table := by
    intro id h' hget
    obtain ⟨z, hz, hzid⟩ := hb.table id h' hget
    by_cases heq : h' = h
    · subst heq
      cases hz.symm.trans hx
      exact ⟨y, Function.update_self .., hid.trans hzid⟩
    · exact ⟨z, (Function.update_of_ne heq ..).trans hz, hzid⟩
  waiting := by
    intro id hnone
    refine hb.waiting id ?_
    intro h' z hz
    by_cases heq : h' = h
    · subst heq
      cases hz.symm.trans hx
      rw [← hid]
      exact hnone h' y (Function.update_self ..)
    · exact hnone h' z ((Function.update_of_ne heq ..).trans hz)
  receiving := by
    intro h' z hz hentry hzopen
    rcases update_eq_some hz with ⟨rfl, rfl⟩ | ⟨hne, hold⟩
    · rw [hid] at hentry ⊢
      rw [hevents]
      exact hb.receiving h' x hx hentry (hopen hzopen)
    · exact hb.receiving h' z hold hentry hzopen
  prefixed := by
    intro h' z hz
    rcases update_eq_some hz with ⟨rfl, rfl⟩ | ⟨hne, hold⟩
    · rw [hid, hevents]
      exact hb.prefixed h' x hx
    · exact hb.prefixed h' z hold

theorem History.insert (hb : History b server) (hnew : b.handles h = none)
    (hid : ∀ h' y, b.handles h' = some y → y.id ≠ x.id)
    (hearly : x.early = b.earlyEvents.getD x.id []) (hqueue : x.queue = [])
    (hreceived : x.received = []) (o : Option Nat) :
    History ⟨b.subscriptions.insert x.id h, b.earlyEvents.erase x.id,
      Function.update b.handles h (some x), o⟩ server where
  table := by
    intro id h' hget
    simp only [Std.TreeMap.getElem?_insert] at hget
    split at hget
    · rename_i heq
      cases hget
      exact ⟨x, Function.update_self .., by simpa using heq⟩
    · obtain ⟨y, hy, hyid⟩ := hb.table id h' hget
      have hne : h' ≠ h := by
        rintro rfl
        rw [hnew] at hy
        cases hy
      exact ⟨y, (Function.update_of_ne hne ..).trans hy, hyid⟩
  waiting := by
    intro id hnone
    have hne : x.id ≠ id := hnone h x (Function.update_self ..)
    have hold : ∀ h' y, b.handles h' = some y → y.id ≠ id := by
      intro h' y hy
      have hne' : h' ≠ h := by
        rintro rfl
        rw [hnew] at hy
        cases hy
      exact hnone h' y ((Function.update_of_ne hne' ..).trans hy)
    have hget : (b.earlyEvents.erase x.id).getD id [] = b.earlyEvents.getD id [] := by
      rw [Std.TreeMap.getD_erase, if_neg (by simpa using hne)]
    simp only [hget]
    exact hb.waiting id hold
  receiving := by
    intro h' y hy hentry hopen
    rcases update_eq_some hy with ⟨rfl, rfl⟩ | ⟨hne, hold⟩
    · rw [hreceived, hqueue, hearly]
      exact hb.waiting y.id hid
    · have hne' : x.id ≠ y.id := fun heq => hid h' y hold heq.symm
      simp only [Std.TreeMap.getElem?_insert] at hentry
      rw [if_neg (by simpa using hne')] at hentry
      exact hb.receiving h' y hold hentry hopen
  prefixed := by
    intro h' y hy
    rcases update_eq_some hy with ⟨rfl, rfl⟩ | ⟨hne, hold⟩
    · rw [hreceived, hqueue, hearly, ← hb.waiting y.id hid]
      exact List.prefix_append _ _
    · exact hb.prefixed h' y hold

/-! ## Runs on one connection -/

/-- The client right after `Client::connect`, on connection 0. -/
def connected : State where
  inner := ⟨1, 2, some ⟨1, 0⟩, ⟨∅, ∅, ∅⟩, none⟩
  calls _ := none
  handles _ := none
  links := Function.update (fun _ => .unopened) 0 ⟨true, 1, [], .running, .running, .new⟩
  latest := some 0

/-- Client and daemon, on a connection that has just been established. -/
def oneConnection : Machine State Action where
  init s := s = connected
  step := State.step

/-- An event for `id` is within the limits of the channels: the queue of its
subscription, or the early events of one that is not there yet. -/
def hasRoom (s : State) (id : SubscriptionId) : Bool :=
  match s.inner.dispatch.subscriptions[id]? with
  | some h => (s.handles h).all fun x => x.queue.length < subscriptionQueueCapacity
  | none => (s.parked id).length < earlyEventLimit

def nextEvent (s : State) (k : Nat) : Option ServerEvent :=
  (s.links k).server.outbound.head?.bind ProtocolEnvelope.event?

/-- The connection is neither replaced nor terminated, and no subscription gets
more events than its channel or its place among the early events holds. -/
def inScope (s : State) : Action → Bool
  | .establish _ => false
  | .terminate _ _ _ => false
  | .read k => (s.nextEvent k).all fun event => s.hasRoom event.subscriptionId
  | _ => true

/-- An event for `id` has a place in the order: nothing is left to replay for the
subscription that would get it, or the early events have a place for its id. -/
def findsPlace (s : State) (id : SubscriptionId) : Bool :=
  match s.inner.dispatch.subscriptions[id]? with
  | some h => (s.handles h).all fun x => !x.isOpen || x.early.isEmpty
  | none => s.inner.dispatch.earlyEvents.contains id ||
      s.inner.dispatch.earlyEvents.size < earlySubscriptionLimit

/-- An event for `id` finds its place, or comes too late for a subscription that
has been closed. -/
def KeepsOrder (s : State) (id : SubscriptionId) : Prop :=
  s.findsPlace id = true ∨
    s.inner.dispatch.subscriptions[id]? = none ∧ ∃ h x, s.handles h = some x ∧ x.id = id

/-- The step keeps the order of events, and the daemon does not reuse an id. -/
def Orderly (s : State) : Action → Prop
  | .read k => ∀ event, s.nextEvent k = some event → s.KeepsOrder event.subscriptionId
  | .server k a => (s.links k).server.hasFreshId a = true
  | _ => True

/-! ## An event leaves the wire -/

/-- `server'` is `server` after the client has read `event`. -/
structure Takes (server : Server) (event : ServerEvent) (server' : Server) : Prop where
  self : server.inFlight event.subscriptionId =
    event :: server'.inFlight event.subscriptionId
  other : ∀ id, event.subscriptionId ≠ id → server.inFlight id = server'.inFlight id
  sent : ∀ id, server'.sentFor id = server.sentFor id

theorem inFlight_pop (hout : server.outbound = envelope :: rest) (id : SubscriptionId) :
    server.inFlight id =
      eventsFor id envelope.event?.toList ++ { server with outbound := rest }.inFlight id := by
  unfold Server.inFlight
  rw [hout, ← eventsFor_append]
  cases hevent : envelope.event? <;> simp [hevent]

theorem takes_pop {event : ServerEvent} (hout : server.outbound = envelope :: rest)
    (hevent : envelope.event? = some event) :
    Takes server event { server with outbound := rest } where
  self := by
    rw [inFlight_pop hout, hevent]
    simp [eventsFor]
  other := by
    intro id hne
    rw [inFlight_pop hout, hevent]
    simp [eventsFor, hne]
  sent := fun _ => rfl

variable {event : ServerEvent} {server' : Server}

theorem Takes.receiving (ht : Takes server event server') (hb : History b server)
    (hx : b.handles h = some x) (hentry : b.subscriptions[x.id]? = some h)
    (hne : event.subscriptionId ≠ x.id) (hopen : x.isOpen = true) :
    eventsOf (x.received ++ x.queue ++ x.early) ++ server'.inFlight x.id =
      server'.sentFor x.id := by
  rw [ht.sent, ← ht.other x.id hne]
  exact hb.receiving h x hx hentry hopen

theorem Takes.waiting (ht : Takes server event server') (hb : History b server)
    {id : SubscriptionId} (hnone : ∀ h x, b.handles h = some x → x.id ≠ id)
    (hne : event.subscriptionId ≠ id) :
    eventsOf (b.earlyEvents.getD id []) ++ server'.inFlight id = server'.sentFor id := by
  rw [ht.sent, ← ht.other id hne]
  exact hb.waiting id hnone

theorem Takes.prefixed (ht : Takes server event server') (hb : History b server)
    (hx : b.handles h = some x) :
    eventsOf (x.received ++ x.queue ++ x.early) <+: server'.sentFor x.id := by
  rw [ht.sent]
  exact hb.prefixed h x hx

theorem History.ignore (hb : History b server) (ht : Takes server event server')
    (hclosed : ∀ h x, b.handles h = some x → b.subscriptions[x.id]? = some h →
      x.isOpen = true → event.subscriptionId ≠ x.id)
    (hknown : ∃ h x, b.handles h = some x ∧ x.id = event.subscriptionId) :
    History b server' where
  table := hb.table
  waiting := by
    intro id hnone
    obtain ⟨h, x, hx, hid⟩ := hknown
    exact ht.waiting hb hnone fun heq => hnone h x hx (hid.trans heq)
  receiving := by
    intro h x hx hentry hopen
    exact ht.receiving hb hx hentry (hclosed h x hx hentry hopen) hopen
  prefixed := fun h x hx => ht.prefixed hb hx

theorem History.deliver (hb : History b server) (ht : Takes server event server')
    (hx : b.handles h = some x) (hid : x.id = event.subscriptionId)
    (hentry : b.subscriptions[event.subscriptionId]? = some h) (hopen : x.isOpen = true)
    (hearly : x.early = []) (k : Nat) : History { b with
      handles := Function.update b.handles h
        (some { x with queue := x.queue ++ [⟨event, k⟩] }) } server' := by
  have hfull := hb.receiving h x hx (by rw [hid]; exact hentry) hopen
  rw [hearly, List.append_nil, hid, ht.self] at hfull
  have hmoved : eventsOf (x.received ++ (x.queue ++ [⟨event, k⟩])) ++
      server'.inFlight event.subscriptionId = server'.sentFor event.subscriptionId := by
    rw [ht.sent, ← hfull, ← List.append_assoc, eventsOf_append, List.append_assoc]
    rfl
  -- every other subscription in the table has another id
  have hrest : ∀ h' (y : Handle), h' ≠ h → b.subscriptions[y.id]? = some h' →
      event.subscriptionId ≠ y.id := by
    intro h' y hne hentry' heq
    rw [← heq, hentry] at hentry'
    exact hne (Option.some.inj hentry').symm
  refine ⟨?_, ?_, ?_, ?_⟩
  · intro id h' hget
    obtain ⟨y, hy, hyid⟩ := hb.table id h' hget
    by_cases heq : h' = h
    · subst heq
      cases hy.symm.trans hx
      exact ⟨_, Function.update_self .., hyid⟩
    · exact ⟨y, (Function.update_of_ne heq ..).trans hy, hyid⟩
  · intro id hnone
    have hne : x.id ≠ id :=
      hnone h { x with queue := x.queue ++ [⟨event, k⟩] } (Function.update_self ..)
    refine ht.waiting hb ?_ (by rw [← hid]; exact hne)
    intro h' y hy
    by_cases heq : h' = h
    · subst heq
      cases hy.symm.trans hx
      exact hne
    · exact hnone h' y ((Function.update_of_ne heq ..).trans hy)
  · intro h' y hy hentry' hopen'
    rcases update_eq_some hy with ⟨rfl, rfl⟩ | ⟨hne, hold⟩
    · rw [hearly, List.append_nil]
      show _ ++ server'.inFlight x.id = server'.sentFor x.id
      rw [hid]
      exact hmoved
    · exact ht.receiving hb hold hentry' (hrest h' y hne hentry') hopen'
  · intro h' y hy
    rcases update_eq_some hy with ⟨rfl, rfl⟩ | ⟨hne, hold⟩
    · show _ <+: server'.sentFor x.id
      rw [hearly, List.append_nil, hid, ← hmoved]
      exact List.prefix_append _ _
    · exact ht.prefixed hb hold

theorem History.park (hb : History b server) (ht : Takes server event server')
    (hentry : b.subscriptions[event.subscriptionId]? = none) (k : Nat) :
    History { b with
      earlyEvents := b.earlyEvents.insert event.subscriptionId
        (b.earlyEvents.getD event.subscriptionId [] ++ [⟨event, k⟩]) } server' where
  table := hb.table
  waiting := by
    intro id hnone
    simp only [Std.TreeMap.getD_insert]
    split
    · rename_i heq
      have hid : event.subscriptionId = id := by simpa using heq
      subst hid
      rw [eventsOf_append, ht.sent, ← hb.waiting _ hnone, ht.self, List.append_assoc]
      rfl
    · rename_i hne
      exact ht.waiting hb hnone (by simpa using hne)
  receiving := by
    intro h x hx hget hopen
    refine ht.receiving hb hx hget ?_ hopen
    intro heq
    rw [← heq] at hget
    cases hentry.symm.trans hget
  prefixed := fun h x hx => ht.prefixed hb hx

theorem history_dispatchEvent {s : State} (hb : History s.board server)
    (ht : Takes server event server') (hroom : s.hasRoom event.subscriptionId = true)
    (hkeeps : s.KeepsOrder event.subscriptionId) (k : Nat) :
    History (s.dispatchEvent ⟨event, k⟩).board server' := by
  unfold dispatchEvent
  unfold hasRoom at hroom
  unfold KeepsOrder findsPlace at hkeeps
  dsimp only
  cases hentry : s.inner.dispatch.subscriptions[event.subscriptionId]? with
  | some h =>
    simp only [hentry] at hroom hkeeps ⊢
    obtain ⟨x, hx, hid⟩ := hb.table _ _ hentry
    change s.handles h = some x at hx
    have hlen : x.queue.length < subscriptionQueueCapacity := by simpa [hx] using hroom
    unfold trySendEvent
    rw [hx]
    dsimp only
    by_cases hopen : x.isOpen = true
    · have hearly : x.early = [] := by simpa [hx, hopen] using hkeeps
      rw [if_pos ⟨hopen, hlen⟩]
      exact hb.deliver ht hx hid hentry hopen hearly k
    · rw [if_neg fun hboth => hopen hboth.1]
      refine hb.ignore ht ?_ ⟨h, x, hx, hid⟩
      intro h' y hy hentry' hopen' heq
      rw [← heq] at hentry'
      cases hentry.symm.trans hentry'
      cases hy.symm.trans hx
      exact hopen hopen'
  | none =>
    simp only [hentry] at hroom hkeeps ⊢
    have hlen : (s.parked event.subscriptionId).length < earlyEventLimit := by simpa using hroom
    by_cases hplace : s.inner.dispatch.earlyEvents.contains event.subscriptionId = true ∨
        s.inner.dispatch.earlyEvents.size < earlySubscriptionLimit
    · rw [if_pos ⟨hplace, hlen⟩]
      exact hb.park ht hentry k
    · rw [if_neg fun hboth => hplace hboth.1]
      have hknown : ∃ h x, s.handles h = some x ∧ x.id = event.subscriptionId := by
        rcases hkeeps with hplace' | hknown
        · exact absurd (by simpa using hplace') hplace
        · exact hknown.2
      refine hb.ignore ht ?_ hknown
      intro h y hy hentry' hopen heq
      rw [← heq] at hentry'
      cases hentry.symm.trans hentry'

/-! ## Subscription ids are in one place -/

/-- Who has a subscription id. -/
inductive Holder where
  | frame
  | call (call : Nat)
  | handle (handle : Nat)

def subscribedIds (frames : List ProtocolEnvelope) : List SubscriptionId :=
  frames.filterMap fun e =>
    match e.body with
    | .subscribed id _ => some id
    | _ => none

/-- On connection 0, the only one, every subscription id that was issued is in one
place, recorded in `holder`. -/
structure Tokens (s : State) (holder : SubscriptionId → Option Holder) : Prop where
  others : ∀ k, k ≠ 0 → (s.ports k).opened = false ∧ (s.ports k).reader = .idle
  numbered : (s.ports 0).server.Numbered
  unissued : ∀ id, (s.ports 0).server.accepted < id → holder id = none
  once : (subscribedIds (s.ports 0).server.outbound).Nodup
  frames : ∀ id ∈ subscribedIds (s.ports 0).server.outbound, holder id = some .frame
  answers : ∀ c id serial k, Answered s c ⟨.subscribed id serial, k⟩ →
    k = 0 ∧ holder id = some (.call c)
  handles : ∀ h id serial k, s.identities h = some (id, serial, k) →
    k = 0 ∧ holder id = some (.handle h)

variable {s s' : State} {holder : SubscriptionId → Option Holder}

theorem Tokens.quiet (hs : Tokens s holder) (hports : s'.ports = s.ports)
    (hids : s'.identities = s.identities)
    (hanswers : ∀ c r, Answered s' c r → Answered s c r) : Tokens s' holder where
  others := by
    rw [hports]
    exact hs.others
  numbered := by
    rw [hports]
    exact hs.numbered
  unissued := by
    rw [hports]
    exact hs.unissued
  once := by
    rw [hports]
    exact hs.once
  frames := by
    rw [hports]
    exact hs.frames
  answers := fun c id serial k ha => hs.answers c id serial k (hanswers c _ ha)
  handles := by
    rw [hids]
    exact hs.handles

theorem Tokens.no_handle (hs : Tokens s holder) {id serial : Nat}
    (ha : Answered s c ⟨.subscribed id serial, k⟩) (hx : s.handles h = some x) : x.id ≠ id := by
  intro heq
  have hcall := (hs.answers c id serial k ha).2
  have hhandle := (hs.handles h x.id x.serial x.acceptedOn (identity_of_handle hx)).2
  rw [heq, hcall] at hhandle
  cases hhandle

theorem update_holder {id id' : SubscriptionId} {o : Option Holder} {p : Holder}
    (hid : holder id = o) (hid' : holder id' = some p) (hne : o ≠ some p) (q : Holder) :
    Function.update holder id (some q) id' = some p := by
  have hne' : id' ≠ id := by
    rintro rfl
    exact hne (hid.symm.trans hid')
  rw [Function.update_of_ne hne']
  exact hid'

/-- `subscribe` turns its answer into a subscription. -/
theorem Tokens.insert (hs : Tokens s holder) {call : Call} {id serial : Nat}
    (hcall : s.calls c = some call) (hlive : isLive call.phase = true)
    (hreply : call.reply = some (.ok ⟨.subscribed id serial, k⟩)) (hports : s'.ports = s.ports)
    (hcalls : s'.calls = (s.setPhase c call .done).calls)
    (hids : s'.identities = Function.update s.identities h (some (id, serial, k))) :
    Tokens s' (Function.update holder id (some (.handle h))) := by
  obtain ⟨hk, hholder⟩ := hs.answers c id serial k ⟨call, hcall, hlive, hreply⟩
  refine ⟨?_, ?_, ?_, ?_, ?_, ?_, ?_⟩
  · rw [hports]
    exact hs.others
  · rw [hports]
    exact hs.numbered
  · rw [hports]
    intro id' hid'
    have hnone := hs.unissued id' hid'
    have hne : id' ≠ id := by
      rintro rfl
      cases hholder.symm.trans hnone
    rw [Function.update_of_ne hne]
    exact hnone
  · rw [hports]
    exact hs.once
  · rw [hports]
    intro id' hid'
    exact update_holder hholder (hs.frames id' hid') (by rintro ⟨⟩) _
  · intro j id' serial' k' ha
    have hj : j ≠ c := by
      rintro rfl
      obtain ⟨call', hcall', hlive', -⟩ := ha
      rw [hcalls] at hcall'
      rcases update_eq_some hcall' with ⟨-, rfl⟩ | ⟨hne, -⟩
      · cases hlive'
      · exact hne rfl
    have hold : Answered s j ⟨.subscribed id' serial', k'⟩ :=
      answered_setPhase rfl hcall (fun hlive' => by cases hlive') (answered_of_calls hcalls ha)
    obtain ⟨hk', hholder'⟩ := hs.answers j id' serial' k' hold
    refine ⟨hk', update_holder hholder hholder' ?_ _⟩
    intro heq
    cases heq
    exact hj rfl
  · intro h' id' serial' k' hid'
    rw [hids] at hid'
    rcases update_eq_some hid' with ⟨rfl, heq⟩ | ⟨hne, hold⟩
    · cases heq
      exact ⟨hk, Function.update_self ..⟩
    · obtain ⟨hk', hholder'⟩ := hs.handles h' id' serial' k' hold
      exact ⟨hk', update_holder hholder hholder' (by rintro ⟨⟩) _⟩

/-- The reader hands a `Subscribed` frame to the call that waits for it. -/
theorem Tokens.pop (hs : Tokens s holder) (hout : (s.ports 0).server.outbound = envelope :: rest)
    (hothers : ∀ k, k ≠ 0 → (s'.ports k).opened = (s.ports k).opened ∧
      (s'.ports k).reader = (s.ports k).reader)
    (hserver : (s'.ports 0).server = { (s.ports 0).server with outbound := rest })
    (hids : s'.identities = s.identities)
    (hanswers : ∃ c, ∀ j id serial k, Answered s' j ⟨.subscribed id serial, k⟩ →
      Answered s j ⟨.subscribed id serial, k⟩ ∨
        (j = c ∧ k = 0 ∧ envelope.body = .subscribed id serial)) :
    ∃ holder', Tokens s' holder' := by
  obtain ⟨c, hanswers⟩ := hanswers
  have hothers' : ∀ k, k ≠ 0 → (s'.ports k).opened = false ∧ (s'.ports k).reader = .idle := by
    intro k hk
    rw [(hothers k hk).1, (hothers k hk).2]
    exact hs.others k hk
  have hnumbered : (s'.ports 0).server.Numbered := by
    rw [hserver]
    have hnum := hs.numbered
    refine ⟨hnum.next, hnum.live, hnum.tasks, hnum.terminals, ?_⟩
    intro e he
    exact hnum.subscribed e (by rw [hout]; exact List.mem_cons_of_mem _ he)
  have hunissued : ∀ id, (s'.ports 0).server.accepted < id → holder id = none := by
    rw [hserver]
    exact hs.unissued
  have hrest : (s'.ports 0).server.outbound = rest := by rw [hserver]
  have honce := hs.once
  have hframes := hs.frames
  rw [hout] at honce hframes
  by_cases hsub : ∃ id serial, envelope.body = .subscribed id serial
  · obtain ⟨id, serial, hbody⟩ := hsub
    have hids' : subscribedIds (envelope :: rest) = id :: subscribedIds rest := by
      simp [subscribedIds, hbody]
    rw [hids'] at honce hframes
    -- the id moves from the frame to the call that has read it
    have hframe : holder id = some .frame := hframes id (by simp)
    refine ⟨Function.update holder id (some (.call c)), hothers', hnumbered, ?_, ?_, ?_, ?_, ?_⟩
    · intro id' hid'
      have hnone := hunissued id' hid'
      have hne : id' ≠ id := by
        rintro rfl
        cases hframe.symm.trans hnone
      rw [Function.update_of_ne hne]
      exact hnone
    · rw [hrest]
      exact (List.nodup_cons.mp honce).2
    · intro id' hid'
      rw [hrest] at hid'
      have hne : id' ≠ id := by
        rintro rfl
        exact (List.nodup_cons.mp honce).1 hid'
      rw [Function.update_of_ne hne]
      exact hframes id' (List.mem_cons_of_mem _ hid')
    · intro j id' serial' k ha
      rcases hanswers j id' serial' k ha with hold | ⟨rfl, hk, hbody'⟩
      · obtain ⟨hk, hholder⟩ := hs.answers j id' serial' k hold
        exact ⟨hk, update_holder hframe hholder (by rintro ⟨⟩) _⟩
      · cases hbody.symm.trans hbody'
        exact ⟨hk, Function.update_self ..⟩
    · intro h id' serial' k hid'
      rw [hids] at hid'
      obtain ⟨hk, hholder⟩ := hs.handles h id' serial' k hid'
      exact ⟨hk, update_holder hframe hholder (by rintro ⟨⟩) _⟩
  -- any other frame carries no id, so nothing moves
  · have hids' : subscribedIds (envelope :: rest) = subscribedIds rest := by
      unfold subscribedIds
      rw [List.filterMap_cons_none]
      split
      · rename_i id serial hbody
        exact absurd ⟨id, serial, hbody⟩ hsub
      · rfl
    rw [hids'] at honce hframes
    refine ⟨holder, hothers', hnumbered, hunissued, ?_, ?_, ?_, ?_⟩
    · rw [hrest]
      exact honce
    · rw [hrest]
      exact hframes
    · intro j id serial k ha
      rcases hanswers j id serial k ha with hold | ⟨-, -, hbody⟩
      · exact hs.answers j id serial k hold
      · exact absurd ⟨id, serial, hbody⟩ hsub
    · rw [hids]
      exact hs.handles

theorem Tokens.emits (hs : Tokens s holder)
    (hothers : ∀ k, k ≠ 0 → (s'.ports k).opened = (s.ports k).opened ∧
      (s'.ports k).reader = (s.ports k).reader)
    (hnumbered : (s'.ports 0).server.Numbered)
    (hemits : (s.ports 0).server.Emits (s'.ports 0).server)
    (hids : s'.identities = s.identities) (hcalls : s'.calls = s.calls) :
    ∃ holder', Tokens s' holder' := by
  have hothers' : ∀ k, k ≠ 0 → (s'.ports k).opened = false ∧ (s'.ports k).reader = .idle := by
    intro k hk
    rw [(hothers k hk).1, (hothers k hk).2]
    exact hs.others k hk
  have hanswers : ∀ c id serial k, Answered s' c ⟨.subscribed id serial, k⟩ →
      k = 0 ∧ holder id = some (.call c) := by
    intro c id serial k ha
    exact hs.answers c id serial k (answered_of_calls hcalls ha)
  have hhandles : ∀ h id serial k, s'.identities h = some (id, serial, k) →
      k = 0 ∧ holder id = some (.handle h) := by
    rw [hids]
    exact hs.handles
  cases hemits with
  | frames new hout hsent hplain haccepted =>
    have hids' : subscribedIds (s'.ports 0).server.outbound =
        subscribedIds (s.ports 0).server.outbound := by
      rw [hout, subscribedIds, List.filterMap_append]
      have hnone : new.filterMap (fun e => match e.body with
          | .subscribed id _ => some id
          | _ => none) = [] := by
        rw [List.filterMap_eq_nil_iff]
        intro e he
        split
        · rename_i id serial hbody
          exact absurd hbody (hplain e he id serial)
        · rfl
      rw [hnone, List.append_nil]
      rfl
    refine ⟨holder, hothers', hnumbered, ?_, ?_, ?_, hanswers, hhandles⟩
    · rw [haccepted]
      exact hs.unissued
    · rw [hids']
      exact hs.once
    · rw [hids']
      exact hs.frames
  | accepted requestId hout hsent haccepted =>
    -- the new id is past all that were given out, so nobody holds it
    have hfree : (s.ports 0).server.freeId = (s.ports 0).server.accepted + 1 :=
      hs.numbered.freeId_eq
    have hnew : holder (s.ports 0).server.freeId = none :=
      hs.unissued _ (by rw [hfree]; exact Nat.lt_succ_self _)
    have hids' : subscribedIds (s'.ports 0).server.outbound =
        subscribedIds (s.ports 0).server.outbound ++ [(s.ports 0).server.freeId] := by
      rw [hout, subscribedIds, List.filterMap_append]
      rfl
    refine ⟨Function.update holder (s.ports 0).server.freeId (some .frame), hothers',
      hnumbered, ?_, ?_, ?_, ?_, ?_⟩
    · intro id hid
      rw [haccepted] at hid
      have hne : id ≠ (s.ports 0).server.freeId := by
        rw [hfree]
        exact Nat.ne_of_gt hid
      rw [Function.update_of_ne hne]
      exact hs.unissued id (Nat.lt_of_succ_lt hid)
    · rw [hids', List.nodup_append]
      refine ⟨hs.once, by simp, ?_⟩
      intro id hid id' hid' heq
      rw [List.mem_singleton] at hid'
      subst heq hid'
      cases (hs.frames _ hid).symm.trans hnew
    · intro id hid
      rw [hids', List.mem_append, List.mem_singleton] at hid
      rcases hid with hold | rfl
      · exact update_holder hnew (hs.frames id hold) (by rintro ⟨⟩) _
      · exact Function.update_self ..
    · intro c id serial k ha
      obtain ⟨hk, hholder⟩ := hanswers c id serial k ha
      exact ⟨hk, update_holder hnew hholder (by rintro ⟨⟩) _⟩
    · intro h id serial k hid
      obtain ⟨hk, hholder⟩ := hhandles h id serial k hid
      exact ⟨hk, update_holder hnew hholder (by rintro ⟨⟩) _⟩

/-! ## One step -/

structure Ordered (s : State) : Prop where
  tokens : ∃ holder, Tokens s holder
  history : History s.board (s.ports 0).server

theorem Ordered.quiet (hs : Ordered s) (hports : s'.ports = s.ports) (hboard : s'.board = s.board)
    (hanswers : ∀ c r, Answered s' c r → Answered s c r) : Ordered s' := by
  obtain ⟨holder, htokens⟩ := hs.tokens
  refine ⟨⟨holder, htokens.quiet hports (identities_of_board hboard) hanswers⟩, ?_⟩
  rw [hports, hboard]
  exact hs.history

theorem ports_of_links {t : State} (h : t.links = s.links) : t.ports = s.ports := by
  funext k
  rw [ports, ports, h]

theorem ports_pop_other (s : State) (rest : List ProtocolEnvelope) (hk : k ≠ 0) :
    (s.pop 0 rest).ports k = s.ports k :=
  ports_setLink_ne s _ hk

theorem server_pop (s : State) (rest : List ProtocolEnvelope) :
    ((s.pop 0 rest).ports 0).server = { (s.ports 0).server with outbound := rest } :=
  congrArg Ports.server (ports_setLink_self s 0 _)

theorem ordered_read (hs : Ordered s) (hscope : s.inScope (.read k) = true)
    (horder : s.Orderly (.read k)) (h : s.read k = some s') : Ordered s' := by
  obtain ⟨holder, htokens⟩ := hs.tokens
  obtain ⟨envelope, rest, hout, hreader, hread⟩ := read_inv h
  -- every other connection is idle, so the first one reads
  have hk : k = 0 := by
    by_contra hne
    have hidle : (s.links k).reader = .idle := (htokens.others k hne).2
    rw [hidle] at hreader
    cases hreader
  subst hk
  have hids := identities_read h
  have hpopped : ∀ k, k ≠ 0 → ((s.pop 0 rest).ports k).opened = (s.ports k).opened ∧
      ((s.pop 0 rest).ports k).reader = (s.ports k).reader := by
    intro k hk
    rw [ports_pop_other s rest hk]
    exact ⟨rfl, rfl⟩
  -- a frame that is no event leaves the history of the board alone
  have hsilent : envelope.event? = none →
      History s.board { (s.ports 0).server with outbound := rest } := by
    intro hevent
    refine hs.history.congr ?_ rfl
    intro id
    have hpop := inFlight_pop hout id
    rw [hevent] at hpop
    exact hpop.symm
  cases hread with
  | @event event hbody =>
    have hevent : envelope.event? = some event := by simp [ProtocolEnvelope.event?, hbody]
    have hnext : s.nextEvent 0 = some event := by simp [nextEvent, hout, hevent]
    have hports := ports_of_links (links_dispatchEvent (s.pop 0 rest) ⟨event, 0⟩)
    have hcalls := calls_dispatchEvent (s.pop 0 rest) ⟨event, 0⟩
    refine ⟨?_, ?_⟩
    · refine htokens.pop hout ?_ ?_ hids ⟨0, ?_⟩
      · rw [hports]
        exact hpopped
      · rw [hports]
        exact server_pop s rest
      · intro j id serial k ha
        exact .inl (answered_of_calls hcalls ha)
    · rw [hports, server_pop]
      have hroom : s.hasRoom event.subscriptionId = true := by
        simpa [inScope, hnext] using hscope
      exact history_dispatchEvent (s := s.pop 0 rest) hs.history (takes_pop hout hevent) hroom
        (horder event hnext) 0
  | @answer reply hevent hreply =>
    have hports := ports_of_links
      (links_dispatchPending (s.pop 0 rest) envelope.requestId reply)
    refine ⟨?_, ?_⟩
    · refine htokens.pop hout ?_ ?_ hids
        ⟨((s.pop 0 rest).inner.dispatch.pending[envelope.requestId]?).getD 0, ?_⟩
      · rw [hports]
        exact hpopped
      · rw [hports]
        exact server_pop s rest
      · intro j id serial k ha
        have hcalls : (s.pop 0 rest).calls = s.calls := rfl
        rcases answered_dispatchPending hcalls ha with hold | ⟨heq, hpending⟩
        · exact .inl hold
        · obtain ⟨hk, hbody⟩ := hreply id serial k heq
          exact .inr ⟨by rw [hpending]; rfl, hk, hbody⟩
    · rw [hports, server_pop, board_dispatchPending]
      exact hsilent hevent
  | unexpected hevent hterm =>
    cases terminate_inv hterm with
    | check phase =>
      have hserver : (((s.pop 0 rest).setLink 0
          (((s.pop 0 rest).links 0).setPhase .reader phase)).ports 0).server =
            { (s.ports 0).server with outbound := rest } := by
        rw [ports_setLink_self]
        exact server_pop s rest
      refine ⟨?_, ?_⟩
      · refine htokens.pop hout ?_ hserver hids ⟨0, fun j id serial k ha => .inl ha⟩
        intro k hk
        rw [ports_setLink_ne _ _ hk]
        exact hpopped k hk
      · rw [hserver]
        exact hsilent hevent

theorem ordered_write (hs : Ordered s) (h : s.write k = some s') : Ordered s' := by
  obtain ⟨holder, htokens⟩ := hs.tokens
  have hboard := board_write h
  unfold write at h
  split at h
  · rename_i envelope rest hwriter hqueue
    have hlinks : ∀ j, (s'.ports j).opened = (s.ports j).opened ∧
        (s'.ports j).reader = (s.ports j).reader ∧
        ∃ inbound, (s'.ports j).server = { (s.ports j).server with inbound := inbound } := by
      cases h
      intro j
      by_cases hj : j = k
      · subst hj
        rw [ports_setLink_self]
        exact ⟨rfl, rfl, _, rfl⟩
      · rw [ports_setLink_ne s _ hj]
        exact ⟨rfl, rfl, (s.links j).server.inbound, rfl⟩
    have hcalls : s'.calls = s.calls := by
      cases h
      rfl
    obtain ⟨-, -, inbound, hserver⟩ := hlinks 0
    have hnum := htokens.numbered
    refine ⟨htokens.emits ?_ ?_ ?_ (identities_of_board hboard) hcalls, ?_⟩
    · intro j hj
      exact ⟨(hlinks j).1, (hlinks j).2.1⟩
    · rw [hserver]
      exact { hnum with }
    · rw [hserver]
      exact .nothing rfl rfl rfl
    · rw [hserver, hboard]
      exact hs.history.congr (fun id => rfl) rfl
  · cases h

theorem ordered_server {a : Server.Action} (hs : Ordered s)
    (hfresh : (s.links k).server.hasFreshId a = true) (h : s.stepServer k a = some s') :
    Ordered s' := by
  obtain ⟨holder, htokens⟩ := hs.tokens
  have hboard := board_stepServer h
  unfold stepServer at h
  split at h
  · rename_i hopened
    have hk : k = 0 := by
      by_contra hne
      have hclosed : (s.links k).opened = false := (htokens.others k hne).1
      rw [hclosed] at hopened
      cases hopened
    subst hk
    obtain ⟨server, hstep, rfl⟩ := Option.map_eq_some_iff.mp h
    have hserver : ((s.setLink 0 { s.links 0 with server := server }).ports 0).server = server := by
      rw [ports_setLink_self]
    have hemits : (s.ports 0).server.Emits server := Server.emits_step hstep
    refine ⟨htokens.emits ?_ ?_ ?_ (identities_of_board hboard) rfl, ?_⟩
    · intro j hj
      rw [ports_setLink_ne s _ hj]
      exact ⟨rfl, rfl⟩
    · rw [hserver]
      exact Server.numbered_step htokens.numbered hfresh hstep
    · rw [hserver]
      exact hemits
    · rw [hserver, hboard]
      exact hs.history.emits hemits
  · cases h

theorem ordered_insert (hs : Ordered s) (hstep : s.insertSubscription c h = some s') :
    Ordered s' := by
  obtain ⟨holder, htokens⟩ := hs.tokens
  obtain ⟨call, terminal, id, serial, k, hcall, hnone, hphase, hreply, rfl⟩ := insert_inv hstep
  have hlive : isLive call.phase = true := by rw [hphase]; rfl
  refine ⟨⟨Function.update holder id (some (.handle h)),
    htokens.insert hcall hlive hreply rfl rfl ?_⟩, ?_⟩
  · funext key
    by_cases hkey : key = h
    · subst hkey
      rw [Function.update_self, identities]
      simp [setHandle]
    · rw [Function.update_of_ne hkey, identities, identities]
      simp [setHandle, setPhase, setCall, hkey]
  · exact History.insert (x := ⟨id, serial, k, s.parked id, [], [], .replaying,
      if terminal then .connecting else .none⟩) hs.history hnone
      (fun h' y hy => htokens.no_handle ⟨call, hcall, hlive, hreply⟩ hy) rfl rfl rfl s.owner

theorem history_handle {a : HandleAction} (hb : History s.board server) (hx : s.handles h = some x)
    (hs : HandleStep s h x a s') : History s'.board server := by
  cases hs with
  | replay hphase hearly hroom =>
    refine hb.move hx rfl ?_ (fun hopen => hopen)
    simp [hearly]
  | abandon hphase => exact hb.move hx rfl rfl (fun hopen => by cases hopen)
  | returned hphase hearly =>
    exact hb.move hx rfl rfl (fun _ => by rw [Handle.isOpen, hphase])
  | recv hphase hqueue =>
    refine hb.move hx rfl ?_ (fun hopen => hopen)
    simp [hqueue]
  | unsubscribe hphase | drop hphase =>
    exact (hb.erase x.id).move hx rfl rfl (fun hopen => by cases hopen)
  | request hphase hreg =>
    rw [board_register hreg]
    exact hb.move hx rfl rfl (fun hopen => by cases hopen)
  | sendUnsubscribe hphase =>
    have hboard := board_trySendCurrent s.takeRequestId
      ⟨s.requestId, .unsubscribe x.id, some h⟩
    have hsent : History (s.takeRequestId.trySendCurrent
        ⟨s.requestId, .unsubscribe x.id, some h⟩).board server := by
      rw [hboard]
      exact hb
    have hx' : (s.takeRequestId.trySendCurrent
        ⟨s.requestId, .unsubscribe x.id, some h⟩).handles h = some x :=
      (congrFun (congrArg Board.handles hboard) h).trans hx
    exact hsent.move hx' rfl rfl (fun hopen => by cases hopen)

theorem ordered_step {a : Action} (hs : Ordered s) (hscope : s.inScope a = true)
    (horder : s.Orderly a) (h : s.step a = some s') : Ordered s' := by
  cases a with
  | establish a => cases hscope
  | terminate k t a => cases hscope
  | read k => exact ordered_read hs hscope horder h
  | write k => exact ordered_write hs h
  | start c a =>
    obtain ⟨purpose, body, -, hreg⟩ := start_inv h
    exact hs.quiet (ports_register hreg) (board_register hreg)
      fun j r ha => answered_register rfl hreg ha
  | call c a =>
    obtain ⟨call, hcall, hstep⟩ := stepCall_inv h
    exact hs.quiet (ports_callStep hstep) (board_callStep hstep)
      fun j r ha => answered_callStep hcall hstep ha
  | insert c key => exact ordered_insert hs h
  | handle key a =>
    obtain ⟨x, hx, hstep⟩ := stepHandle_inv h
    obtain ⟨holder, htokens⟩ := hs.tokens
    refine ⟨⟨holder, htokens.quiet (ports_handleStep hstep) (hstep.identities hx)
      fun j r ha => answered_handleStep hstep ha⟩, ?_⟩
    rw [ports_handleStep hstep]
    exact history_handle hs.history hx hstep
  | server k a => exact ordered_server hs horder h

theorem ordered_connected : Ordered connected where
  tokens := by
    refine ⟨fun _ => none, ?_, ?_, ?_, ?_, ?_, ?_, ?_⟩
    · intro k hk
      simp [ports, connected, hk, Link.unopened]
    · exact Server.numbered_new
    · exact fun id hid => rfl
    · exact List.nodup_nil
    · intro id hid
      cases hid
    · rintro c id serial k ⟨call, hcall, -⟩
      cases hcall
    · intro h id serial k hid
      cases hid
  history := by
    refine ⟨?_, ?_, ?_, ?_⟩
    · intro id h hget
      simp [board, connected] at hget
    · intro id hnone
      simp [board, connected, ports, eventsOf, Server.inFlight, Server.sentFor, eventsFor,
        Server.new]
    · intro h x hx
      cases hx
    · intro h x hx
      cases hx

/-! ## The main result -/

/-- **Delivery order.** In every state of a run on one connection that stays
within the limits and keeps the order, what a `Subscription` has received is a
prefix of what the daemon sent for its id on that connection. -/
theorem received_is_prefix {s : State}
    (h : oneConnection.Reach (fun s a => s.inScope a = true ∧ s.Orderly a) s) {key : Nat}
    {x : Handle} (hx : s.handles key = some x) :
    eventsOf x.received <+: (s.links x.acceptedOn).server.sentFor x.id := by
  have hs : Ordered s := by
    refine h.invariant (I := Ordered) ?_ ?_
    · rintro _ rfl
      exact ordered_connected
    · intro s a s' hs hok hstep
      exact ordered_step hs hok.1 hok.2 hstep
  obtain ⟨holder, htokens⟩ := hs.tokens
  have hon : x.acceptedOn = 0 := (htokens.handles key _ _ _ (identity_of_handle hx)).1
  rw [hon]
  refine List.IsPrefix.trans ?_ (hs.history.prefixed key x hx)
  rw [eventsOf_append, eventsOf_append, List.append_assoc]
  exact List.prefix_append _ _

/-! ## Runs in and out of order -/

/-- `subscribe`, up to the point where the daemon has accepted it. -/
def askFor (c : Nat) : List Action :=
  [.start c (.subscribe .daemonStatus), .call c .takeWriter, .call c .send, .write 0,
    .server 0 (.serve c true)]

/-- `subscribe` from its answer to the section that enters the subscription. -/
def enter (c : Nat) : List Action :=
  [.call c .answer, .call c .removePending, .insert c c]

def send (serial : Nat) (bytes : List UInt8) : Action := .server 0 (.task serial (.item bytes true))

/-- The first event is parked, the second one arrives between the section that
enters the subscription and the replay. -/
def overtaking : List Action :=
  askFor 0 ++ [send 0 [1], send 0 [2], .read 0, .read 0] ++ enter 0 ++
    [Action.read 0, .handle 0 .replay, .handle 0 .return, .handle 0 .recv, .handle 0 .recv]

/-- A subscription that is closed while an event is on its way, so that the event
is parked under an id nobody will ask for again. -/
def leaveBehind (c : Nat) : List Action :=
  askFor c ++ [Action.read 0] ++ enter c ++
    [Action.handle c .return, send c [1], .handle c .unsubscribe, .read 0,
      .handle c (.request (c + 100)), .call (c + 100) .takeWriter, .call (c + 100) .send, .write 0,
      .server 0 (.serve 0 true), .server 0 (.serveClosing true), .read 0,
      .call (c + 100) .answer, .call (c + 100) .removePending]

/-- After 32 such subscriptions the next one has no place for its early event. -/
def fullTable : List Action :=
  ((List.range 32).map leaveBehind).flatten ++ askFor 32 ++
    [send 32 [1], send 32 [2], .read 0, .read 0] ++ enter 32 ++
    [Action.handle 32 .return, .read 0, .handle 32 .recv]

/-- Two runs within all limits. In the first the two events of a subscription are
received in the wrong order, in the second the first of two events is lost. -/
theorem replay_overtaken_and_table_full :
    (∃ s x, oneConnection.Reach (fun s a => s.inScope a = true) s ∧ s.handles 0 = some x ∧
      eventsOf x.received = [.update 1 [2], .update 1 [1]] ∧
      (s.links x.acceptedOn).server.sentFor x.id = [.update 1 [1], .update 1 [2]] ∧
      ¬ eventsOf x.received <+: (s.links x.acceptedOn).server.sentFor x.id) ∧
    (∃ s x, oneConnection.Reach (fun s a => s.inScope a = true) s ∧ s.handles 32 = some x ∧
      eventsOf x.received = [.update 33 [2]] ∧
      (s.links x.acceptedOn).server.sentFor x.id = [.update 33 [1], .update 33 [2]] ∧
      ¬ eventsOf x.received <+: (s.links x.acceptedOn).server.sentFor x.id) := by
  let x : Handle := ⟨1, 0, 0, [], [], [⟨.update 1 [2], 0⟩, ⟨.update 1 [1], 0⟩], .held, .none⟩
  let y : Handle := ⟨33, 32, 0, [], [], [⟨.update 33 [2], 0⟩], .held, .none⟩
  have hovertaking : (oneConnection.exec connected overtaking).map (fun s =>
      decide (s.handles 0 = some x ∧
        (s.links 0).server.sentFor 1 = [.update 1 [1], .update 1 [2]])) = some true := by
    decide +kernel
  have hfull : (oneConnection.exec connected fullTable).map (fun s =>
      decide (s.handles 32 = some y ∧
        (s.links 0).server.sentFor 33 = [.update 33 [1], .update 33 [2]])) = some true := by
    decide +kernel
  have hscope : oneConnection.AllSteps (fun s a => s.inScope a = true) connected overtaking := by
    decide +kernel
  have hscope' : oneConnection.AllSteps (fun s a => s.inScope a = true) connected fullTable := by
    decide +kernel
  constructor
  · obtain ⟨s, hs, hfacts⟩ := Option.map_eq_some_iff.mp hovertaking
    obtain ⟨hx, hsent⟩ := of_decide_eq_true hfacts
    refine ⟨s, x, Machine.reach_of_exec (.init rfl) hscope hs, hx, rfl, hsent, ?_⟩
    rw [show (s.links x.acceptedOn).server.sentFor x.id = _ from hsent]
    decide
  · obtain ⟨s, hs, hfacts⟩ := Option.map_eq_some_iff.mp hfull
    obtain ⟨hy, hsent⟩ := of_decide_eq_true hfacts
    refine ⟨s, y, Machine.reach_of_exec (.init rfl) hscope' hs, hy, rfl, hsent, ?_⟩
    rw [show (s.links y.acceptedOn).server.sentFor y.id = _ from hsent]
    decide

/-- One event is parked and replayed before the next one comes. -/
def inTurn : List Action :=
  askFor 0 ++ [send 0 [1], .read 0, .read 0] ++ enter 0 ++
    [Action.handle 0 .replay, .handle 0 .return, send 0 [2], send 0 [3], .read 0, .handle 0 .recv,
      .handle 0 .recv]

/-- The result at the end of such a run. -/
theorem replayed_in_turn :
    ∃ s x, oneConnection.exec connected inTurn = some s ∧ s.handles 0 = some x ∧
      eventsOf x.received = [.update 1 [1], .update 1 [2]] ∧
      eventsOf x.received <+: (s.links x.acceptedOn).server.sentFor x.id := by
  let x : Handle := ⟨1, 0, 0, [], [], [⟨.update 1 [1], 0⟩, ⟨.update 1 [2], 0⟩], .held, .none⟩
  have hrun : (oneConnection.exec connected inTurn).map (fun s => s.handles 0) =
      some (some x) := by
    decide +kernel
  -- every event of this run finds its place, which can be checked
  have hsteps : oneConnection.AllSteps (fun s a => s.inScope a = true ∧
      (match a with
      | .read k => (s.nextEvent k).all fun event => s.findsPlace event.subscriptionId
      | .server k a => (s.links k).server.hasFreshId a
      | _ => true) = true) connected inTurn := by
    decide +kernel
  obtain ⟨s, hs, hx⟩ := Option.map_eq_some_iff.mp hrun
  refine ⟨s, x, hs, hx, rfl, received_is_prefix (Machine.reach_of_exec (.init rfl) ?_ hs) hx⟩
  refine hsteps.imp ?_
  rintro s a ⟨hscope, horder⟩
  refine ⟨hscope, ?_⟩
  cases a with
  | read k =>
    intro event hnext
    left
    simpa [hnext] using horder
  | server k a => exact horder
  | _ => trivial

end State

end TuxStack.Ipc
