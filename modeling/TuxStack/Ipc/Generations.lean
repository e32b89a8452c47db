import TuxStack.Ipc.System

/-!
# Generations stay apart

Every connection numbers its subscriptions from 1, a `Subscription` keeps only
that number, and the dispatch tables are keyed by it. The tables are emptied when
a connection is replaced, so they hold one connection's subscriptions at a time;
what can mix generations are steps that act for a connection whose tables are
gone: its reader handing over a late event, a `subscribe` that enters an answer
it got before the replacement, and the closing of an old `Subscription`.

`generations_isolated` shows that nothing else does: in runs without such steps
events stay on their connection and closing a subscription touches no other
connection's.
-/

namespace TuxStack.Ipc

open Runs

namespace State

/-! ## Closing a subscription -/

/-- The subscription on whose `unsubscribe` or `Drop` a step works, when that step
removes a dispatch entry or sends an `Unsubscribe`. -/
def closes (s : State) : Action → Option Handle
  | .handle h .unsubscribe => s.handles h
  | .handle h .drop => s.handles h
  | .handle h .sendUnsubscribe => s.handles h
  | .call c .send =>
    match s.calls c with
    | some ⟨_, _, .unsubscribe h, _, _⟩ => s.handles h
    | _ => none
  | _ => none

/-- A step that closes `x` spares the subscriptions of other connections: their
dispatch entries stay, and nothing is sent where one with the id of `x` is live. -/
structure Spares (s s' : State) (x : Handle) : Prop where
  entries : ∀ h y, s.handles h = some y → y.acceptedOn ≠ x.acceptedOn →
    s.inner.dispatch.subscriptions[y.id]? = some h →
      s'.inner.dispatch.subscriptions[y.id]? = some h
  frames : ∀ k, k ≠ x.acceptedOn → (s.links k).server.subscriptions.contains x.id = true →
    (s'.links k).writerQueue = (s.links k).writerQueue

/-! ## Steps for the current generation -/

def reaches (s : State) (k : Nat) : Bool := s.inner.connection.all (·.writer == k)

/-- The tables belong to the connection of `x`, or have no entry under its id. -/
def mayRemove (s : State) (x : Handle) : Bool :=
  s.owner == some x.acceptedOn || !s.inner.dispatch.subscriptions.contains x.id

/-- The step does not act for a connection that the tables no longer belong to. -/
def isCurrent (s : State) : Action → Bool
  | .read k =>
    match (s.links k).server.outbound with
    | e :: _ => e.event?.isNone || s.owner == some k
    | [] => true
  | .insert c _ =>
    match s.calls c with
    | some ⟨_, _, _, _, some (.ok reply)⟩ => s.owner == some reply.readOn
    | _ => true
  | .handle h .unsubscribe => (s.handles h).all s.mayRemove
  | .handle h .drop => (s.handles h).all s.mayRemove
  | .handle h .sendUnsubscribe => (s.handles h).all fun x => s.reaches x.acceptedOn
  | .call c .takeWriter =>
    match s.calls c with
    | some ⟨_, _, .unsubscribe h, _, _⟩ => (s.handles h).all fun x => s.reaches x.acceptedOn
    | _ => true
  | _ => true

/-! ## The board keeps to its owner -/

namespace Board

/-- Everything on the board belongs to the owner of the tables, and every
subscription has only events of its own connection. -/
structure Sound (b : Board) : Prop where
  entries : ∀ (id : SubscriptionId) (h : Nat), b.subscriptions[id]? = some h →
    ∃ x, b.handles h = some x ∧ b.owner = some x.acceptedOn
  parked : ∀ (id : SubscriptionId), ∀ e ∈ b.earlyEvents.getD id [], b.owner = some e.readOn
  delivered : ∀ h x, b.handles h = some x →
    ∀ e ∈ x.received ++ x.queue ++ x.early, e.readOn = x.acceptedOn

variable {b : Board}

theorem Sound.cleared (hb : Sound b) (o : Option Nat) : Sound ⟨∅, ∅, b.handles, o⟩ where
  entries := by
    intro id h hh
    simp at hh
  parked := by
    intro id e he
    simp at he
  delivered := hb.delivered

/-- Tables without an owner are empty, so anybody may become their owner. -/
theorem Sound.install (hb : Sound b) (hnone : b.owner = none) (o : Option Nat) :
    Sound { b with owner := o } where
  entries := by
    intro id h hh
    obtain ⟨x, -, hx⟩ := hb.entries id h hh
    rw [hnone] at hx
    cases hx
  parked := by
    intro id e he
    have hx := hb.parked id e he
    rw [hnone] at hx
    cases hx
  delivered := hb.delivered

theorem Sound.erase (hb : Sound b) (id : SubscriptionId) :
    Sound { b with subscriptions := b.subscriptions.erase id } where
  entries := by
    intro id' h hh
    simp only [Std.TreeMap.getElem?_erase] at hh
    split at hh
    · cases hh
    · exact hb.entries id' h hh
  parked := hb.parked
  delivered := hb.delivered

theorem Sound.park (hb : Sound b) {e : ReadEvent} (he : b.owner = some e.readOn)
    (id : SubscriptionId) :
    Sound { b with
      earlyEvents := b.earlyEvents.insert id (b.earlyEvents.getD id [] ++ [e]) } where
  entries := hb.entries
  parked := by
    intro id' e' he'
    simp only [Std.TreeMap.getD_insert] at he'
    split at he'
    · rcases List.mem_append.mp he' with hold | hnew
      · exact hb.parked id e' hold
      · rw [List.mem_singleton] at hnew
        subst hnew
        exact he
    · exact hb.parked id' e' he'
  delivered := hb.delivered

theorem Sound.setHandle (hb : Sound b) {h : Nat} {x y : Handle} (hx : b.handles h = some x)
    (hon : y.acceptedOn = x.acceptedOn)
    (hy : ∀ e ∈ y.received ++ y.queue ++ y.early, e.readOn = x.acceptedOn) :
    Sound { b with handles := Function.update b.handles h (some y) } where
  entries := by
    intro id h' hh'
    obtain ⟨z, hz, howner⟩ := hb.entries id h' hh'
    by_cases heq : h' = h
    · subst heq
      rw [hx] at hz
      cases hz
      exact ⟨y, Function.update_self .., by rw [hon]; exact howner⟩
    · exact ⟨z, (Function.update_of_ne heq ..).trans hz, howner⟩
  parked := hb.parked
  delivered := by
    intro h' z hz
    rcases update_eq_some hz with ⟨rfl, rfl⟩ | ⟨hne, hold⟩
    · rw [hon]
      exact hy
    · exact hb.delivered h' z hold

theorem Sound.insert (hb : Sound b) {h : Nat} {x : Handle} (hnew : b.handles h = none)
    (howner : b.owner = some x.acceptedOn) (hearly : x.early = b.earlyEvents.getD x.id [])
    (hqueue : x.queue = []) (hreceived : x.received = []) :
    Sound ⟨b.subscriptions.insert x.id h, b.earlyEvents.erase x.id,
      Function.update b.handles h (some x), b.owner⟩ where
  entries := by
    intro id h' hh'
    simp only [Std.TreeMap.getElem?_insert] at hh'
    split at hh'
    · cases hh'
      exact ⟨x, Function.update_self .., howner⟩
    · obtain ⟨z, hz, hzowner⟩ := hb.entries id h' hh'
      have hne : h' ≠ h := by
        rintro rfl
        rw [hnew] at hz
        cases hz
      exact ⟨z, (Function.update_of_ne hne ..).trans hz, hzowner⟩
  parked := by
    intro id e he
    simp only [Std.TreeMap.getD_erase] at he
    split at he
    · cases he
    · exact hb.parked id e he
  delivered := by
    intro h' z hz
    rcases update_eq_some hz with ⟨rfl, rfl⟩ | ⟨hne, hold⟩
    · intro e he
      rw [hqueue, hreceived, hearly] at he
      have hown := hb.parked _ e he
      rw [howner] at hown
      exact (Option.some.inj hown).symm
    · exact hb.delivered h' z hold

end Board

theorem sound_fresh : Board.Sound fresh.board where
  entries := by
    intro id h hh
    simp [board, fresh] at hh
  parked := by
    intro id e he
    simp [board, fresh] at he
  delivered := by
    intro h x hx
    cases hx

variable {s s' : State} {x : Handle} {h k : Nat} {a : Action}

theorem owner_of_open (h : ∀ k, s.inner.reconnectLock ≠ some (.cleared k)) :
    s.owner = s.latest := by
  unfold owner
  split
  · rename_i k hk
    exact absurd hk (h k)
  · rfl

theorem sound_establish {a : EstablishAction} (hs : s.board.Sound) (h : EstablishStep s a s') :
    s'.board.Sound := by
  cases h with
  | handshake hlock hnew | take hlock =>
    have howner : s.owner = s.latest := owner_of_open (by simp [hlock])
    have hboard : s.board = ⟨s.inner.dispatch.subscriptions, s.inner.dispatch.earlyEvents,
        s.handles, s.latest⟩ := by rw [board, howner]
    rw [hboard] at hs
    exact hs
  | clear hlock => exact hs.cleared none
  | @install k hlock =>
    have howner : s.board.owner = none := by
      show s.owner = none
      rw [owner, hlock]
    exact hs.install howner (some k)

theorem sound_terminate {t : LinkTask} {a : TerminateAction} (hs : s.board.Sound)
    (h : TerminateStep s k t a s') : s'.board.Sound := by
  cases h with
  | check phase | take => exact hs
  | clear reason => exact hs.cleared s.owner

theorem sound_setHandle (hs : s.board.Sound) {y : Handle} (hx : s.handles h = some x)
    (hon : y.acceptedOn = x.acceptedOn)
    (hy : ∀ e ∈ y.received ++ y.queue ++ y.early, e ∈ x.received ++ x.queue ++ x.early) :
    (s.setHandle h y).board.Sound :=
  hs.setHandle hx hon fun e he => hs.delivered h x hx e (hy e he)

theorem sound_trySendEvent (hs : s.board.Sound) (hx : s.handles h = some x) {e : ReadEvent}
    (he : e.readOn = x.acceptedOn) : (s.trySendEvent h e).board.Sound := by
  unfold trySendEvent
  rw [hx]
  dsimp only
  split
  · refine Board.Sound.setHandle hs hx rfl ?_
    intro e' he'
    simp only [List.mem_append, List.mem_singleton] at he'
    have hold := hs.delivered h x hx e'
    simp only [List.mem_append] at hold
    rcases he' with (hr | hq | rfl) | hearly
    · exact hold (.inl (.inl hr))
    · exact hold (.inl (.inr hq))
    · exact he
    · exact hold (.inr hearly)
  · exact hs

/-- An event of the owner goes to a subscription of the owner, or is parked. -/
theorem sound_dispatchEvent (hs : s.board.Sound) {e : ReadEvent} (he : s.owner = some e.readOn) :
    (s.dispatchEvent e).board.Sound := by
  unfold dispatchEvent
  dsimp only
  split
  · rename_i h hentry
    obtain ⟨x, hx, howner⟩ := hs.entries _ _ hentry
    have hon : some e.readOn = some x.acceptedOn := he.symm.trans howner
    exact sound_trySendEvent hs hx (Option.some.inj hon)
  · split
    · exact hs.park he e.event.subscriptionId
    · exact hs

theorem sound_read (hs : s.board.Sound) (hcur : s.isCurrent (.read k) = true)
    (h : s.read k = some s') : s'.board.Sound := by
  obtain ⟨envelope, rest, hout, -, hread⟩ := read_inv h
  cases hread with
  | @event event hbody =>
    have howner : s.owner = some k := by
      simpa [isCurrent, hout, ProtocolEnvelope.event?, hbody] using hcur
    exact sound_dispatchEvent (s := s.pop k rest) hs howner
  | answer hevent hreply =>
    rw [board_dispatchPending]
    exact hs
  | unexpected hevent hterm => exact sound_terminate (s := s.pop k rest) hs (terminate_inv hterm)

theorem sound_insert {c : Nat} (hs : s.board.Sound) (hcur : s.isCurrent (.insert c h) = true)
    (hstep : s.insertSubscription c h = some s') : s'.board.Sound := by
  obtain ⟨call, terminal, id, serial, k, hcall, hnone, hphase, hreply, rfl⟩ := insert_inv hstep
  have howner : s.owner = some k := by
    obtain ⟨requestId, body, purpose, phase, reply⟩ := call
    cases hreply
    simpa [isCurrent, hcall] using hcur
  exact Board.Sound.insert (x := ⟨id, serial, k, s.parked id, [], [], .replaying,
    if terminal then .connecting else .none⟩) hs hnone howner rfl rfl rfl

theorem sound_handle {a : HandleAction} (hs : s.board.Sound) (hx : s.handles h = some x)
    (hstep : HandleStep s h x a s') : s'.board.Sound := by
  cases hstep with
  | @replay e rest hphase hearly hroom =>
    refine sound_setHandle hs hx rfl ?_
    intro e' he'
    simp only [List.mem_append, hearly, List.mem_cons] at he' ⊢
    tauto
  | abandon hphase | returned hphase hearly => exact sound_setHandle hs hx rfl fun e he => he
  | @recv e rest hphase hqueue =>
    refine sound_setHandle hs hx rfl ?_
    intro e' he'
    simp only [List.mem_append, hqueue, List.mem_cons] at he' ⊢
    tauto
  | unsubscribe hphase | drop hphase =>
    exact sound_setHandle (s := s.removeSubscription x.id) (hs.erase x.id) hx rfl
      fun e he => he
  | request hphase hreg =>
    rw [board_register hreg]
    exact sound_setHandle hs hx rfl fun e he => he
  | sendUnsubscribe hphase =>
    have hboard := board_trySendCurrent s.takeRequestId
      ⟨s.requestId, .unsubscribe x.id, some h⟩
    have hsent : (s.takeRequestId.trySendCurrent
        ⟨s.requestId, .unsubscribe x.id, some h⟩).board.Sound := by
      rw [hboard]
      exact hs
    have hx' : (s.takeRequestId.trySendCurrent
        ⟨s.requestId, .unsubscribe x.id, some h⟩).handles h = some x :=
      (congrFun (congrArg Board.handles hboard) h).trans hx
    exact sound_setHandle hsent hx' rfl fun e he => he

theorem sound_step (hs : s.board.Sound) (hcur : s.isCurrent a = true) (h : s.step a = some s') :
    s'.board.Sound := by
  cases a with
  | establish a => exact sound_establish hs (establish_inv h)
  | terminate k t a => exact sound_terminate hs (terminate_inv h)
  | read k => exact sound_read hs hcur h
  | write k =>
    rw [board_write h]
    exact hs
  | start c a =>
    obtain ⟨purpose, body, -, hreg⟩ := start_inv h
    rw [board_register hreg]
    exact hs
  | call c a =>
    obtain ⟨call, -, hcall⟩ := stepCall_inv h
    rw [board_callStep hcall]
    exact hs
  | insert c key => exact sound_insert hs hcur h
  | handle key a =>
    obtain ⟨x, hx, hstep⟩ := stepHandle_inv h
    exact sound_handle hs hx hstep
  | server k a =>
    rw [board_stepServer h]
    exact hs

/-! ## Calls keep to their connection -/

/-- An `unsubscribe` call that has a writer has that of its own connection. -/
def Directed (s : State) : Prop :=
  ∀ c call h, s.calls c = some call → call.purpose = .unsubscribe h →
    ∃ x, s.handles h = some x ∧ ∀ k, call.phase = .sending k → x.acceptedOn = k

theorem directed_step (hs : Directed s) (hcur : s.isCurrent a = true) (h : s.step a = some s') :
    Directed s' := by
  intro c call key hcall hpurpose
  cases call_origin h hcall with
  | new hphase hreply haddr =>
    obtain ⟨x, hx⟩ := haddr.issuer key (by rw [hpurpose]; rfl)
    obtain ⟨x', hx', -⟩ := handle_kept h hx
    refine ⟨x', hx', ?_⟩
    intro k hk
    rw [hphase] at hk
    cases hk
  | old before hbefore hsame hbody hsending =>
    have hbeforePurpose := hsame.symm.trans hpurpose
    obtain ⟨x, hx, hdirected⟩ := hs c before key hbefore hbeforePurpose
    obtain ⟨x', hx', -, -, hon⟩ := handle_kept h hx
    refine ⟨x', hx', ?_⟩
    intro k hk
    rw [hon]
    rcases hsending k hk with hold | ⟨rfl, connection, hconn, rfl⟩
    · exact hdirected k hold
    · -- the writer was taken in this very step, while the guard held
      obtain ⟨requestId, body, purpose, phase, reply⟩ := before
      cases hbeforePurpose
      have hreach : s.reaches x.acceptedOn = true := by
        simpa [isCurrent, hbefore, hx] using hcur
      have hwriter : connection.writer = x.acceptedOn := by
        simpa [reaches, hconn] using hreach
      exact hwriter.symm

/-! ## Closing spares other connections -/

theorem links_trySendCurrent (h : s.reaches k = true) (e : ProtocolEnvelope) {j : Nat} (hj : j ≠ k)
    : (s.trySendCurrent e).links j = s.links j := by
  unfold trySendCurrent
  unfold reaches at h
  cases hconn : s.inner.connection with
  | none => rfl
  | some connection =>
    have hwriter : connection.writer = k := by simpa [hconn] using h
    have hne : j ≠ connection.writer := by
      rw [hwriter]
      exact hj
    exact Function.update_of_ne hne ..

theorem inner_trySendCurrent (s : State) (e : ProtocolEnvelope) :
    (s.trySendCurrent e).inner = s.inner := by
  unfold trySendCurrent
  cases s.inner.connection with
  | none => rfl
  | some connection => rfl

/-- Removing the entry of `x` when the tables are those of its connection. -/
theorem spares_remove (hs : s.board.Sound) (hmay : s.mayRemove x = true)
    (hsubs : s'.inner.dispatch.subscriptions = s.inner.dispatch.subscriptions.erase x.id)
    (hlinks : s'.links = s.links) : Spares s s' x where
  entries := by
    intro h y hy hne hentry
    rw [hsubs, Std.TreeMap.getElem?_erase]
    split
    · rename_i hid
      have hid' : x.id = y.id := by simpa using hid
      exfalso
      obtain ⟨z, hz, howner⟩ := hs.entries _ _ hentry
      have hzy : z = y := Option.some.inj (hz.symm.trans hy)
      subst hzy
      rcases Bool.or_eq_true_iff.mp hmay with hown | habsent
      · have hsame : s.owner = some x.acceptedOn := by simpa using hown
        exact hne (Option.some.inj (howner.symm.trans hsame))
      · rw [← hid'] at hentry
        simp [Std.TreeMap.contains_eq_isSome_getElem?, hentry] at habsent
    · exact hentry
  frames := by
    intro k _ _
    rw [hlinks]

theorem spares_of_same (hsubs : s'.inner.dispatch.subscriptions = s.inner.dispatch.subscriptions)
    (hlinks : ∀ k, k ≠ x.acceptedOn → (s'.links k).writerQueue = (s.links k).writerQueue) :
    Spares s s' x where
  entries := by
    intro h y _ _ hentry
    rw [hsubs]
    exact hentry
  frames := fun k hk _ => hlinks k hk

theorem spares_call {c : Nat} {call : Call} (hdirected : Directed s) (hcall : s.calls c = some call)
    (hpurpose : call.purpose = .unsubscribe h) (hx : s.handles h = some x)
    (hstep : CallStep s c call .send s') : Spares s s' x := by
  cases hstep with
  | refused hphase => exact spares_of_same rfl fun k _ => rfl
  | @send k hphase hroom =>
    refine spares_of_same rfl ?_
    intro j hj
    obtain ⟨y, hy, hon⟩ := hdirected c call h hcall hpurpose
    have hxy : x = y := Option.some.inj (hx.symm.trans hy)
    subst hxy
    have hne : j ≠ k := by
      rw [← hon k hphase]
      exact hj
    show (Function.update s.links k _ j).writerQueue = _
    rw [Function.update_of_ne hne]

theorem spares_step (hs : s.board.Sound) (hdirected : Directed s) (hcur : s.isCurrent a = true)
    (h : s.step a = some s') (hcloses : s.closes a = some x) : Spares s s' x := by
  unfold closes at hcloses
  split at hcloses
  · rename_i key
    obtain ⟨y, hy, hstep⟩ := stepHandle_inv h
    cases hy.symm.trans hcloses
    have hmay : s.mayRemove x = true := by simpa [isCurrent, hcloses] using hcur
    cases hstep with
    | unsubscribe hphase => exact spares_remove hs hmay rfl rfl
  · rename_i key
    obtain ⟨y, hy, hstep⟩ := stepHandle_inv h
    cases hy.symm.trans hcloses
    have hmay : s.mayRemove x = true := by simpa [isCurrent, hcloses] using hcur
    cases hstep with
    | drop hphase => exact spares_remove hs hmay rfl rfl
  · rename_i key
    obtain ⟨y, hy, hstep⟩ := stepHandle_inv h
    cases hy.symm.trans hcloses
    have hreach : s.reaches x.acceptedOn = true := by simpa [isCurrent, hcloses] using hcur
    cases hstep with
    | sendUnsubscribe hphase =>
      refine spares_of_same ?_ ?_
      · exact congrArg (·.dispatch.subscriptions) (inner_trySendCurrent s.takeRequestId _)
      · intro k hk
        exact congrArg Link.writerQueue (links_trySendCurrent (s := s.takeRequestId) hreach _ hk)
  · rename_i c
    split at hcloses
    · rename_i requestId body key phase reply hcall
      obtain ⟨call, hcall', hstep⟩ := stepCall_inv h
      cases hcall.symm.trans hcall'
      exact spares_call hdirected hcall rfl hcloses hstep
    · cases hcloses
  · cases hcloses

/-! ## The main result -/

/-- **Generations stay apart.** In every state that a run of current steps
reaches, a subscription holds and has received only events read on the connection
that accepted it, and every further current step that closes a subscription spares
those of other connections. -/
theorem generations_isolated {s : State}
    (h : machine.Reach (fun s a => s.isCurrent a = true) s) :
    (∀ key x, s.handles key = some x → ∀ e ∈ x.received ++ x.queue, e.readOn = x.acceptedOn) ∧
      ∀ a s' x, s.isCurrent a = true → s.step a = some s' → s.closes a = some x →
        Spares s s' x := by
  have hinv : s.board.Sound ∧ Directed s := by
    refine h.invariant (I := fun s => s.board.Sound ∧ Directed s) ?_ ?_
    · rintro _ rfl
      exact ⟨sound_fresh, fun c call key hcall => by cases hcall⟩
    · intro s a s' hs hcur hstep
      exact ⟨sound_step hs.1 hcur hstep, directed_step hs.2 hcur hstep⟩
  refine ⟨?_, ?_⟩
  · intro key x hx e he
    exact hinv.1.delivered key x hx e (List.mem_append_left _ he)
  · intro a s' x hcur hstep hcloses
    exact spares_step hinv.1 hinv.2 hcur hstep hcloses

/-! ## A reconnect -/

/-- `establish` on connection `k`, without interruption. -/
def connectTo (k : Nat) : List Action :=
  [.establish (.handshake k), .establish .take, .establish .clear, .establish .install]

def subscribeOn (k c h : Nat) (request : SubscriptionRequest) : List Action :=
  [.start c (.subscribe request), .call c .takeWriter, .call c .send, .write k,
    .server k (.serve c true), .read k, .call c .answer, .call c .removePending, .insert c h,
    .handle h .return]

/-- Subscribe, reconnect and subscribe again; then the reader of the first
connection hands over the event that was still in its stream. -/
def lateEvent : List Action :=
  connectTo 0 ++ subscribeOn 0 0 0 .daemonStatus ++ [Action.server 0 (.task 0 (.item [1] true))] ++
    connectTo 1 ++ subscribeOn 1 1 1 .daemonStatus ++ [Action.read 0]

/-- The late event reaches the second subscription. Dropping the first one then
removes the entry of the second and unsubscribes it at the daemon. -/
theorem stale_reader_and_drop_interfere :
    ∃ s s₁ s₂ x x₁, machine.Reach (fun _ _ => True) s ∧
      (∃ y, s.handles 1 = some y ∧ ∃ e ∈ y.queue, e.readOn ≠ y.acceptedOn) ∧
      s.step (.handle 0 .drop) = some s₁ ∧ s.closes (.handle 0 .drop) = some x ∧
      ¬ Spares s s₁ x ∧
      s₁.step (.handle 0 .sendUnsubscribe) = some s₂ ∧
      s₁.closes (.handle 0 .sendUnsubscribe) = some x₁ ∧ ¬ Spares s₁ s₂ x₁ := by
  let x : Handle := ⟨1, 0, 0, [], [], [], .held, .none⟩
  let x₁ : Handle := { x with phase := .dropping }
  let y : Handle := ⟨1, 0, 1, [], [⟨.update 1 [1], 0⟩], [], .held, .none⟩
  have hrun : ((machine.exec fresh lateEvent).bind fun s =>
      (s.step (.handle 0 .drop)).bind fun s₁ =>
        (s₁.step (.handle 0 .sendUnsubscribe)).map fun s₂ =>
          decide (s.handles 0 = some x ∧ s.handles 1 = some y ∧
            s.inner.dispatch.subscriptions[1]? = some 1 ∧
            s₁.inner.dispatch.subscriptions[1]? = none ∧ s₁.handles 0 = some x₁ ∧
            (s₁.links 1).server.subscriptions.contains 1 = true ∧
            (s₂.links 1).writerQueue ≠ (s₁.links 1).writerQueue)) = some true := by
    decide +kernel
  obtain ⟨s, hs, hrest⟩ := Option.bind_eq_some_iff.mp hrun
  obtain ⟨s₁, hs₁, hlast⟩ := Option.bind_eq_some_iff.mp hrest
  obtain ⟨s₂, hs₂, hfacts⟩ := Option.map_eq_some_iff.mp hlast
  obtain ⟨hx, hy, hentry, hgone, hx₁, hlive, hqueue⟩ := of_decide_eq_true hfacts
  have hreach : machine.Reach (fun _ _ => True) s :=
    Machine.reach_of_exec (.init rfl) (Machine.allSteps_of_forall (fun _ _ => trivial) _ _) hs
  refine ⟨s, s₁, s₂, x, x₁, hreach, ⟨y, hy, ⟨.update 1 [1], 0⟩, by decide, by decide⟩, hs₁, hx,
    ?_, hs₂, hx₁, ?_⟩
  · intro hspares
    have hkept := hspares.entries 1 y hy (by decide) hentry
    rw [show y.id = 1 from rfl, hgone] at hkept
    cases hkept
  · intro hspares
    exact hqueue (hspares.frames 1 (by decide) hlive)

/-- Unsubscribe on the first connection before the reconnect, and let the second
connection's own reader deliver its event. -/
def timelyDrop : List Action :=
  connectTo 0 ++ subscribeOn 0 0 0 .daemonStatus ++
    [Action.handle 0 .drop, .handle 0 .sendUnsubscribe] ++
    connectTo 1 ++ subscribeOn 1 1 1 .daemonStatus ++
    [Action.server 1 (.task 0 (.item [1] true)), .read 1]

/-- The result at the end of such a run, and for the drop that comes next. -/
theorem timely_drop_isolated :
    ∃ s s' y, machine.exec fresh timelyDrop = some s ∧ s.handles 1 = some y ∧
      y.queue = [⟨.update 1 [1], 1⟩] ∧ (∀ e ∈ y.received ++ y.queue, e.readOn = y.acceptedOn) ∧
      s.step (.handle 1 .drop) = some s' ∧ Spares s s' y := by
  let y : Handle := ⟨1, 0, 1, [], [⟨.update 1 [1], 1⟩], [], .held, .none⟩
  have hrun : ((machine.exec fresh timelyDrop).bind fun s =>
      (s.step (.handle 1 .drop)).map fun _ =>
        decide (s.handles 1 = some y ∧ s.isCurrent (.handle 1 .drop) = true)) = some true := by
    decide +kernel
  have hsteps : machine.AllSteps (fun s a => s.isCurrent a = true) fresh timelyDrop := by
    decide +kernel
  obtain ⟨s, hs, hrest⟩ := Option.bind_eq_some_iff.mp hrun
  obtain ⟨s', hs', hfacts⟩ := Option.map_eq_some_iff.mp hrest
  obtain ⟨hy, hcur⟩ := of_decide_eq_true hfacts
  obtain ⟨hevents, hcloses⟩ :=
    generations_isolated (Machine.reach_of_exec (.init rfl) hsteps hs)
  exact ⟨s, s', y, hs, hy, rfl, hevents 1 y hy, hs',
    hcloses (.handle 1 .drop) s' y hcur hs' hy⟩

end State

end TuxStack.Ipc
