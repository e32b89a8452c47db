import TuxStack.Ipc.Limits
import TuxStack.Ipc.SessionClosing

/-!
# The sessions of a connection

A `SessionServer` sees less of a connection than a `Server` does, neither frames nor what
tasks send, and takes smaller steps with its sessions: a connect is three of them, a removal
and the `close` that follows are two. Every run of a `Server` is a run of a `SessionServer`
(`reach_sessions`), so that what all runs of the second have in common is true of the first
(`terminals_of_finished`).
-/

namespace TuxStack.Ipc

open Runs Relation

namespace Server

/-! ## What the sessions see -/

def sessionPhase (terminal : Bool) : TaskPhase → SessionPhase
  | .started => .started
  | .connecting => .checking
  | .admitted => .connecting
  | .connected _ => .taken
  | .registered _ => .registered
  | .streaming => if terminal then .running else .streaming
  | .reporting _ _ | .returned _ => .returned
  | .closed _ => .closed
  | .ended => .ended
  | .finished => .finished

def sessionTask (task : SubscriptionTask) : SessionTask where
  id := task.id
  containerId := (terminalOf task.request).getD ""
  cancelled := task.cancelled
  phase := sessionPhase (terminalOf task.request).isSome task.phase

/-- A request is over when it has a response. The tokens of requests that are over may be
cancelled on one side only. -/
def SameRequest : Option RequestTask → Option SessionRequest → Prop
  | none, none => True
  | some task, some r => r.request = task.request ∧
      r.phase = (if task.phase = .running then .running else .finished) ∧
      (task.cancelled = true → r.cancelled = true)
  | _, _ => False

def sessionLoop : LoopPhase → SessionLoop
  | .serving => .serving
  | .closing _ id => .unsubscribing id
  | .leaving => .leaving
  | .left => .closingAll []

/-- The connection `s` as its sessions see it. -/
structure Shows (s : Server) (c : SessionServer) : Prop where
  loop : s.loop ≠ .left → c.loop = sessionLoop s.loop
  subscriptions : ∀ id, c.subscriptions.lookup id = s.subscriptions[id]?
  room : c.subscriptionTasks = s.subscriptionTasks
  next : c.nextSubscriptionId = s.nextSubscriptionId
  terminals : ∀ id, c.terminals.lookup id = s.terminals[id]?
  done : c.subscriptionDone = s.subscriptionDone
  tasks : ∀ k, c.tasks k = (s.tasks k).map sessionTask
  requests : ∀ key, SameRequest (s.requestTasks key) (c.requests key)
  accepted : c.accepted = s.accepted

/-- The sessions get to see `s` in some steps of theirs. -/
def Matched (c : SessionServer) (s : Server) : Prop :=
  ∃ c', ReflTransGen (sessionServer.Steps SessionServer.HasFreshId) c c' ∧ s.Shows c'

variable {s s' : Server} {c c' : SessionServer} {k key : Nat} {task : SubscriptionTask}
  {b : Bool} {phase : TaskPhase}

theorem Shows.matched (h : s.Shows c) : Matched c s := ⟨c, .refl, h⟩

theorem Matched.head {a : SessionAction} (h : Matched c' s) (hok : c.HasFreshId a)
    (hstep : sessionServer.step c a = some c') : Matched c s := by
  obtain ⟨c'', hsteps, hshows⟩ := h
  exact ⟨c'', .head ⟨a, hok, hstep⟩ hsteps, hshows⟩

theorem forall_update {ι α β : Type} [DecidableEq ι] {R : α → β → Prop} {f : ι → α} {g : ι → β}
    {x : α} {y : β} (h : ∀ i, R (f i) (g i)) (hxy : R x y) (k i : ι) :
    R (Function.update f k x i) (Function.update g k y i) := by
  by_cases hi : i = k
  · subst hi
    rwa [Function.update_self, Function.update_self]
  · rw [Function.update_of_ne hi, Function.update_of_ne hi]
    exact h i

/-! ## Tasks of subscriptions -/

theorem Shows.at_task (h : s.Shows c) (htask : s.tasks k = some task) :
    c.tasks k = some (sessionTask task) := by
  rw [h.tasks, htask]
  rfl

theorem Shows.update_tasks (h : s.Shows c) {x : Option SubscriptionTask} {y : Option SessionTask}
    (hxy : y = x.map sessionTask) (k i : Nat) :
    Function.update c.tasks k y i = (Function.update s.tasks k x i).map sessionTask :=
  forall_update (R := fun (x : Option SubscriptionTask) y => y = x.map sessionTask) h.tasks hxy k i

theorem Shows.setPhase (h : s.Shows c) {phase' : SessionPhase}
    (hphase : phase' = sessionPhase (terminalOf task.request).isSome phase) :
    (s.setTaskPhase k task phase).Shows (c.setPhase k (sessionTask task) phase') :=
  { h with tasks := h.update_tasks (by rw [hphase]; rfl) k }

theorem Shows.sendEvent (h : s.Shows c) (event : ServerEvent) : (s.sendEvent event).Shows c :=
  { h with }

theorem Matched.stepTask {t : SessionTask} (h : Matched c' s) (ht : c.tasks k = some t)
    (hstep : c.stepTask k t b = some c') : Matched c s := by
  refine h.head (a := .stepTask k b) trivial ?_
  show (c.tasks k).bind _ = _
  rw [ht]
  exact hstep

theorem Shows.available (h : s.Shows c) (containerId : String) :
    c.terminalCapacityAvailable containerId = s.terminalCapacityAvailable containerId := by
  have hperm := Maps.values_perm_of_lookup h.terminals
  unfold SessionServer.terminalCapacityAvailable Server.terminalCapacityAvailable sessionsOf
  rw [Maps.length_values_of_lookup h.terminals, (hperm.filter _).length_eq]
  simp only [beq_eq_decide]

theorem Shows.history (h : s.Shows c) (obtained closed removed : List Nat)
    (served : List ServedRequest) : s.Shows { c with obtained, closed, removed, served } :=
  { h with }

theorem setPhase_setPhase (c : SessionServer) (k : Nat) (t : SessionTask) (p q : SessionPhase) :
    (c.setPhase k t p).setPhase k { t with phase := p } q = c.setPhase k t q := by
  unfold SessionServer.setPhase
  rw [Function.update_idem]

theorem Shows.stepTask (h : s.Shows c) (htask : s.tasks k = some task)
    (hstep : c.stepTask k (sessionTask task) b = some (c.setPhase k (sessionTask task)
      (sessionPhase (terminalOf task.request).isSome phase))) :
    Matched c (s.setTaskPhase k task phase) := by
  exact (h.setPhase rfl).matched.stepTask (h.at_task htask) hstep

theorem Shows.stay (h : s.Shows c) (htask : s.tasks k = some task)
    (hphase : (sessionTask task).phase = sessionPhase (terminalOf task.request).isSome phase) :
    (s.setTaskPhase k task phase).Shows c := by
  have hsame : c.setPhase k (sessionTask task) (sessionTask task).phase = c := by
    unfold SessionServer.setPhase
    rw [← h.at_task htask, Function.update_eq_self]
  rw [← hsame]
  exact h.setPhase hphase

theorem matched_move {a : TaskAction} (h : s.Shows c) (htask : s.tasks k = some task)
    (hmoves : TaskMoves s task a phase) : Matched c (s.setTaskPhase k task phase) := by
  have hreturned : isStopped phase = true → ∀ b, sessionPhase b phase = .returned := by
    intro hstopped b
    cases phase <;> first | rfl | cases hstopped
  cases hmoves with
  | allow hphase hcontainer hroom | refuse hphase hcontainer hroom =>
    refine h.stepTask (b := true) htask ?_
    simp [SessionServer.stepTask, sessionTask, sessionPhase, hphase, hcontainer, h.available, hroom]
  | @connected containerId shell hphase hcontainer =>
    -- `connect`, the first resize and `take_output`
    have hconnecting : c.stepTask k (sessionTask task) true = some
        ({ c with obtained := c.obtained ++ [k] }.setPhase k (sessionTask task) .obtained) := by
      simp [SessionServer.stepTask, sessionTask, sessionPhase, hphase]
    have hshows : (s.setTaskPhase k task (.connected shell)).Shows
        ({ c with obtained := c.obtained ++ [k] }.setPhase k (sessionTask task) .taken) :=
      (h.history _ _ _ _).setPhase rfl
    refine Matched.stepTask ?_ (h.at_task htask) hconnecting
    refine Matched.stepTask (b := true) ?_ (Function.update_self ..) rfl
    rw [if_pos rfl, setPhase_setPhase]
    refine Matched.stepTask (b := true) ?_ (Function.update_self ..) rfl
    rw [if_pos rfl, setPhase_setPhase]
    exact hshows.matched
  | unsent hphase =>
    refine h.stepTask (b := false) htask ?_
    rcases hphase with hphase | ⟨shell, hphase⟩ | hphase <;>
      cases hterminal : (terminalOf task.request).isSome <;>
        simp [SessionServer.stepTask, sessionTask, sessionPhase, hphase, hterminal]
  | failed hphase _ hstopped | stopped hphase hstopped =>
    refine h.stepTask (b := false) htask ?_
    rw [hreturned hstopped]
    cases hterminal : (terminalOf task.request).isSome <;>
      simp [SessionServer.stepTask, sessionTask, sessionPhase, hphase, hterminal]
  | unreported hphase =>
    refine (h.stay htask ?_).matched
    simp [sessionTask, sessionPhase, hphase]
  | unended hphase =>
    refine h.stepTask (b := true) htask ?_
    simp [SessionServer.stepTask, sessionTask, sessionPhase, hphase]

theorem matched_send {a : TaskAction} {event : ServerEvent} (h : s.Shows c)
    (htask : s.tasks k = some task) (hsends : TaskSends task a event phase) :
    Matched c ((s.sendEvent event).setTaskPhase k task phase) := by
  have hshows := h.sendEvent event
  cases hsends with
  | report hphase =>
    refine (hshows.stay htask ?_).matched
    simp [sessionTask, sessionPhase, hphase]
  | connecting hphase hcontainer hlive | running hphase hcontainer hlive | output hphase hlive
  | update hphase hlive =>
    refine hshows.stepTask (b := true) htask ?_
    cases hterminal : (terminalOf task.request).isSome <;>
      simp_all [SessionServer.stepTask, sessionTask, sessionPhase]
  | ended hphase =>
    refine hshows.stepTask (b := true) htask ?_
    simp [SessionServer.stepTask, sessionTask, sessionPhase, hphase]

theorem matched_task {a : TaskAction} (h : s.Shows c) (htask : s.tasks k = some task)
    (hstep : TaskStep s k task a s') : Matched c s' := by
  have hc := h.at_task htask
  cases hstep with
  | move hmoves => exact matched_move h htask hmoves
  | send hsends => exact matched_send h htask hsends
  | @register containerId shell hphase hcontainer =>
    have hshows : { s with terminals := s.terminals.insert task.id ⟨k, containerId⟩ }.Shows
        { c with terminals := c.terminals.insert task.id ⟨k, containerId⟩ } :=
      { h with terminals := Maps.lookup_insert_eq h.terminals _ _ }
    refine (hshows.setPhase rfl).matched.stepTask (b := true) hc ?_
    simp [SessionServer.stepTask, sessionTask, sessionPhase, hphase, hcontainer]
  | @close reason reason' shutdown hphase =>
    have herased : { s with terminals := s.terminals.erase task.id }.Shows
        { c with terminals := c.terminals.erase task.id } :=
      { h with terminals := Maps.lookup_erase_eq h.terminals _ }
    have hshows : ({ s with terminals := s.terminals.erase task.id }.setTaskPhase k task
        (.closed reason')).Shows (((c.removeTerminal task.id).close
          (c.sessionAt task.id).toList).setPhase k (sessionTask task) .closed) :=
      (herased.history _ _ _ _).setPhase rfl
    have hreturned : c.stepTask k (sessionTask task) true =
        some ((c.removeTerminal task.id).setPhase k (sessionTask task)
          (.removed (c.sessionAt task.id))) := by
      simp [SessionServer.stepTask, sessionTask, sessionPhase, hphase]
    refine Matched.stepTask ?_ hc hreturned
    refine Matched.stepTask (b := true) ?_ (Function.update_self ..) rfl
    show Matched ((SessionServer.setPhase ((c.removeTerminal task.id).close _) k (sessionTask task)
      _).setPhase k _ .closed) _
    rw [setPhase_setPhase]
    exact hshows.matched
  | done hphase =>
    have hshows : { s with subscriptionDone := s.subscriptionDone ++ [task.id] }.Shows
        { c with subscriptionDone := c.subscriptionDone ++ [task.id] } :=
      { h with done := congrArg (· ++ [task.id]) h.done }
    refine (hshows.setPhase rfl).matched.stepTask (b := true) hc ?_
    simp [SessionServer.stepTask, sessionTask, sessionPhase, hphase]

/-! ## Requests -/

variable {request : RequestTask} {r : SessionRequest} {done : RequestPhase}

theorem Shows.at_request (h : s.Shows c) (htask : s.requestTasks key = some request) :
    ∃ r, c.requests key = some r ∧ SameRequest (some request) (some r) := by
  have hsame := h.requests key
  rw [htask] at hsame
  cases hr : c.requests key with
  | none =>
    rw [hr] at hsame
    cases hsame
  | some r =>
    rw [hr] at hsame
    exact ⟨r, rfl, hsame⟩

theorem Shows.no_request (h : s.Shows c) (hnone : s.requestTasks key = none) :
    c.requests key = none := by
  have hsame := h.requests key
  rw [hnone] at hsame
  cases hr : c.requests key with
  | none => rfl
  | some r =>
    rw [hr] at hsame
    cases hsame

theorem Shows.setRequest (h : s.Shows c) (hsame : SameRequest (some request) (some r))
    (hdone : done ≠ .running) :
    (s.setRequestPhase key request done).Shows (c.setRequest key r .finished) := by
  have hover : SameRequest (some { request with phase := done })
      (some { r with phase := .finished }) := ⟨hsame.1, (if_neg hdone).symm, hsame.2.2⟩
  exact { h with requests := forall_update h.requests hover key }

theorem Shows.stayOver (h : s.Shows c) (htask : s.requestTasks key = some request)
    (hover : request.phase ≠ .running) (hdone : done ≠ .running) :
    (s.setRequestPhase key request done).Shows c := by
  obtain ⟨r, hr, hsame⟩ := h.at_request htask
  have hphase : r.phase = .finished := hsame.2.1.trans (if_neg hover)
  have hc : c.setRequest key r .finished = c := by
    unfold SessionServer.setRequest
    rw [← hphase, ← hr, Function.update_eq_self]
  rw [← hc]
  exact h.setRequest hsame hdone

theorem Matched.stepRequest (h : Matched c' s) (hr : c.requests key = some r)
    (hstep : c.stepRequest key r = some c') : Matched c s := by
  refine h.head (a := .stepRequest key) trivial ?_
  show (c.requests key).bind _ = _
  rw [hr]
  exact hstep

theorem setRequest_setRequest (c : SessionServer) (key : Nat) (r : SessionRequest)
    (p q : SessionRequestPhase) :
    (c.setRequest key r p).setRequest key { r with phase := p } q = c.setRequest key r q := by
  unfold SessionServer.setRequest
  rw [Function.update_idem]

theorem Shows.dispatchRequest (h : s.Shows c) {body : Request}
    (hbody : ∀ id, body ≠ .containerTerminalClose id) (issuer : Option Nat)
    (outcome : Except ProtocolError Vfs.Bytes) :
    (s.dispatchRequest issuer body outcome).1.Shows c := by
  have happlied : ∀ id, (s.applyToTerminal issuer id outcome).1.Shows c := by
    intro id
    unfold Server.applyToTerminal
    split
    · exact h
    · exact { h with }
  unfold Server.dispatchRequest
  split
  · split
    · exact h
    · exact happlied _
  · split
    · exact h
    · exact happlied _
  · exact absurd rfl (hbody _)
  · split <;> exact h

theorem stepRequest_cases (hphase : r.phase = .running)
    (hbody : ∀ id, r.request ≠ .containerTerminalClose id) :
    c.stepRequest key r = some (c.setRequest key r .finished) ∨
      ∃ id, c.stepRequest key r = some (c.serveBy key r id) := by
  unfold SessionServer.stepRequest
  rw [hphase]
  dsimp only
  split
  · split
    · exact .inl rfl
    · exact .inr ⟨_, rfl⟩
  · split
    · exact .inl rfl
    · exact .inr ⟨_, rfl⟩
  · exact absurd ‹_› (hbody _)
  · exact .inl rfl

/-- `dispatch_request` without a session, with one, or with the end of one. -/
theorem matched_dispatch (h : s.Shows c) (htask : s.requestTasks key = some request)
    (hrunning : request.phase = .running) (hdone : done ≠ .running)
    (outcome : Except ProtocolError Vfs.Bytes) : Matched c
      ((s.dispatchRequest request.issuer request.request outcome).1.setRequestPhase key request
        done) := by
  obtain ⟨r, hr, hsame⟩ := h.at_request htask
  have hphase : r.phase = .running := hsame.2.1.trans (if_pos hrunning)
  by_cases hclose : ∃ id, request.request = .containerTerminalClose id
  · obtain ⟨id, hclose⟩ := hclose
    have hr' : r.request = .containerTerminalClose id := hsame.1.trans hclose
    have herased : (s.dispatchRequest request.issuer request.request outcome).1.Shows
        { c with terminals := c.terminals.erase id } := by
      rw [hclose]
      unfold Server.dispatchRequest Server.applyToTerminal
      dsimp only
      split <;> exact { h with terminals := Maps.lookup_erase_eq h.terminals id }
    cases hat : c.sessionAt id with
    | none =>
      have hnone : id ∉ c.terminals := AList.lookup_eq_none.mp (Option.map_eq_none_iff.mp hat)
      rw [show c.terminals.erase id = c.terminals from
        AList.ext (List.kerase_of_notMem_keys hnone)] at herased
      refine (herased.setRequest hsame hdone).matched.stepRequest hr ?_
      simp [SessionServer.stepRequest, hphase, hr', hat]
    | some session =>
      have hstep : c.stepRequest key r = some
          (((c.found session).removeTerminal id).setRequest key r (.closing session)) := by
        simp [SessionServer.stepRequest, hphase, hr', hat]
      refine Matched.stepRequest ?_ hr hstep
      refine Matched.stepRequest ?_ (Function.update_self ..) rfl
      show Matched ((SessionServer.setRequest (SessionServer.close _ [session]) key r _).setRequest
        key _ .finished) _
      rw [setRequest_setRequest]
      exact ((herased.history _ _ _ _).setRequest hsame hdone).matched
  · rw [not_exists] at hclose
    have hshows := h.dispatchRequest hclose request.issuer outcome
    have hclose' : ∀ id, r.request ≠ .containerTerminalClose id := by rwa [hsame.1]
    rcases stepRequest_cases hphase hclose' with hstep | ⟨id, hstep⟩
    · exact (hshows.setRequest hsame hdone).matched.stepRequest hr hstep
    · refine Matched.stepRequest ?_ hr hstep
      unfold SessionServer.serveBy
      split
      · exact (hshows.setRequest hsame hdone).matched
      · refine Matched.stepRequest ?_ (Function.update_self ..) rfl
        rw [setRequest_setRequest]
        exact ((hshows.history _ _ _ _).setRequest hsame hdone).matched

theorem matched_request {a : RequestAction} (h : s.Shows c)
    (htask : s.requestTasks key = some request) (hstep : RequestStep s key request a s') :
    Matched c s' := by
  cases hstep with
  | @dispatch outcome response hphase =>
    exact matched_dispatch h htask hphase (by rintro ⟨⟩) outcome
  | cancelled hphase hcancelled =>
    obtain ⟨r, hr, hsame⟩ := h.at_request htask
    refine (h.setRequest hsame (by rintro ⟨⟩)).matched.head (a := .dropRequest key) trivial ?_
    show (c.requests key).bind _ = _
    rw [hr, Option.bind_some]
    simp [SessionServer.dropRequest, hsame.2.1, hsame.2.2 hcancelled, hphase]
  | unsent hphase =>
    exact (h.stayOver htask (by rw [hphase]; rintro ⟨⟩) (by rintro ⟨⟩)).matched
  | @respond response hphase =>
    have hsent : (s.sendResponse request.requestId response).Shows c := { h with }
    exact (hsent.stayOver htask (by rw [hphase]; rintro ⟨⟩) (by rintro ⟨⟩)).matched
  | done hphase =>
    have hsent : { s with requestDone := s.requestDone ++ [request.requestId] }.Shows c :=
      { h with }
    exact (hsent.stayOver htask (by rw [hphase]; rintro ⟨⟩) (by rintro ⟨⟩)).matched

/-! ## The loop -/

theorem Shows.freeId (h : s.Shows c) : c.freeId = s.freeId := by
  have hused : (fun id => (c.subscriptions.lookup id).isSome) = s.subscriptions.contains := by
    funext id
    rw [h.subscriptions, Std.TreeMap.isSome_getElem?_eq_contains]
  unfold SessionServer.freeId Server.freeId
  rw [hused, h.next, Maps.length_values_of_lookup h.subscriptions]

theorem Shows.at_loop (h : s.Shows c) {phase : LoopPhase} (hloop : s.loop = phase)
    (hphase : phase ≠ .left) : c.loop = sessionLoop phase := by
  subst hloop
  exact h.loop hphase

theorem Shows.leave (h : s.Shows c) : s.cancelAll.Shows c.leave := by
  refine { h with loop := fun _ => rfl, tasks := fun k => ?_, requests := fun key => ?_ }
  · show (c.tasks k).map _ = ((s.tasks k).map _).map sessionTask
    rw [h.tasks, Option.map_map, Option.map_map]
    congr 1
    funext task
    simp only [Function.comp, h.subscriptions]
    cases hcontrol : s.subscriptions[task.id]? with
    | none => simp [sessionTask, hcontrol]
    | some control =>
      by_cases hserial : control.serial = k <;> simp [sessionTask, hcontrol, hserial]
  · show SameRequest ((s.requestTasks key).map _) ((c.requests key).map _)
    cases htask : s.requestTasks key with
    | none =>
      rw [h.no_request htask]
      trivial
    | some request =>
      obtain ⟨r, hr, hrequest, hphase, -⟩ := h.at_request htask
      rw [hr, Option.map_some, Option.map_some]
      split <;> exact ⟨hrequest, hphase, fun _ => rfl⟩

theorem Shows.accept (h : s.Shows c) (requestId : RequestId) (request : SubscriptionRequest)
    (taskCost : Nat) :
    (s.accept requestId request taskCost).Shows (c.accept request taskCost true) where
  loop := h.loop
  subscriptions := by
    show ∀ id, (c.subscriptions.insert c.freeId ⟨c.accepted, taskCost⟩).lookup id = _
    rw [h.freeId, h.accepted]
    exact Maps.lookup_insert_eq h.subscriptions s.freeId ⟨s.accepted, taskCost⟩
  room := congrArg (· + taskCost) h.room
  next := congrArg succId h.freeId
  terminals := h.terminals
  done := h.done
  tasks := by
    show ∀ k, Function.update c.tasks (c.accepted + 1 - 1) _ k = _
    rw [Nat.add_sub_cancel, h.accepted, h.freeId]
    refine h.update_tasks ?_ _
    cases request <;> rfl
  requests := h.requests
  accepted := congrArg (· + 1) h.accepted

theorem Shows.cancelTask (h : s.Shows c) (k : Nat) : (s.cancelTask k).Shows (c.cancelTask k) := by
  refine { h with tasks := h.update_tasks ?_ k }
  rw [h.tasks]
  cases s.tasks k <;> rfl

theorem Shows.unsubscribe (h : s.Shows c) (requestId : RequestId) (id : SubscriptionId) :
    (s.serveUnsubscribe requestId id).Shows (c.unsubscribe id) := by
  unfold serveUnsubscribe SessionServer.unsubscribe
  rw [h.subscriptions]
  cases s.subscriptions[id]? with
  | none => exact { h with loop := fun _ => rfl }
  | some control =>
    exact { h.cancelTask control.serial with
      loop := fun _ => rfl
      subscriptions := Maps.lookup_erase_eq h.subscriptions id
      room := congrArg (· - control.taskCost) h.room }

theorem matched_serve {e : ProtocolEnvelope} (h : s.Shows c) (hserving : c.loop = .serving)
    (hfresh : c.accepted + 1 < 2 ^ 64) (hstep : ServeStep s key e s') : Matched c s' := by
  cases hstep with
  | refuseRequest | refuseSubscribe | ping => exact Shows.matched { h with }
  | ignore => exact h.matched
  | @spawn request hbody hkey =>
    have hspawned : { s with
        requests := s.requests.insert e.requestId key
        requestTasks := Function.update s.requestTasks key
          (some ⟨e.requestId, request, e.issuer, false, .running⟩) }.Shows
        { c with requests := Function.update c.requests key (some { request }) } := by
      refine { h with requests := forall_update h.requests ?_ key }
      exact ⟨rfl, rfl, fun hcancelled => hcancelled⟩
    exact hspawned.matched.head (a := .request key request) trivial
      (if_pos ⟨hserving, h.no_request hkey⟩)
  | cancel task hbody =>
    have hcancelled : (s.cancelRequestTask task).Shows { c with
        requests := Function.update c.requests task
          ((c.requests task).map fun r => { r with cancelled := true }) } := by
      refine { h with requests := forall_update h.requests ?_ task }
      cases htask : s.requestTasks task with
      | none =>
        rw [h.no_request htask]
        trivial
      | some request =>
        obtain ⟨r, hr, hrequest, hphase, -⟩ := h.at_request htask
        rw [hr]
        exact ⟨hrequest, hphase, fun _ => rfl⟩
    exact hcancelled.matched.head (a := .cancelRequest task) trivial (if_pos hserving)
  | @accept request taskCost hbody hcost hroom =>
    refine Matched.head (a := .subscribe request true) (h.accept _ _ _).matched hfresh ?_
    rw [← Maps.length_values_of_lookup h.subscriptions, ← h.room] at hroom
    show (if c.loop = .serving then some (c.subscribe request true) else none) = _
    rw [if_pos hserving, SessionServer.subscribe, hcost]
    exact congrArg some (if_neg hroom)
  | unsubscribe id hbody =>
    exact (h.unsubscribe _ id).matched.head (a := .unsubscribe id) trivial (if_pos hserving)
  | unexpected hbody => exact h.leave.matched.head (a := .leave) trivial (if_pos hserving)

/-- `close_terminal`, and the answer to the client. -/
theorem matched_closing (h : s.Shows c) {id : SubscriptionId} (hloop : c.loop = .unsubscribing id)
    (sent : Bool)
    (hafter : ∀ c', { s with terminals := s.terminals.erase id, loop := .serving }.Shows c' →
      s'.Shows (if sent then c' else c'.leave)) : Matched c s' := by
  let removed : SessionServer := { c.removeTerminal id with loop := .closing (c.sessionAt id) }
  have hremove : sessionServer.step c .removeTerminal = some removed := by
    simp only [sessionServer, hloop, removed]
  have hclosed : { s with terminals := s.terminals.erase id, loop := .serving }.Shows
      { removed.close (c.sessionAt id).toList with loop := .serving } :=
    { h with loop := fun _ => rfl, terminals := Maps.lookup_erase_eq h.terminals id }
  have hanswered : Matched removed s' :=
    (hafter _ hclosed).matched.head (a := .closeTerminal sent) trivial (by cases sent <;> rfl)
  exact hanswered.head (a := .removeTerminal) trivial hremove

/-- **Every step of a connection** is some steps of its sessions. -/
theorem matched_step {a : Action} (h : s.Shows c) (hfresh : s.accepted + 1 < 2 ^ 64)
    (hstep : s.step a = some s') : Matched c s' := by
  have hread : ∀ rest, { s with inbound := rest }.Shows c := fun _ => { h with }
  cases step_inv hstep with
  | serve hloop hin hserve =>
    exact matched_serve (hread _) (h.at_loop hloop (by rintro ⟨⟩)) (h.accepted ▸ hfresh)
      (serveFrame_inv hserve)
  | unserved hloop hin =>
    exact (hread _).leave.matched.head (a := .leave) trivial
      (if_pos (h.at_loop hloop (by rintro ⟨⟩)))
  | acknowledge hloop =>
    exact matched_closing h (h.at_loop hloop (by rintro ⟨⟩)) true fun _ hclosed => { hclosed with }
  | unacknowledged hloop =>
    exact matched_closing h (h.at_loop hloop (by rintro ⟨⟩)) false fun _ hclosed => hclosed.leave
  | requestDone => exact Shows.matched { h with }
  | @subscriptionDone id rest hloop hdone =>
    have hserving : c.loop = .serving := h.at_loop hloop (by rintro ⟨⟩)
    have hstep : sessionServer.step c .takeDone = some (c.takeDone id rest) := by
      simp only [sessionServer, hserving, h.done, hdone]
    refine Matched.head (a := .takeDone) (Shows.matched ?_) trivial hstep
    refine { h with
      subscriptions := Maps.lookup_erase_eq h.subscriptions id, room := ?_, done := rfl }
    show c.subscriptionTasks - _ = _
    rw [h.room, h.subscriptions]
  | leave hloop =>
    exact h.leave.matched.head (a := .leave) trivial (if_pos (h.at_loop hloop (by rintro ⟨⟩)))
  | closeTerminals hloop =>
    have hleaving : c.loop = .leaving := h.at_loop hloop (by rintro ⟨⟩)
    let sessions := (Assoc.values c.terminals).map (·.serial)
    have hstep : sessionServer.step c .takeTerminals = some { c with
        loop := .closingAll sessions
        terminals := ∅
        removed := c.removed ++ sessions } := by
      simp only [sessionServer, hleaving, sessions]
    refine Matched.head (a := .takeTerminals) (Shows.matched ?_) trivial hstep
    refine { h with loop := fun hleft => absurd rfl hleft, terminals := fun id => ?_ }
    rw [AList.lookup_empty, Std.TreeMap.getElem?_emptyc]
  | request htask hrequest => exact matched_request h htask hrequest
  | task hstep =>
    obtain ⟨task, htask, htaskStep⟩ := stepTask_inv hstep
    exact matched_task h htask htaskStep

def HasFreshIds (s : Server) (_ : Move) : Prop := s.accepted + 1 < 2 ^ 64

/-- **The runs of a connection are runs of its sessions**, as long as the ids do not wrap
around. -/
theorem reach_sessions (h : machine.Reach HasFreshIds s) :
    ∃ c, sessionServer.Reach SessionServer.HasFreshId c ∧ s.Shows c := by
  refine h.simulated ?_ ?_
  · rintro s rfl
    refine ⟨{}, rfl, fun _ => rfl, fun id => ?_, rfl, rfl, fun id => ?_, rfl, fun _ => rfl,
      fun _ => trivial, rfl⟩
    · rw [AList.lookup_empty, new, Std.TreeMap.getElem?_emptyc]
    · rw [AList.lookup_empty, new, Std.TreeMap.getElem?_emptyc]
  · intro s move s' c hshows hfresh hstep
    cases move with
    | receive e =>
      cases hstep
      exact Shows.matched { hshows with }
    | act a => exact matched_step hshows hfresh hstep

/-- A subscription whose completion was sent has no terminal in the registry. -/
theorem terminals_of_finished (h : machine.Reach HasFreshIds s) (htask : s.tasks k = some task)
    (hphase : task.phase = .finished) : s.terminals[task.id]? = none := by
  obtain ⟨c, hreach, hshows⟩ := reach_sessions h
  have hc := hshows.at_task htask
  have hfinished : c.Finished k := ⟨_, hc, by rw [sessionTask, hphase]; rfl⟩
  rw [← hshows.terminals]
  exact (SessionServer.sound_of_reach hreach).unregistered hfinished _ hc

end Server

end TuxStack.Ipc
