import TuxStack.Ipc.Numbering
import TuxStack.Ipc.Generations

/-!
# Terminal requests and the terminals they reach

A `ContainerTerminalSession` keeps the bare id of its subscription and sends its
input, resize and close requests on whatever connection is current
(`crates/tuxstack-client/src/services.rs`). The daemon looks the id up among the
terminals of that connection, and numbers them from 1 on each.

`applied_to_own_terminal` says when a request reaches the terminal of its own
session: when every such request takes its writer while the connection of the
session is the current one. Nothing in the code looks at this: in
`input_reaches_other_terminal` a session that was kept over a reconnect types into
a terminal opened later. The proof follows a request from its call to the request
task of the daemon (`Owns`).
-/

namespace TuxStack.Ipc

open Runs

variable {owns : Option Nat → SubscriptionId → Prop}

/-- A terminal request in `e` is issued by an owner of the id in it. -/
def ProtocolEnvelope.Owned (owns : Option Nat → SubscriptionId → Prop) (e : ProtocolEnvelope) :
    Prop :=
  ∀ request id, e.body = .request request → request.terminalId = some id → owns e.issuer id

namespace Server

/-! ## Requests at the daemon -/

structure Owned (owns : Option Nat → SubscriptionId → Prop) (s : Server) : Prop where
  inbound : ∀ e ∈ s.inbound, e.Owned owns
  requests : ∀ key task, s.requestTasks key = some task →
    ∀ id, task.request.terminalId = some id → owns task.issuer id
  applied : ∀ a ∈ s.applied, owns a.issuer (a.serial + 1)

variable {s s' : Server}

theorem Owned.mono {owns' : Option Nat → SubscriptionId → Prop} (h : Owned owns s)
    (himp : ∀ issuer id, owns issuer id → owns' issuer id) : Owned owns' s where
  inbound e he request id hbody hid := himp _ _ (h.inbound e he request id hbody hid)
  requests key task htask id hid := himp _ _ (h.requests key task htask id hid)
  applied a ha := himp _ _ (h.applied a ha)

theorem Owned.frame (h : Owned owns s) (hinbound : s'.inbound = s.inbound)
    (hrequests : s'.requestTasks = s.requestTasks) (happlied : s'.applied = s.applied) :
    Owned owns s' := by
  refine ⟨?_, ?_, ?_⟩
  · rw [hinbound]
    exact h.inbound
  · rw [hrequests]
    exact h.requests
  · rw [happlied]
    exact h.applied

theorem Owned.mapRequests (h : Owned owns s)
    (hmap : ∀ key task, s'.requestTasks key = some task →
      ∃ t, s.requestTasks key = some t ∧ task.request = t.request ∧ task.issuer = t.issuer)
    (hinbound : s'.inbound = s.inbound) (happlied : s'.applied = s.applied) : Owned owns s' where
  inbound := by
    rw [hinbound]
    exact h.inbound
  requests := by
    intro key task htask id hid
    obtain ⟨t, ht, hrequest, hissuer⟩ := hmap key task htask
    rw [hissuer]
    exact h.requests key t ht id (by rw [← hrequest]; exact hid)
  applied := by
    rw [happlied]
    exact h.applied

variable {key : Nat} {task : RequestTask}

theorem Owned.setRequestPhase (h : Owned owns s) (htask : s.requestTasks key = some task)
    (phase : RequestPhase) : Owned owns (s.setRequestPhase key task phase) := by
  refine h.mapRequests ?_ rfl rfl
  intro i t ht
  rcases update_eq_some ht with ⟨rfl, rfl⟩ | ⟨-, hold⟩
  · exact ⟨task, htask, rfl, rfl⟩
  · exact ⟨t, hold, rfl, rfl⟩

theorem Owned.cancelRequestTask (h : Owned owns s) (key : Nat) :
    Owned owns (s.cancelRequestTask key) := by
  refine h.mapRequests ?_ rfl rfl
  intro i t ht
  change Function.update s.requestTasks key _ i = some t at ht
  by_cases hi : i = key
  · subst hi
    rw [Function.update_self] at ht
    obtain ⟨task, htask, rfl⟩ := Option.map_eq_some_iff.mp ht
    exact ⟨task, htask, rfl, rfl⟩
  · rw [Function.update_of_ne hi] at ht
    exact ⟨t, ht, rfl, rfl⟩

theorem Owned.cancelAll (h : Owned owns s) : Owned owns s.cancelAll := by
  refine h.mapRequests ?_ rfl rfl
  intro key t ht
  obtain ⟨task, htask, rfl⟩ := Option.map_eq_some_iff.mp ht
  refine ⟨task, htask, ?_, ?_⟩
  · split <;> rfl
  · split <;> rfl

theorem owned_task {serial : Nat} {task : SubscriptionTask} {a : TaskAction} (h : Owned owns s)
    (hstep : TaskStep s serial task a s') : Owned owns s' := by
  cases hstep with
  | _ => exact h.frame rfl rfl rfl

/-- `dispatch_request`: the terminal under the id of the request is the one that
the subscription with that id registered, since the daemon's numbering is exact. -/
theorem owned_request (h : Owned owns s) (hnum : Numbered s)
    {a : RequestAction}
    (htask : s.requestTasks key = some task) (hstep : RequestStep s key task a s') :
    Owned owns s' := by
  cases hstep with
  | @dispatch outcome =>
    obtain ⟨applied, terminals, hhands, -, heq⟩ :=
      s.dispatchRequest_frame task.issuer task.request outcome
    rw [heq]
    have happlied : ∀ a ∈ applied, owns a.issuer (a.serial + 1) := by
      intro a ha
      rcases hhands with rfl | ⟨id, t, hid, ht, rfl⟩
      · exact h.applied a ha
      · rcases List.mem_append.mp ha with hold | hnew
        · exact h.applied a hold
        · rw [List.mem_singleton] at hnew
          subst hnew
          rw [← hnum.terminals id t ht]
          exact h.requests key task htask id hid
    have hdone : Owned owns { s with applied := applied, terminals := terminals } :=
      ⟨h.inbound, h.requests, happlied⟩
    exact hdone.setRequestPhase htask _
  | cancelled | unsent => exact h.setRequestPhase htask _
  | @respond response =>
    have hsend : Owned owns (s.sendResponse task.requestId response) := h.frame rfl rfl rfl
    exact hsend.setRequestPhase htask .responded
  | done =>
    have hdone : Owned owns { s with requestDone := s.requestDone ++ [task.requestId] } :=
      h.frame rfl rfl rfl
    exact hdone.setRequestPhase htask .finished

theorem owned_serve {envelope : ProtocolEnvelope} (h : Owned owns s) (he : envelope.Owned owns)
    (hstep : ServeStep s key envelope s') : Owned owns s' := by
  cases hstep with
  | @spawn request hbody hkey =>
    refine ⟨h.inbound, ?_, h.applied⟩
    intro i task htask id hid
    rcases update_eq_some htask with ⟨rfl, rfl⟩ | ⟨-, hold⟩
    · exact he request id hbody hid
    · exact h.requests i task hold id hid
  | cancel task => exact h.cancelRequestTask task
  | unsubscribe id =>
    unfold serveUnsubscribe
    split
    · exact h.frame rfl rfl rfl
    · exact h.frame rfl rfl rfl
  | unexpected => exact h.cancelAll
  | _ => exact h.frame rfl rfl rfl

/-- **Ownership at the daemon**: kept by every step. -/
theorem owned_step {a : Action} (h : Owned owns s) (hnum : Numbered s)
    (hstep : s.step a = some s') : Owned owns s' := by
  have hread : ∀ {envelope rest}, s.inbound = envelope :: rest →
      envelope.Owned owns ∧ Owned owns { s with inbound := rest } := by
    intro envelope rest hin
    have hmem : ∀ e ∈ envelope :: rest, e.Owned owns := hin ▸ h.inbound
    exact ⟨hmem envelope List.mem_cons_self,
      fun e he => hmem e (List.mem_cons_of_mem _ he), h.requests, h.applied⟩
  cases step_inv hstep with
  | serve hloop hin hserve => exact owned_serve (hread hin).2 (hread hin).1 (serveFrame_inv hserve)
  | unserved _ hin => exact (hread hin).2.cancelAll
  | @unacknowledged requestId id =>
    have hclosed : Owned owns { s with terminals := s.terminals.erase id, loop := .serving } :=
      h.frame rfl rfl rfl
    exact hclosed.cancelAll
  | leave => exact h.cancelAll
  | request htask hrequest => exact owned_request h hnum htask hrequest
  | task hstep =>
    obtain ⟨task, -, htask⟩ := stepTask_inv hstep
    exact owned_task h htask
  | acknowledge | requestDone | subscriptionDone | closeTerminals => exact h.frame rfl rfl rfl

end Server

namespace State

variable {s s' : State} {a : Action}

/-! ## Requests on their way -/

/-- `issuer` is a subscription that connection `k` accepted under `id`. -/
def Owns (s : State) (k : Nat) (issuer : Option Nat) (id : SubscriptionId) : Prop :=
  ∃ h serial, issuer = some h ∧ s.identities h = some (id, serial, k)

/-- A terminal request takes its writer only while no other connection than the
one of its session is current, and the daemon does not reuse an id. -/
def keepsToConnection (s : State) : Action → Bool
  | .call c .takeWriter => (s.calls c).all fun call =>
    match call.purpose with
    | .session h => (s.handles h).all fun x => s.reaches x.acceptedOn
    | _ => true
  | .server k a => (s.links k).server.hasFreshId a
  | _ => true

/-- A terminal request of the call is one of the session it is made for, and the
writer it has taken is the one of that session's connection. -/
def CallOwned (s : State) (call : Call) : Prop :=
  ∀ request id, call.body = .request request → request.terminalId = some id →
    ∃ h serial k, call.purpose = .session h ∧ s.identities h = some (id, serial, k) ∧
      ∀ j, call.phase = .sending j → j = k

structure Attributed (s : State) : Prop where
  numbered : ∀ k, (s.links k).server.Numbered
  servers : ∀ k, (s.links k).server.Owned (s.Owns k)
  queues : ∀ k, ∀ e ∈ (s.links k).writerQueue, e.Owned (s.Owns k)
  answers : ∀ c id serial k, Answered s c ⟨.subscribed id serial, k⟩ → id = serial + 1
  handles : ∀ h id serial k, s.identities h = some (id, serial, k) → id = serial + 1
  calls : ∀ c call, s.calls c = some call → s.CallOwned call

variable {c id k key serial : Nat}

theorem identity_kept (h : s.step a = some s') (hid : s.identities key = some (id, serial, k)) :
    s'.identities key = some (id, serial, k) := by
  obtain ⟨x, hx, rfl, rfl, rfl⟩ := exists_handle_of_identity hid
  obtain ⟨x', hx', hid', hserial, hon⟩ := handle_kept h hx
  rw [identity_of_handle hx', hid', hserial, hon]

theorem owns_kept (h : s.step a = some s') {issuer : Option Nat} {id : SubscriptionId}
    (ho : s.Owns k issuer id) : s'.Owns k issuer id := by
  obtain ⟨key, serial, hissuer, hid⟩ := ho
  exact ⟨key, serial, hissuer, identity_kept h hid⟩

/-! ## One step -/

theorem answers_step (hs : Attributed s) (h : s.step a = some s')
    (ha : Answered s' c ⟨.subscribed id serial, k⟩) : id = serial + 1 := by
  rcases answer_origin h ha with hold | ⟨e, he, hbody⟩
  · exact hs.answers c id serial k hold
  · exact ((hs.numbered k).subscribed e he id serial hbody).1

theorem handles_step (hs : Attributed s) (h : s.step a = some s')
    (hid : s'.identities key = some (id, serial, k)) : id = serial + 1 := by
  by_cases ha : ∃ c key', a = .insert c key'
  · obtain ⟨c, key', rfl⟩ := ha
    obtain ⟨call, terminal, id', serial', k', hcall, -, hphase, hreply, rfl⟩ := insert_inv h
    by_cases hkey : key = key'
    · subst hkey
      have hnew : some (id', serial', k') = some (id, serial, k) := by
        rw [← hid, identities]
        simp [setHandle]
      cases hnew
      have hlive : isLive call.phase = true := by rw [hphase]; rfl
      exact hs.answers c id serial k ⟨call, hcall, hlive, hreply⟩
    · refine hs.handles key id serial k ?_
      rw [← hid, identities, identities]
      simp [setHandle, setPhase, setCall, hkey]
  · rw [identities_step h fun c key' heq => ha ⟨c, key', heq⟩] at hid
    exact hs.handles key id serial k hid

theorem calls_step (hs : Attributed s) (hok : s.keepsToConnection a = true) (h : s.step a = some s')
    {call : Call} (hcall : s'.calls c = some call) : s'.CallOwned call := by
  intro request id hbody hid
  cases call_origin h hcall with
  | new hphase hreply haddr =>
    obtain ⟨key, x, hpurpose, hx, rfl⟩ := haddr.terminal request id hbody hid
    refine ⟨key, x.serial, x.acceptedOn, hpurpose, identity_kept h (identity_of_handle hx), ?_⟩
    intro j hj
    rw [hphase] at hj
    cases hj
  | old before hbefore hpurpose hsame hsending =>
    obtain ⟨key, serial, k, hsession, hidentity, hon⟩ :=
      hs.calls c before hbefore request id (hsame ▸ hbody) hid
    refine ⟨key, serial, k, hpurpose.trans hsession, identity_kept h hidentity, ?_⟩
    intro j hj
    rcases hsending j hj with hold | ⟨rfl, connection, hconn, hwriter⟩
    · exact hon j hold
    · -- the call has just taken the writer of the current connection
      obtain ⟨x, hx, -, -, rfl⟩ := exists_handle_of_identity hidentity
      have hreaches : s.reaches x.acceptedOn = true := by
        simpa [keepsToConnection, hbefore, hsession, hx] using hok
      have heq : connection.writer = x.acceptedOn := by
        simpa [reaches, hconn] using hreaches
      exact hwriter.symm.trans heq

theorem queued_owned (hs : Attributed s) {e : ProtocolEnvelope}
    (hfrom : (∀ request, e.body ≠ .request request) ∨
      ∃ c call, s.calls c = some call ∧ call.phase = .sending k ∧ e.body = call.body ∧
        e.issuer = call.purpose.issuer) : e.Owned (s.Owns k) := by
  intro request id hbody hid
  rcases hfrom with hother | ⟨c, call, hcall, hphase, hsame, hissuer⟩
  · exact absurd hbody (hother request)
  · obtain ⟨key, serial, k', hsession, hidentity, hon⟩ :=
      hs.calls c call hcall request id (hsame ▸ hbody) hid
    cases hon k hphase
    refine ⟨key, serial, ?_, hidentity⟩
    rw [hissuer, hsession]
    rfl

/-- Both halves of a connection, for the owners before the step. -/
theorem link_owned (hs : Attributed s) (hok : s.keepsToConnection a = true)
    (h : s.step a = some s') (k : Nat) :
    (s'.links k).server.Numbered ∧ (s'.links k).server.Owned (s.Owns k) ∧
      ∀ e ∈ (s'.links k).writerQueue, e.Owned (s.Owns k) := by
  have hnum := hs.numbered k
  have howned := hs.servers k
  have hqueued := hs.queues k
  cases link_step h k with
  | same hqueue hserver =>
    rw [hqueue, hserver]
    exact ⟨hnum, howned, hqueued⟩
  | read hout hqueue hserver =>
    rw [hqueue, hserver]
    refine ⟨⟨hnum.next, hnum.live, hnum.tasks, hnum.terminals, ?_⟩,
      howned.frame rfl rfl rfl, hqueued⟩
    intro e he
    exact hnum.subscribed e (by rw [hout]; exact List.mem_cons_of_mem _ he)
  | queued e hqueue hserver hfrom =>
    rw [hqueue, hserver]
    refine ⟨hnum, howned, ?_⟩
    intro e' he'
    rcases List.mem_append.mp he' with hold | hnew
    · exact hqueued e' hold
    · rw [List.mem_singleton] at hnew
      subst hnew
      exact queued_owned hs hfrom
  | @written e hwas hserver =>
    rw [hwas] at hqueued
    rw [hserver]
    refine ⟨{ hnum with },
      ⟨?_, howned.requests, howned.applied⟩, ?_⟩
    · intro e' he'
      rcases List.mem_append.mp he' with hold | hnew
      · exact howned.inbound e' hold
      · rw [List.mem_singleton] at hnew
        subst hnew
        exact hqueued e' List.mem_cons_self
    · intro e' he'
      exact hqueued e' (List.mem_cons_of_mem _ he')
  | served ha hqueue hstep =>
    subst ha
    rw [hqueue]
    exact ⟨Server.numbered_step hnum hok hstep, Server.owned_step howned hnum hstep, hqueued⟩

theorem attributed_step (hs : Attributed s) (hok : s.keepsToConnection a = true)
    (h : s.step a = some s') : Attributed s' where
  numbered k := (link_owned hs hok h k).1
  servers k := (link_owned hs hok h k).2.1.mono fun _ _ ho => owns_kept h ho
  queues k e he request id hbody hid :=
    owns_kept h ((link_owned hs hok h k).2.2 e he request id hbody hid)
  answers _ _ _ _ ha := answers_step hs h ha
  handles _ _ _ _ hid := handles_step hs h hid
  calls _ _ hcall := calls_step hs hok h hcall

theorem attributed_fresh : Attributed fresh where
  numbered _ := Server.numbered_new
  servers k := by
    refine ⟨?_, ?_, ?_⟩
    · intro e he
      cases he
    · intro key task htask
      cases htask
    · intro a ha
      cases ha
  queues k e he := by cases he
  answers c id serial k ha := by
    obtain ⟨call, hcall, -⟩ := ha
    cases hcall
  handles h id serial k hid := by cases hid
  calls c call hcall := by cases hcall

/-! ## The main result -/

/-- **Requests reach their own terminal.** In every state of a run whose terminal
requests keep to the connections of their sessions, each request that the daemon
handed to a terminal of connection `k` was issued by a session that was opened on
`k`, for the subscription that registered this terminal. -/
theorem applied_to_own_terminal
    (h : machine.Reach (fun s a => s.keepsToConnection a = true) s) {k : Nat} {a : Applied}
    (ha : a ∈ (s.links k).server.applied) :
    ∃ key x, a.issuer = some key ∧ s.handles key = some x ∧ x.acceptedOn = k ∧
      x.serial = a.serial := by
  have hs : Attributed s := by
    refine h.invariant (I := Attributed) ?_ ?_
    · rintro _ rfl
      exact attributed_fresh
    · intro s a s' hs hok hstep
      exact attributed_step hs hok hstep
  obtain ⟨key, serial, hissuer, hidentity⟩ := (hs.servers k).applied a ha
  obtain ⟨x, hx, -, hserial, hon⟩ := exists_handle_of_identity hidentity
  refine ⟨key, x, hissuer, hx, hon, ?_⟩
  have hnumber := hs.handles key _ serial k hidentity
  rw [hserial]
  exact (Nat.succ.inj hnumber).symm

/-! ## A session kept over a reconnect -/

/-- `ContainerTerminalService::connect` on connection `k`, as its first
subscription, from the call to the session. -/
def openTerminal (k c h : Nat) (containerId : String) : List Action :=
  [.start c (.connect containerId 24 80 none none), .call c .takeWriter, .call c .send, .write k,
    .server k (.serve c true), .read k, .call c .answer, .call c .removePending, .insert c h,
    .handle h .return, .server k (.task 0 (.connecting true)), .server k (.task 0 .checkCapacity),
    .server k (.task 0 (.connect (.ok "/bin/sh"))), .server k (.task 0 .register),
    .server k (.task 0 (.running true)), .read k, .read k, .handle h .recv, .handle h .recv]

/-- A request of a session that goes out on connection `k` and is dispatched there. -/
def sendOver (k c : Nat) (request : Start) : List Action :=
  [.start c request, .call c .takeWriter, .call c .send, .write k, .server k (.serve c true),
    .server k (.request c (.dispatch (.ok [])))]

/-- Two terminals on two connections; then the first session writes and closes. -/
def staleSession : List Action :=
  connectTo 0 ++ openTerminal 0 0 0 "web" ++ connectTo 1 ++ openTerminal 1 1 1 "db" ++
    sendOver 1 2 (.writeInput 0 [1]) ++ sendOver 1 3 (.close 0)

/-- The terminal that connection 1 opened gets the input of the session from
connection 0, and then its close request, which removes it. -/
theorem input_reaches_other_terminal :
    ∃ s x, machine.Reach (fun _ _ => True) s ∧ s.handles 0 = some x ∧ x.acceptedOn = 0 ∧
      (s.links 0).server.applied = [] ∧
      (s.links 1).server.applied = [⟨some 0, 0⟩, ⟨some 0, 0⟩] ∧
      (s.links 1).server.terminals.isEmpty = true := by
  have hrun : (machine.exec fresh staleSession).map (fun s =>
      decide ((s.handles 0).map (·.acceptedOn) = some 0 ∧
        (s.links 0).server.applied = [] ∧
        (s.links 1).server.applied = [⟨some 0, 0⟩, ⟨some 0, 0⟩] ∧
        (s.links 1).server.terminals.isEmpty = true)) = some true := by
    decide +kernel
  obtain ⟨s, hs, hfacts⟩ := Option.map_eq_some_iff.mp hrun
  obtain ⟨hhandle, hfirst, hsecond, hgone⟩ := of_decide_eq_true hfacts
  obtain ⟨x, hx, hon⟩ := Option.map_eq_some_iff.mp hhandle
  have hreach : machine.Reach (fun _ _ => True) s :=
    Machine.reach_of_exec (.init rfl) (Machine.allSteps_of_forall (fun _ _ => trivial) _ _) hs
  exact ⟨s, x, hreach, hx, hon, hfirst, hsecond, hgone⟩

/-- Each session writes while its own connection is current. -/
def currentSessions : List Action :=
  connectTo 0 ++ openTerminal 0 0 0 "web" ++ sendOver 0 2 (.writeInput 0 [1]) ++
    connectTo 1 ++ openTerminal 1 1 1 "db" ++ sendOver 1 3 (.writeInput 1 [1])

/-- The result for the request that reached the terminal of connection 1. -/
theorem current_session_reaches_its_terminal :
    ∃ s, machine.exec fresh currentSessions = some s ∧
      (s.links 1).server.applied = [⟨some 1, 0⟩] ∧
      ∃ x, s.handles 1 = some x ∧ x.acceptedOn = 1 ∧ x.serial = 0 := by
  have hrun : (machine.exec fresh currentSessions).map (fun s =>
      (s.links 1).server.applied) = some [⟨some 1, 0⟩] := by
    decide +kernel
  have hsteps : machine.AllSteps (fun s a => s.keepsToConnection a = true) fresh
      currentSessions := by
    decide +kernel
  obtain ⟨s, hs, happlied⟩ := Option.map_eq_some_iff.mp hrun
  have hmem : (⟨some 1, 0⟩ : Applied) ∈ (s.links 1).server.applied := by
    rw [happlied]
    exact List.mem_singleton_self _
  obtain ⟨key, x, hkey, hx, hon, hserial⟩ :=
    applied_to_own_terminal (Machine.reach_of_exec (.init rfl) hsteps hs) hmem
  cases hkey
  exact ⟨s, hs, happlied, x, hx, hon, hserial⟩

end State

end TuxStack.Ipc
