import TuxStack.Ipc.Termination

/-!
# Pending requests

`round_trip` enters its request in `dispatch.pending` before it fetches the writer,
`terminate_current` takes the connection before it drains the table, and both cells
have locks of their own. `no_orphaned_request` says what this order gives, in every
interleaving: once a connection is terminated no entry belongs to a call that has its
writer, and when all calls are over the table is empty.

Request ids come from a 64-bit counter that skips zero. The `n`th id is
`n % (2^64 - 1) + 1`, so two calls have the same one only if the counter has gone once
around between them, and then they do (`request_id_reused`).

What the state does not record is kept beside it: which connection's writer a call
has, the number of its request id, and which connections a `terminate_current` has
taken and drained for.
-/

namespace TuxStack.Ipc

open Runs

/-! ## Histories -/

/-- Who runs `terminate_current`: `replace_connection`, or a task of a connection. -/
inductive Terminator where
  | establish
  | task (conn : Nat) (t : LinkTask)
deriving DecidableEq

namespace State.Action

/-- The call whose `round_trip` starts. -/
def registers : Action → Option Nat
  | .start c _ => some c
  | .handle _ (.request c) => some c
  | _ => none

def issues : Action → Bool
  | .start _ _ => true
  | .handle _ (.request _) => true
  | .handle _ .sendUnsubscribe => true
  | .call _ .sendCancel => true
  | _ => false

/-- The first section of `terminate_current`. -/
def takes : Action → Option Terminator
  | .establish .take => some .establish
  | .terminate k t .take => some (.task k t)
  | _ => none

/-- The second section of `terminate_current`. -/
def clears : Action → Option Terminator
  | .establish .clear => some .establish
  | .terminate k t (.clear _) => some (.task k t)
  | _ => none

end State.Action

/-- A state with its histories. `terminated` are the connections for which
`terminate_current` has run to its end. -/
structure Traced where
  state : State
  writer : Nat → Option Nat
  number : Nat → Option Nat
  issued : Nat
  takenBy : Terminator → Option Nat
  terminated : List Nat

namespace Traced

def fresh : Traced := ⟨.fresh, fun _ => none, fun _ => none, 0, fun _ => none, []⟩

def writerAfter (t : Traced) : State.Action → Nat → Option Nat
  | .call c .takeWriter =>
    match t.state.inner.connection with
    | some connection => Function.update t.writer c (some connection.writer)
    | none => t.writer
  | _ => t.writer

def numberAfter (t : Traced) (a : State.Action) : Nat → Option Nat :=
  match a.registers with
  | some c => Function.update t.number c (some t.issued)
  | none => t.number

/-- Who has taken what after a step. -/
def takenAfter (t : Traced) (a : State.Action) : Terminator → Option Nat :=
  match a.takes with
  | some who => Function.update t.takenBy who (t.state.inner.connection.map (·.writer))
  | none => t.takenBy

/-- The terminated connections after a step. -/
def terminatedAfter (t : Traced) (a : State.Action) : List Nat :=
  match a.clears with
  | some who => (t.takenBy who).toList ++ t.terminated
  | none => t.terminated

/-- The state `s` after a step, with its histories. -/
def after (t : Traced) (a : State.Action) (s : State) : Traced where
  state := s
  writer := t.writerAfter a
  number := t.numberAfter a
  issued := if a.issues then t.issued + 1 else t.issued
  takenBy := t.takenAfter a
  terminated := t.terminatedAfter a

def step (t : Traced) (a : State.Action) : Option Traced := (t.state.step a).map (t.after a)

/-- Client and daemon, with histories. -/
def machine : Machine Traced State.Action where
  init t := t = fresh
  step := step

end Traced

namespace State

/-! ## What a step does to the table -/

def unsettled : CallPhase → Bool
  | .accepted => false
  | .cancelling => false
  | .done => false
  | _ => true

def awaits : CallPhase → Bool
  | .registered => true
  | .sending _ => true
  | .waiting => true
  | _ => false

theorem unsettled_of_awaits {phase : CallPhase} (h : awaits phase = true) :
    unsettled phase = true := by
  cases phase with
  | registered | sending | waiting => rfl
  | _ => cases h

/-- What a step can do to the calls and to `pending`. -/
inductive PendingStep (s : State) (a : Action) (s' : State) : Prop where
  | quiet (hregisters : a.registers = none) (hclears : a.clears = none)
      (hcalls : s'.calls = s.calls)
      (hpending : s'.inner.dispatch.pending = s.inner.dispatch.pending)
  | register {c : Nat} {call : Call} (hregisters : a.registers = some c)
      (hclears : a.clears = none) (hnew : s.calls c = none)
      (hid : call.requestId = s.requestId) (hphase : call.phase = .registered)
      (hcalls : s'.calls = Function.update s.calls c (some call))
      (hpending : s'.inner.dispatch.pending = s.inner.dispatch.pending.insert s.requestId c)
  | move {c : Nat} {call : Call} {phase : CallPhase} (hregisters : a.registers = none)
      (hclears : a.clears = none) (hcall : s.calls c = some call)
      (hcalls : s'.calls = Function.update s.calls c (some { call with phase := phase }))
      (hpending : s'.inner.dispatch.pending = s.inner.dispatch.pending)
      (hunsettled : unsettled phase = unsettled call.phase)
      (hawaits : awaits phase = true → awaits call.phase = true)
  | remove {c : Nat} {call : Call} {phase : CallPhase} (hregisters : a.registers = none)
      (hclears : a.clears = none) (hcall : s.calls c = some call)
      (hcalls : s'.calls = Function.update s.calls c (some { call with phase := phase }))
      (hpending : s'.inner.dispatch.pending =
        s.inner.dispatch.pending.erase call.requestId)
      (hphase : unsettled phase = false)
  | answer {c : Nat} {requestId : RequestId} {reply : Except String Reply}
      (hregisters : a.registers = none) (hclears : a.clears = none)
      (hentry : s.inner.dispatch.pending[requestId]? = some c)
      (hcalls : s'.calls = Function.update s.calls c
        ((s.calls c).map fun call => call.answer reply))
      (hpending : s'.inner.dispatch.pending = s.inner.dispatch.pending.erase requestId)
  | clear (reason : String) (hregisters : a.registers = none)
      (hcalls : s'.calls = (s.clearDispatch reason).calls)
      (hpending : s'.inner.dispatch.pending = ∅)

variable {s' : State} {c : Nat}

theorem pending_register {s t : State} {a : Action} {purpose : Purpose} {body : ProtocolBody}
    (hregisters : a.registers = some c) (hclears : a.clears = none) (hcalls : t.calls = s.calls)
    (hinner : t.inner = s.inner) (h : t.register c purpose body = some s') :
    PendingStep s a s' := by
  have hid : t.requestId = s.requestId := by
    unfold requestId
    rw [hinner]
  unfold register at h
  split at h
  · rename_i hnew
    cases h
    refine @PendingStep.register s a _ c ⟨t.requestId, body, purpose, .registered, none⟩
      hregisters hclears (hcalls ▸ hnew) hid rfl ?_ ?_
    · show Function.update t.calls c _ = _
      rw [hcalls]
    · show t.inner.dispatch.pending.insert t.requestId c = _
      rw [hid, hinner]
  · cases h

theorem pending_stepCall {s : State} {a : CallAction} (h : s.stepCall c a = some s') :
    PendingStep s (.call c a) s' := by
  obtain ⟨call, hcall, hstep⟩ := stepCall_inv h
  have hcancel : (s.sendCancel call.requestId).inner.dispatch = s.inner.dispatch :=
    congrArg (·.dispatch) (inner_trySendCurrent s.takeRequestId _)
  have hcalls : ∀ phase, ((s.sendCancel call.requestId).setPhase c call phase).calls =
      Function.update s.calls c (some { call with phase := phase }) := fun phase =>
    congrArg (Function.update · c _) (calls_sendCancel s call.requestId)
  cases hstep with
  | takeWriter hphase | noConnection hphase | refused hphase | send hphase | answered hphase
  | failed hphase =>
    exact .move rfl rfl hcall rfl rfl (by rw [hphase]; rfl) (fun _ => by rw [hphase]; rfl)
  | timeout hphase | abandon hphase =>
    refine .move rfl rfl hcall rfl rfl ?_ (fun hyes => by cases hyes)
    rcases hphase with ⟨k, hphase⟩ | hphase
    · rw [hphase]
      rfl
    · rw [hphase]
      rfl
  | timedOut hphase | guardCancelled hphase =>
    exact .move rfl rfl hcall (hcalls _) (congrArg Dispatch.pending hcancel) (by rw [hphase]; rfl)
      (fun hyes => by cases hyes)
  | settled =>
    refine .remove rfl rfl hcall rfl rfl ?_
    unfold afterSettling
    split
    · rfl
    · rfl
  | guardRemoved => exact .remove rfl rfl hcall rfl rfl rfl

theorem dispatch_pending_dispatchEvent (s : State) (e : ReadEvent) :
    (s.dispatchEvent e).inner.dispatch.pending = s.inner.dispatch.pending := by
  unfold dispatchEvent trySendEvent
  dsimp only
  split
  · split
    · split
      · rfl
      · rfl
    · rfl
  · split
    · rfl
    · rfl

theorem pending_dispatchPending {s t : State} {a : Action} (hregisters : a.registers = none)
    (hclears : a.clears = none) (hcalls : t.calls = s.calls) (hinner : t.inner = s.inner)
    (requestId : RequestId) (reply : Except String Reply) :
    PendingStep s a (t.dispatchPending requestId reply) := by
  unfold dispatchPending
  split
  · rename_i c hentry
    rw [hinner] at hentry
    refine @PendingStep.answer s a _ c requestId reply hregisters hclears hentry ?_ ?_
    · show Function.update t.calls c _ = _
      rw [hcalls]
    · show t.inner.dispatch.pending.erase requestId = _
      rw [hinner]
  · exact .quiet hregisters hclears hcalls (by rw [hinner])

/-- **What a step does to the calls and to `pending`.** -/
theorem pending_step {s : State} {a : Action} (h : s.step a = some s') : PendingStep s a s' := by
  cases a with
  | establish b =>
    cases establish_inv h with
    | handshake hlock hnew | take hlock | install hlock => exact .quiet rfl rfl rfl rfl
    | clear hlock => exact .clear "connection replaced" rfl rfl rfl
  | terminate k t b =>
    cases terminate_inv h with
    | check phase | take => exact .quiet rfl rfl rfl rfl
    | clear reason => exact .clear reason rfl rfl rfl
  | read k =>
    obtain ⟨envelope, rest, -, -, hread⟩ := read_inv h
    cases hread with
    | event hbody =>
      exact .quiet rfl rfl (calls_dispatchEvent (s.pop k rest) _)
        (dispatch_pending_dispatchEvent (s.pop k rest) _)
    | answer hevent hreply =>
      exact pending_dispatchPending (s := s) (t := s.pop k rest) (a := .read k)
        rfl rfl rfl rfl _ _
    | unexpected hevent hterm =>
      cases terminate_inv hterm with
      | check phase => exact .quiet rfl rfl rfl rfl
  | write k =>
    obtain ⟨e, rest, -, rfl⟩ := write_inv h
    exact .quiet rfl rfl rfl rfl
  | start c b =>
    obtain ⟨purpose, body, -, hreg⟩ := start_inv h
    exact pending_register rfl rfl rfl rfl hreg
  | call c b => exact pending_stepCall h
  | insert c key =>
    obtain ⟨call, terminal, id, serial, k, hcall, -, hphase, -, rfl⟩ := insert_inv h
    exact @PendingStep.move s _ _ c call .done rfl rfl hcall rfl rfl (by rw [hphase]; rfl)
      (fun hyes => by cases hyes)
  | handle key b =>
    obtain ⟨x, -, hstep⟩ := stepHandle_inv h
    cases hstep with
    | request hphase hreg =>
      exact pending_register (s := s) (t := s.setHandle key { x with phase := .closed })
        rfl rfl rfl rfl hreg
    | sendUnsubscribe hphase =>
      exact .quiet rfl rfl (calls_trySendCurrent s.takeRequestId _)
        (congrArg (·.dispatch.pending) (inner_trySendCurrent s.takeRequestId _))
    | _ => exact .quiet rfl rfl rfl rfl
  | server k b =>
    obtain ⟨-, server, -, rfl⟩ := stepServer_inv h
    exact .quiet rfl rfl rfl rfl

/-! ## Request ids -/

/-- The `n`th request id. -/
def idOf (n : Nat) : RequestId := n % (2 ^ 64 - 1) + 1

theorem requestId_of_next {s : State} {n : Nat} (h : s.requestId = idOf n)
    (hnext : s'.inner.nextRequestId = wrappingSucc s.requestId) : s'.requestId = idOf (n + 1) := by
  have hsucc : s'.inner.nextRequestId =
      (n % 18446744073709551615 + 1 + 1) % 18446744073709551616 := by
    rw [hnext, h]
    rfl
  have hnumber : (if s'.inner.nextRequestId = 0 then 1 else s'.inner.nextRequestId : Nat) =
      (n + 1) % 18446744073709551615 + 1 := by
    split
    · omega
    · omega
  exact hnumber

theorem number_of_idOf_eq {m n : Nat} (hne : m ≠ n) (h : idOf m = idOf n) :
    m + (2 ^ 64 - 1) ≤ n ∨ n + (2 ^ 64 - 1) ≤ m := by
  have hmod : m % 18446744073709551615 + 1 = n % 18446744073709551615 + 1 := h
  omega

theorem next_trySendCurrent (s : State) (e : ProtocolEnvelope) :
    (s.takeRequestId.trySendCurrent e).inner.nextRequestId = wrappingSucc s.requestId :=
  congrArg (·.nextRequestId) (inner_trySendCurrent s.takeRequestId e)

theorem next_register {s : State} {purpose : Purpose} {body : ProtocolBody}
    (h : s.register c purpose body = some s') :
    s'.inner.nextRequestId = wrappingSucc s.requestId := by
  unfold register at h
  split at h
  · cases h
    rfl
  · cases h

theorem next_stepCall {s : State} {a : CallAction} (h : s.stepCall c a = some s') :
    s'.inner.nextRequestId =
      if Action.issues (.call c a) then wrappingSucc s.requestId else s.inner.nextRequestId := by
  obtain ⟨call, -, hstep⟩ := stepCall_inv h
  cases hstep with
  | timedOut | guardCancelled => exact next_trySendCurrent s _
  | _ => rfl

theorem next_step {s : State} {a : Action} (h : s.step a = some s') : s'.inner.nextRequestId =
      if a.issues then wrappingSucc s.requestId else s.inner.nextRequestId := by
  cases a with
  | establish b =>
    cases establish_inv h with
    | _ => rfl
  | terminate k t b =>
    cases terminate_inv h with
    | _ => rfl
  | read k =>
    obtain ⟨envelope, rest, -, -, hread⟩ := read_inv h
    cases hread with
    | event hbody =>
      show ((s.pop k rest).dispatchEvent _).inner.nextRequestId = _
      unfold dispatchEvent trySendEvent
      dsimp only
      split
      · split
        · split
          · rfl
          · rfl
        · rfl
      · split
        · rfl
        · rfl
    | answer hevent hreply =>
      unfold dispatchPending
      split
      · rfl
      · rfl
    | unexpected hevent hterm =>
      cases terminate_inv hterm with
      | check phase => rfl
  | write k =>
    obtain ⟨e, rest, -, rfl⟩ := write_inv h
    rfl
  | start c b =>
    obtain ⟨purpose, body, -, hreg⟩ := start_inv h
    exact next_register hreg
  | call c b => exact next_stepCall h
  | insert c key =>
    obtain ⟨call, terminal, id, serial, k, hcall, -, hphase, -, rfl⟩ := insert_inv h
    rfl
  | handle key b =>
    obtain ⟨x, -, hstep⟩ := stepHandle_inv h
    cases hstep with
    | request hphase hreg =>
      have hnext := next_register hreg
      exact hnext
    | sendUnsubscribe hphase => exact next_trySendCurrent s _
    | _ => rfl
  | server k b =>
    obtain ⟨-, server, -, rfl⟩ := stepServer_inv h
    rfl

/-! ## What a step does to the connection -/

inductive ConnectionStep (s : State) (a : Action) (s' : State) : Prop where
  | keep (htakes : a.takes = none) (hconn : s'.inner.connection = s.inner.connection)
      (hopened : ∀ k, (s'.links k).opened = (s.links k).opened)
      (hlock : s'.inner.reconnectLock.map Replacing.conn =
        s.inner.reconnectLock.map Replacing.conn)
  | handshake {k : Nat} (htakes : a.takes = none) (hclears : a.clears = none)
      (hconn : s'.inner.connection = s.inner.connection)
      (hnew : (s.links k).opened = false)
      (hopened : ∀ j, (s'.links j).opened = true ↔ (s.links j).opened = true ∨ j = k)
      (hlock : s'.inner.reconnectLock = some (.connected k))
  | take {who : Terminator} (htakes : a.takes = some who) (hclears : a.clears = none)
      (hconn : s'.inner.connection = none)
      (hopened : ∀ k, (s'.links k).opened = (s.links k).opened)
      (hlock : s'.inner.reconnectLock.map Replacing.conn =
        s.inner.reconnectLock.map Replacing.conn)
  | install {k generation : Nat} (htakes : a.takes = none) (hclears : a.clears = none)
      (hlock : s.inner.reconnectLock = some (.cleared k))
      (hconn : s'.inner.connection = some ⟨generation, k⟩)
      (hopened : ∀ k, (s'.links k).opened = (s.links k).opened)
      (hunlock : s'.inner.reconnectLock = none)

theorem ConnectionStep.of_control {s : State} {a : Action} (htakes : a.takes = none)
    (h : s'.control = s.control) : ConnectionStep s a s' := by
  refine .keep htakes (congrArg Control.connection h) ?_ ?_
  · intro k
    exact congrArg (fun c : Control => (c.ends k).opened) h
  · exact congrArg (fun c : Control => c.reconnectLock.map Replacing.conn) h

theorem opened_setLink {s : State} {k : Nat} {l : Link} (h : l.opened = (s.links k).opened)
    (j : Nat) : ((s.setLink k l).links j).opened = (s.links j).opened := by
  by_cases hj : j = k
  · subst hj
    rw [links_setLink_self]
    exact h
  · rw [links_setLink_ne s l hj]

theorem Link.opened_setPhase (l : Link) (t : LinkTask) (phase : LinkPhase) :
    (l.setPhase t phase).opened = l.opened := by
  cases t with
  | reader => rfl
  | writer => rfl

theorem connection_establish {s : State} {b : EstablishAction} (h : EstablishStep s b s') :
    ConnectionStep s (.establish b) s' := by
  cases h with
  | @handshake k hlock hnew =>
    refine .handshake rfl rfl rfl hnew ?_ rfl
    intro j
    show ((s.setLink k _).links j).opened = true ↔ _
    by_cases hj : j = k
    · subst hj
      simp [links_setLink_self]
    · rw [links_setLink_ne s _ hj]
      simp [hj]
  | take hlock => exact .take rfl rfl rfl (fun _ => rfl) (by rw [hlock]; rfl)
  | clear hlock => exact .keep rfl rfl (fun _ => rfl) (by rw [hlock]; rfl)
  | install hlock => exact .install rfl rfl hlock rfl (opened_setLink rfl) rfl

theorem connection_terminate {s : State} {k : Nat} {t : LinkTask} {b : TerminateAction}
    (h : TerminateStep s k t b s') : ConnectionStep s (.terminate k t b) s' := by
  cases h with
  | check phase | clear reason =>
    exact .keep rfl rfl (opened_setLink (Link.opened_setPhase _ _ _)) rfl
  | take => exact .take rfl rfl rfl (opened_setLink (Link.opened_setPhase _ _ _)) rfl

/-- **What a step does to the connection.** -/
theorem connection_step {s : State} {a : Action} (h : s.step a = some s') :
    ConnectionStep s a s' := by
  cases a with
  | establish b => exact connection_establish (establish_inv h)
  | terminate k t b => exact connection_terminate (terminate_inv h)
  | read k =>
    obtain ⟨envelope, rest, -, -, hread⟩ := read_inv h
    have hpop := control_pop s k rest
    cases hread with
    | event hbody => exact .of_control rfl ((control_dispatchEvent _ _).trans hpop)
    | answer hevent hreply => exact .of_control rfl ((control_dispatchPending _ _ _).trans hpop)
    | unexpected hevent hterm =>
      cases terminate_inv hterm with
      | check phase =>
        refine .keep rfl rfl ?_ rfl
        intro j
        rw [opened_setLink (Link.opened_setPhase _ _ _)]
        exact congrArg (fun c : Control => (c.ends j).opened) hpop
  | write k =>
    obtain ⟨e, rest, -, rfl⟩ := write_inv h
    exact .of_control rfl (control_setLink rfl)
  | start c b =>
    obtain ⟨purpose, body, -, hreg⟩ := start_inv h
    exact .of_control rfl (control_register hreg)
  | call c b =>
    obtain ⟨call, -, hstep⟩ := stepCall_inv h
    exact .of_control rfl (control_callStep hstep)
  | insert c key =>
    obtain ⟨call, terminal, id, serial, k, -, -, -, -, rfl⟩ := insert_inv h
    exact .of_control rfl rfl
  | handle key b =>
    obtain ⟨x, -, hstep⟩ := stepHandle_inv h
    exact .of_control rfl (control_handleStep hstep)
  | server k b =>
    obtain ⟨-, server, -, rfl⟩ := stepServer_inv h
    exact .of_control rfl (control_setLink rfl)

theorem requestId_of_same {s : State} (h : s'.inner.nextRequestId = s.inner.nextRequestId) :
    s'.requestId = s.requestId := by
  unfold requestId
  rw [h]

end State

namespace Traced

open State

/-! ## The table -/

/-- The table and the numbers of the ids. An entry belongs to a call that has not
removed it, and a call that waits without an answer has its entry unless another call
has the same id. -/
structure Table (t : Traced) : Prop where
  counted : t.state.requestId = idOf t.issued
  numbered : ∀ c call, t.state.calls c = some call →
    ∃ n, t.number c = some n ∧ call.requestId = idOf n
  bounded : ∀ c n, t.number c = some n → n < t.issued
  distinct : ∀ c c' n, t.number c = some n → t.number c' = some n → c = c'
  entries : ∀ (r : RequestId) c, t.state.inner.dispatch.pending[r]? = some c →
    ∃ call, t.state.calls c = some call ∧ call.requestId = r ∧ unsettled call.phase = true
  waiting : ∀ c call, t.state.calls c = some call → awaits call.phase = true →
    call.reply = none → t.state.inner.dispatch.pending[call.requestId]? = some c ∨
      ∃ c' call', c' ≠ c ∧ t.state.calls c' = some call' ∧ call'.requestId = call.requestId

theorem table_fresh : Table fresh where
  counted := rfl
  numbered c call h := by cases h
  bounded c n h := by cases h
  distinct c c' n h := by cases h
  entries r c h := by simp [fresh, State.fresh] at h
  waiting c call h := by cases h

variable {t : Traced} {s : State} {a : Action}

theorem Table.count (h : Table t) (hstep : t.state.step a = some s) :
    s.requestId = idOf (if a.issues then t.issued + 1 else t.issued) := by
  have hnext := next_step hstep
  by_cases hissues : a.issues = true
  · rw [if_pos hissues] at hnext ⊢
    exact requestId_of_next h.counted hnext
  · rw [if_neg hissues] at hnext ⊢
    rw [requestId_of_same hnext]
    exact h.counted

variable {c k : Nat} {calls : Nat → Option Call}

theorem issues_of_registers (h : a.registers = some c) : a.issues = true := by
  cases a with
  | start => rfl
  | handle key b =>
    cases b with
    | request => rfl
    | _ => cases h
  | _ => cases h

/-- Another call has the id. -/
def Reused (calls : Nat → Option Call) (c : Nat) (r : RequestId) : Prop :=
  ∃ c' call', c' ≠ c ∧ calls c' = some call' ∧ call'.requestId = r

structure SameIds (calls calls' : Nat → Option Call) : Prop where
  back : ∀ c after, calls' c = some after →
    ∃ before, calls c = some before ∧ after.requestId = before.requestId
  forth : ∀ c before, calls c = some before →
    ∃ after, calls' c = some after ∧ after.requestId = before.requestId

theorem SameIds.reused {calls' : Nat → Option Call} (h : SameIds calls calls') {r : RequestId}
    (hreused : Reused calls c r) : Reused calls' c r := by
  obtain ⟨c', call', hne, hcall', hid⟩ := hreused
  obtain ⟨after, hafter, hsame⟩ := h.forth c' call' hcall'
  exact ⟨c', after, hne, hafter, hsame.trans hid⟩

theorem sameIds_refl (calls : Nat → Option Call) : SameIds calls calls :=
  ⟨fun _ after h => ⟨after, h, rfl⟩, fun _ before h => ⟨before, h, rfl⟩⟩

theorem sameIds_update {call next : Call} (hcall : calls c = some call)
    (hid : next.requestId = call.requestId) :
    SameIds calls (Function.update calls c (some next)) where
  back j after h := by
    rcases update_eq_some h with ⟨rfl, rfl⟩ | ⟨-, hold⟩
    · exact ⟨call, hcall, hid⟩
    · exact ⟨after, hold, rfl⟩
  forth j before h := by
    by_cases hj : j = c
    · subst hj
      rw [hcall] at h
      cases h
      exact ⟨next, Function.update_self .., hid⟩
    · exact ⟨before, by rw [Function.update_of_ne hj]; exact h, rfl⟩

theorem sameIds_map {f : Nat → Call → Call} (hf : ∀ c call, (f c call).requestId = call.requestId) :
    SameIds calls fun c => (calls c).map (f c) where
  back c after h := by
    obtain ⟨before, hbefore, rfl⟩ := Option.map_eq_some_iff.mp h
    exact ⟨before, hbefore, hf c before⟩
  forth c before h := ⟨f c before, by rw [h]; rfl, hf c before⟩

/-- The table after a step that starts no call: the numbers follow from the ids. -/
theorem Table.keep (h : Table t) (hstep : t.state.step a = some s) (hregisters : a.registers = none)
    (hids : SameIds t.state.calls s.calls)
    (hentries : ∀ (r : RequestId) c, s.inner.dispatch.pending[r]? = some c →
      ∃ call, s.calls c = some call ∧ call.requestId = r ∧ unsettled call.phase = true)
    (hwaiting : ∀ c call, s.calls c = some call → awaits call.phase = true →
      call.reply = none → s.inner.dispatch.pending[call.requestId]? = some c ∨
        Reused s.calls c call.requestId) :
    Table (t.after a s) := by
  have hnumber : (t.after a s).number = t.number := by
    show t.numberAfter a = _
    unfold numberAfter
    rw [hregisters]
  refine ⟨h.count hstep, ?_, ?_, ?_, hentries, hwaiting⟩
  · intro c call hcall
    obtain ⟨before, hbefore, hid⟩ := hids.back c call hcall
    obtain ⟨n, hn, hidn⟩ := h.numbered c before hbefore
    exact ⟨n, by rw [hnumber]; exact hn, hid.trans hidn⟩
  · intro c n hn
    rw [hnumber] at hn
    have hlt := h.bounded c n hn
    show n < if a.issues then t.issued + 1 else t.issued
    split
    · omega
    · exact hlt
  · intro c c' n hn hn'
    rw [hnumber] at hn hn'
    exact h.distinct c c' n hn hn'

theorem Table.register (h : Table t) (hstep : t.state.step a = some s) {call : Call}
    (hregisters : a.registers = some c) (hnew : t.state.calls c = none)
    (hid : call.requestId = t.state.requestId) (hphase : call.phase = .registered)
    (hcalls : s.calls = Function.update t.state.calls c (some call))
    (hpending : s.inner.dispatch.pending =
      t.state.inner.dispatch.pending.insert t.state.requestId c) :
    Table (t.after a s) := by
  have hnumber : (t.after a s).number = Function.update t.number c (some t.issued) := by
    show t.numberAfter a = _
    unfold numberAfter
    rw [hregisters]
  have hcount := h.count hstep
  have hissues := issues_of_registers hregisters
  rw [if_pos hissues] at hcount
  have hissued : (t.after a s).issued = t.issued + 1 := if_pos hissues
  have hself : s.calls c = some call := by
    rw [hcalls]
    exact Function.update_self ..
  refine ⟨by rw [hissued]; exact hcount, ?_, ?_, ?_, ?_, ?_⟩
  · intro j after hafter
    rw [hnumber]
    rw [show (t.after a s).state.calls = _ from hcalls] at hafter
    rcases update_eq_some hafter with ⟨rfl, rfl⟩ | ⟨hj, hold⟩
    · exact ⟨t.issued, Function.update_self .., hid.trans h.counted⟩
    · obtain ⟨n, hn, hidn⟩ := h.numbered j after hold
      exact ⟨n, (Function.update_of_ne hj ..).trans hn, hidn⟩
  · intro j n hn
    rw [hnumber] at hn
    rw [hissued]
    rcases update_eq_some hn with ⟨-, rfl⟩ | ⟨-, hold⟩
    · omega
    · have hlt := h.bounded j n hold
      omega
  · intro j j' n hn hn'
    rw [hnumber] at hn hn'
    rcases update_eq_some hn with ⟨rfl, rfl⟩ | ⟨-, hold⟩
    · rcases update_eq_some hn' with ⟨rfl, -⟩ | ⟨-, hold'⟩
      · rfl
      -- the new number is past every one that was given out
      · exact absurd (h.bounded j' _ hold') (lt_irrefl _)
    · rcases update_eq_some hn' with ⟨rfl, rfl⟩ | ⟨-, hold'⟩
      · exact absurd (h.bounded j _ hold) (lt_irrefl _)
      · exact h.distinct j j' n hold hold'
  · intro r j hentry
    have hentry' : (t.state.inner.dispatch.pending.insert t.state.requestId c)[r]? = some j :=
      hpending ▸ hentry
    rw [Std.TreeMap.getElem?_insert] at hentry'
    split at hentry'
    · rename_i heq
      cases hentry'
      refine ⟨call, hself, ?_, by rw [hphase]; rfl⟩
      rw [hid]
      simpa using heq
    · obtain ⟨before, hbefore, hrest⟩ := h.entries r j hentry'
      have hj : j ≠ c := by
        rintro rfl
        rw [hnew] at hbefore
        cases hbefore
      refine ⟨before, ?_, hrest⟩
      show s.calls j = some before
      rw [hcalls, Function.update_of_ne hj]
      exact hbefore
  · intro j after hafter hawaits hreply
    change s.inner.dispatch.pending[after.requestId]? = some j ∨ Reused s.calls j after.requestId
    rw [hpending, Std.TreeMap.getElem?_insert]
    rw [show (t.after a s).state.calls = _ from hcalls] at hafter
    rcases update_eq_some hafter with ⟨rfl, rfl⟩ | ⟨hj, hold⟩
    · left
      rw [if_pos (by simpa using hid.symm)]
    -- an older call with the same id has lost its entry: its id is reused
    · by_cases hsame : t.state.requestId = after.requestId
      · exact .inr ⟨c, call, Ne.symm hj, hself, hid.trans hsame⟩
      · rw [if_neg (by simpa using hsame)]
        refine (h.waiting j after hold hawaits hreply).imp_right ?_
        rintro ⟨c', call', hne, hcall', hid'⟩
        have hc' : c' ≠ c := by
          rintro rfl
          rw [hnew] at hcall'
          cases hcall'
        exact ⟨c', call', hne, by rw [hcalls, Function.update_of_ne hc']; exact hcall', hid'⟩

theorem reply_answer_ne_none (call : Call) (reply : Except String Reply) :
    (call.answer reply).reply ≠ none := by
  unfold Call.answer
  cases call.reply with
  | none => simp
  | some answer => simp

/-- The table after a step on one call, which keeps the entries or erases that of the call. -/
theorem Table.touch (h : Table t) (hstep : t.state.step a = some s) {call next : Call}
    (hregisters : a.registers = none) (hcall : t.state.calls c = some call)
    (hcalls : s.calls = Function.update t.state.calls c (some next))
    (hid : next.requestId = call.requestId)
    (hpending : (s.inner.dispatch.pending = t.state.inner.dispatch.pending ∧
        (unsettled call.phase = true → unsettled next.phase = true) ∧
        (awaits next.phase = true → next.reply = none →
          awaits call.phase = true ∧ call.reply = none)) ∨
      s.inner.dispatch.pending = t.state.inner.dispatch.pending.erase call.requestId ∧
        (awaits next.phase = true → next.reply ≠ none)) : Table (t.after a s) := by
  have hids : SameIds t.state.calls s.calls := hcalls ▸ sameIds_update hcall hid
  have hself : s.calls c = some next := by
    rw [hcalls]
    exact Function.update_self ..
  have hother : ∀ {j}, j ≠ c → s.calls j = t.state.calls j := fun hj => by
    rw [hcalls]
    exact Function.update_of_ne hj ..
  refine h.keep hstep hregisters hids ?_ ?_
  -- an entry that is left is that of another call, or of this one while it is open
  · intro r j hentry
    rcases hpending with ⟨hsame, hopens, -⟩ | ⟨herased, -⟩
    · rw [hsame] at hentry
      obtain ⟨before, hbefore, hidr, hopen⟩ := h.entries r j hentry
      by_cases hj : j = c
      · subst hj
        cases hcall.symm.trans hbefore
        exact ⟨next, hself, hid.trans hidr, hopens hopen⟩
      · exact ⟨before, (hother hj).trans hbefore, hidr, hopen⟩
    · rw [herased, Std.TreeMap.getElem?_erase] at hentry
      split at hentry
      · cases hentry
      · rename_i hne
        obtain ⟨before, hbefore, hidr, hopen⟩ := h.entries r j hentry
        have hj : j ≠ c := by
          rintro rfl
          cases hcall.symm.trans hbefore
          exact hne (by simpa using hidr)
        exact ⟨before, (hother hj).trans hbefore, hidr, hopen⟩
  · intro j after hafter hwaits hreply
    by_cases hj : j = c
    · subst hj
      cases hself.symm.trans hafter
      rcases hpending with ⟨hsame, -, hwaited⟩ | ⟨-, hover⟩
      · rw [hsame, hid]
        obtain ⟨hbefore, hnone⟩ := hwaited hwaits hreply
        exact (h.waiting j call hcall hbefore hnone).imp_right hids.reused
      · exact absurd hreply (hover hwaits)
    · have hold := h.waiting j after ((hother hj).symm.trans hafter) hwaits hreply
      rcases hpending with ⟨hsame, -⟩ | ⟨herased, -⟩
      · rw [hsame]
        exact hold.imp_right hids.reused
      · rw [herased, Std.TreeMap.getElem?_erase]
        by_cases hsame : call.requestId = after.requestId
        · exact .inr ⟨c, next, Ne.symm hj, hself, hid.trans hsame⟩
        · rw [if_neg (by simpa using hsame)]
          exact hold.imp_right hids.reused

/-- The table after `clear_dispatch`. -/
theorem Table.clear (h : Table t) (hstep : t.state.step a = some s) {reason : String}
    (hregisters : a.registers = none) (hcalls : s.calls = (t.state.clearDispatch reason).calls)
    (hpending : s.inner.dispatch.pending = ∅) : Table (t.after a s) := by
  have hids : SameIds t.state.calls s.calls := by
    rw [hcalls]
    refine sameIds_map fun c call => ?_
    split
    · rfl
    · rfl
  refine h.keep hstep hregisters hids ?_ ?_
  · intro r j hentry
    rw [hpending] at hentry
    simp at hentry
  · intro j after hafter hwaits hreply
    rw [hcalls] at hafter
    obtain ⟨before, hbefore, rfl⟩ := Option.map_eq_some_iff.mp hafter
    by_cases hown : t.state.inner.dispatch.pending[before.requestId]? = some j
    · rw [if_pos hown] at hreply
      exact absurd hreply (reply_answer_ne_none before _)
    · rw [if_neg hown] at hwaits hreply ⊢
      exact .inr (hids.reused
        ((h.waiting j before hbefore hwaits hreply).resolve_left hown))

theorem Table.step (h : Table t) (hstep : t.state.step a = some s) : Table (t.after a s) := by
  cases pending_step hstep with
  | quiet hregisters hclears hcalls hpending =>
    refine h.keep hstep hregisters (hcalls ▸ sameIds_refl _) ?_ ?_
    · rw [hcalls, hpending]
      exact h.entries
    · rw [hcalls, hpending]
      exact h.waiting
  | register hregisters hclears hnew hid hphase hcalls hpending =>
    exact h.register hstep hregisters hnew hid hphase hcalls hpending
  | move hregisters hclears hcall hcalls hpending hunsettled hawaits =>
    exact h.touch hstep hregisters hcall hcalls rfl
      (.inl ⟨hpending, hunsettled.trans, fun hwaits hreply => ⟨hawaits hwaits, hreply⟩⟩)
  | remove hregisters hclears hcall hcalls hpending hphase =>
    refine h.touch hstep hregisters hcall hcalls rfl (.inr ⟨hpending, fun hwaits => ?_⟩)
    cases hphase.symm.trans (unsettled_of_awaits hwaits)
  | answer hregisters hclears hentry hcalls hpending =>
    obtain ⟨owner, howner, rfl, -⟩ := h.entries _ _ hentry
    rw [howner] at hcalls
    exact h.touch hstep hregisters howner hcalls rfl
      (.inr ⟨hpending, fun _ => reply_answer_ne_none owner _⟩)
  | clear reason hregisters hcalls hpending => exact h.clear hstep hregisters hcalls hpending

/-! ## The connections -/

/-- The connection is the current one, or has been taken by a `terminate_current`. -/
def Used (t : Traced) (k : Nat) : Prop :=
  (∃ x, t.state.inner.connection = some x ∧ x.writer = k) ∨ (∃ who, t.takenBy who = some k) ∨
    k ∈ t.terminated

/-- A connection is installed once, and what is terminated is not the current one. No
entry belongs to a call with the writer of a terminated connection. -/
structure Wired (t : Traced) : Prop where
  opened : ∀ k, Used t k → (t.state.links k).opened = true
  replacing : ∀ k, t.state.inner.reconnectLock.map Replacing.conn = some k →
    (t.state.links k).opened = true ∧ ¬ Used t k
  current : ∀ x, t.state.inner.connection = some x →
    x.writer ∉ t.terminated ∧ ∀ who, t.takenBy who ≠ some x.writer
  holders : ∀ c k, t.writer c = some k → t.state.calls c ≠ none
  drained : ∀ (r : RequestId) c, t.state.inner.dispatch.pending[r]? = some c →
    ∀ k ∈ t.terminated, t.writer c ≠ some k

theorem wired_fresh : Wired fresh where
  opened k h := by
    rcases h with ⟨x, hx, -⟩ | ⟨who, hwho⟩ | hk
    · cases hx
    · cases hwho
    · cases hk
  replacing k h := by cases h
  current x h := by cases h
  holders c k h := by cases h
  drained r c h := by simp [fresh, State.fresh] at h

/-- An entry after a step was there before it, or is that of a new call. -/
theorem entry_origin (hstep : t.state.step a = some s) {r : RequestId}
    (h : s.inner.dispatch.pending[r]? = some c) :
    a.clears = none ∧ (t.state.inner.dispatch.pending[r]? = some c ∨ t.state.calls c = none) := by
  cases pending_step hstep with
  | quiet hregisters hclears hcalls hpending
  | move hregisters hclears hcall hcalls hpending hunsettled hawaits =>
    exact ⟨hclears, .inl (hpending ▸ h)⟩
  | register hregisters hclears hnew hid hphase hcalls hpending =>
    rw [hpending, Std.TreeMap.getElem?_insert] at h
    split at h
    · cases h
      exact ⟨hclears, .inr hnew⟩
    · exact ⟨hclears, .inl h⟩
  | remove hregisters hclears hcall hcalls hpending hphase
  | answer hregisters hclears hentry hcalls hpending =>
    rw [hpending, Std.TreeMap.getElem?_erase] at h
    split at h
    · cases h
    · exact ⟨hclears, .inl h⟩
  | clear reason hregisters hcalls hpending =>
    rw [hpending] at h
    simp at h

theorem update_ne_none {α : Type} {f : Nat → Option α} {i j : Nat} {b : α} (h : f j ≠ none) :
    Function.update f i (some b) j ≠ none := by
  by_cases hj : j = i
  · subst hj
    simp
  · rw [Function.update_of_ne hj]
    exact h

theorem call_kept (hstep : t.state.step a = some s) (h : t.state.calls c ≠ none) :
    s.calls c ≠ none := by
  cases pending_step hstep with
  | quiet hregisters hclears hcalls hpending => exact hcalls ▸ h
  | register hregisters hclears hnew hid hphase hcalls hpending
  | move hregisters hclears hcall hcalls hpending hunsettled hawaits
  | remove hregisters hclears hcall hcalls hpending hphase =>
    exact hcalls ▸ update_ne_none h
  | @answer j requestId reply hregisters hclears hentry hcalls hpending =>
    rw [hcalls]
    by_cases hj : c = j
    · subst hj
      simpa using h
    · rw [Function.update_of_ne hj]
      exact h
  | clear reason hregisters hcalls hpending =>
    rw [hcalls]
    simpa [clearDispatch] using h

/-- What a call has as its writer after a step, it had before, or it has just taken the
writer of the current connection. -/
theorem writer_origin (hstep : t.state.step a = some s) (h : t.writerAfter a c = some k) :
    t.writer c = some k ∨ (t.state.calls c ≠ none ∧
      ∃ x, t.state.inner.connection = some x ∧ x.writer = k) := by
  cases a with
  | call j b =>
    cases b with
    | takeWriter =>
      obtain ⟨call, hcall, -⟩ := stepCall_inv hstep
      cases hconn : t.state.inner.connection with
      | none =>
        rw [writerAfter, hconn] at h
        exact .inl h
      | some connection =>
        rw [writerAfter, hconn] at h
        rcases update_eq_some h with ⟨rfl, rfl⟩ | ⟨-, hold⟩
        · exact .inr ⟨by rw [hcall]; simp, connection, rfl, rfl⟩
        · exact .inl hold
    | _ => exact .inl h
  | _ => exact .inl h

theorem terminatedAfter_of_not_clears (h : a.clears = none) :
    t.terminatedAfter a = t.terminated := by
  unfold terminatedAfter
  rw [h]

theorem takenAfter_of_not_takes (h : a.takes = none) : t.takenAfter a = t.takenBy := by
  unfold takenAfter
  rw [h]

/-- The terminated connections after a step were taken or terminated before it. -/
theorem mem_terminatedAfter (h : k ∈ t.terminatedAfter a) :
    k ∈ t.terminated ∨ ∃ who, t.takenBy who = some k := by
  unfold terminatedAfter at h
  cases hclears : a.clears with
  | none =>
    rw [hclears] at h
    exact .inl h
  | some who =>
    rw [hclears] at h
    rcases List.mem_append.mp h with h | h
    · exact .inr ⟨who, by simpa using h⟩
    · exact .inl h

/-- What is taken after a step was taken before it, or was the current connection. -/
theorem taken_origin {who : Terminator} (h : t.takenAfter a who = some k) :
    (∃ who, t.takenBy who = some k) ∨
      ∃ x, t.state.inner.connection = some x ∧ x.writer = k := by
  cases htakes : a.takes with
  | none =>
    rw [takenAfter_of_not_takes htakes] at h
    exact .inl ⟨who, h⟩
  | some taker =>
    have htaken : t.takenAfter a = Function.update t.takenBy taker
        (t.state.inner.connection.map (·.writer)) := by
      unfold takenAfter
      rw [htakes]
    rw [htaken] at h
    by_cases hself : who = taker
    · rw [hself, Function.update_self] at h
      exact .inr (Option.map_eq_some_iff.mp h)
    · rw [Function.update_of_ne hself] at h
      exact .inl ⟨who, h⟩

/-- What is used after a step was used before it, or is the current connection. -/
theorem used_origin (h : Used (t.after a s) k) :
    Used t k ∨ ∃ x, s.inner.connection = some x ∧ x.writer = k := by
  rcases h with hcurrent | ⟨who, hwho⟩ | hk
  · exact .inr hcurrent
  · rcases taken_origin hwho with htaken | hcurrent
    · exact .inl (.inr (.inl htaken))
    · exact .inl (.inl hcurrent)
  · rcases mem_terminatedAfter hk with hterminated | htaken
    · exact .inl (.inr (.inr hterminated))
    · exact .inl (.inr (.inl htaken))

/-- A call has the writer of a connection only while it is there, and its entry goes before
the connection is terminated. -/
theorem Wired.holds (h : Wired t) (hstep : t.state.step a = some s) :
    (∀ c k, t.writerAfter a c = some k → s.calls c ≠ none) ∧
      ∀ (r : RequestId) c, s.inner.dispatch.pending[r]? = some c →
        ∀ k ∈ t.terminatedAfter a, t.writerAfter a c ≠ some k := by
  constructor
  · intro c k hwriter
    rcases writer_origin hstep hwriter with hold | ⟨hcall, -⟩
    · exact call_kept hstep (h.holders c k hold)
    · exact call_kept hstep hcall
  · intro r c hentry k hk hwriter
    obtain ⟨hclears, hold⟩ := entry_origin hstep hentry
    rw [terminatedAfter_of_not_clears hclears] at hk
    rcases writer_origin hstep hwriter with hwas | ⟨-, x, hx, rfl⟩
    · rcases hold with hold | hnew
      · exact h.drained r c hold k hk hwas
      · exact h.holders c k hwas hnew
    · exact (h.current x hx).1 hk

theorem Wired.rest (h : Wired t) (hstep : t.state.step a = some s)
    (hconn : ∀ x, s.inner.connection = some x → t.state.inner.connection = some x ∧ a.takes = none)
    (hopened : ∀ k, (t.state.links k).opened = true → (s.links k).opened = true)
    (hlock : ∀ k, s.inner.reconnectLock.map Replacing.conn = some k →
      (s.links k).opened = true ∧ ¬ Used t k) : Wired (t.after a s) := by
  obtain ⟨hholders, hdrained⟩ := h.holds hstep
  have hback : ∀ {k}, Used (t.after a s) k → Used t k := fun hk => by
    rcases used_origin hk with hold | ⟨x, hx, hxk⟩
    · exact hold
    · exact .inl ⟨x, (hconn x hx).1, hxk⟩
  refine ⟨fun k hk => hopened k (h.opened k (hback hk)),
    fun k hk => ⟨(hlock k hk).1, fun hused => (hlock k hk).2 (hback hused)⟩, fun x hx => ?_,
    hholders, hdrained⟩
  -- a current connection that was current before is not taken or terminated by the step
  obtain ⟨hwas, htakes⟩ := hconn x hx
  obtain ⟨hterminated, htaken⟩ := h.current x hwas
  refine ⟨fun hmem => ?_, fun who => (congrFun (takenAfter_of_not_takes htakes) who).trans_ne
    (htaken who)⟩
  rcases mem_terminatedAfter hmem with hmem | ⟨who, hwho⟩
  · exact hterminated hmem
  · exact htaken who hwho

theorem Wired.install (h : Wired t) (hstep : t.state.step a = some s) {key generation : Nat}
    (htakes : a.takes = none) (hclears : a.clears = none)
    (hlock : t.state.inner.reconnectLock = some (.cleared key))
    (hconn : s.inner.connection = some ⟨generation, key⟩)
    (hopened : ∀ k, (s.links k).opened = (t.state.links k).opened)
    (hunlock : s.inner.reconnectLock = none) : Wired (t.after a s) := by
  obtain ⟨hholders, hdrained⟩ := h.holds hstep
  obtain ⟨hopen, hunused⟩ := h.replacing key (by rw [hlock]; rfl)
  refine ⟨fun k hk => ?_, fun k hk => ?_, fun x hx => ?_, hholders, hdrained⟩
  · rcases used_origin hk with hold | ⟨x, hx, rfl⟩
    · exact (hopened k).trans (h.opened k hold)
    · cases hconn.symm.trans hx
      exact (hopened key).trans hopen
  · rw [show (t.after a s).state.inner.reconnectLock = none from hunlock] at hk
    cases hk
  · cases hconn.symm.trans hx
    constructor
    · show key ∉ t.terminatedAfter a
      rw [terminatedAfter_of_not_clears hclears]
      exact fun hmem => hunused (.inr (.inr hmem))
    · intro who hwho
      change t.takenAfter a who = some key at hwho
      rw [takenAfter_of_not_takes htakes] at hwho
      exact hunused (.inr (.inl ⟨who, hwho⟩))

theorem Wired.step (h : Wired t) (hstep : t.state.step a = some s) : Wired (t.after a s) := by
  cases connection_step hstep with
  | keep htakes hconn hopened hlock =>
    refine h.rest hstep (fun x hx => ⟨hconn ▸ hx, htakes⟩) (fun k => (hopened k).trans)
      fun k hk => ?_
    obtain ⟨hopen, hunused⟩ := h.replacing k (hlock ▸ hk)
    exact ⟨(hopened k).trans hopen, hunused⟩
  | @handshake key htakes hclears hconn hnew hopened hlock =>
    refine h.rest hstep (fun x hx => ⟨hconn ▸ hx, htakes⟩) (fun k hk => (hopened k).mpr (.inl hk))
      fun k hk => ?_
    rw [hlock] at hk
    cases hk
    exact ⟨(hopened key).mpr (.inr rfl), fun hyes => by cases hnew.symm.trans (h.opened key hyes)⟩
  | take htakes hclears hconn hopened hlock =>
    refine h.rest hstep (fun x hx => by cases hconn.symm.trans hx) (fun k => (hopened k).trans)
      fun k hk => ?_
    obtain ⟨hopen, hunused⟩ := h.replacing k (hlock ▸ hk)
    exact ⟨(hopened k).trans hopen, hunused⟩
  | install htakes hclears hlock hconn hopened hunlock =>
    exact h.install hstep htakes hclears hlock hconn hopened hunlock

/-! ## The main result -/

theorem step_inv {t' : Traced} (h : machine.step t a = some t') :
    ∃ s, t.state.step a = some s ∧ t' = t.after a s := by
  obtain ⟨s, hs, rfl⟩ := Option.map_eq_some_iff.mp h
  exact ⟨s, hs, rfl⟩

theorem table_of_reach (h : machine.Reach (fun _ _ => True) t) : Table t := by
  refine h.invariant (I := Table) ?_ ?_
  · rintro _ rfl
    exact table_fresh
  · intro t a t' hs _ hstep
    obtain ⟨s, hstate, rfl⟩ := step_inv hstep
    exact hs.step hstate

theorem wired_of_reach (h : machine.Reach (fun _ _ => True) t) : Wired t := by
  refine h.invariant (I := Wired) ?_ ?_
  · rintro _ rfl
    exact wired_fresh
  · intro t a t' hs _ hstep
    obtain ⟨s, hstate, rfl⟩ := step_inv hstep
    exact hs.step hstate

def AllOver (t : Traced) : Prop :=
  ∀ c call, t.state.calls c = some call → unsettled call.phase = false

/-- **No request is orphaned.** In every interleaving: no entry of `pending` belongs to a
call that has the writer of a terminated connection, and such a call that waits without
an answer shares its request id; two calls share a request id only when at least
`2^64 - 1` ids have been taken from the one to the other; and when all calls have
returned or been dropped, `pending` is empty. -/
theorem no_orphaned_request (h : machine.Reach (fun _ _ => True) t) :
    (∀ k ∈ t.terminated, ∀ c, t.writer c = some k →
      (∀ r : RequestId, t.state.inner.dispatch.pending[r]? ≠ some c) ∧
        ∀ call, t.state.calls c = some call → awaits call.phase = true → call.reply = none →
          Reused t.state.calls c call.requestId) ∧
    (∀ c c' call call', c ≠ c' → t.state.calls c = some call → t.state.calls c' = some call' →
      call.requestId = call'.requestId →
        ∃ m n, t.number c = some m ∧ t.number c' = some n ∧
          (m + (2 ^ 64 - 1) ≤ n ∨ n + (2 ^ 64 - 1) ≤ m)) ∧
    (AllOver t → ∀ r : RequestId, t.state.inner.dispatch.pending[r]? = none) := by
  have htable := table_of_reach h
  have hwired := wired_of_reach h
  refine ⟨?_, ?_, ?_⟩
  · intro k hk c hwriter
    have hgone : ∀ r : RequestId, t.state.inner.dispatch.pending[r]? ≠ some c := fun r hentry =>
      hwired.drained r c hentry k hk hwriter
    refine ⟨hgone, ?_⟩
    intro call hcall hawaits hreply
    exact (htable.waiting c call hcall hawaits hreply).resolve_left (hgone call.requestId)
  · intro c c' call call' hne hcall hcall' hid
    obtain ⟨m, hm, hidm⟩ := htable.numbered c call hcall
    obtain ⟨n, hn, hidn⟩ := htable.numbered c' call' hcall'
    have hmn : m ≠ n := by
      rintro rfl
      exact hne (htable.distinct c c' m hm hn)
    refine ⟨m, n, hm, hn, number_of_idOf_eq hmn ?_⟩
    rw [← hidm, ← hidn]
    exact hid
  · intro hover r
    by_contra hentry
    obtain ⟨c, hc⟩ := Option.ne_none_iff_exists'.mp hentry
    obtain ⟨call, hcall, -, hopen⟩ := htable.entries r c hc
    rw [hover c call hcall] at hopen
    cases hopen

/-- A request is in the queue of connection 0 when its reader fails. -/
def requestThenFailure : List Action :=
  connectTo 0 ++
    [Action.start 0 .ping, .call 0 .takeWriter, .call 0 .send, .terminate 0 .reader .check,
    .terminate 0 .reader .take, .terminate 0 .reader (.clear "closed")]

/-- The result for such a run: the call has been sent the failure and has no entry. -/
theorem failed_request_not_pending :
    ∃ t, machine.exec fresh requestThenFailure = some t ∧ t.terminated = [0] ∧
      t.writer 0 = some 0 ∧ (t.state.calls 0).map failure = some (some "closed") ∧
      ∀ r : RequestId, t.state.inner.dispatch.pending[r]? ≠ some 0 := by
  have hrun : ∃ t ∈ machine.exec fresh requestThenFailure, t.terminated = [0] ∧
      t.writer 0 = some 0 ∧ (t.state.calls 0).map failure = some (some "closed") := by
    decide +kernel
  obtain ⟨t, ht, hterminated, hwriter, hfailure⟩ := hrun
  have hreach : machine.Reach (fun _ _ => True) t :=
    Machine.reach_of_exec (.init rfl) (Machine.allSteps_of_forall (fun _ _ => trivial) _ _)
      (Option.mem_def.mp ht)
  obtain ⟨hgone, -⟩ :=
    (no_orphaned_request hreach).1 0
      (by rw [hterminated]; exact List.mem_singleton.mpr rfl) 0 hwriter
  exact ⟨t, Option.mem_def.mp ht, hterminated, hwriter, hfailure, hgone⟩

/-! ## The counter goes around -/

structure Started (t : Traced) (n : Nat) : Prop where
  counted : t.state.requestId = idOf n
  ids : ∀ c < n, ∃ call, t.state.calls c = some call ∧ call.requestId = idOf c
  rest : ∀ c ≥ n, t.state.calls c = none

/-- A `ping` can start at any time. -/
theorem exists_start_ping {s : State} (hnew : s.calls c = none) :
    ∃ s', s.step (.start c .ping) = some s' ∧
      s'.calls = Function.update s.calls c
        (some ⟨s.requestId, .ping, .other, .registered, none⟩) := by
  show ∃ s', s.register c .other .ping = some s' ∧ _
  unfold register
  rw [if_pos hnew]
  exact ⟨_, rfl, rfl⟩

theorem exists_started (n : Nat) : ∃ t, machine.Reach (fun _ _ => True) t ∧ Started t n := by
  induction n with
  | zero => exact ⟨fresh, .init rfl, rfl, fun c hc => absurd hc (Nat.not_lt_zero c), fun _ _ => rfl⟩
  | succ n ih =>
    obtain ⟨t, hreach, hstarted⟩ := ih
    obtain ⟨s, hs, hcalls⟩ := exists_start_ping (hstarted.rest n le_rfl)
    have hstep : machine.step t (.start n .ping) = some
        ⟨s, t.writer, t.numberAfter (.start n .ping), t.issued + 1, t.takenBy, t.terminated⟩ := by
      show (t.state.step _).map _ = some _
      rw [hs]
      rfl
    refine ⟨_, .step hreach trivial hstep,
      requestId_of_next hstarted.counted (next_step hs), ?_, ?_⟩
    · intro c hc
      show ∃ call, s.calls c = some call ∧ _
      rw [hcalls]
      by_cases hcn : c = n
      · subst hcn
        exact ⟨_, Function.update_self .., hstarted.counted⟩
      · rw [Function.update_of_ne hcn]
        exact hstarted.ids c (by omega)
    · intro c hc
      show s.calls c = none
      rw [hcalls, Function.update_of_ne (by omega)]
      exact hstarted.rest c (by omega)

/-- After `2^64` calls the last has the request id of the first. -/
theorem request_id_reused :
    ∃ t call call', machine.Reach (fun _ _ => True) t ∧ t.state.calls 0 = some call ∧
      t.state.calls (2 ^ 64 - 1) = some call' ∧ call.requestId = call'.requestId := by
  obtain ⟨t, hreach, hstarted⟩ := exists_started (2 ^ 64)
  obtain ⟨call, hcall, hid⟩ := hstarted.ids 0 (by decide)
  obtain ⟨call', hcall', hid'⟩ := hstarted.ids (2 ^ 64 - 1) (by decide)
  refine ⟨t, call, call', hreach, hcall, hcall', ?_⟩
  rw [hid, hid']
  rfl

end Traced

end TuxStack.Ipc
