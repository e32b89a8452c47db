import TuxStack.Docker.TerminalSession
import TuxStack.Ipc.Protocol

/-!
# What a consumer of a terminal's output gets

`run_terminal_subscription` (`crates/tuxstack-daemon/src/ipc.rs`) reads the channel of a
session and takes its end for the exit of the shell.

`output_complete` says what a consumer that keeps draining gets: all chunks, and then the
error of the output task when it failed, in every run in which the channel has room when
that error is put there and no write of the input task fails. `failure_lost` is the
converse for the room, and `failure_reported_as_exit` a connection that is lost behind 128
unread chunks. `received_in_order` holds in every run.
-/

namespace TuxStack.Docker

open Runs Vfs Ipc

/-! ## The output loop of a subscription -/

def terminalOutputBytes : ContainerTerminalOutput → Bytes
  | .stdOut bytes | .stdErr bytes | .stdIn bytes | .console bytes => bytes

def terminalProtocolError (error : ContainerTerminalError) : ProtocolError :=
  match error with
  | .invalidOptions => ⟨.invalidRequest, error.message, false⟩
  | .notRunning | .paused | .shellNotFound => ⟨.conflict, error.message, false⟩
  | .permission => ⟨.permissionDenied, error.message, false⟩
  | .dockerUnavailable => ⟨.dockerUnavailable, error.message, true⟩
  | .timeout => ⟨.operationTimedOut, error.message, true⟩
  | .cancelled => ⟨.cancelled, error.message, true⟩
  | .createFailed | .startFailed | .disconnected | .resizeFailed =>
    ⟨.dockerUnavailable, error.message, true⟩

structure ContainerTerminalExecStatus where
  running : Bool
  exitCode : Option Int
deriving DecidableEq, Repr

/-- A round of the loop: the cancellation of the subscription, or what `output.next` gave,
with the result of `send_event`. -/
inductive LoopTurn where
  | cancelled
  | item (item : Option TerminalItem) (sent : Bool)
deriving DecidableEq, Repr

def LoopTurn.item? : LoopTurn → Option (Option TerminalItem)
  | .cancelled => none
  | .item received _ => some received

/-- What a round sends, and the reason when it is the last one; `status` is the answer of
`session.inspect` at the end of the stream. -/
def terminalTurn (id : SubscriptionId) (status : Option ContainerTerminalExecStatus) :
    LoopTurn → List ServerEvent × Option SubscriptionEndReason
  | .cancelled => ([], some .unsubscribed)
  | .item (some (.ok output)) sent =>
    if sent then ([.terminalOutput id (terminalOutputBytes output)], none)
    else ([], some .unsubscribed)
  | .item (some (.error error)) sent =>
    (if sent then [.terminalState id (.failed error.message)] else [],
      some (.error (terminalProtocolError error)))
  | .item none sent =>
    (if sent then [.terminalState id (.exited (status.bind (·.exitCode)))] else [],
      some .completed)

def runTerminalOutput (id : SubscriptionId) (status : Option ContainerTerminalExecStatus) :
    List LoopTurn → List ServerEvent × Option SubscriptionEndReason
  | [] => ([], none)
  | turn :: turns =>
    match terminalTurn id status turn with
    | (events, some reason) => (events, some reason)
    | (events, none) =>
      let rest := runTerminalOutput id status turns
      (events ++ rest.1, rest.2)

def ReportsExit (outcome : List ServerEvent × Option SubscriptionEndReason) : Prop :=
  outcome.2 = some .completed ∨
    ∃ id exitCode, ServerEvent.terminalState id (.exited exitCode) ∈ outcome.1

/-- A subscription that reports the exit has come to the end of a stream without errors. -/
theorem items_of_reportsExit {id : SubscriptionId} {status : Option ContainerTerminalExecStatus} :
    ∀ {turns : List LoopTurn}, ReportsExit (runTerminalOutput id status turns) →
      ∃ outputs : List ContainerTerminalOutput,
        outputs.map (fun output => some (.ok output)) ++ [none] <+: turns.filterMap LoopTurn.item?
  | [], h => by
      rcases h with h | ⟨_, _, h⟩
      · cases h
      · cases h
  | turn :: turns, h => by
      cases turn with
      | cancelled =>
        rcases h with h | ⟨_, _, h⟩
        · cases h
        · cases h
      | item item sent =>
        cases item with
        | none => exact ⟨[], turns.filterMap LoopTurn.item?, by rw [List.filterMap_cons]; rfl⟩
        | some item =>
          cases item with
          | error error =>
            rcases h with h | ⟨_, _, h⟩
            · cases h
            · cases sent with
              | false => cases h
              | true =>
                cases h with
                | tail _ h => cases h
          | ok output =>
            cases sent with
            | false =>
              rcases h with h | ⟨_, _, h⟩
              · cases h
              · cases h
            | true =>
              have hrest : ReportsExit (runTerminalOutput id status turns) := by
                refine h.imp_right ?_
                rintro ⟨i, exitCode, hmem⟩
                refine ⟨i, exitCode, ?_⟩
                cases hmem with
                | tail _ hmem => exact hmem
              obtain ⟨outputs, hprefix⟩ := items_of_reportsExit hrest
              refine ⟨output :: outputs, ?_⟩
              rw [List.filterMap_cons]
              exact List.cons_prefix_cons.mpr ⟨rfl, hprefix⟩

/-! ## Every run -/

def TerminalItem.chunk? : TerminalItem → Option ContainerTerminalOutput
  | .ok chunk => some chunk
  | .error _ => none

/-- The chunk that the output task holds. -/
def OutputPhase.pending : OutputPhase → List ContainerTerminalOutput
  | .sending chunk => [chunk]
  | _ => []

/-- The output task takes no more chunks. -/
def OutputPhase.finished : OutputPhase → Bool
  | .cancelling | .ended => true
  | _ => false

/-- Past its output task, nothing of the session can come to report an error. -/
def InputPhase.healthy : InputPhase → Bool
  | .reporting _ | .cancelling => false
  | _ => true

namespace TerminalSession

variable {chunks : List LogOutput} {ending : OutputEnd} {s s' : TerminalSession}
  {a : TerminalAction}

/-- The chunks on their way, in the order in which the consumer is to get them. -/
def passed (s : TerminalSession) : List ContainerTerminalOutput :=
  (s.received ++ s.queue).filterMap TerminalItem.chunk? ++ s.output.pending

/-- Nothing is lost but what is left over when the output task stops. -/
def InOrder (chunks : List LogOutput) (s : TerminalSession) : Prop :=
  ∃ lost, s.passed ++ lost ++ s.source.map mapOutput = chunks.map mapOutput ∧
    (s.output.finished = false → lost = [])

theorem filterMap_trySend (s : TerminalSession) (error : ContainerTerminalError) :
    (s.received ++ (s.trySend (.error error)).queue).filterMap TerminalItem.chunk? =
      (s.received ++ s.queue).filterMap TerminalItem.chunk? := by
  show (s.received ++ (if s.receiverOpen && s.hasRoom then _ else _)).filterMap _ = _
  split
  · rw [← List.append_assoc, List.filterMap_append]
    exact List.append_nil _
  · rfl

theorem InOrder.frame (h : InOrder chunks s) (hpassed : s'.passed = s.passed)
    (hsource : s'.source = s.source)
    (hfinished : s'.output.finished = false → s.output.finished = false) :
    InOrder chunks s' := by
  obtain ⟨lost, hflow, hlost⟩ := h
  refine ⟨lost, ?_, fun h => hlost (hfinished h)⟩
  rw [hpassed, hsource]
  exact hflow

theorem inOrder_output (h : InOrder chunks s) (hstep : OutputStep ending s s') :
    InOrder chunks s' := by
  cases hstep with
  | leave hphase _ | cancel hphase =>
    refine h.frame ?_ rfl fun h => by cases h
    rw [passed, passed, hphase]
    rfl
  | take hphase _ hsource =>
    obtain ⟨lost, hflow, hlost⟩ := h
    rw [hlost (by rw [hphase]; rfl)] at hflow
    refine ⟨[], ?_, fun _ => rfl⟩
    rw [← hflow, passed, passed, hphase, hsource]
    simp [OutputPhase.pending]
  | close phase hphase _ _ hnext =>
    refine h.frame ?_ rfl fun _ => by rw [hphase]; rfl
    rw [passed, passed, hphase]
    rcases hnext with rfl | ⟨rfl, -⟩
    · rfl
    · rfl
  | @giveUp chunk hphase _ =>
    obtain ⟨lost, hflow, hlost⟩ := h
    rw [hlost (by rw [hphase]; rfl)] at hflow
    refine ⟨[chunk], ?_, fun h => by cases h⟩
    rw [← hflow, passed, passed, hphase]
    simp [OutputPhase.pending]
  | send hphase _ _ =>
    refine h.frame ?_ rfl fun _ => by rw [hphase]; rfl
    rw [passed, passed, hphase]
    simp [OutputPhase.pending, TerminalItem.chunk?]
  | inspect phase hphase hnext =>
    refine h.frame ?_ rfl fun _ => by rw [hphase]; rfl
    rw [passed, passed, hphase]
    rcases hnext with ⟨_, -, rfl⟩ | ⟨-, rfl⟩
    · rfl
    · rfl
  | @report error hphase =>
    refine h.frame ?_ rfl fun h => by cases h
    rw [passed, passed, hphase]
    exact congrArg (· ++ []) (s.filterMap_trySend error)

theorem inOrder_input {answer : InputAnswer} (h : InOrder chunks s)
    (hstep : InputStep s answer s') : InOrder chunks s' := by
  cases hstep with
  | @report error _ =>
    refine h.frame ?_ rfl id
    exact congrArg (· ++ s.output.pending) (s.filterMap_trySend error)
  | _ => exact h.frame rfl rfl id

theorem inOrder_step (h : InOrder chunks s) (hstep : step ending s a = some s') :
    InOrder chunks s' := by
  cases a with
  | output => exact inOrder_output h (stepOutput_cases hstep)
  | input answer => exact inOrder_input h (stepInput_cases hstep)
  | receive =>
    rcases stepReceive_cases hstep with ⟨item, queue, hqueue, rfl⟩ | ⟨-, -, -, -, rfl⟩
    · refine h.frame ?_ rfl id
      rw [passed, passed, hqueue]
      simp
    · exact h.frame rfl rfl id
  | cancel | dropReceiver =>
    cases hstep
    exact h.frame rfl rfl id

/-- **The chunks that were received are the first ones of the exec, in their order**,
whatever is cancelled, closed or fails. -/
theorem received_in_order (h : (machine chunks ending).Reach (fun _ _ => True) s) :
    s.received.filterMap TerminalItem.chunk? <+: chunks.map mapOutput := by
  have hinOrder : InOrder chunks s := by
    refine h.invariant ?_ ?_
    · rintro s rfl
      exact ⟨[], rfl, fun _ => rfl⟩
    · intro s a s' hs _ hstep
      change step ending s a = some s' at hstep
      exact inOrder_step hs hstep
  obtain ⟨lost, hflow, -⟩ := hinOrder
  rw [passed, List.filterMap_append, List.append_assoc, List.append_assoc,
    List.append_assoc] at hflow
  exact ⟨_, hflow⟩

theorem one_chunk_in_order : ∃ s,
    (machine [.console [120]] .streamError).exec (start [.console [120]])
      [.output, .output, .receive] = some s ∧
    s.received.filterMap TerminalItem.chunk? <+: [LogOutput.console [120]].map mapOutput := by
  obtain ⟨s, hs⟩ : ∃ s, (machine [.console [120]] .streamError).exec (start [.console [120]])
      [.output, .output, .receive] = some s := Option.isSome_iff_exists.mp (by decide)
  exact ⟨s, hs, received_in_order (Machine.reach_of_run rfl hs)⟩

/-! ## Undisturbed runs -/

/-- The consumer keeps the channel, nobody cancels, and no write of the input task fails. -/
def Undisturbed : TerminalAction → Bool
  | .input .failed | .input .timedOut | .cancel | .dropReceiver => false
  | _ => true

/-- What the stream carries of the output. -/
def okItems (chunks : List LogOutput) : List TerminalItem :=
  chunks.map fun chunk => .ok (mapOutput chunk)

/-- All that the consumer got or is going to get, as things stand. -/
def stream (s : TerminalSession) : List TerminalItem :=
  s.received ++ s.queue ++ s.output.pending.map .ok ++ okItems s.source

/-- What a step adds to the stream. -/
def reported (s : TerminalSession) (a : TerminalAction) : List TerminalItem :=
  match a, s.output with
  | .output, .reporting error => if s.hasRoom then [.error error] else []
  | _, _ => []

structure Calm (chunks : List LogOutput) (ending : OutputEnd) (s : TerminalSession) : Prop where
  receiver : s.receiverOpen = true
  input : s.input.healthy = true
  live : s.output ≠ .ended →
    s.cancelled = false ∧ s.streamEnded = false ∧ s.input ≠ .shutdown ∧ s.input ≠ .ended
  ended : s.output = .ended → s.cancelled = true
  closed : s.streamEnded = true → s.queue = []
  drained : s.source = [] ∨ s.output = .reading ∨ ∃ chunk, s.output = .sending chunk
  failure : ∀ error, s.output = .reporting error → ending.failure = some error
  flow : s.output.finished = false → s.stream = okItems chunks

variable {error : ContainerTerminalError}

theorem reported_reporting (hphase : s.output = .reporting error) :
    s.reported .output = if s.hasRoom then [.error error] else [] := by
  unfold reported
  rw [hphase]

theorem reported_eq_nil (s : TerminalSession) (a : TerminalAction)
    (hphase : ∀ error, s.output ≠ .reporting error) : s.reported a = [] := by
  unfold reported
  split
  · next error h => exact absurd h (hphase error)
  · rfl

theorem calm_start : Calm chunks ending (start chunks) where
  receiver := rfl
  input := rfl
  live _ := ⟨rfl, rfl, nofun, nofun⟩
  ended h := by cases h
  closed h := by cases h
  drained := .inr (.inl rfl)
  failure _ h := by cases h
  flow _ := rfl

theorem Calm.cancelled_eq_false (h : Calm chunks ending s) (hlive : s.output ≠ .ended) :
    s.cancelled = false :=
  (h.live hlive).1

theorem Calm.not_gone (h : Calm chunks ending s) (hlive : s.output ≠ .ended) :
    ¬ (s.cancelled = true ∨ s.receiverOpen = false) := by
  rintro (hcancelled | hclosed)
  · rw [h.cancelled_eq_false hlive] at hcancelled
    cases hcancelled
  · rw [h.receiver] at hclosed
    cases hclosed

theorem Calm.source_eq_nil (h : Calm chunks ending s) (hreading : s.output ≠ .reading)
    (hsending : ∀ chunk, s.output ≠ .sending chunk) : s.source = [] := by
  rcases h.drained with hsource | hphase | ⟨chunk, hphase⟩
  · exact hsource
  · exact absurd hphase hreading
  · exact absurd hphase (hsending chunk)

theorem Calm.move (h : Calm chunks ending s) (hlive : s.output ≠ .ended)
    {phase : OutputPhase} {source : List LogOutput} {queue : List TerminalItem}
    (hphase : phase ≠ .ended)
    (hdrained : source = [] ∨ phase = .reading ∨ ∃ chunk, phase = .sending chunk)
    (hfailure : ∀ error, phase = .reporting error → ending.failure = some error)
    (hflow : phase.finished = false →
      stream { s with output := phase, source := source, queue := queue } = okItems chunks) :
    Calm chunks ending { s with output := phase, source := source, queue := queue } where
  receiver := h.receiver
  input := h.input
  live _ := h.live hlive
  ended h := absurd h hphase
  closed hend := by
    rw [(h.live hlive).2.1] at hend
    cases hend
  drained := hdrained
  failure := hfailure
  flow := hflow

theorem Calm.setInput (h : Calm chunks ending s) {phase : InputPhase}
    (hhealthy : phase.healthy = true)
    (hstop : s.output ≠ .ended → phase ≠ .shutdown ∧ phase ≠ .ended) :
    Calm chunks ending { s with input := phase } where
  receiver := h.receiver
  input := hhealthy
  live hlive := ⟨(h.live hlive).1, (h.live hlive).2.1, hstop hlive⟩
  ended := h.ended
  closed := h.closed
  drained := h.drained
  failure := h.failure
  flow := h.flow

/-! ### The output task -/

theorem stream_output (h : Calm chunks ending s) (hstep : OutputStep ending s s') :
    s'.stream = s.stream ++ s.reported .output := by
  cases hstep with
  | leave hphase hcancelled =>
    exact absurd (.inl hcancelled) (h.not_gone (by rw [hphase]; nofun))
  | take hphase _ hsource =>
    simp [stream, reported, hphase, hsource, OutputPhase.pending, okItems]
  | close phase hphase _ _ hnext =>
    rcases hnext with rfl | ⟨rfl, -⟩
    · simp [stream, reported, hphase, OutputPhase.pending]
    · simp [stream, reported, hphase, OutputPhase.pending]
  | giveUp hphase hgone =>
    exact absurd hgone (h.not_gone (by rw [hphase]; nofun))
  | send hphase _ _ | cancel hphase => simp [stream, reported, hphase, OutputPhase.pending]
  | inspect phase hphase hnext =>
    rcases hnext with ⟨_, -, rfl⟩ | ⟨-, rfl⟩
    · simp [stream, reported, hphase, OutputPhase.pending]
    · simp [stream, reported, hphase, OutputPhase.pending]
  | @report error hphase =>
    have hsource := h.source_eq_nil (by rw [hphase]; nofun) (by rw [hphase]; nofun)
    have hqueue : (s.trySend (.error error)).queue = s.queue ++ s.reported .output := by
      show (if s.receiverOpen && s.hasRoom then _ else _) = _
      rw [h.receiver, Bool.true_and, reported_reporting hphase]
      split
      · rfl
      · rw [List.append_nil]
    show s.received ++ (s.trySend (.error error)).queue ++ [] ++ okItems s.source =
      s.received ++ s.queue ++ s.output.pending.map .ok ++ okItems s.source ++ _
    rw [hqueue, hsource, hphase]
    simp [okItems, OutputPhase.pending]

theorem calm_output (h : Calm chunks ending s) (hstep : OutputStep ending s s') :
    Calm chunks ending s' := by
  have hstream := stream_output h hstep
  cases hstep with
  -- nothing has cancelled a calm session, nor has its receiver gone
  | leave hphase hcancelled =>
    exact absurd (.inl hcancelled) (h.not_gone (by rw [hphase]; nofun))
  | take hphase _ hsource =>
    have hflow := h.flow (by rw [hphase]; rfl)
    have hnone := s.reported_eq_nil .output (by rw [hphase]; nofun)
    refine h.move (by rw [hphase]; nofun) nofun (.inr (.inr ⟨_, rfl⟩)) nofun fun _ => ?_
    rw [hstream, hflow, hnone]
    exact List.append_nil _
  | close phase hphase _ hsource hnext =>
    have hflow := h.flow (by rw [hphase]; rfl)
    have hnone := s.reported_eq_nil .output (by rw [hphase]; nofun)
    refine h.move (by rw [hphase]; nofun) ?_ (.inl hsource) ?_ fun _ => ?_
    · rcases hnext with rfl | ⟨rfl, -⟩
      · nofun
      · nofun
    · rintro error rfl
      rcases hnext with hnext | ⟨hnext, rfl⟩
      · cases hnext
      · cases hnext
        rfl
    · rw [hstream, hflow, hnone]
      exact List.append_nil _
  | giveUp hphase hgone =>
    exact absurd hgone (h.not_gone (by rw [hphase]; nofun))
  | send hphase _ _ =>
    have hflow := h.flow (by rw [hphase]; rfl)
    have hnone := s.reported_eq_nil .output (by rw [hphase]; nofun)
    refine h.move (by rw [hphase]; nofun) nofun (.inr (.inl rfl)) nofun fun _ => ?_
    rw [hstream, hflow, hnone]
    exact List.append_nil _
  | inspect phase hphase hnext =>
    have hflow := h.flow (by rw [hphase]; rfl)
    have hnone := s.reported_eq_nil .output (by rw [hphase]; nofun)
    have hsource := h.source_eq_nil (by rw [hphase]; nofun) (by rw [hphase]; nofun)
    refine h.move (by rw [hphase]; nofun) ?_ (.inl hsource) ?_ fun _ => ?_
    · rcases hnext with ⟨_, -, rfl⟩ | ⟨-, rfl⟩
      · nofun
      · nofun
    · rintro error rfl
      rcases hnext with ⟨e, he, hnext⟩ | ⟨-, hnext⟩
      · cases hnext
        exact he
      · cases hnext
    · rw [hstream, hflow, hnone]
      exact List.append_nil _
  | @report error hphase =>
    have hsource := h.source_eq_nil (by rw [hphase]; nofun) (by rw [hphase]; nofun)
    exact h.move (by rw [hphase]; nofun) nofun (.inl hsource) nofun nofun
  | cancel hphase =>
    have hsource := h.source_eq_nil (by rw [hphase]; nofun) (by rw [hphase]; nofun)
    exact ⟨h.receiver, h.input, fun hlive => absurd rfl hlive, fun _ => rfl, h.closed,
      .inl hsource, nofun, nofun⟩

/-! ### All steps -/

/-- The input task of an undisturbed run moves on without a failure. -/
theorem input_undisturbed {answer : InputAnswer} (h : Calm chunks ending s)
    (hok : Undisturbed (.input answer)) (hstep : InputStep s answer s') :
    ∃ phase : InputPhase, s' = { s with input := phase } ∧ phase.healthy = true ∧
      (s.output ≠ .ended → phase ≠ .shutdown ∧ phase ≠ .ended) := by
  have stopped : ∀ {phase : InputPhase}, s.cancelled = true →
      (s.output ≠ .ended → phase ≠ .shutdown ∧ phase ≠ .ended) := by
    intro phase hcancelled hlive
    rw [h.cancelled_eq_false hlive] at hcancelled
    cases hcancelled
  cases hstep with
  | ignore => exact ⟨s.input, rfl, h.input, fun hlive => (h.live hlive).2.2⟩
  | accept _ | write _ => exact ⟨_, rfl, rfl, fun _ => ⟨nofun, nofun⟩⟩
  | fail error _ hanswer =>
    rcases hanswer with rfl | rfl
    · cases hok
    · cases hok
  | stop _ hcancelled | abort _ hcancelled => exact ⟨_, rfl, rfl, stopped hcancelled⟩
  | report hphase | cancel hphase =>
    have hhealthy := h.input
    rw [hphase] at hhealthy
    cases hhealthy
  | close hphase =>
    refine ⟨_, rfl, rfl, fun hlive => ?_⟩
    exact absurd hphase (h.live hlive).2.2.1

/-- **A step of an undisturbed run**: only the report of the output task adds to the
stream. -/
theorem calm_step (h : Calm chunks ending s) (hok : Undisturbed a)
    (hstep : step ending s a = some s') :
    Calm chunks ending s' ∧ s'.stream = s.stream ++ s.reported a := by
  cases a with
  | output =>
    have hcases := stepOutput_cases hstep
    exact ⟨calm_output h hcases, stream_output h hcases⟩
  | input answer =>
    obtain ⟨phase, rfl, hhealthy, hstop⟩ :=
      input_undisturbed h hok (stepInput_cases hstep)
    exact ⟨h.setInput hhealthy hstop, (List.append_nil _).symm⟩
  | receive =>
    rcases stepReceive_cases hstep with ⟨item, queue, hqueue, rfl⟩ | ⟨hqueue, hended, -, -, rfl⟩
    · have hstream : stream { s with queue := queue, received := s.received ++ [item] } =
          s.stream := by
        simp [stream, hqueue]
      refine ⟨⟨h.receiver, h.input, h.live, h.ended, fun hclosed => ?_, h.drained, h.failure,
        fun hfinished => hstream.trans (h.flow hfinished)⟩, ?_⟩
      · rw [h.closed hclosed] at hqueue
        cases hqueue
      · rw [hstream]
        exact (List.append_nil _).symm
    · exact ⟨⟨h.receiver, h.input, fun hlive => absurd hended hlive, h.ended, fun _ => hqueue,
        h.drained, h.failure, h.flow⟩, (List.append_nil _).symm⟩
  | cancel | dropReceiver => cases hok

theorem finished_step (h : Calm chunks ending s) (hok : Undisturbed a)
    (hstep : step ending s a = some s') (hfinished : s'.output.finished = true) :
    s.output.finished = true ∨ ending.failure = none ∨
      (a = .output ∧ ∃ error, s.output = .reporting error) := by
  cases a with
  | output =>
    cases stepOutput_cases hstep with
    | leave hphase hcancelled =>
      exact absurd (.inl hcancelled) (h.not_gone (by rw [hphase]; nofun))
    | take _ _ _ => cases hfinished
    | close phase _ _ _ hnext =>
      rcases hnext with rfl | ⟨rfl, -⟩
      · cases hfinished
      · cases hfinished
    | giveUp hphase hgone =>
      exact absurd hgone (h.not_gone (by rw [hphase]; nofun))
    | send _ _ _ => cases hfinished
    | inspect phase _ hnext =>
      rcases hnext with ⟨_, -, rfl⟩ | ⟨hnone, rfl⟩
      · cases hfinished
      · exact .inr (.inl hnone)
    | report hphase => exact .inr (.inr ⟨rfl, _, hphase⟩)
    | cancel hphase =>
      refine .inl ?_
      rw [hphase]
      rfl
  | input answer =>
    obtain ⟨phase, rfl, -⟩ := input_undisturbed h hok (stepInput_cases hstep)
    exact .inl hfinished
  | receive =>
    rcases stepReceive_cases hstep with ⟨_, _, _, rfl⟩ | ⟨_, _, _, _, rfl⟩
    · exact .inl hfinished
    · exact .inl hfinished
  | cancel | dropReceiver => cases hok

theorem finished_kept (h : Calm chunks ending s) (hok : Undisturbed a)
    (hstep : step ending s a = some s') (hfinished : s.output.finished = true) :
    s'.output.finished = true ∧ s.reported a = [] := by
  refine ⟨?_, s.reported_eq_nil a fun error hphase => by rw [hphase] at hfinished; cases hfinished⟩
  cases a with
  | output =>
    have hcases := stepOutput_cases hstep
    cases hcases with
    | leave _ _ | giveUp _ _ | report _ | cancel _ => rfl
    | take hphase _ _ | close _ hphase _ _ _ | send hphase _ _ | inspect _ hphase _ =>
      rw [hphase] at hfinished
      cases hfinished
  | input answer =>
    obtain ⟨phase, rfl, -⟩ := input_undisturbed h hok (stepInput_cases hstep)
    exact hfinished
  | receive =>
    rcases stepReceive_cases hstep with ⟨_, _, _, rfl⟩ | ⟨_, _, _, _, rfl⟩
    · exact hfinished
    · exact hfinished
  | cancel | dropReceiver => cases hok

/-! ## What the consumer gets -/

/-- The error of the output task, when it fails. -/
def failureItems (ending : OutputEnd) : List TerminalItem :=
  ending.failure.toList.map .error

/-- All chunks in order, an error as the last item exactly when the output task failed, and
no exit reported when it did. -/
structure OutputComplete (chunks : List LogOutput) (ending : OutputEnd) (s : TerminalSession) :
    Prop where
  chunks : s.received.filterMap TerminalItem.chunk? = chunks.map mapOutput
  error : (∃ error, s.received.getLast? = some (.error error)) ↔ ending.failure.isSome
  exited : ∀ id status turns,
    turns.filterMap LoopTurn.item? <+: s.received.map some ++ [none] →
    ReportsExit (runTerminalOutput id status turns) → ending.failure = none

theorem filterMap_okItems (chunks : List LogOutput) :
    (okItems chunks).filterMap TerminalItem.chunk? = chunks.map mapOutput := by
  rw [okItems, List.filterMap_map]
  exact congrFun List.filterMap_eq_map chunks

theorem not_error_mem_okItems : .error error ∉ okItems chunks := by
  intro h
  obtain ⟨_, -, h⟩ := List.mem_map.mp h
  cases h

/-- A closed stream is as long as the outputs in front of its end. -/
theorem eq_of_closed_prefix {α : Type*} :
    ∀ {l l' : List α}, l.map some ++ [none] <+: l'.map some ++ [none] → l = l'
  | [], [], _ => rfl
  | [], _ :: _, h => by cases (List.cons_prefix_cons.mp h).1
  | _ :: _, [], h => by cases (List.cons_prefix_cons.mp h).1
  | a :: l, b :: l', h => by
      obtain ⟨hhead, htail⟩ := List.cons_prefix_cons.mp h
      rw [Option.some.inj hhead, eq_of_closed_prefix htail]

theorem OutputComplete.of_received
    (h : s.received = okItems chunks ++ failureItems ending) : OutputComplete chunks ending s := by
  cases hfailure : ending.failure with
  | none =>
    have hreceived : s.received = okItems chunks := by
      rw [h, failureItems, hfailure]
      exact List.append_nil _
    refine ⟨by rw [hreceived, filterMap_okItems], ?_, fun _ _ _ _ _ => hfailure⟩
    rw [hreceived, hfailure]
    refine ⟨?_, nofun⟩
    rintro ⟨error, hlast⟩
    exact absurd (List.mem_of_getLast? hlast) not_error_mem_okItems
  | some error =>
    have hreceived : s.received = okItems chunks ++ [.error error] := by
      rw [h, failureItems, hfailure]
      rfl
    refine ⟨?_, ?_, ?_⟩
    · rw [hreceived, List.filterMap_append, filterMap_okItems]
      exact List.append_nil _
    · rw [hreceived, hfailure]
      exact ⟨fun _ => rfl, fun _ => ⟨error, List.getLast?_concat⟩⟩
    · intro id status turns hturns hexit
      obtain ⟨outputs, hprefix⟩ := items_of_reportsExit hexit
      have hall : outputs.map Except.ok = s.received := by
        refine eq_of_closed_prefix ?_
        rw [List.map_map]
        exact hprefix.trans hturns
      have hmem : .error error ∈ s.received := by
        rw [hreceived]
        exact List.mem_append_right _ List.mem_cons_self
      rw [← hall] at hmem
      obtain ⟨_, -, hne⟩ := List.mem_map.mp hmem
      cases hne

theorem Calm.stream_eq (h : Calm chunks ending s) (hended : s.streamEnded = true) :
    s.stream = s.received := by
  have houtput : s.output = .ended := by
    by_contra hlive
    rw [(h.live hlive).2.1] at hended
    cases hended
  have hsource := h.source_eq_nil (by rw [houtput]; nofun) (by rw [houtput]; nofun)
  rw [stream, h.closed hended, houtput, hsource]
  simp [OutputPhase.pending, okItems]

/-- The channel has room when the output task is about to report an error. -/
def roomForFailure (s : TerminalSession) : Bool :=
  match s.output with
  | .reporting _ => s.hasRoom
  | _ => true

/-- The steps after which the output is complete. -/
def Delivers (s : TerminalSession) (a : TerminalAction) : Prop :=
  Undisturbed a = true ∧ (a = .output → s.roomForFailure = true)

instance (s : TerminalSession) (a : TerminalAction) : Decidable (Delivers s a) :=
  inferInstanceAs (Decidable (_ ∧ _))

/-- Once the output task has ended, the stream has its error as well. -/
def Delivered (chunks : List LogOutput) (ending : OutputEnd) (s : TerminalSession) : Prop :=
  s.output.finished = true → s.stream = okItems chunks ++ failureItems ending

theorem delivered_step (h : Calm chunks ending s) (hdone : Delivered chunks ending s)
    (hok : Delivers s a) (hstep : step ending s a = some s') : Delivered chunks ending s' := by
  intro hfinished
  obtain ⟨-, hstream⟩ := calm_step h hok.1 hstep
  cases hbefore : s.output.finished with
  | true => rw [hstream, (finished_kept h hok.1 hstep hbefore).2, List.append_nil, hdone hbefore]
  | false =>
    rw [hstream, h.flow hbefore]
    rcases finished_step h hok.1 hstep hfinished with hafter | hnone | ⟨rfl, error, hphase⟩
    · rw [hbefore] at hafter
      cases hafter
    · rw [failureItems, hnone, s.reported_eq_nil a]
      · rfl
      · intro error hphase
        rw [h.failure error hphase] at hnone
        cases hnone
    · have hroom := hok.2 rfl
      rw [roomForFailure, hphase] at hroom
      rw [reported_reporting hphase, if_pos hroom, failureItems, h.failure error hphase]
      rfl

theorem delivered_of_reach (h : (machine chunks ending).Reach Delivers s) :
    Calm chunks ending s ∧ Delivered chunks ending s := by
  refine h.invariant (I := fun s => Calm chunks ending s ∧ Delivered chunks ending s) ?_ ?_
  · rintro s rfl
    exact ⟨calm_start, nofun⟩
  · rintro s a s' ⟨hcalm, hdone⟩ hok hstep
    exact ⟨(calm_step hcalm hok.1 hstep).1, delivered_step hcalm hdone hok hstep⟩

theorem stepOutput_isSome (hroom : s.hasRoom = true) (hlive : s.output ≠ .ended) :
    (s.stepOutput ending).isSome := by
  unfold stepOutput
  cases hphase : s.output with
  | reading =>
    dsimp only
    split
    · rfl
    · split
      · rfl
      · split <;> rfl
  | sending chunk =>
    dsimp only
    rw [hroom]
    split
    · rfl
    · rfl
  | inspecting =>
    dsimp only
    split <;> rfl
  | reporting error => rfl
  | cancelling => rfl
  | ended => exact absurd hphase hlive

theorem exists_input_step (hcancelled : s.cancelled = true) (hhealthy : s.input.healthy = true)
    (hlive : s.input ≠ .ended) :
    ∃ answer, working (.input answer) = true ∧ Undisturbed (.input answer) = true ∧
      (s.stepInput answer).isSome := by
  unfold stepInput
  cases hphase : s.input with
  | receiving | writing bytes => exact ⟨.cancelled, rfl, rfl, by rw [hcancelled]; rfl⟩
  | shutdown => exact ⟨.proceed, rfl, rfl, rfl⟩
  | ended => exact absurd hphase hlive
  | reporting error | cancelling =>
    rw [hphase] at hhealthy
    cases hhealthy

theorem exists_working_step (h : Calm chunks ending s) (hopen : s.streamEnded = false) :
    ∃ a, working a = true ∧ Delivers s a ∧ (step ending s a).isSome := by
  cases hqueue : s.queue with
  | cons item queue =>
    refine ⟨.receive, rfl, ⟨rfl, nofun⟩, ?_⟩
    show s.stepReceive.isSome
    rw [stepReceive, hopen, h.receiver, hqueue]
    rfl
  | nil =>
    have hroom : s.hasRoom = true := by
      rw [hasRoom, hqueue]
      rfl
    by_cases houtput : s.output = .ended
    · by_cases hinput : s.input = .ended
      · refine ⟨.receive, rfl, ⟨rfl, nofun⟩, ?_⟩
        show s.stepReceive.isSome
        rw [stepReceive, hopen, h.receiver, hqueue]
        dsimp only
        rw [if_neg (by decide), if_pos ⟨houtput, hinput⟩]
        rfl
      · obtain ⟨answer, hworking, hcalm, hstep⟩ :=
          exists_input_step (h.ended houtput) h.input hinput
        exact ⟨.input answer, hworking, ⟨hcalm, nofun⟩, hstep⟩
    · refine ⟨.output, rfl, ⟨rfl, fun _ => ?_⟩, stepOutput_isSome hroom houtput⟩
      unfold roomForFailure
      split
      · exact hroom
      · rfl

/-- **What a consumer gets that keeps draining**, when the channel has room for the error of
the output task and no write of the input task fails. No run has more than so many working
steps, one of them can be taken as long as the stream is open, and when it has ended the
output is complete. -/
theorem output_complete {as : List TerminalAction}
    (hok : (machine chunks ending).AllSteps Delivers (start chunks) as)
    (hrun : (machine chunks ending).exec (start chunks) as = some s) :
    as.countP working ≤ 3 * chunks.length + 11 ∧
    (s.streamEnded = false → ∃ a, working a = true ∧ Delivers s a ∧ (step ending s a).isSome) ∧
    (s.streamEnded = true → OutputComplete chunks ending s) := by
  have hreach := Machine.reach_of_exec (.init rfl) hok hrun
  obtain ⟨hcalm, hdone⟩ := delivered_of_reach hreach
  refine ⟨?_, exists_working_step hcalm, fun hended => ?_⟩
  · have hwork := countP_working_le hrun
    have hstart : (start chunks).work = 3 * chunks.length + 11 := rfl
    omega
  · refine OutputComplete.of_received ?_
    rw [← hcalm.stream_eq hended]
    refine hdone ?_
    by_contra hlive
    have hne : s.output ≠ .ended := fun h => hlive (by rw [h]; rfl)
    rw [(hcalm.live hne).2.1] at hended
    cases hended

/-- A chunk, and a lost connection. -/
theorem output_complete_disconnected :
    ∃ s, (machine [.console [104]] .streamError).exec (start [.console [104]])
        [.output, .output, .output, .receive, .output, .output, .input .cancelled,
          .input .proceed, .receive, .receive] = some s ∧
      OutputComplete [.console [104]] .streamError s := by
  have hok : (machine [.console [104]] .streamError).AllSteps Delivers (start [.console [104]])
      [.output, .output, .output, .receive, .output, .output, .input .cancelled,
        .input .proceed, .receive, .receive] := by
    decide
  exact ⟨_, rfl, (output_complete hok rfl).2.2 rfl⟩

/-- **An error that finds the channel full is lost**, and the output never complete. -/
theorem failure_lost {as : List TerminalAction} {t : TerminalSession} (h : Calm chunks ending s)
    (hphase : s.output = .reporting error) (hfull : s.hasRoom = false)
    (hstep : step ending s .output = some s') (hok : ∀ a ∈ as, Undisturbed a = true)
    (hrun : (machine chunks ending).exec s' as = some t) (hended : t.streamEnded = true) :
    t.received = okItems chunks ∧ ¬ OutputComplete chunks ending t := by
  have hlost : Calm chunks ending t ∧ t.output.finished = true ∧ t.stream = okItems chunks := by
    refine Machine.exec_invariant (I := fun s => Calm chunks ending s ∧
      s.output.finished = true ∧ s.stream = okItems chunks) ?_ hok hrun ?_
    · rintro s a s' ⟨hcalm, hfinished, hstream⟩ hok hstep
      obtain ⟨hcalm', hnew⟩ := calm_step hcalm hok hstep
      obtain ⟨hfinished', hnone⟩ := finished_kept hcalm hok hstep hfinished
      refine ⟨hcalm', hfinished', ?_⟩
      rw [hnew, hnone, List.append_nil, hstream]
    · obtain ⟨hcalm', hnew⟩ := calm_step h rfl hstep
      refine ⟨hcalm', ?_, ?_⟩
      · cases stepOutput_cases hstep with
        | report _ => rfl
        | leave hphase' _ | take hphase' _ _ | close _ hphase' _ _ _ | giveUp hphase' _
        | send hphase' _ _ | inspect _ hphase' _ | cancel hphase' =>
          rw [hphase] at hphase'
          cases hphase'
      · rw [hnew, reported_reporting hphase, hfull, h.flow (by rw [hphase]; rfl)]
        exact List.append_nil _
  obtain ⟨hcalm, -, hstream⟩ := hlost
  have hreceived : t.received = okItems chunks := by
    rw [← hcalm.stream_eq hended, hstream]
  refine ⟨hreceived, fun hcomplete => ?_⟩
  have hfailure : ending.failure.isSome := by
    rw [h.failure error hphase]
    rfl
  obtain ⟨error', hlast⟩ := hcomplete.error.mpr hfailure
  rw [hreceived] at hlast
  exact not_error_mem_okItems (List.mem_of_getLast? hlast)

/-- As many chunks as the channel holds. -/
def unread : List LogOutput := List.replicate outputChannelCapacity (.console [120])

/-- The connection is lost while the consumer has not read any of them; then it reads all. -/
def lostConnection : List TerminalAction :=
  List.replicate (2 * outputChannelCapacity + 3) TerminalAction.output ++
    [TerminalAction.input .cancelled, .input .proceed] ++
    List.replicate (outputChannelCapacity + 1) TerminalAction.receive

def turnsOf (items : List TerminalItem) : List LoopTurn :=
  items.map (fun item => .item (some item) true) ++ [.item none true]

/-- The consumer gets the chunks and the end of the stream, and the subscription reports that
the shell has exited. -/
theorem failure_reported_as_exit :
    ∃ s, (machine unread .streamError).exec (start unread) lostConnection = some s ∧
      (∀ a ∈ lostConnection, Undisturbed a = true) ∧ s.streamEnded = true ∧
      s.received = okItems unread ∧
      ReportsExit (runTerminalOutput 1 none (turnsOf s.received)) ∧
      ¬ OutputComplete unread .streamError s := by
  have hrun : ∃ s ∈ (machine unread .streamError).exec (start unread) lostConnection,
      (s.streamEnded && s.received == okItems unread &&
        (runTerminalOutput 1 none (turnsOf s.received)).2 == some .completed) = true := by
    decide +kernel
  obtain ⟨s, hexec, hcheck⟩ := hrun
  simp only [Bool.and_eq_true, beq_iff_eq] at hcheck
  obtain ⟨⟨hended, hreceived⟩, hreason⟩ := hcheck
  refine ⟨s, hexec, by decide +kernel, hended, hreceived, .inl hreason, fun hcomplete => ?_⟩
  obtain ⟨error, hlast⟩ := hcomplete.error.mpr rfl
  rw [hreceived] at hlast
  exact not_error_mem_okItems (List.mem_of_getLast? hlast)

end TerminalSession

end TuxStack.Docker
