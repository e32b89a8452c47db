import TuxStack.Vfs.Path
import TuxStack.Lib.Runs

/-!
# The tasks of a terminal session

`spawn_session_tasks` (`crates/docker-core/src/services/container_terminal.rs`) starts two
tasks on one session. The output task carries the chunks of the exec into a bounded
channel and waits for room there; the input task carries what was typed to the exec. A task
that fails puts its error on the same channel with `try_send`, which drops it when the
channel is full, and cancels the session.

The state that the tasks publish with `transition_state` is in `TerminalStates`.
-/

namespace TuxStack.Docker

open Runs Vfs

/-! ## Errors -/

inductive ContainerTerminalError where
  | notRunning
  | paused
  | shellNotFound
  | createFailed
  | startFailed
  | disconnected
  | resizeFailed
  | timeout
  | cancelled
  | invalidOptions
  | permission
  | dockerUnavailable
deriving DecidableEq, Repr

def ContainerTerminalError.message : ContainerTerminalError → String
  | notRunning => "the container is not running"
  | paused => "the container is paused"
  | shellNotFound => "no supported shell was found in the container"
  | createFailed => "Docker could not create the exec instance"
  | startFailed => "Docker could not start the exec instance"
  | disconnected => "the terminal connection was lost"
  | resizeFailed => "Docker could not resize the terminal"
  | timeout => "the terminal operation timed out"
  | cancelled => "the terminal operation was cancelled"
  | invalidOptions => "terminal options are invalid"
  | permission => "permission to use the Docker terminal was denied"
  | dockerUnavailable => "Docker Engine is unavailable"

/-- The kinds of `bollard::errors::Error` that `classify_bollard_error` tells apart;
`other` has the text of the error. -/
inductive BollardError where
  | dockerResponseServerError (statusCode : Nat) (message : String)
  | requestTimeoutError
  | socketNotFoundError (path : String)
  | interrupted
  | other (text : String)
deriving DecidableEq, Repr

/-- `str::contains`. -/
def textContains (text : List Char) (part : String) : Bool := part.toList <:+: text

def classifyErrorText (message : String) (fallback : ContainerTerminalError) :
    ContainerTerminalError :=
  let message := message.toList.map Char.toLower
  let contains := textContains message
  if contains "cancelled" || contains "canceled" then .cancelled
  else if contains "permission denied" || contains "access denied" ||
      contains "authorization denied" then .permission
  else if contains "container is paused" || contains "paused container" then .paused
  else if contains "container is not running" || contains "is not running" ||
      contains "not running container" then .notRunning
  else if contains "timed out" || contains "timeout" then .timeout
  else if contains "connection refused" || contains "connection reset" ||
      contains "broken pipe" || contains "no route to host" || contains "socket not found" ||
      (fallback == .notRunning && contains "no such file or directory") then .dockerUnavailable
  else fallback

def classifyBollardError (error : BollardError) (fallback : ContainerTerminalError) :
    ContainerTerminalError :=
  match error with
  | .dockerResponseServerError statusCode message =>
    if statusCode = 401 ∨ statusCode = 403 then .permission
    else classifyErrorText message fallback
  | .requestTimeoutError => .timeout
  | .socketNotFoundError _ => .dockerUnavailable
  | .interrupted => .cancelled
  | .other text => classifyErrorText text fallback

/-! ## Output -/

inductive LogOutput where
  | stdErr (message : Bytes)
  | stdOut (message : Bytes)
  | stdIn (message : Bytes)
  | console (message : Bytes)
deriving DecidableEq, Repr

inductive ContainerTerminalOutput where
  | stdOut (bytes : Bytes)
  | stdErr (bytes : Bytes)
  | stdIn (bytes : Bytes)
  | console (bytes : Bytes)
deriving DecidableEq, Repr

def mapOutput : LogOutput → ContainerTerminalOutput
  | .stdOut message => .stdOut message
  | .stdErr message => .stdErr message
  | .stdIn message => .stdIn message
  | .console message => .console message

/-- What the channel carries. -/
abbrev TerminalItem := Except ContainerTerminalError ContainerTerminalOutput

/-- How the output of an exec ends: with an error of the stream, or at its end, where
`inspect_exec` is asked for the status of the exec. -/
inductive OutputEnd where
  | streamError
  | inspected (running : Option Bool)
  | inspectError (error : BollardError)
  | inspectTimeout
deriving DecidableEq, Repr

/-- The error that the output task ends with. -/
def OutputEnd.failure : OutputEnd → Option ContainerTerminalError
  | streamError => some .disconnected
  | inspected running => if running.getD false then some .disconnected else none
  | inspectError error => some (classifyBollardError error .disconnected)
  | inspectTimeout => some .timeout

/-! ## The two tasks -/

def outputChannelCapacity : Nat := 128

/-- Where the output task is: at `output.next`, at `output_tx.send`, at `inspect_exec`,
before `try_send`, before `cancel`, or past its loop. -/
inductive OutputPhase where
  | reading
  | sending (chunk : ContainerTerminalOutput)
  | inspecting
  | reporting (error : ContainerTerminalError)
  | cancelling
  | ended
deriving DecidableEq, Repr

/-- Where the input task is: at `input_rx.recv`, in `write_all` and `flush`, before
`try_send`, before `cancel`, in `shutdown`, or past its loop. -/
inductive InputPhase where
  | receiving
  | writing (bytes : Bytes)
  | reporting (error : ContainerTerminalError)
  | cancelling
  | shutdown
  | ended
deriving DecidableEq, Repr

/-- What the input task waited for: bytes, the result of a write, the time limit, or the
cancellation. -/
inductive InputAnswer where
  | bytes (bytes : Bytes)
  | wrote
  | failed
  | timedOut
  | cancelled
  | proceed
deriving DecidableEq, Repr

/-- A session with its channel and the consumer of the channel; `source` is the output that
Docker has not handed out yet. -/
structure TerminalSession where
  source : List LogOutput
  queue : List TerminalItem
  output : OutputPhase
  input : InputPhase
  cancelled : Bool
  receiverOpen : Bool
  received : List TerminalItem
  streamEnded : Bool
deriving DecidableEq, Repr

/-- A step of the output task, of the input task or of the consumer; `cancel` stands for
`close`, the drop of the session and its parent token. -/
inductive TerminalAction where
  | output
  | input (answer : InputAnswer)
  | receive
  | cancel
  | dropReceiver
deriving DecidableEq, Repr

namespace TerminalSession

def start (chunks : List LogOutput) : TerminalSession where
  source := chunks
  queue := []
  output := .reading
  input := .receiving
  cancelled := false
  receiverOpen := true
  received := []
  streamEnded := false

def hasRoom (s : TerminalSession) : Bool := s.queue.length < outputChannelCapacity

/-- `mpsc::Sender::try_send`, with its result ignored. -/
def trySend (s : TerminalSession) (item : TerminalItem) : TerminalSession :=
  { s with queue := if s.receiverOpen && s.hasRoom then s.queue ++ [item] else s.queue }

def stepOutput (ending : OutputEnd) (s : TerminalSession) : Option TerminalSession :=
  match s.output with
  | .reading =>
    if s.cancelled then some { s with output := .ended }
    else
      match s.source with
      | chunk :: source => some { s with source := source, output := .sending (mapOutput chunk) }
      | [] =>
        match ending with
        | .streamError => some { s with output := .reporting .disconnected }
        | _ => some { s with output := .inspecting }
  | .sending chunk =>
    if s.cancelled || !s.receiverOpen then some { s with output := .cancelling }
    else if s.hasRoom then some { s with queue := s.queue ++ [.ok chunk], output := .reading }
    else none
  | .inspecting =>
    match ending.failure with
    | some error => some { s with output := .reporting error }
    | none => some { s with output := .cancelling }
  | .reporting error => some { s.trySend (.error error) with output := .cancelling }
  | .cancelling => some { s with cancelled := true, output := .ended }
  | .ended => none

def stepInput (s : TerminalSession) (answer : InputAnswer) : Option TerminalSession :=
  match s.input, answer with
  | .receiving, .cancelled => if s.cancelled then some { s with input := .shutdown } else none
  | .receiving, .bytes bytes =>
    if s.cancelled then none
    else if bytes.isEmpty then some s
    else some { s with input := .writing bytes }
  | .writing _, .cancelled => if s.cancelled then some { s with input := .ended } else none
  | .writing _, .wrote => if s.cancelled then none else some { s with input := .receiving }
  | .writing _, .failed =>
    if s.cancelled then none else some { s with input := .reporting .disconnected }
  | .writing _, .timedOut =>
    if s.cancelled then none else some { s with input := .reporting .timeout }
  | .reporting error, .proceed => some { s.trySend (.error error) with input := .cancelling }
  | .cancelling, .proceed => some { s with cancelled := true, input := .ended }
  | .shutdown, .proceed => some { s with input := .ended }
  | _, _ => none

/-- The consumer takes the next item; the stream ends when the channel is empty and both
tasks, and so all senders, are gone. -/
def stepReceive (s : TerminalSession) : Option TerminalSession :=
  if s.streamEnded || !s.receiverOpen then none
  else
    match s.queue with
    | item :: queue => some { s with queue := queue, received := s.received ++ [item] }
    | [] =>
      if s.output = .ended ∧ s.input = .ended then some { s with streamEnded := true } else none

def step (ending : OutputEnd) (s : TerminalSession) : TerminalAction → Option TerminalSession
  | .output => s.stepOutput ending
  | .input answer => s.stepInput answer
  | .receive => s.stepReceive
  | .cancel => some { s with cancelled := true }
  | .dropReceiver => some { s with receiverOpen := false }

def machine (chunks : List LogOutput) (ending : OutputEnd) :
    Machine TerminalSession TerminalAction where
  init s := s = start chunks
  step := step ending

/-! ## What a step can do -/

inductive OutputStep (ending : OutputEnd) (s : TerminalSession) : TerminalSession → Prop where
  | leave (hphase : s.output = .reading) (hcancelled : s.cancelled = true) :
      OutputStep ending s { s with output := .ended }
  | take {chunk : LogOutput} {source : List LogOutput} (hphase : s.output = .reading)
      (hlive : s.cancelled = false) (hsource : s.source = chunk :: source) :
      OutputStep ending s { s with source := source, output := .sending (mapOutput chunk) }
  | close (phase : OutputPhase) (hphase : s.output = .reading) (hlive : s.cancelled = false)
      (hsource : s.source = [])
      (hnext : phase = .inspecting ∨ phase = .reporting .disconnected ∧ ending = .streamError) :
      OutputStep ending s { s with output := phase }
  | giveUp {chunk : ContainerTerminalOutput} (hphase : s.output = .sending chunk)
      (hgone : s.cancelled = true ∨ s.receiverOpen = false) :
      OutputStep ending s { s with output := .cancelling }
  | send {chunk : ContainerTerminalOutput} (hphase : s.output = .sending chunk)
      (hlive : s.cancelled = false) (hroom : s.hasRoom = true) :
      OutputStep ending s { s with queue := s.queue ++ [.ok chunk], output := .reading }
  | inspect (phase : OutputPhase) (hphase : s.output = .inspecting)
      (hnext : (∃ error, ending.failure = some error ∧ phase = .reporting error) ∨
        ending.failure = none ∧ phase = .cancelling) :
      OutputStep ending s { s with output := phase }
  | report {error : ContainerTerminalError} (hphase : s.output = .reporting error) :
      OutputStep ending s { s.trySend (.error error) with output := .cancelling }
  | cancel (hphase : s.output = .cancelling) :
      OutputStep ending s { s with cancelled := true, output := .ended }

inductive InputStep (s : TerminalSession) : InputAnswer → TerminalSession → Prop where
  | ignore {bytes : Bytes} : InputStep s (.bytes bytes) s
  | accept {bytes : Bytes} (hphase : s.input = .receiving) :
      InputStep s (.bytes bytes) { s with input := .writing bytes }
  | write {bytes : Bytes} (hphase : s.input = .writing bytes) :
      InputStep s .wrote { s with input := .receiving }
  | fail {bytes : Bytes} {answer : InputAnswer} (error : ContainerTerminalError)
      (hphase : s.input = .writing bytes) (hanswer : answer = .failed ∨ answer = .timedOut) :
      InputStep s answer { s with input := .reporting error }
  | stop (hphase : s.input = .receiving) (hcancelled : s.cancelled = true) :
      InputStep s .cancelled { s with input := .shutdown }
  | abort {bytes : Bytes} (hphase : s.input = .writing bytes) (hcancelled : s.cancelled = true) :
      InputStep s .cancelled { s with input := .ended }
  | report {error : ContainerTerminalError} (hphase : s.input = .reporting error) :
      InputStep s .proceed { s.trySend (.error error) with input := .cancelling }
  | cancel (hphase : s.input = .cancelling) :
      InputStep s .proceed { s with cancelled := true, input := .ended }
  | close (hphase : s.input = .shutdown) : InputStep s .proceed { s with input := .ended }

variable {ending : OutputEnd} {s s' : TerminalSession}

theorem stepOutput_cases (h : s.stepOutput ending = some s') : OutputStep ending s s' := by
  unfold stepOutput at h
  cases hphase : s.output with
  | reading =>
    rw [hphase] at h
    dsimp only at h
    split at h
    · next hcancelled =>
      cases h
      exact .leave hphase hcancelled
    · next hlive =>
      have hlive : s.cancelled = false := Bool.eq_false_iff.mpr hlive
      split at h
      · next chunk source hsource =>
        cases h
        exact .take hphase hlive hsource
      · next hsource =>
        split at h
        · cases h
          exact .close _ hphase hlive hsource (.inr ⟨rfl, rfl⟩)
        · cases h
          exact .close _ hphase hlive hsource (.inl rfl)
  | sending chunk =>
    rw [hphase] at h
    dsimp only at h
    split at h
    · next hgone =>
      cases h
      refine .giveUp hphase ?_
      rwa [Bool.or_eq_true, Bool.not_eq_true'] at hgone
    · next hstay =>
      rw [Bool.or_eq_true, not_or] at hstay
      split at h
      · next hroom =>
        cases h
        exact .send hphase (Bool.eq_false_iff.mpr hstay.1) hroom
      · cases h
  | inspecting =>
    rw [hphase] at h
    dsimp only at h
    split at h
    · next error herror =>
      cases h
      exact .inspect _ hphase (.inl ⟨error, herror, rfl⟩)
    · next hnone =>
      cases h
      exact .inspect _ hphase (.inr ⟨hnone, rfl⟩)
  | reporting error =>
    rw [hphase] at h
    cases h
    exact .report hphase
  | cancelling =>
    rw [hphase] at h
    cases h
    exact .cancel hphase
  | ended =>
    rw [hphase] at h
    cases h

theorem stepInput_cases {answer : InputAnswer} (h : s.stepInput answer = some s') :
    InputStep s answer s' := by
  unfold stepInput at h
  split at h
  · next hphase =>
    split at h
    · next hcancelled =>
      cases h
      exact .stop hphase hcancelled
    · cases h
  · next hphase =>
    split at h
    · cases h
    · split at h
      · cases h
        exact .ignore
      · cases h
        exact .accept hphase
  · next hphase =>
    split at h
    · next hcancelled =>
      cases h
      exact .abort hphase hcancelled
    · cases h
  · next hphase =>
    split at h
    · cases h
    · cases h
      exact .write hphase
  · next hphase =>
    split at h
    · cases h
    · cases h
      exact .fail _ hphase (.inl rfl)
  · next hphase =>
    split at h
    · cases h
    · cases h
      exact .fail _ hphase (.inr rfl)
  · next hphase =>
    cases h
    exact .report hphase
  · next hphase =>
    cases h
    exact .cancel hphase
  · next hphase =>
    cases h
    exact .close hphase
  · cases h

theorem stepReceive_cases (h : s.stepReceive = some s') :
    (∃ item queue, s.queue = item :: queue ∧
      s' = { s with queue := queue, received := s.received ++ [item] }) ∨
    (s.queue = [] ∧ s.output = .ended ∧ s.input = .ended ∧ s.streamEnded = false ∧
      s' = { s with streamEnded := true }) := by
  unfold stepReceive at h
  split at h
  · cases h
  · next hopen =>
    split at h
    · next item queue hqueue =>
      cases h
      exact .inl ⟨item, queue, hqueue, rfl⟩
    · next hqueue =>
      split at h
      · next hended =>
        cases h
        rw [Bool.or_eq_true, not_or] at hopen
        exact .inr ⟨hqueue, hended.1, hended.2, Bool.eq_false_iff.mpr hopen.1, rfl⟩
      · cases h

end TerminalSession

/-! ## Work

Every step but those of a user who types takes from a bounded supply of work. -/

def OutputPhase.work : OutputPhase → Nat
  | .reading => 5
  | .sending _ => 7
  | .inspecting => 4
  | .reporting _ => 3
  | .cancelling => 1
  | .ended => 0

def InputPhase.work : InputPhase → Nat
  | .receiving | .writing _ => 5
  | .reporting _ => 3
  | .cancelling | .shutdown => 1
  | .ended => 0

namespace TerminalSession

def work (s : TerminalSession) : Nat :=
  3 * s.source.length + s.output.work + s.input.work + s.queue.length +
    (if s.streamEnded then 0 else 1)

/-- The steps of the tasks and of the consumer, save those that only take in more input. -/
def working : TerminalAction → Bool
  | .output | .receive => true
  | .input (.bytes _) | .input .wrote => false
  | .input _ => true
  | .cancel | .dropReceiver => false

variable {ending : OutputEnd} {s s' : TerminalSession}

theorem length_queue_trySend (s : TerminalSession) (item : TerminalItem) :
    (s.trySend item).queue.length ≤ s.queue.length + 1 := by
  show (if s.receiverOpen && s.hasRoom then s.queue ++ [item] else s.queue).length ≤ _
  split
  · rw [List.length_append, List.length_singleton]
  · exact Nat.le_succ _

theorem work_output (h : OutputStep ending s s') : s'.work < s.work := by
  cases h with
  | leave hphase _ | giveUp hphase _ | cancel hphase => simp [work, hphase, OutputPhase.work]
  | take hphase _ hsource =>
    simp only [work, hphase, hsource, OutputPhase.work, List.length_cons]
    omega
  | close phase hphase _ hsource hnext =>
    rcases hnext with rfl | ⟨rfl, -⟩
    · simp [work, hphase, OutputPhase.work]
    · simp [work, hphase, OutputPhase.work]
  | send hphase _ _ =>
    simp only [work, hphase, OutputPhase.work, List.length_append, List.length_singleton]
    omega
  | inspect phase hphase hnext =>
    rcases hnext with ⟨error, -, rfl⟩ | ⟨-, rfl⟩
    · simp [work, hphase, OutputPhase.work]
    · simp [work, hphase, OutputPhase.work]
  | @report error hphase =>
    have hqueue := s.length_queue_trySend (.error error)
    simp only [work, hphase, OutputPhase.work]
    change 3 * s.source.length + _ + s.input.work + _ + (if s.streamEnded then 0 else 1) < _
    omega

theorem work_input {answer : InputAnswer} (h : InputStep s answer s') :
    s'.work + (if working (.input answer) then 1 else 0) ≤ s.work := by
  cases h with
  | ignore => exact Nat.le_refl _
  | accept hphase | write hphase => simp [work, hphase, InputPhase.work, working]
  | fail error hphase hanswer =>
    rcases hanswer with rfl | rfl
    · simp only [work, hphase, InputPhase.work, working, if_true]
      omega
    · simp only [work, hphase, InputPhase.work, working, if_true]
      omega
  | stop hphase _ | abort hphase _ | cancel hphase | close hphase =>
    simp only [work, hphase, InputPhase.work, working, if_true]
    omega
  | @report error hphase =>
    have hqueue := s.length_queue_trySend (.error error)
    simp only [work, hphase, InputPhase.work, working, if_true]
    change 3 * s.source.length + s.output.work + _ + (s.trySend (.error error)).queue.length +
      (if s.streamEnded then 0 else 1) + _ ≤ _
    omega

theorem work_receive (h : s.stepReceive = some s') : s'.work < s.work := by
  rcases stepReceive_cases h with ⟨item, queue, hqueue, rfl⟩ | ⟨-, -, -, hopen, rfl⟩
  · simp only [work, hqueue, List.length_cons]
    omega
  · simp [work, hopen]

theorem work_step {a : TerminalAction} (h : step ending s a = some s') :
    s'.work + (if working a then 1 else 0) ≤ s.work := by
  cases a with
  | output => exact work_output (stepOutput_cases h)
  | input answer => exact work_input (stepInput_cases h)
  | receive => exact work_receive h
  | cancel | dropReceiver =>
    cases h
    exact Nat.le_refl _

/-- A run has no more working steps than there is work in the beginning. -/
theorem countP_working_le {chunks : List LogOutput} :
    ∀ {as : List TerminalAction} {s s' : TerminalSession},
      (machine chunks ending).exec s as = some s' → as.countP working + s'.work ≤ s.work
  | [], s, s', h => by
      cases h
      simp
  | a :: as, s, s', h => by
      obtain ⟨s₁, hstep, hrest⟩ := Option.bind_eq_some_iff.mp h
      have hhead := work_step hstep
      have htail := countP_working_le hrest
      rw [List.countP_cons]
      omega

end TerminalSession

end TuxStack.Docker
