import TuxStack.Gui.Terminal

/-!
# The terminal tab

`ContainerTerminalModel` (`crates/gui/src/bridge/container_terminal_bridge.rs`): connects are
tasks whose completions come back to the tab, and the output and the end of a session come
back as well, all of them late and in any order, also when the tab has moved on.

A session is known by the connect that has opened it. The generations of the controller wrap:
`bumps` counts how often they have changed, and is known to nobody.
-/

namespace TuxStack.Gui

open Docker (ContainerTerminalState ContainerTerminalError)
open Runs

/-- What a connect comes to: a session; a session that is closed again because its `resize` or
its `take_output` has failed; no session. -/
inductive ConnectResult where
  | session (shell : String)
  | lost (error : ContainerTerminalError)
  | failed (error : ContainerTerminalError)
deriving DecidableEq

/-- The task of a connect waits for `connect`, or holds the session while it waits for `resize`
and `take_output`; its completion is queued, or it is over. -/
inductive ConnectPhase where
  | running
  | holding
  | queued (result : Except ContainerTerminalError String)
  | over
deriving DecidableEq

/-- The connect has the session: its task, or its completion. -/
def ConnectPhase.hasSession : ConnectPhase → Bool
  | .holding | .queued (.ok _) => true
  | _ => false

/-- Where the task is before it comes to the result. -/
def ConnectResult.before : ConnectResult → ConnectPhase
  | .failed _ => .running
  | _ => .holding

structure TerminalConnect where
  container : String
  generation : UInt64
  began : Nat
  cancelled : Bool := false
  phase : ConnectPhase := .running
deriving DecidableEq

/-- Input that was passed on, with the container that was selected. -/
structure PassedInput where
  container : String
  session : Nat
  bytes : TerminalBytes
deriving DecidableEq

/-- The tab; then the sessions that connects have obtained, those handed to `close`, the
input passed on, and what the renderer has processed since its last reset, which was in
the generation `drawn`. -/
structure TerminalTab where
  state : ContainerTerminalControllerState := {}
  renderer : ContainerTerminalRenderer := .new 0 24 80
  session : Option Nat := none
  connectionCancel : Option Nat := none
  inputTx : Option Nat := none
  resizes : List UInt64 := []
  connects : List TerminalConnect := []
  opened : List Nat := []
  closed : List Nat := []
  passed : List PassedInput := []
  painted : List (Nat × TerminalBytes) := []
  bumps : Nat := 0
  drawn : Nat := 0
deriving DecidableEq

namespace TerminalTab

variable (x : TerminalTab)

def withState (t : ContainerTerminalControllerState) : TerminalTab :=
  { x with state := t, bumps := x.bumps + (t.generation - x.state.generation).toNat }

def closeResources : TerminalTab :=
  { x with
    connects := match x.connectionCancel with
      | none => x.connects
      | some k => x.connects.modify k fun c => { c with cancelled := true }
    connectionCancel := none
    inputTx := none
    session := none
    closed := x.closed ++ x.session.toList }

def resetRenderer (generation : UInt64) : TerminalTab :=
  { x with
    renderer := .new generation x.state.rows x.state.columns
    painted := []
    drawn := x.bumps }

def startConnect (generation : UInt64) (services : Bool) : TerminalTab :=
  let x := x.closeResources.resetRenderer generation
  if ¬ services then x.withState (x.state.applyConnectError generation .dockerUnavailable).2
  else
    { x with
      connects := x.connects ++ [{ container := x.state.containerId, generation, began := x.bumps }]
      connectionCancel := some x.connects.length }

def applyAction (services : Bool) : TerminalSelectionAction → TerminalTab
  | .connect generation => x.startConnect generation services
  | .close _ => x.closeResources
  | .none => x

def connects? : TerminalSelectionAction → Bool
  | .connect _ => true
  | _ => false

def setSelection (containerId : String) (running services : Bool) : TerminalTab :=
  let selectionChanged : Bool := x.state.containerId ≠ containerId
  let (action, t) := x.state.selectContainer containerId running
  let x := x.withState t
  let x :=
    if selectionChanged && !connects? action then
      x.closeResources.resetRenderer x.state.generation
    else x
  x.applyAction services action

def clearSelection : TerminalTab :=
  let x := (x.withState x.state.clearSelection.2).closeResources
  x.resetRenderer x.state.generation

def updateActive (active services : Bool) : TerminalTab :=
  let (action, t) := x.state.setActive active
  (x.withState t).applyAction services action

def retry (services : Bool) : TerminalTab :=
  let x := x.closeResources
  let (action, t) := x.state.beginConnect
  (x.withState t).applyAction services action

def invalidateContainer (containerId : String) : TerminalTab :=
  let (action, t) := x.state.containerEventInvalidated containerId
  let x := x.withState t
  match action with
  | .close _ => x.closeResources
  | _ => x

def shutdown : TerminalTab := (x.withState x.state.close.2).closeResources

def resize (rows columns : Int) : TerminalTab :=
  if rows ≤ 0 ∨ 2 ^ 16 ≤ rows ∨ columns ≤ 0 ∨ 2 ^ 16 ≤ columns then x
  else
    let rows := UInt16.ofNat rows.toNat
    let columns := UInt16.ofNat columns.toNat
    let generation := x.state.generation
    let x := { x with renderer := (x.renderer.resize generation rows columns).2 }
    let (resizeGeneration, t) := x.state.requestResize rows columns
    let (pending, t) := match resizeGeneration with
      | none => (none, t)
      | some resizeGeneration => t.takePendingResize resizeGeneration
    let x := x.withState t
    if pending.isSome && x.session.isSome then { x with resizes := x.resizes ++ [generation] }
    else x

/-- `queue_input`; the queue of the session takes the bytes, or it does not. -/
def queueInput (bytes : TerminalBytes) (sent : Bool) : TerminalTab :=
  if bytes = [] then x
  else
    let (accepted, t) := x.state.acceptInput
    let x := x.withState t
    match accepted, x.inputTx with
    | some _, some session =>
      if ¬ sent then
        (x.withState (x.state.applyStreamError x.state.generation .disconnected).2).closeResources
      else { x with passed := x.passed ++ [⟨x.state.containerId, session, bytes⟩] }
    | _, _ => x

/-! ## What comes back -/

def setPhase (k : Nat) (phase : ConnectPhase) : TerminalTab :=
  { x with connects := x.connects.modify k fun c => { c with phase } }

/-- `connect` returns a session to its task. -/
def connectOpens (k : Nat) : TerminalTab := { x with opened := x.opened ++ [k] }.setPhase k .holding

/-- The task of a connect ends: a cancelled one closes its session, another one queues its
completion. -/
def connectEnds (k : Nat) (c : TerminalConnect) (result : ConnectResult) : TerminalTab :=
  let unused := match result, c.cancelled with
    | .lost _, _ | .session _, true => [k]
    | _, _ => []
  let x := { x with closed := x.closed ++ unused }
  x.setPhase k <|
    if c.cancelled then .over
    else
      match result with
      | .session shell => .queued (.ok shell)
      | .lost error => .queued (.error error)
      | .failed error => .queued (.error error)

def startIo (k : Nat) : TerminalTab := { x with session := some k, inputTx := some k }

def completion (k : Nat) (c : TerminalConnect) (result : Except ContainerTerminalError String) :
    TerminalTab :=
  let x := x.setPhase k .over
  if c.generation ≠ x.state.generation ∨ x.state.state ≠ .connecting then
    match result with
    | .ok _ => { x with closed := x.closed ++ [k] }
    | .error _ => x
  else
    let x := { x with connectionCancel := none }
    match result with
    | .ok shell =>
      let (connected, t) := x.state.applyConnected c.generation shell
      let x := x.withState t
      if connected then x.startIo k else x
    | .error error => x.withState (x.state.applyConnectError c.generation error).2

def output (k : Nat) (c : TerminalConnect) (bytes : TerminalBytes) : TerminalTab :=
  let (processed, renderer) := x.renderer.process c.generation bytes
  { x with
    renderer
    painted := if processed then x.painted ++ [(k, bytes)] else x.painted }

/-- A session has ended, or its input has failed. -/
def ended (c : TerminalConnect) (outcome : Except ContainerTerminalError (Option Int)) :
    TerminalTab :=
  if c.generation ≠ x.state.generation then x
  else
    (x.withState (match outcome with
      | .ok exitCode => (x.state.applyExited c.generation exitCode).2
      | .error error => (x.state.applyStreamError c.generation error).2)).closeResources

def resizeFailed (generation : UInt64) (error : ContainerTerminalError) : TerminalTab :=
  if generation = x.state.generation ∧ x.state.state = .ready then
    (x.withState (x.state.applyStreamError generation error).2).closeResources
  else x

end TerminalTab

inductive TerminalAction where
  | setSelection (containerId : String) (running services : Bool)
  | clearSelection
  | updateActive (active services : Bool)
  | retry (services : Bool)
  | invalidateContainer (containerId : String)
  | shutdown
  | resize (rows columns : Int)
  | queueInput (bytes : TerminalBytes) (sent : Bool)
  | connectOpens (k : Nat)
  | connectEnds (k : Nat) (result : ConnectResult)
  | completion (k : Nat)
  | output (k : Nat) (bytes : TerminalBytes)
  | ended (k : Nat) (outcome : Except ContainerTerminalError (Option Int))
  | resizeFailed (place : Nat) (error : ContainerTerminalError)

/-- Runs of the tab. Output and ends come from sessions that were obtained. -/
def terminalTab : Machine TerminalTab TerminalAction where
  init x := x = {}
  step x
    | .setSelection containerId running services =>
      some (x.setSelection containerId running services)
    | .clearSelection => some x.clearSelection
    | .updateActive active services => some (x.updateActive active services)
    | .retry services => some (x.retry services)
    | .invalidateContainer containerId => some (x.invalidateContainer containerId)
    | .shutdown => some x.shutdown
    | .resize rows columns => some (x.resize rows columns)
    | .queueInput bytes sent => some (x.queueInput bytes sent)
    | .connectOpens k => x.connects[k]?.bind fun c =>
      if c.phase = .running then some (x.connectOpens k) else none
    | .connectEnds k result => x.connects[k]?.bind fun c =>
      if c.phase = result.before then some (x.connectEnds k c result) else none
    | .completion k => x.connects[k]?.bind fun c =>
      match c.phase with
      | .queued result => some (x.completion k c result)
      | _ => none
    | .output k bytes => x.connects[k]?.bind fun c =>
      if k ∈ x.opened then some (x.output k c bytes) else none
    | .ended k outcome => x.connects[k]?.bind fun c =>
      if k ∈ x.opened then some (x.ended c outcome) else none
    | .resizeFailed place error => x.resizes[place]?.map fun generation =>
      x.resizeFailed generation error

namespace TerminalTab

variable (x : TerminalTab)

/-- The container that a session was opened for. -/
def containerOf (k : Nat) : Option String := x.connects[k]?.map (·.container)

/-- Every input went to a session of the container that was selected then. -/
def InputIsolated : Prop := ∀ p ∈ x.passed, x.containerOf p.session = some p.container

/-- What the renderer shows is the output of sessions of the selected container. -/
def OutputIsolated : Prop :=
  x.renderer.processed = x.painted.flatMap (·.2) ∧
    ∀ p ∈ x.painted, x.containerOf p.1 = some x.state.containerId

/-- The task of the connect still holds the session, or a queued completion brings it. -/
def Carried (k : Nat) : Prop := ∃ c, x.connects[k]? = some c ∧ c.phase.hasSession = true

/-- Every session obtained is stored, handed to `close`, or on its way to the tab. -/
def SessionsKept : Prop := ∀ k ∈ x.opened, x.session = some k ∨ k ∈ x.closed ∨ x.Carried k

/-- A completion or a chunk of output that meets its generation comes before the generations
have changed `2 ^ 64` times since the connect. -/
def Timely : TerminalAction → Prop
  | .completion k => ∀ c ∈ x.connects[k]?, c.generation = x.state.generation →
      x.bumps < c.began + 2 ^ 64
  | .output k _ => ∀ c ∈ x.connects[k]?, c.generation = x.renderer.generation →
      x.bumps < c.began + 2 ^ 64
  | _ => True

end TerminalTab

end TuxStack.Gui
