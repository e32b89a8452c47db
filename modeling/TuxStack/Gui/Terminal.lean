import TuxStack.Docker.TerminalSession
import TuxStack.Docker.TerminalStates
import TuxStack.Gui.Text

/-!
# The controller of the terminal

`ContainerTerminalControllerState` and `ContainerTerminalRenderer`
(`crates/gui/src/controllers/container_terminal.rs`). Of the emulator behind the renderer
only the size is kept, and the bytes that it has processed.
-/

namespace TuxStack.Gui

open Docker (ContainerTerminalState ContainerTerminalError)

abbrev TerminalBytes := List UInt8

/-! ## The renderer -/

structure ContainerTerminalRenderer where
  generation : UInt64
  rows : UInt16
  columns : UInt16
  processed : TerminalBytes
deriving DecidableEq

namespace ContainerTerminalRenderer

def new (generation : UInt64) (rows columns : UInt16) : ContainerTerminalRenderer where
  generation := generation
  rows := max rows 1
  columns := max columns 1
  processed := []

def process (r : ContainerTerminalRenderer) (generation : UInt64) (bytes : TerminalBytes) :
    Bool × ContainerTerminalRenderer :=
  if generation ≠ r.generation ∨ bytes = [] then (false, r)
  else (true, { r with processed := r.processed ++ bytes })

def resize (r : ContainerTerminalRenderer) (generation : UInt64) (rows columns : UInt16) :
    Bool × ContainerTerminalRenderer :=
  if generation ≠ r.generation ∨ rows = 0 ∨ columns = 0 then (false, r)
  else if r.rows = rows ∧ r.columns = columns then (false, r)
  else (true, { r with rows, columns })

end ContainerTerminalRenderer

/-! ## The controller -/

inductive TerminalSelectionAction where
  | none
  | connect (generation : UInt64)
  | close (generation : UInt64)
deriving DecidableEq

structure PendingResize where
  generation : UInt64
  rows : UInt16
  columns : UInt16
deriving DecidableEq

structure ContainerTerminalControllerState where
  state : ContainerTerminalState := .idle
  containerId : String := ""
  selectedRunning : Bool := false
  active : Bool := false
  shell : String := ""
  errorKind : String := ""
  errorMessage : String := ""
  exitCode : Option Int := none
  rows : UInt16 := 24
  columns : UInt16 := 80
  generation : UInt64 := 0
  inputGeneration : UInt64 := 0
  resizeGeneration : UInt64 := 0
  pendingResize : Option PendingResize := none
deriving DecidableEq

def friendlyTerminalError : ContainerTerminalError → String × String
  | .notRunning => ("not_running", "Start the container to open a terminal.")
  | .paused => ("paused", "Resume the container to open a terminal.")
  | .shellNotFound => ("shell_not_found", "No supported shell was found in this container.")
  | .createFailed => ("create_failed", "Docker could not create the terminal session.")
  | .startFailed => ("start_failed", "Docker could not start the terminal session.")
  | .disconnected => ("disconnected", "The terminal connection was lost.")
  | .resizeFailed => ("resize_failed", "Docker could not resize the terminal.")
  | .timeout => ("timeout", "The terminal operation timed out.")
  | .cancelled => ("cancelled", "The terminal operation was cancelled.")
  | .invalidOptions => ("invalid_options", "The terminal options are invalid.")
  | .permission => ("permission", "Permission to use the Docker terminal was denied.")
  | .dockerUnavailable => ("docker_unavailable", "Docker Engine is unavailable.")

namespace ContainerTerminalControllerState

variable (s : ContainerTerminalControllerState)

/-- The state has a session, or is about to have one. -/
def hadSession : Bool := s.state = .connecting || s.state = .ready

/-- The generations change, and what belonged to the last one goes. -/
def nextGeneration : ContainerTerminalControllerState :=
  { s with
    generation := s.generation + 1
    inputGeneration := s.inputGeneration + 1
    resizeGeneration := s.resizeGeneration + 1
    pendingResize := none }

/-- What the last session has left is cleared. -/
def clearOutcome : ContainerTerminalControllerState :=
  { s with shell := "", errorKind := "", errorMessage := "", exitCode := none }

def beginConnect : TerminalSelectionAction × ContainerTerminalControllerState :=
  if ¬ s.active ∨ ¬ s.selectedRunning ∨ s.containerId = "" then (.none, s)
  else
    let s := { s.nextGeneration.clearOutcome with state := .connecting }
    (.connect s.generation, s)

def setActive (active : Bool) : TerminalSelectionAction × ContainerTerminalControllerState :=
  let s := { s with active }
  if active ∧ s.selectedRunning ∧ s.state = .idle then s.beginConnect else (.none, s)

def selectContainer (containerId : String) (running : Bool) :
    TerminalSelectionAction × ContainerTerminalControllerState :=
  let containerId := trim containerId
  if s.containerId = containerId ∧ s.selectedRunning = running then (.none, s)
  else
    let hadSession := s.hadSession
    let s : ContainerTerminalControllerState := { s.nextGeneration.clearOutcome with
      containerId
      selectedRunning := running
      state := .idle }
    if s.active ∧ running ∧ containerId ≠ "" then s.beginConnect
    else (if hadSession then .close s.generation else .none, s)

def clearSelection : TerminalSelectionAction × ContainerTerminalControllerState :=
  s.selectContainer "" false

def applyConnected (generation : UInt64) (shell : String) :
    Bool × ContainerTerminalControllerState :=
  if generation ≠ s.generation ∨ s.state ≠ .connecting then (false, s)
  else (true, { s with state := .ready, shell })

def withError (error : ContainerTerminalError) (state : ContainerTerminalState) :
    ContainerTerminalControllerState :=
  { s with
    state
    errorKind := (friendlyTerminalError error).1
    errorMessage := (friendlyTerminalError error).2 }

def applyConnectError (generation : UInt64) (error : ContainerTerminalError) :
    Bool × ContainerTerminalControllerState :=
  if generation ≠ s.generation ∨ s.state ≠ .connecting then (false, s)
  else
    (true, s.withError error
      (if error = .notRunning ∨ error = .paused then .exited else .error))

def acceptInput : Option UInt64 × ContainerTerminalControllerState :=
  if s.state ≠ .ready then (none, s)
  else (some (s.inputGeneration + 1), { s with inputGeneration := s.inputGeneration + 1 })

def requestResize (rows columns : UInt16) : Option UInt64 × ContainerTerminalControllerState :=
  if s.state ≠ .ready ∨ rows = 0 ∨ columns = 0 then (none, s)
  else if s.rows = rows ∧ s.columns = columns ∧ s.pendingResize = none then (none, s)
  else
    (some (s.resizeGeneration + 1), { s with
      rows
      columns
      resizeGeneration := s.resizeGeneration + 1
      pendingResize := some ⟨s.resizeGeneration + 1, rows, columns⟩ })

def takePendingResize (generation : UInt64) :
    Option PendingResize × ContainerTerminalControllerState :=
  if s.pendingResize.any (·.generation = generation) then
    (s.pendingResize, { s with pendingResize := none })
  else (none, s)

def applyExited (generation : UInt64) (exitCode : Option Int) :
    Bool × ContainerTerminalControllerState :=
  if generation ≠ s.generation then (false, s)
  else
    (true, { s with
      state := .exited
      exitCode
      inputGeneration := s.inputGeneration + 1
      resizeGeneration := s.resizeGeneration + 1
      pendingResize := none })

def applyStreamError (generation : UInt64) (error : ContainerTerminalError) :
    Bool × ContainerTerminalControllerState :=
  if generation ≠ s.generation then (false, s)
  else (true, { s.withError error .error with pendingResize := none })

def containerEventInvalidated (containerId : String) :
    TerminalSelectionAction × ContainerTerminalControllerState :=
  if s.containerId ≠ containerId then (.none, s)
  else
    let s := { s.nextGeneration with
      selectedRunning := false
      state := .exited
      errorKind := ""
      errorMessage := "" }
    (.close s.generation, s)

def close : TerminalSelectionAction × ContainerTerminalControllerState :=
  let hadSession := s.hadSession
  let s := { s.nextGeneration with
    state := if s.containerId = "" then ContainerTerminalState.idle else .exited }
  (if hadSession then .close s.generation else .none, s)

/-! ## What an operation leaves -/

variable {s} {t : ContainerTerminalControllerState}

structure Keeps (s t : ContainerTerminalControllerState) : Prop where
  generation : t.generation = s.generation
  container : t.containerId = s.containerId
  connecting : t.state = .connecting → s.state = .connecting

theorem keeps_refl : s.Keeps s := ⟨rfl, rfl, id⟩

theorem Keeps.trans {u : ContainerTerminalControllerState} (h : s.Keeps t) (h' : t.Keeps u) :
    s.Keeps u :=
  ⟨h'.generation.trans h.generation, h'.container.trans h.container,
    fun hu => h.connecting (h'.connecting hu)⟩

/-- Another container comes with another generation; a connection is asked for in the
generation that it has, and only then something new is connecting. -/
structure Acts (s : ContainerTerminalControllerState)
    (result : TerminalSelectionAction × ContainerTerminalControllerState) : Prop where
  container : result.2.containerId ≠ s.containerId → result.2.generation ≠ s.generation
  connect : ∀ generation, result.1 = .connect generation → generation = result.2.generation
  connecting : (∀ generation, result.1 ≠ .connect generation) → result.2.state = .connecting →
    s.state = .connecting

theorem add_one_ne (n : UInt64) : n + 1 ≠ n := by
  intro h
  have hnat := congrArg UInt64.toNat h
  rw [UInt64.toNat_add] at hnat
  have hlt := n.toNat_lt
  simp at hnat
  omega

theorem add_two_ne (n : UInt64) : n + 1 + 1 ≠ n := by
  intro h
  have hnat := congrArg UInt64.toNat h
  rw [UInt64.toNat_add, UInt64.toNat_add] at hnat
  have hlt := n.toNat_lt
  simp at hnat
  omega

theorem acts_beginConnect : s.Acts s.beginConnect := by
  unfold beginConnect
  split
  · exact ⟨fun h => absurd rfl h, fun _ h => (by cases h), fun _ h => h⟩
  · exact ⟨fun h => absurd rfl h, fun _ h => (by cases h; rfl), fun h => absurd rfl (h _)⟩

theorem acts_setActive (active : Bool) : s.Acts (s.setActive active) := by
  unfold setActive
  dsimp only
  split
  · have h := acts_beginConnect (s := { s with active })
    exact { h with }
  · exact ⟨fun h => absurd rfl h, fun _ h => (by cases h), fun _ h => h⟩

/-- A connection that begins changes the generation and nothing of the selection. -/
theorem beginConnect_selection : s.beginConnect.2.containerId = s.containerId ∧
    (s.beginConnect.2.generation = s.generation ∨
      s.beginConnect.2.generation = s.generation + 1) := by
  unfold beginConnect
  split
  · exact ⟨rfl, .inl rfl⟩
  · exact ⟨rfl, .inr rfl⟩

theorem setActive_container (active : Bool) :
    (s.setActive active).2.containerId = s.containerId := by
  unfold setActive
  dsimp only
  split
  · exact beginConnect_selection.1
  · rfl

theorem selectContainer_container (containerId : String) (running : Bool) :
    (s.selectContainer containerId running).2.containerId = trim containerId := by
  unfold selectContainer
  dsimp only
  split
  · next hsame => exact hsame.1
  · split
    · exact beginConnect_selection.1
    · rfl

theorem acts_selectContainer (containerId : String) (running : Bool) :
    s.Acts (s.selectContainer containerId running) := by
  unfold selectContainer
  dsimp only
  split
  · exact ⟨fun h => absurd rfl h, fun _ h => (by cases h), fun _ h => h⟩
  · split
    · next hconnect =>
      generalize hidle : ({ s.nextGeneration.clearOutcome with
        containerId := trim containerId
        selectedRunning := running
        state := .idle } : ContainerTerminalControllerState) = idle at hconnect ⊢
      have hgeneration : idle.generation = s.generation + 1 := by rw [← hidle]; rfl
      have hstate : idle.state = .idle := by rw [← hidle]
      have h := acts_beginConnect (s := idle)
      refine ⟨fun _ => ?_, h.connect, fun hnone hconnecting => ?_⟩
      · rcases beginConnect_selection.2 with hsame | hnext
        · rw [hsame, hgeneration]
          exact add_one_ne _
        · rw [hnext, hgeneration]
          exact add_two_ne _
      · have hidling := h.connecting hnone hconnecting
        rw [hstate] at hidling
        cases hidling
    · refine ⟨fun _ => add_one_ne _, fun generation h => ?_, fun _ h => (by cases h)⟩
      split at h
      · cases h
      · cases h

theorem acts_containerEventInvalidated (containerId : String) :
    s.Acts (s.containerEventInvalidated containerId) := by
  unfold containerEventInvalidated
  split
  · exact ⟨fun h => absurd rfl h, fun _ h => (by cases h), fun _ h => h⟩
  · exact ⟨fun h => absurd rfl h, fun _ h => (by cases h), fun _ h => (by cases h)⟩

theorem acts_close : s.Acts s.close := by
  refine ⟨fun h => absurd rfl h, fun generation h => ?_, fun _ h => ?_⟩
  · unfold close at h
    dsimp only at h
    split at h
    · cases h
    · cases h
  · unfold close at h
    dsimp only at h
    split at h
    · cases h
    · cases h

theorem keeps_applyConnected (generation : UInt64) (shell : String) :
    s.Keeps (s.applyConnected generation shell).2 := by
  unfold applyConnected
  split
  · exact keeps_refl
  · exact ⟨rfl, rfl, fun h => (by cases h)⟩

theorem applyConnected_ready {generation : UInt64} {shell : String}
    (hgeneration : generation = s.generation) (hstate : s.state = .connecting) :
    (s.applyConnected generation shell).1 = true ∧
      (s.applyConnected generation shell).2.state = .ready := by
  unfold applyConnected
  rw [if_neg (not_or.mpr ⟨not_not_intro hgeneration, not_not_intro hstate⟩)]
  exact ⟨rfl, rfl⟩

theorem keeps_applyConnectError (generation : UInt64) (error : ContainerTerminalError) :
    s.Keeps (s.applyConnectError generation error).2 ∧
      (s.state = .connecting → generation = s.generation →
        (s.applyConnectError generation error).2.state ≠ .connecting) := by
  unfold applyConnectError
  split
  · next hrefused => exact ⟨keeps_refl, fun hstate hsame =>
    absurd hrefused (not_or.mpr ⟨not_not_intro hsame, not_not_intro hstate⟩)⟩
  · refine ⟨⟨rfl, rfl, fun h => ?_⟩, fun _ _ h => ?_⟩
    · unfold withError at h
      dsimp only at h
      split at h
      · cases h
      · cases h
    · unfold withError at h
      dsimp only at h
      split at h
      · cases h
      · cases h

theorem keeps_acceptInput : s.Keeps s.acceptInput.2 := by
  unfold acceptInput
  split
  · exact keeps_refl
  · exact ⟨rfl, rfl, id⟩

theorem keeps_requestResize (rows columns : UInt16) : s.Keeps (s.requestResize rows columns).2 := by
  unfold requestResize
  split
  · exact keeps_refl
  · split
    · exact keeps_refl
    · exact ⟨rfl, rfl, id⟩

theorem keeps_takePendingResize (generation : UInt64) :
    s.Keeps (s.takePendingResize generation).2 := by
  unfold takePendingResize
  split
  · exact ⟨rfl, rfl, id⟩
  · exact keeps_refl

theorem keeps_applyExited (generation : UInt64) (exitCode : Option Int) :
    s.Keeps (s.applyExited generation exitCode).2 := by
  unfold applyExited
  split
  · exact keeps_refl
  · exact ⟨rfl, rfl, fun h => (by cases h)⟩

theorem keeps_applyStreamError (generation : UInt64) (error : ContainerTerminalError) :
    s.Keeps (s.applyStreamError generation error).2 := by
  unfold applyStreamError
  split
  · exact keeps_refl
  · exact ⟨rfl, rfl, fun h => (by cases h)⟩

end ContainerTerminalControllerState

end TuxStack.Gui
