import TuxStack.Gui.LogOptions
import TuxStack.Lib.Runs

/-!
# The log viewport

`ContainerLogsState` (`crates/gui/src/controllers/container_logs.rs`): the lines that have
arrived, those that are held back while the viewport is paused, and the options of the
streams they come from.
-/

namespace TuxStack.Gui

open Queues Runs

inductive LiveLogsStatus where
  | idle
  | streaming
  | ready
  | error
deriving DecidableEq

structure ContainerLogsState extends BoundedQueues LogViewportLine where
  selectionKind : LogSelectionKind := .none
  selectionId : String := ""
  targets : List LogTarget := []
  active : Bool := false
  generation : UInt64 := 0
  status : LiveLogsStatus := .idle
  errorMessage : String := ""
  validationError : String := ""
  stdout : Bool := true
  stderr : Bool := true
  tail : LogTail := .lines 1000
  since : LogSince := .all
  sinceInput : String := ""
  timestamps : Bool := true
  follow : Bool := true
  paused : Bool := false
  wrap : Bool := false
  searchQuery : String := ""
  memberFilterId : String := ""
  nextSequence : Nat := 1

namespace ContainerLogsState

variable (s : ContainerLogsState)

/-! ## Streams -/

def shouldStream : Bool := s.active && s.selectionKind ≠ .none && !s.targets.isEmpty

def streamStatus : LiveLogsStatus := if s.shouldStream then .streaming else .idle

def advanceStreamGeneration : ContainerLogsState :=
  { s with
    generation := s.generation + 1
    errorMessage := ""
    validationError := ""
    status := s.streamStatus }

def setValidationError (message : String) : Bool × ContainerLogsState :=
  if s.validationError = message then (false, s) else (true, { s with validationError := message })

def clearValidationError : Bool × ContainerLogsState :=
  if s.validationError = "" then (false, s) else (true, { s with validationError := "" })

def clearViewport : ContainerLogsState := { s with toBoundedQueues := {} }

def setSelection (kind id : String) (ids states names : List String) :
    Bool × ContainerLogsState :=
  let kind := normalizeKind kind
  let targets := buildTargets kind id ids states names
  if s.selectionKind = kind ∧ s.selectionId = id ∧ s.targets = targets then (false, s)
  else
    let s := { s with
      generation := s.generation + 1
      selectionKind := kind
      selectionId := if kind = LogSelectionKind.none then "" else id
      targets
      memberFilterId := "" }.clearViewport
    (true, { s with
      paused := false
      errorMessage := ""
      validationError := ""
      status := s.streamStatus })

def setActive (active : Bool) : Bool × ContainerLogsState :=
  if s.active = active then (false, s)
  else
    let s := { s with active, generation := s.generation + 1 }
    (true, { s with status := s.streamStatus })

def beginStream : Option (UInt64 × List LogTarget) × ContainerLogsState :=
  if ¬ s.shouldStream then (none, { s with status := .idle })
  else
    (some (s.generation + 1, s.targets), { s with
      generation := s.generation + 1
      errorMessage := ""
      status := .streaming })

def shutdown : ContainerLogsState :=
  { s with
    active := false
    generation := s.generation + 1
    status := .idle
    toBoundedQueues := {}
    errorMessage := ""
    validationError := "" }

/-! ## Lines -/

def pushLine (line : LogViewportLine) : ContainerLogsState :=
  { s with
    toBoundedQueues :=
      s.toBoundedQueues.push logBudget LogViewportLine.byteSize s.paused line }

def linesOf [Chrono] (containerId : String) (line : LogLine) : List LogViewportLine :=
  match s.targets.find? (·.id = containerId) with
  | none => []
  | some target =>
    LogViewportLine.fromDomain s.nextSequence target (s.selectionKind = .group) s.timestamps line

def applyLine [Chrono] (containerId : String) (line : LogLine) : ContainerLogsState :=
  let lines := s.linesOf containerId line
  lines.foldl pushLine { s with nextSequence := logBudget.add s.nextSequence lines.length }

/-- The lines of a batch in turn. -/
def applyLines [Chrono] : ContainerLogsState → List (String × LogLine) → Bool × ContainerLogsState
  | s, [] => (false, s)
  | s, (containerId, line) :: rest =>
    let changed := !(s.linesOf containerId line).isEmpty
    let (changedLater, t) := applyLines (s.applyLine containerId line) rest
    (changed || changedLater, t)

def applyBatch [Chrono] (generation : UInt64) (batch : List (String × LogLine)) :
    Bool × ContainerLogsState :=
  if generation ≠ s.generation ∨ ¬ s.shouldStream ∨ batch = [] then (false, s)
  else
    let (changed, s) := s.applyLines batch
    (changed, if changed then { s with status := .ready, errorMessage := "" } else s)

def applyError (generation : UInt64) (message : String) : Bool × ContainerLogsState :=
  if generation ≠ s.generation ∨ ¬ s.active then (false, s)
  else (true, { s with status := .error, errorMessage := message })

def setPaused (paused : Bool) : Bool × ContainerLogsState :=
  if s.paused = paused then (false, s)
  else
    let s := { s with paused }
    (true,
      if paused then s
      else
        { s with
          toBoundedQueues := s.toBoundedQueues.resume logBudget LogViewportLine.byteSize })

/-! ## Options -/

def setSearch (query : String) : Bool × ContainerLogsState :=
  if s.searchQuery = query then (false, s) else (true, { s with searchQuery := query })

def setWrap (wrap : Bool) : Bool × ContainerLogsState :=
  if s.wrap = wrap then (false, s) else (true, { s with wrap })

def setFollow (follow : Bool) : Bool × ContainerLogsState :=
  if s.follow = follow then s.clearValidationError
  else (true, { s with follow }.advanceStreamGeneration)

def setTimestamps (timestamps : Bool) : Bool × ContainerLogsState :=
  if s.timestamps = timestamps then s.clearValidationError
  else (true, { s with timestamps }.advanceStreamGeneration)

def setStdout (enabled : Bool) : Bool × ContainerLogsState :=
  if ¬ enabled ∧ ¬ s.stderr then
    s.setValidationError "At least one of stdout or stderr must be enabled."
  else if s.stdout = enabled then s.clearValidationError
  else (true, { s with stdout := enabled }.advanceStreamGeneration)

def setStderr (enabled : Bool) : Bool × ContainerLogsState :=
  if ¬ enabled ∧ ¬ s.stdout then
    s.setValidationError "At least one of stdout or stderr must be enabled."
  else if s.stderr = enabled then s.clearValidationError
  else (true, { s with stderr := enabled }.advanceStreamGeneration)

def setTail (value : String) : Bool × ContainerLogsState :=
  match LogTail.parse value with
  | .error message => s.setValidationError message
  | .ok tail =>
    if s.tail = tail then s.clearValidationError
    else (true, { s with tail }.advanceStreamGeneration)

/-- `set_since_at`; `none` is a panic. -/
def setSinceAt [Chrono] (value : String) (now : Int) : Option (Bool × ContainerLogsState) :=
  let input := trim value
  if eqIgnoreAsciiCase input s.sinceInput then some s.clearValidationError
  else
    (parseSinceAt input now).map fun
      | .error message => s.setValidationError message
      | .ok since =>
        (true, { s with
          since
          sinceInput :=
            if eqIgnoreAsciiCase input "all" || eqIgnoreAsciiCase input "all time" then ""
            else input }.advanceStreamGeneration)

def setMemberFilter (containerId : String) : Bool × ContainerLogsState :=
  let containerId := trim containerId
  if containerId ≠ "" ∧ ¬ s.targets.any (·.id = containerId) then
    s.setValidationError "The selected log group member is unavailable."
  else if s.memberFilterId = containerId then s.clearValidationError
  else (true, { s with memberFilterId := containerId }.clearValidationError.2)

def dockerOptions (running includeHistory : Bool) : ContainerLogsOptions where
  stdout := s.stdout
  stderr := s.stderr
  timestamps := s.timestamps
  follow := s.follow && running
  tail := if includeHistory then s.tail.dockerValue else some 0
  since := s.since.dockerValue

end ContainerLogsState

inductive LogsCall where
  | setSelection (kind id : String) (ids states names : List String)
  | setActive (active : Bool)
  | beginStream
  | applyBatch (generation : UInt64) (batch : List (String × LogLine))
  | applyError (generation : UInt64) (message : String)
  | setPaused (paused : Bool)
  | setSearch (query : String)
  | setWrap (wrap : Bool)
  | setFollow (follow : Bool)
  | setTimestamps (timestamps : Bool)
  | setStdout (enabled : Bool)
  | setStderr (enabled : Bool)
  | setTail (value : String)
  | setSinceAt (value : String) (now : Int)
  | setMemberFilter (containerId : String)
  | clearViewport
  | shutdown

namespace LogsCall

/-- The state after an operation; `none` is a panic. -/
def after [Chrono] (s : ContainerLogsState) : LogsCall → Option ContainerLogsState
  | setSelection kind id ids states names => some (s.setSelection kind id ids states names).2
  | setActive active => some (s.setActive active).2
  | beginStream => some s.beginStream.2
  | applyBatch generation batch => some (s.applyBatch generation batch).2
  | applyError generation message => some (s.applyError generation message).2
  | setPaused paused => some (s.setPaused paused).2
  | setSearch query => some (s.setSearch query).2
  | setWrap wrap => some (s.setWrap wrap).2
  | setFollow follow => some (s.setFollow follow).2
  | setTimestamps timestamps => some (s.setTimestamps timestamps).2
  | setStdout enabled => some (s.setStdout enabled).2
  | setStderr enabled => some (s.setStderr enabled).2
  | setTail value => some (s.setTail value).2
  | setSinceAt value now => (s.setSinceAt value now).map (·.2)
  | setMemberFilter containerId => some (s.setMemberFilter containerId).2
  | clearViewport => some s.clearViewport
  | shutdown => some s.shutdown

/-- The operation clears the viewport. -/
def clears (s : ContainerLogsState) : LogsCall → Bool
  | setSelection kind id ids states names => (s.setSelection kind id ids states names).1
  | clearViewport => true
  | shutdown => true
  | _ => false

end LogsCall

/-! ## What arrives -/

namespace ContainerLogsState

def linesOfBatch [Chrono] : ContainerLogsState → List (String × LogLine) → List LogViewportLine
  | _, [] => []
  | s, (containerId, line) :: rest =>
    s.linesOf containerId line ++ linesOfBatch (s.applyLine containerId line) rest

end ContainerLogsState

/-- The lines that an operation accepts. -/
def LogsCall.accepts [Chrono] (s : ContainerLogsState) : LogsCall → List LogViewportLine
  | applyBatch generation batch =>
    if generation ≠ s.generation ∨ ¬ s.shouldStream then [] else s.linesOfBatch batch
  | _ => []

/-- The viewport, the lines accepted since it was cleared, and how many were accepted at
all. -/
structure LogsRun where
  state : ContainerLogsState := {}
  accepted : List LogViewportLine := []
  count : Nat := 0

/-- The lines accepted since the last clear, after an operation. -/
def LogsCall.acceptedAfter [Chrono] (s : ContainerLogsState) (accepted : List LogViewportLine)
    (call : LogsCall) : List LogViewportLine :=
  (if call.clears s then [] else accepted) ++ call.accepts s

def logViewport [Chrono] : Machine LogsRun LogsCall where
  init x := x = {}
  step x call := (call.after x.state).map fun t =>
    { state := t
      accepted := call.acceptedAfter x.state x.accepted
      count := x.count + (call.accepts x.state).length }

/-- What the viewport promises: exact counters, the caps, the last lines in their order, and
a notice exactly when older ones are gone. -/
structure LogsRun.ViewportSound (x : LogsRun) : Prop where
  viewportBytes : x.state.viewportBytes = (x.state.entries.map (·.byteSize)).sum
  pendingBytes : x.state.pendingBytes = (x.state.pending.map (·.byteSize)).sum
  lines : x.state.entries.length + x.state.pending.length ≤ maxLogLines
  bytes : (x.state.entries.map (·.byteSize)).sum + (x.state.pending.map (·.byteSize)).sum ≤
    maxLogBytes
  suffix : x.state.entries ++ x.state.pending <:+ x.accepted
  increasing : ((x.state.entries ++ x.state.pending).map (·.sequence)).Pairwise (· < ·)
  paused : x.state.pending ≠ [] → x.state.paused = true
  discarded : x.state.discarded = true ↔ x.state.entries ++ x.state.pending ≠ x.accepted

/-! ## The queues -/

namespace ContainerLogsState

/-- The queues hold the last of the lines accepted; lines are held back while paused only. -/
structure Holds (accepted : List LogViewportLine) (s : ContainerLogsState) : Prop where
  sound : s.toBoundedQueues.Sound logBudget LogViewportLine.byteSize accepted
  paused : s.paused = false → s.pending = []

structure KeepsLines (s t : ContainerLogsState) : Prop where
  queues : t.toBoundedQueues = s.toBoundedQueues
  paused : t.paused = s.paused
  sequence : t.nextSequence = s.nextSequence
  targets : t.targets = s.targets

variable {s t : ContainerLogsState} {accepted : List LogViewportLine}

theorem lines_lt_counter : logBudget.lines < logBudget.counter := by decide

theorem keepsLines_refl : s.KeepsLines s := ⟨rfl, rfl, rfl, rfl⟩

theorem Holds.of_keepsLines (h : s.Holds accepted)
    (hkeeps : s.KeepsLines t) : t.Holds accepted := by
  refine ⟨?_, fun hpaused => ?_⟩
  · rw [hkeeps.queues]
    exact h.sound
  · show t.toBoundedQueues.pending = []
    rw [hkeeps.queues]
    exact h.paused (hkeeps.paused ▸ hpaused)

theorem holds_cleared (h : t.toBoundedQueues = {}) : t.Holds [] := by
  refine ⟨?_, fun _ => ?_⟩
  · rw [h]
    exact BoundedQueues.sound_empty
  · show t.toBoundedQueues.pending = []
    rw [h]

/-- Nothing but the queues and the next number changes. -/
def LinesOnly (s t : ContainerLogsState) : Prop :=
  ∃ queues sequence, t = { s with toBoundedQueues := queues, nextSequence := sequence }

theorem linesOnly_refl : s.LinesOnly s := ⟨s.toBoundedQueues, s.nextSequence, rfl⟩

theorem LinesOnly.trans {u : ContainerLogsState} (h : s.LinesOnly t) (h' : t.LinesOnly u) :
    s.LinesOnly u := by
  obtain ⟨queues, sequence, rfl⟩ := h
  obtain ⟨queues', sequence', rfl⟩ := h'
  exact ⟨queues', sequence', rfl⟩

theorem linesOnly_pushLines (lines : List LogViewportLine) : ∀ s : ContainerLogsState,
    s.LinesOnly (lines.foldl pushLine s) ∧
      (lines.foldl pushLine s).nextSequence = s.nextSequence := by
  induction lines with
  | nil => exact fun _ => ⟨linesOnly_refl, rfl⟩
  | cons line lines ih =>
    intro s
    obtain ⟨honly, hsequence⟩ := ih (s.pushLine line)
    have hpush : s.LinesOnly (s.pushLine line) :=
      ⟨(s.pushLine line).toBoundedQueues, s.nextSequence, rfl⟩
    exact ⟨hpush.trans honly, hsequence⟩

theorem Holds.pushLine (h : s.Holds accepted) (line : LogViewportLine) :
    (s.pushLine line).Holds (accepted ++ [line]) := by
  refine ⟨h.sound.push lines_lt_counter s.paused line h.paused, fun hpaused => ?_⟩
  have hpaused : s.paused = false := hpaused
  show (s.toBoundedQueues.push logBudget LogViewportLine.byteSize s.paused line).pending = []
  rw [hpaused]
  exact h.sound.push_pending line (h.paused hpaused)

theorem Holds.pushLines (lines : List LogViewportLine) {s : ContainerLogsState}
    {accepted : List LogViewportLine} (h : s.Holds accepted) :
    (lines.foldl ContainerLogsState.pushLine s).Holds (accepted ++ lines) ∧
      (lines.foldl ContainerLogsState.pushLine s).items <:+ s.items ++ lines := by
  induction lines generalizing s accepted with
  | nil =>
    rw [List.append_nil, List.append_nil]
    exact ⟨h, List.suffix_refl _⟩
  | cons line lines ih =>
    obtain ⟨hholds, hsuffix⟩ := ih (h.pushLine line)
    rw [List.append_assoc, List.singleton_append] at hholds
    refine ⟨hholds, hsuffix.trans ?_⟩
    obtain ⟨dropped, hdropped⟩ := h.sound.push_suffix s.paused line h.paused
    refine ⟨dropped, ?_⟩
    have hitems : dropped ++ (s.pushLine line).items = s.items ++ [line] := hdropped
    rw [← List.append_assoc, hitems, List.append_assoc, List.singleton_append]

variable {call : LogsCall} {count : Nat}

/-- After `count` lines the next number is the one after it, and the numbers of the lines
accepted grow; the largest number is not passed. -/
structure Numbered (count : Nat) (accepted : List LogViewportLine) (s : ContainerLogsState) :
    Prop where
  next : s.nextSequence = logBudget.add count 1
  increasing : count < 2 ^ 64 → (accepted.map (·.sequence)).Pairwise (· < ·)
  le : count < 2 ^ 64 → ∀ line ∈ accepted, line.sequence ≤ count

theorem Numbered.of_sequence (h : s.Numbered count accepted)
    (hsequence : t.nextSequence = s.nextSequence) : t.Numbered count accepted :=
  ⟨hsequence.trans h.next, h.increasing, h.le⟩

theorem keepsLines_clearValidationError : s.KeepsLines s.clearValidationError.2 := by
  unfold clearValidationError
  split
  · exact keepsLines_refl
  · exact ⟨rfl, rfl, rfl, rfl⟩

theorem keepsLines_setValidationError (message : String) :
    s.KeepsLines (s.setValidationError message).2 := by
  unfold setValidationError
  split
  · exact keepsLines_refl
  · exact ⟨rfl, rfl, rfl, rfl⟩

theorem keepsLines_setTail (value : String) : s.KeepsLines (s.setTail value).2 := by
  unfold setTail
  split
  · exact keepsLines_setValidationError _
  · split
    · exact keepsLines_clearValidationError
    · exact ⟨rfl, rfl, rfl, rfl⟩

theorem keepsLines_setMemberFilter (containerId : String) :
    s.KeepsLines (s.setMemberFilter containerId).2 := by
  unfold setMemberFilter
  dsimp only
  split
  · exact keepsLines_setValidationError _
  · split
    · exact keepsLines_clearValidationError
    · have hcleared := keepsLines_clearValidationError
        (s := { s with memberFilterId := trim containerId })
      exact { hcleared with }

theorem Holds.setPaused (h : s.Holds accepted) (paused : Bool) :
    (s.setPaused paused).2.Holds accepted ∧
      (s.setPaused paused).2.items = s.items ∧
      (s.setPaused paused).2.nextSequence = s.nextSequence ∧
      (s.setPaused paused).2.targets = s.targets := by
  unfold ContainerLogsState.setPaused
  split
  · exact ⟨h, rfl, rfl, rfl⟩
  · cases paused with
    | true => exact ⟨⟨h.sound, fun hpaused => (by cases hpaused)⟩, rfl, rfl, rfl⟩
    | false =>
      obtain ⟨hsound, hitems, hnone⟩ := h.sound.resume
      exact ⟨⟨hsound, fun _ => hnone⟩, hitems, rfl, rfl⟩

variable [Chrono]

theorem linesOnly_applyLine (containerId : String) (line : LogLine) :
    s.LinesOnly (s.applyLine containerId line) ∧
      (s.applyLine containerId line).nextSequence =
        logBudget.add s.nextSequence (s.linesOf containerId line).length := by
  obtain ⟨honly, hsequence⟩ := linesOnly_pushLines (s.linesOf containerId line)
    { s with nextSequence := logBudget.add s.nextSequence (s.linesOf containerId line).length }
  have hnumbered : s.LinesOnly { s with
      nextSequence := logBudget.add s.nextSequence (s.linesOf containerId line).length } :=
    ⟨s.toBoundedQueues, _, rfl⟩
  exact ⟨hnumbered.trans honly, hsequence⟩

theorem Holds.applyLine (h : s.Holds accepted) (containerId : String) (line : LogLine) :
    (s.applyLine containerId line).Holds (accepted ++ s.linesOf containerId line) ∧
      (s.applyLine containerId line).items <:+ s.items ++ s.linesOf containerId line := by
  have hnumbered : ContainerLogsState.Holds accepted { s with
      nextSequence := logBudget.add s.nextSequence (s.linesOf containerId line).length } :=
    { h with }
  exact hnumbered.pushLines _

theorem Holds.applyLines (batch : List (String × LogLine)) {s : ContainerLogsState}
    {accepted : List LogViewportLine} (h : s.Holds accepted) :
    (s.applyLines batch).2.Holds (accepted ++ s.linesOfBatch batch) ∧
      (s.applyLines batch).2.items <:+ s.items ++ s.linesOfBatch batch := by
  induction batch generalizing s accepted with
  | nil =>
    show s.Holds (accepted ++ []) ∧ s.items <:+ s.items ++ []
    rw [List.append_nil, List.append_nil]
    exact ⟨h, List.suffix_refl _⟩
  | cons first rest ih =>
    obtain ⟨containerId, line⟩ := first
    obtain ⟨hline, hitems⟩ := h.applyLine containerId line
    obtain ⟨hrest, hsuffix⟩ := ih hline
    rw [List.append_assoc] at hrest
    refine ⟨hrest, hsuffix.trans ?_⟩
    obtain ⟨dropped, hdropped⟩ := hitems
    exact ⟨dropped, by
      rw [← List.append_assoc, hdropped, List.append_assoc]
      rfl⟩

theorem linesOnly_applyLines (batch : List (String × LogLine)) : ∀ s : ContainerLogsState,
    s.LinesOnly (s.applyLines batch).2 := by
  induction batch with
  | nil => exact fun _ => linesOnly_refl
  | cons first rest ih =>
    obtain ⟨containerId, line⟩ := first
    intro s
    exact (linesOnly_applyLine containerId line).1.trans (ih (s.applyLine containerId line))

/-! ## Numbers -/

/-- The lines of one line of a log have the numbers from the next one on. -/
theorem sequences_linesOf (containerId : String) (line : LogLine)
    (hnext : s.nextSequence = logBudget.add count 1)
    (hcount : count + (s.linesOf containerId line).length < 2 ^ 64) :
    (s.linesOf containerId line).map (·.sequence) =
      List.range' (count + 1) (s.linesOf containerId line).length := by
  unfold linesOf at hcount ⊢
  split
  · rfl
  · next target htarget =>
    rw [htarget] at hcount
    dsimp only at hcount
    unfold LogViewportLine.fromDomain at hcount ⊢
    rw [List.length_mapIdx] at hcount ⊢
    refine List.ext_getElem (by rw [List.length_map, List.length_mapIdx, List.length_range'])
      fun offset hoffset _ => ?_
    rw [List.length_map, List.length_mapIdx] at hoffset
    rw [List.getElem_map, List.getElem_mapIdx, List.getElem_range']
    show min (s.nextSequence + offset) (2 ^ 64 - 1) = count + 1 + 1 * offset
    rw [hnext]
    show min (min (count + 1) (2 ^ 64 - 1) + offset) (2 ^ 64 - 1) = count + 1 + 1 * offset
    omega

theorem Numbered.applyLine (h : s.Numbered count accepted) (containerId : String) (line : LogLine) :
    (s.applyLine containerId line).Numbered (count + (s.linesOf containerId line).length)
      (accepted ++ s.linesOf containerId line) := by
  have hnumbers := sequences_linesOf containerId line h.next
  have hsequence := (linesOnly_applyLine (s := s) containerId line).2
  generalize s.linesOf containerId line = lines at hnumbers hsequence ⊢
  have hmem : count + lines.length < 2 ^ 64 → ∀ new ∈ lines,
      count < new.sequence ∧ new.sequence ≤ count + lines.length := by
    intro hcount new hnew
    have hrange : new.sequence ∈ List.range' (count + 1) lines.length := by
      rw [← hnumbers hcount]
      exact List.mem_map_of_mem hnew
    rw [List.mem_range'_1] at hrange
    omega
  refine ⟨?_, fun hcount => ?_, fun hcount new hnew => ?_⟩
  · rw [hsequence, h.next]
    show min (min (count + 1) (2 ^ 64 - 1) + lines.length) (2 ^ 64 - 1) =
      min (count + lines.length + 1) (2 ^ 64 - 1)
    omega
  · rw [List.map_append, List.pairwise_append]
    refine ⟨h.increasing (by omega), ?_, ?_⟩
    · rw [hnumbers hcount]
      exact List.pairwise_lt_range'
    · intro a ha b hb
      obtain ⟨old, hold, rfl⟩ := List.mem_map.mp ha
      obtain ⟨new, hnew, rfl⟩ := List.mem_map.mp hb
      exact Nat.lt_of_le_of_lt (h.le (by omega) old hold) (hmem hcount new hnew).1
  · rcases List.mem_append.mp hnew with hold | hnew
    · exact Nat.le_trans (h.le (by omega) new hold) (Nat.le_add_right _ _)
    · exact (hmem hcount new hnew).2

theorem Numbered.applyLines (batch : List (String × LogLine)) {s : ContainerLogsState}
    {accepted : List LogViewportLine} (h : s.Numbered count accepted) :
    (s.applyLines batch).2.Numbered (count + (s.linesOfBatch batch).length)
      (accepted ++ s.linesOfBatch batch) := by
  induction batch generalizing s accepted count with
  | nil =>
    show s.Numbered (count + 0) (accepted ++ [])
    rw [List.append_nil]
    exact h
  | cons first rest ih =>
    obtain ⟨containerId, line⟩ := first
    have hrest := ih (h.applyLine containerId line)
    rw [List.append_assoc, Nat.add_assoc, ← List.length_append] at hrest
    exact hrest

/-! ## The operations -/

theorem keepsLines_setSinceAt {value : String} {now : Int} {result : Bool × ContainerLogsState}
    (h : s.setSinceAt value now = some result) : s.KeepsLines result.2 := by
  unfold setSinceAt at h
  dsimp only at h
  split at h
  · obtain rfl := Option.some.inj h
    exact keepsLines_clearValidationError
  · obtain ⟨parsed, -, rfl⟩ := Option.map_eq_some_iff.mp h
    cases parsed with
    | error message => exact keepsLines_setValidationError message
    | ok since => exact ⟨rfl, rfl, rfl, rfl⟩

/-- The operation leaves the lines and the selection alone. -/
def KeepsSelection : LogsCall → Prop
  | .setSelection _ _ _ _ _ | .applyBatch _ _ | .setPaused _ | .clearViewport | .shutdown => False
  | _ => True

/-- **Operations on the options** change no line. -/
theorem keepsLines_after (hcall : KeepsSelection call) (h : call.after s = some t) :
    s.KeepsLines t := by
  cases call with
  -- these are the calls that change the lines
  | setSelection kind id ids states names | applyBatch generation batch | setPaused paused
  | clearViewport | shutdown => exact hcall.elim
  | setActive active =>
    obtain rfl : (s.setActive active).2 = t := Option.some.inj h
    unfold setActive
    split
    · exact keepsLines_refl
    · exact ⟨rfl, rfl, rfl, rfl⟩
  | beginStream =>
    obtain rfl : s.beginStream.2 = t := Option.some.inj h
    unfold beginStream
    split
    · exact ⟨rfl, rfl, rfl, rfl⟩
    · exact ⟨rfl, rfl, rfl, rfl⟩
  | applyError generation message =>
    obtain rfl : (s.applyError generation message).2 = t := Option.some.inj h
    unfold applyError
    split
    · exact keepsLines_refl
    · exact ⟨rfl, rfl, rfl, rfl⟩
  | setSearch query =>
    obtain rfl : (s.setSearch query).2 = t := Option.some.inj h
    unfold setSearch
    split
    · exact keepsLines_refl
    · exact ⟨rfl, rfl, rfl, rfl⟩
  | setWrap wrap =>
    obtain rfl : (s.setWrap wrap).2 = t := Option.some.inj h
    unfold setWrap
    split
    · exact keepsLines_refl
    · exact ⟨rfl, rfl, rfl, rfl⟩
  | setFollow follow =>
    obtain rfl : (s.setFollow follow).2 = t := Option.some.inj h
    unfold setFollow
    split
    · exact keepsLines_clearValidationError
    · exact ⟨rfl, rfl, rfl, rfl⟩
  | setTimestamps timestamps =>
    obtain rfl : (s.setTimestamps timestamps).2 = t := Option.some.inj h
    unfold setTimestamps
    split
    · exact keepsLines_clearValidationError
    · exact ⟨rfl, rfl, rfl, rfl⟩
  | setStdout enabled =>
    obtain rfl : (s.setStdout enabled).2 = t := Option.some.inj h
    unfold setStdout
    split
    · exact keepsLines_setValidationError _
    · split
      · exact keepsLines_clearValidationError
      · exact ⟨rfl, rfl, rfl, rfl⟩
  | setStderr enabled =>
    obtain rfl : (s.setStderr enabled).2 = t := Option.some.inj h
    unfold setStderr
    split
    · exact keepsLines_setValidationError _
    · split
      · exact keepsLines_clearValidationError
      · exact ⟨rfl, rfl, rfl, rfl⟩
  | setTail value =>
    rw [LogsCall.after, Option.some.injEq] at h
    rw [← h]
    exact keepsLines_setTail value
  | setSinceAt value now =>
    rw [LogsCall.after, Option.map_eq_some_iff] at h
    obtain ⟨result, hresult, rfl⟩ := h
    exact keepsLines_setSinceAt hresult
  | setMemberFilter containerId =>
    obtain rfl : (s.setMemberFilter containerId).2 = t := Option.some.inj h
    exact keepsLines_setMemberFilter containerId

theorem applyBatch_taken {generation : UInt64} {batch : List (String × LogLine)}
    (htaken : ¬ (generation ≠ s.generation ∨ ¬ s.shouldStream)) :
    (s.applyLines batch).2.KeepsLines (s.applyBatch generation batch).2 := by
  unfold applyBatch
  rw [not_or] at htaken
  split
  · next hrefused =>
    have hempty : batch = [] := (hrefused.resolve_left htaken.1).resolve_left htaken.2
    rw [hempty]
    exact keepsLines_refl
  · dsimp only
    split
    · exact ⟨rfl, rfl, rfl, rfl⟩
    · exact keepsLines_refl

theorem applyBatch_refused {generation : UInt64} {batch : List (String × LogLine)}
    (hrefused : generation ≠ s.generation ∨ ¬ s.shouldStream) :
    s.applyBatch generation batch = (false, s) := by
  refine if_pos ?_
  rcases hrefused with hgeneration | hidle
  · exact .inl hgeneration
  · exact .inr (.inl hidle)

/-- **What an operation does to the lines.** -/
inductive LinesStep (s t : ContainerLogsState) (call : LogsCall) : Prop where
  | keeps (hkeeps : s.KeepsLines t) (haccepts : call.accepts s = [])
      (hclears : call.clears s = false)
  | paused (paused : Bool) (ht : t = (s.setPaused paused).2) (haccepts : call.accepts s = [])
      (hclears : call.clears s = false)
  | cleared (hqueues : t.toBoundedQueues = {}) (hsequence : t.nextSequence = s.nextSequence)
      (htargets : (s.targets.map (·.id)).Nodup → (t.targets.map (·.id)).Nodup)
      (haccepts : call.accepts s = []) (hclears : call.clears s = true)
  | applied {generation : UInt64} {batch : List (String × LogLine)}
      (hcall : call = .applyBatch generation batch)
      (hkeeps : (s.applyLines batch).2.KeepsLines t)
      (haccepts : call.accepts s = s.linesOfBatch batch)

theorem linesStep_setSelection (kind id : String) (ids states names : List String) :
    LinesStep s (s.setSelection kind id ids states names).2
      (.setSelection kind id ids states names) := by
  generalize hresult : s.setSelection kind id ids states names = result
  have hclears : LogsCall.clears s (.setSelection kind id ids states names) = result.1 :=
    congrArg Prod.fst hresult
  unfold setSelection at hresult
  dsimp only at hresult
  split at hresult
  · subst hresult
    exact .keeps keepsLines_refl rfl hclears
  · subst hresult
    refine .cleared rfl rfl (fun _ => ?_) rfl hclears
    dsimp only [clearViewport]
    exact nodup_buildTargets (normalizeKind kind) id ids states names

theorem linesStep_after (hafter : call.after s = some t) : LinesStep s t call := by
  by_cases hcall : KeepsSelection call
  · have hkeeps := keepsLines_after hcall hafter
    cases call with
    | setSelection | applyBatch | setPaused | clearViewport | shutdown => exact hcall.elim
    | _ => exact .keeps hkeeps rfl rfl
  cases call with
  | setSelection kind id ids states names =>
    obtain rfl : (s.setSelection kind id ids states names).2 = t := Option.some.inj hafter
    exact linesStep_setSelection kind id ids states names
  | applyBatch generation batch =>
    obtain rfl : (s.applyBatch generation batch).2 = t := Option.some.inj hafter
    by_cases hrefused : generation ≠ s.generation ∨ ¬ s.shouldStream
    · rw [applyBatch_refused hrefused]
      exact .keeps keepsLines_refl (if_pos hrefused) rfl
    · exact .applied rfl (applyBatch_taken hrefused) (if_neg hrefused)
  | setPaused paused => exact .paused paused (Option.some.inj hafter).symm rfl rfl
  | clearViewport | shutdown =>
    obtain rfl := Option.some.inj hafter
    exact .cleared rfl rfl id rfl rfl
  | _ => exact absurd trivial hcall

/-- **The queues** after an operation. -/
theorem Holds.after (h : s.Holds accepted) (hafter : call.after s = some t) :
    t.Holds (call.acceptedAfter s accepted) := by
  unfold LogsCall.acceptedAfter
  cases linesStep_after hafter with
  | keeps hkeeps haccepts hclears =>
    rw [haccepts, hclears, List.append_nil]
    exact h.of_keepsLines hkeeps
  | paused paused ht haccepts hclears =>
    rw [haccepts, hclears, List.append_nil, ht]
    exact (h.setPaused paused).1
  | cleared hqueues _ _ haccepts hclears =>
    rw [haccepts, hclears]
    exact holds_cleared hqueues
  | applied hcall hkeeps haccepts =>
    rw [haccepts, hcall]
    exact (h.applyLines _).1.of_keepsLines hkeeps

theorem Holds.items_after (h : s.Holds accepted)
    (hcall : ∀ generation batch, call ≠ .applyBatch generation batch)
    (hafter : call.after s = some t) : t.items = if call.clears s then [] else s.items := by
  cases linesStep_after hafter with
  | keeps hkeeps _ hclears =>
    rw [hclears, BoundedQueues.items, hkeeps.queues]
    rfl
  | paused paused ht _ hclears =>
    rw [hclears, ht]
    exact (h.setPaused paused).2.1
  | cleared hqueues _ _ _ hclears =>
    rw [hclears, BoundedQueues.items, hqueues]
    rfl
  | applied happlied => exact absurd happlied (hcall _ _)

theorem Holds.nodup_targets (h : s.Holds accepted) (hnodup : (s.targets.map (·.id)).Nodup)
    (hafter : call.after s = some t) : (t.targets.map (·.id)).Nodup := by
  cases linesStep_after hafter with
  | keeps hkeeps => rwa [hkeeps.targets]
  | paused paused ht => rwa [ht, (h.setPaused paused).2.2.2]
  | cleared _ _ htargets => exact htargets hnodup
  | @applied _ batch _ hkeeps =>
    obtain ⟨queues, sequence, honly⟩ := linesOnly_applyLines batch s
    rwa [hkeeps.targets, honly]

/-- **The numbers** after an operation. -/
theorem Numbered.after (h : s.Numbered count accepted) (hholds : s.Holds accepted)
    (hafter : call.after s = some t) :
    t.Numbered (count + (call.accepts s).length) (call.acceptedAfter s accepted) := by
  unfold LogsCall.acceptedAfter
  cases linesStep_after hafter with
  | keeps hkeeps haccepts hclears =>
    rw [haccepts, hclears, List.append_nil]
    exact h.of_sequence hkeeps.sequence
  | paused paused ht haccepts hclears =>
    rw [haccepts, hclears, List.append_nil, ht]
    exact h.of_sequence (hholds.setPaused paused).2.2.1
  | cleared _ hsequence _ haccepts hclears =>
    rw [haccepts, hclears]
    exact ⟨hsequence.trans h.next, fun _ => List.Pairwise.nil, fun _ line hline => (by cases hline)⟩
  | applied hcall hkeeps haccepts =>
    rw [haccepts, hcall]
    exact (h.applyLines _).of_sequence hkeeps.sequence

end ContainerLogsState

namespace LogsRun

open ContainerLogsState

variable [Chrono] {x : LogsRun}

theorem kept (h : logViewport.Reach (fun _ _ => True) x) :
    x.state.Holds x.accepted ∧ x.state.Numbered x.count x.accepted := by
  refine h.invariant (I := fun x => x.state.Holds x.accepted ∧
    x.state.Numbered x.count x.accepted) ?_ ?_
  · rintro x rfl
    exact ⟨holds_cleared rfl, rfl, fun _ => List.Pairwise.nil, fun _ line hline => (by cases hline)⟩
  · rintro x call x' ⟨hholds, hnumbered⟩ - hstep
    obtain ⟨t, hafter, rfl⟩ := Option.map_eq_some_iff.mp hstep
    exact ⟨hholds.after hafter, hnumbered.after hholds hafter⟩

/-- **The viewport** after any run that has accepted fewer than `2 ^ 64` lines: the counters
and the caps, the last lines accepted in their order, and the notice; and a batch of another
generation changes nothing. -/
theorem viewport_sound (h : logViewport.Reach (fun _ _ => True) x) (hlines : x.count < 2 ^ 64) :
    x.ViewportSound ∧ ∀ generation batch, generation ≠ x.state.generation →
      x.state.applyBatch generation batch = (false, x.state) := by
  obtain ⟨hholds, hnumbered⟩ := kept h
  have hsound := hholds.sound
  refine ⟨?_, fun generation batch hgeneration => applyBatch_refused (Or.inl hgeneration)⟩
  constructor
  case viewportBytes => exact hsound.viewportBytes
  case pendingBytes => exact hsound.pendingBytes
  case lines => exact hsound.lines
  case bytes =>
    have hbytes := hsound.bytes
    rw [hsound.viewportBytes, hsound.pendingBytes] at hbytes
    exact hbytes
  case suffix => exact hsound.suffix
  case increasing =>
    obtain ⟨older, holder⟩ := hsound.suffix
    have hincreasing := hnumbered.increasing hlines
    rw [← holder, List.map_append, List.pairwise_append] at hincreasing
    exact hincreasing.2.1
  case paused =>
    intro hpending
    by_contra hpaused
    exact hpending (hholds.paused (Bool.not_eq_true _ ▸ hpaused))
  case discarded => exact hsound.discarded

omit [Chrono] in
/-- One line of a log with two messages. -/
theorem viewport_of_two_lines :
    letI := timeless
    ∃ x, logViewport.exec {}
      [.setSelection "container" "a" ["a"] ["running"] ["alpha"], .setActive true, .beginStream,
        .applyBatch 3 [("a", ⟨none, .stdout, "one\ntwo\n"⟩)]] = some x ∧
      x.state.entries.map (·.message) = ["one", "two"] ∧ x.count = 2 ∧ x.ViewportSound := by
  let times := timeless
  have hrun : (logViewport.exec {}
      [.setSelection "container" "a" ["a"] ["running"] ["alpha"], .setActive true, .beginStream,
        .applyBatch 3 [("a", ⟨none, .stdout, "one\ntwo\n"⟩)]]).map
      (fun x => (x.state.entries.map (·.message), x.count)) = some (["one", "two"], 2) := by
    decide +kernel
  obtain ⟨x, hexec, hx⟩ := Option.map_eq_some_iff.mp hrun
  have hcount : x.count = 2 := congrArg Prod.snd hx
  have hreach := Machine.reach_of_run rfl hexec
  exact ⟨x, hexec, congrArg Prod.fst hx, hcount, (viewport_sound hreach (by omega)).1⟩

end LogsRun

end TuxStack.Gui
