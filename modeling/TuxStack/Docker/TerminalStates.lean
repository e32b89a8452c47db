import Mathlib.Data.List.Chain
import TuxStack.Lib.Tasks

/-!
# The state of a terminal session

`transition_state` (`crates/docker-core/src/services/container_terminal.rs`) reads the
state out of the `watch` channel of the session, asks `state_transition_allowed`, and then
replaces whatever the channel holds by then. It is called by `connect`, by `close`, by the
drop of the session and by its output and input tasks, in any overlap.

`published_in_order` says when the published states are a legal sequence that ends with
`Exited`: exactly when no caller finds the session already past the state it publishes.
`error_after_exited` is a lost connection that meets a close.
-/

namespace TuxStack.Docker

open Runs Tasks

/-! ## States -/

inductive ContainerTerminalState where
  | idle
  | connecting
  | ready
  | exited
  | error
deriving DecidableEq, Repr

def stateTransitionAllowed (current next : ContainerTerminalState) : Bool :=
  current == next ||
    match current, next with
    | .idle, .connecting => true
    | .connecting, .ready | .connecting, .error | .connecting, .exited => true
    | .ready, .exited | .ready, .error => true
    | .error, .exited => true
    | _, _ => false

namespace ContainerTerminalState

/-- The place of a state in the life of a session. -/
def rank : ContainerTerminalState → Nat
  | idle => 0
  | connecting => 1
  | ready => 2
  | error => 3
  | exited => 4

end ContainerTerminalState

variable {current middle next : ContainerTerminalState}

theorem rank_le_of_allowed (h : stateTransitionAllowed current next) :
    current.rank ≤ next.rank := by
  revert h
  cases current <;> cases next <;> decide

/-- A session that is on its way from `current` to `next` may still go to `next`. -/
theorem allowed_of_between (h : stateTransitionAllowed current next)
    (hle : current.rank ≤ middle.rank) (hge : middle.rank ≤ next.rank) :
    stateTransitionAllowed middle next := by
  revert h hle hge
  cases current <;> cases middle <;> cases next <;> decide

theorem eq_exited_of_allowed (h : stateTransitionAllowed .exited next) : next = .exited := by
  cases next with
  | exited => rfl
  | _ => cases h

/-! ## The channel and its callers -/

/-- The `watch` channel: the state that it holds, and those that were sent to it. -/
structure StateChannel where
  value : ContainerTerminalState
  published : List ContainerTerminalState
deriving DecidableEq, Repr

namespace StateChannel

/-- `watch::channel(Idle)`. -/
def new : StateChannel where
  value := .idle
  published := []

def sendReplace (c : StateChannel) (next : ContainerTerminalState) : StateChannel where
  value := next
  published := c.published ++ [next]

/-- What a watcher from the beginning on can have seen. -/
def history (c : StateChannel) : List ContainerTerminalState :=
  .idle :: c.published

theorem history_sendReplace (c : StateChannel) (next : ContainerTerminalState) :
    (c.sendReplace next).history = c.history ++ [next] :=
  rfl

/-- Only allowed steps, and nothing but `Exited` once that was published. -/
structure InOrder (c : StateChannel) : Prop where
  steps : c.history.IsChain fun a b => stateTransitionAllowed a b
  exited : ∀ before after, c.published = before ++ .exited :: after → ∀ x ∈ after, x = .exited

/-- In a legal sequence `Exited` is final. -/
theorem inOrder_iff {c : StateChannel} :
    c.InOrder ↔ c.history.IsChain fun a b => stateTransitionAllowed a b := by
  refine ⟨InOrder.steps, fun h => ⟨h, ?_⟩⟩
  intro before after hpublished x hx
  have hsuffix : (.exited :: after) <:+ c.history := by
    refine ⟨.idle :: before, ?_⟩
    rw [history, hpublished]
    rfl
  have hstay : (ContainerTerminalState.exited :: after).IsChain fun a b =>
      a = .exited → b = .exited := by
    refine (h.suffix hsuffix).imp fun a b hab ha => ?_
    subst ha
    exact eq_exited_of_allowed hab
  have : IsTrans ContainerTerminalState fun a b => a = .exited → b = .exited :=
    ⟨fun _ _ _ hab hbc ha => hbc (hab ha)⟩
  exact List.rel_of_pairwise_cons hstay.pairwise hx rfl

/-- The states of a legal sequence only go up. -/
theorem rank_le_of_mem {c : StateChannel} (h : c.InOrder)
    (hlast : c.history.getLast? = some c.value) (hmem : current ∈ c.history) :
    current.rank ≤ c.value.rank := by
  have hup : c.history.IsChain fun a b => a.rank ≤ b.rank :=
    h.steps.imp fun _ _ => rank_le_of_allowed
  have : IsTrans ContainerTerminalState fun a b => a.rank ≤ b.rank := ⟨fun _ _ _ => Nat.le_trans⟩
  obtain ⟨before, hsplit⟩ := List.getLast?_eq_some_iff.mp hlast
  rw [hsplit] at hup hmem
  rcases List.mem_append.mp hmem with hold | hnew
  · exact (List.pairwise_append.mp hup.pairwise).2.2 _ hold _ List.mem_cons_self
  · rw [List.mem_singleton.mp hnew]

theorem inOrder_sendReplace {c : StateChannel} (hlast : c.history.getLast? = some c.value) :
    (c.sendReplace next).InOrder ↔ c.InOrder ∧ stateTransitionAllowed c.value next := by
  rw [inOrder_iff, inOrder_iff, history_sendReplace, List.isChain_append, hlast]
  simp

end StateChannel

/-- A call of `transition_state`: not begun, with `*state.borrow()` in hand, or over. -/
inductive TransitionCall where
  | called (next : ContainerTerminalState)
  | borrowed (current next : ContainerTerminalState)
  | returned
deriving DecidableEq, Repr

def transitionState (c : StateChannel) : TransitionCall → Option (StateChannel × TransitionCall)
  | .called next => some (c, .borrowed c.value next)
  | .borrowed current next =>
    some (if stateTransitionAllowed current next then c.sendReplace next else c, .returned)
  | .returned => none

/-- Any number of calls on one channel. -/
def transitionProgram : Program StateChannel TransitionCall ContainerTerminalState Unit where
  spawn _ next := .called next
  advance c _ call _ := transitionState c call

abbrev StateSystem := Pool StateChannel TransitionCall

abbrev StateAction := Tasks.Action ContainerTerminalState Unit

namespace StateSystem

def machine : Machine StateSystem StateAction := transitionProgram.machine (· = StateChannel.new)

def start : StateSystem where
  core := StateChannel.new
  tasks _ := none

/-- The step does not publish a state that the session has already left behind. -/
def NotOvertaken (s : StateSystem) : StateAction → Prop
  | .call _ _ => True
  | .advance i _ => ∀ current next, s.tasks i = some (.borrowed current next) →
      stateTransitionAllowed current next → s.core.value.rank ≤ next.rank

/-! ## Exactness -/

/-- The channel holds what was sent last, and a caller has in hand a state that it once
held. -/
structure Tracked (s : StateSystem) : Prop where
  value : s.core.history.getLast? = some s.core.value
  borrowed : ∀ i current next, s.tasks i = some (.borrowed current next) →
    current ∈ s.core.history

theorem tracked_start : Tracked start where
  value := rfl
  borrowed _ _ _ h := by cases h

variable {s s' : StateSystem} {a : StateAction}

theorem step_cases (h : machine.step s a = some s') :
    (∃ i next, a = .call i next ∧ s' = s.put i s.core (.called next)) ∨
    (∃ i next, a = .advance i () ∧ s.tasks i = some (.called next) ∧
      s' = s.put i s.core (.borrowed s.core.value next)) ∨
    ∃ i current next, a = .advance i () ∧ s.tasks i = some (.borrowed current next) ∧
      s' = s.put i (if stateTransitionAllowed current next then s.core.sendReplace next
        else s.core) .returned := by
  cases a with
  | call i next =>
    obtain ⟨-, rfl⟩ := Program.step_call h
    exact .inl ⟨i, next, rfl, rfl⟩
  | advance i _ =>
    obtain ⟨task, core, task', htask, hadvance, rfl⟩ := Program.step_advance h
    cases task with
    | called next =>
      cases hadvance
      exact .inr (.inl ⟨i, next, rfl, htask, rfl⟩)
    | borrowed current next =>
      cases hadvance
      exact .inr (.inr ⟨i, current, next, rfl, htask, rfl⟩)
    | returned => cases hadvance

theorem tracked_step (h : Tracked s) (hstep : machine.step s a = some s') : Tracked s' := by
  rcases step_cases hstep with ⟨i, next, rfl, rfl⟩ | ⟨i, next, rfl, -, rfl⟩ |
    ⟨i, current, next, rfl, -, rfl⟩
  · refine ⟨h.value, fun j current next hj => ?_⟩
    rw [Pool.tasks_put] at hj
    split at hj
    · cases hj
    · exact h.borrowed j current next hj
  · refine ⟨h.value, fun j current next hj => ?_⟩
    rw [Pool.tasks_put] at hj
    split at hj
    · cases hj
      exact List.mem_of_getLast? h.value
    · exact h.borrowed j current next hj
  · have hgrows : s.core.history ⊆ (if stateTransitionAllowed current next
        then s.core.sendReplace next else s.core).history := by
      split
      · exact List.subset_append_left _ _
      · exact List.Subset.refl _
    refine ⟨?_, fun j current next hj => ?_⟩
    · show (if _ then _ else _ : StateChannel).history.getLast? = some (if _ then _ else _ :
        StateChannel).value
      split
      · rw [StateChannel.history_sendReplace]
        exact List.getLast?_concat
      · exact h.value
    · rw [Pool.tasks_put] at hj
      split at hj
      · cases hj
      · exact hgrows (h.borrowed j current next hj)

theorem inOrder_step (h : Tracked s) (hs : s.core.InOrder) (hok : NotOvertaken s a)
    (hstep : machine.step s a = some s') : s'.core.InOrder := by
  rcases step_cases hstep with ⟨i, next, rfl, rfl⟩ | ⟨i, next, rfl, -, rfl⟩ |
    ⟨i, current, next, rfl, htask, rfl⟩
  · exact hs
  · exact hs
  · show (if _ then _ else _ : StateChannel).InOrder
    split
    · next hallowed =>
      refine (StateChannel.inOrder_sendReplace h.value).mpr ⟨hs, ?_⟩
      have hread := StateChannel.rank_le_of_mem hs h.value (h.borrowed i current next htask)
      exact allowed_of_between hallowed hread (hok current next htask hallowed)
    · exact hs

theorem overtaken (h : ¬ NotOvertaken s a) :
    ∃ i current next, a = .advance i () ∧ s.tasks i = some (.borrowed current next) ∧
      stateTransitionAllowed current next ∧ next.rank < s.core.value.rank := by
  cases a with
  | call i next => exact absurd trivial h
  | advance i _ =>
    by_contra hno
    refine h fun current next htask hallowed => ?_
    by_contra hlt
    exact hno ⟨i, current, next, rfl, htask, hallowed, Nat.lt_of_not_le hlt⟩

theorem not_inOrder_step (h : Tracked s) (hover : ¬ NotOvertaken s a)
    (hstep : machine.step s a = some s') : ¬ s'.core.InOrder := by
  obtain ⟨i, current, next, rfl, htask, hallowed, hlt⟩ := overtaken hover
  obtain ⟨task, core, task', ht, hadvance, rfl⟩ := Program.step_advance hstep
  cases ht.symm.trans htask
  cases hadvance
  show ¬ (if _ then _ else _ : StateChannel).InOrder
  rw [if_pos hallowed, StateChannel.inOrder_sendReplace h.value]
  rintro ⟨-, hback⟩
  exact Nat.not_le_of_lt hlt (rank_le_of_allowed hback)

/-- **The published states stay in order exactly as long as no caller is overtaken.** -/
theorem published_in_order (as : List StateAction) :
    machine.AllStates (fun s => s.core.InOrder) start as ↔
      machine.AllSteps NotOvertaken start as := by
  refine Machine.allStates_iff_allSteps (fun _ _ _ => tracked_step)
    (fun _ _ _ => inOrder_step) (fun s a s' h _ => not_inOrder_step h) ?_ tracked_start
    (StateChannel.inOrder_iff.mpr (List.isChain_singleton _))
  intro s a h
  obtain ⟨i, current, next, rfl, htask, -⟩ := overtaken h
  exact ⟨_, Program.step_of_advance htask rfl⟩

/-- The output task loses the connection and reads `Ready`; `close` publishes `Exited`; the
output task publishes `Error`. -/
theorem error_after_exited :
    ∃ s, machine.exec start
        [.call 0 .connecting, .advance 0 (), .advance 0 (),
         .call 1 .ready, .advance 1 (), .advance 1 (),
         .call 2 .error, .call 3 .exited, .advance 2 (), .advance 3 (), .advance 3 (),
         .advance 2 ()] = some s ∧
      s.core.published = [.connecting, .ready, .exited, .error] ∧ ¬ s.core.InOrder := by
  refine ⟨_, rfl, rfl, fun h => ?_⟩
  have hlast := h.exited [.connecting, .ready] [.error] rfl .error List.mem_cons_self
  cases hlast

end StateSystem

end TuxStack.Docker
