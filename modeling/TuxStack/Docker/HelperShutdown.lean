import TuxStack.Docker.HelperCore

/-!
# Shutting the helper provider down

`shutdown` clears the active flag first and takes the session out of its slot last. A call
that has loaded the flag before may find the slot empty afterwards, and starts a helper that
nobody stops (`starts_after_shutdown`). A session that another task has taken out and is
still stopping, or has failed to stop, is not waited for either.

When neither happens (`Orderly`), a `shutdown` that has returned without an error is final:
the slot is empty, no helper runs and none is started (`shutdown_is_final`).
-/

namespace TuxStack.Docker

open Vfs Runs Tasks

/-- A `shutdown` that has taken the session out of its slot. -/
def HelperTask.HasTaken (task : HelperTask) : Prop :=
  (∃ session, task.phase = .shutStopping session) ∨
    task.call = .shutdown ∧ ∃ outcome, task.phase = .returned outcome

/-- What the two steps without a check of their own need: a session is started only before a
`shutdown` has taken the slot, and when a `shutdown` takes it, every other helper that was
started is stopped. -/
def Orderly (s : HelperSystem) : HelperAction → Prop
  | .call .. => True
  | .advance i _ => ∀ task, s.tasks i = some task →
      (task.phase = .waiting → s.core.session = none →
        ∀ j t, s.tasks j = some t → ¬ t.HasTaken) ∧
      (task.phase = .shutTaking →
        ∀ c ∈ s.core.running, ∃ session, s.core.session = some session ∧ session.containerId = c)

/-- The mutex of the session is held across an await. -/
def HelperPhase.Holds : HelperPhase → Prop
  | .starting | .refusing _ => True
  | _ => False

namespace HelperProviderCore

/-- The slot is empty and nobody is about to fill it. -/
structure Closed (core : HelperProviderCore) : Prop where
  session : core.session = none
  lock : core.lock = none

variable {s s' : HelperProviderCore} {i : Nat} {task task' : HelperTask} {answer : HelperAnswer}

section Stop

variable (s : HelperProviderCore) (session : FilesystemSession) (result : Except VfsError Unit)

theorem stop_session : (s.stop session result).session = s.session := by
  cases result with
  | ok => rfl
  | error => rfl

theorem stop_lock : (s.stop session result).lock = s.lock := by
  cases result with
  | ok => rfl
  | error => rfl

theorem stop_started : (s.stop session result).started = s.started := by
  cases result with
  | ok => rfl
  | error => rfl

theorem stop_running : (s.stop session result).running ⊆ s.running := by
  cases result with
  | ok => exact Finset.erase_subset ..
  | error => exact subset_rfl

end Stop

/-- Slot, mutex and containers as they were, but for containers that are stopped. -/
def Keeps (s s' : HelperProviderCore) : Prop :=
  s'.session = s.session ∧ s'.lock = s.lock ∧ s'.started = s.started ∧ s'.running ⊆ s.running

theorem keeps_enter (h : s.enter task = (s', task')) : s.Keeps s' := by
  rcases enter_cases h with ⟨rfl, -⟩ | ⟨path, -, rfl, -⟩ | ⟨handles, outcome, -, rfl, -⟩ |
    ⟨rfl, -⟩ | ⟨-, rfl, -⟩
  all_goals exact ⟨rfl, rfl, rfl, subset_rfl⟩

/-- **A step and the session**: the slot, the mutex and the containers are touched by a call
that starts a session and by one that takes a session out. -/
theorem advance_session (h : s.advance i task answer = some (s', task')) :
    s.Keeps s' ∨
    (task.phase = .waiting ∧ s.session = none ∧ s.lock = none) ∨
    task.phase.Holds ∨
    (s.lock = none ∧ s.session ≠ none ∧ s' = { s with session := none }) := by
  generalize hphase : task.phase = phase
  cases advance_cases hphase h with
  | called h => exact .inl (keeps_enter h)
  | locked hlock hsession => exact .inr (.inl ⟨rfl, hsession, hlock⟩)
  | writable | started | notStarted | refused => exact .inr (.inr (.inl trivial))
  | discarded hlock hsession | taken hlock hsession =>
    exact .inr (.inr (.inr ⟨hlock, by simp [hsession], rfl⟩))
  | stopped => exact .inl ⟨stop_session .., stop_lock .., stop_started .., stop_running ..⟩
  | shutStopped => exact .inl ⟨rfl, rfl, rfl, stop_running ..⟩
  | @retained path => cases path with
    | none | some path => exact .inl ⟨rfl, rfl, rfl, subset_rfl⟩
  | _ => exact .inl ⟨rfl, rfl, rfl, subset_rfl⟩

end HelperProviderCore

/-! ## The invariant -/

open HelperProviderCore (Closed)

/-- What the phase of the task `i` says about the slot, the mutex and the containers. The
phases before `shutTaking` say nothing, the phases of other calls are not of a `shutdown`. -/
def PhaseSafe (core : HelperProviderCore) (i : Nat) (call : HelperCall) : HelperPhase → Prop
  | .called | .shutRaising | .shutAging | .shutClearing | .shutClosing | .shutTaking => True
  | .starting | .refusing _ => call ≠ .shutdown ∧ core.lock = some i
  | .shutStopping session => Closed core ∧ core.running ⊆ {session.containerId}
  | .returned outcome => call = .shutdown →
      Closed core ∧ (outcome = .finished → core.running = ∅)
  | _ => call ≠ .shutdown

variable {core core' : HelperProviderCore} {call : HelperCall} {phase : HelperPhase}

theorem PhaseSafe.ofKeeps {i : Nat} (h : PhaseSafe core i call phase) (hkeeps : core.Keeps core') :
    PhaseSafe core' i call phase := by
  obtain ⟨hsession, hlock, -, hrunning⟩ := hkeeps
  have hclosed : Closed core → Closed core' :=
    fun h => ⟨hsession.trans h.session, hlock.trans h.lock⟩
  cases phase with
  | starting | refusing => exact ⟨h.1, hlock.trans h.2⟩
  | shutStopping session => exact ⟨hclosed h.1, hrunning.trans h.2⟩
  | returned outcome =>
    intro hcall
    obtain ⟨hempty, hfinished⟩ := h hcall
    exact ⟨hclosed hempty, fun houtcome =>
      Finset.subset_empty.mp (hfinished houtcome ▸ hrunning)⟩
  | _ => exact h

/-- A task that holds the mutex, or has closed the slot, is not disturbed by a session that is
taken out of the slot: there is none, or the mutex is free. -/
theorem PhaseSafe.ofTaken {i : Nat} (h : PhaseSafe core i call phase) (hlock : core.lock = none)
    (hsession : core.session ≠ none) : PhaseSafe { core with session := none } i call phase := by
  cases phase with
  | starting | refusing => exact absurd (h.2.symm.trans hlock) (by simp)
  | shutStopping session => exact absurd h.1.session hsession
  | returned outcome => exact fun hcall => absurd (h hcall).1.session hsession
  | _ => exact h

/-- Nobody else has closed the slot or holds the mutex: what this task does to the session is
no matter to the others. -/
theorem PhaseSafe.ofOther {i : Nat} {task : HelperTask} (h : PhaseSafe core i task.call task.phase)
    (htaken : ¬ task.HasTaken) (hlock : core.lock ≠ some i) :
    PhaseSafe core' i task.call task.phase := by
  cases hphase : task.phase with
  | starting | refusing =>
    rw [hphase] at h
    exact absurd h.2 hlock
  | shutStopping session => exact absurd (.inl ⟨session, hphase⟩) htaken
  | returned outcome =>
    intro hcall
    exact absurd (.inr ⟨hcall, outcome, hphase⟩) htaken
  | _ =>
    rw [hphase] at h
    exact h

/-- The step of a `shutdown` that was just called; other calls never get to the phases of
one. -/
theorem PhaseSafe.enter {s s' : HelperProviderCore} {i : Nat} {task task' : HelperTask}
    (h : s.enter task = (s', task')) : PhaseSafe s' i task'.call task'.phase := by
  by_cases hcall : task.call = .shutdown
  · unfold HelperProviderCore.enter at h
    rw [hcall] at h
    obtain ⟨rfl, rfl⟩ := Prod.mk.inj h
    trivial
  · rcases HelperProviderCore.enter_cases h with
      ⟨rfl, ⟨outcome, -, rfl⟩ | rfl | rfl⟩ | ⟨path, -, rfl, rfl⟩ | ⟨handles, outcome, -, rfl, rfl⟩ |
      ⟨rfl, rfl⟩ | ⟨hshutdown, -, -⟩
    · exact fun hshutdown => absurd hshutdown hcall
    · exact hcall
    · exact hcall
    · exact hcall
    · exact fun hshutdown => absurd hshutdown hcall
    · exact hcall
    · exact absurd hshutdown hcall

theorem PhaseSafe.advance {s s' : HelperProviderCore} {i : Nat} {task task' : HelperTask}
    {answer : HelperAnswer} (h : PhaseSafe s i task.call task.phase)
    (horderly : task.phase = .shutTaking →
      ∀ c ∈ s.running, ∃ session, s.session = some session ∧ session.containerId = c)
    (hstep : s.advance i task answer = some (s', task')) :
    PhaseSafe s' i task'.call task'.phase := by
  -- a call that is not a `shutdown` may end as it likes
  have hends : ∀ {core : HelperProviderCore} {outcome : HelperOutcome}, task.call ≠ .shutdown →
      PhaseSafe core i (task.ends outcome).call (task.ends outcome).phase :=
    fun hcall hshutdown => absurd hshutdown hcall
  generalize hphase : task.phase = phase at h horderly
  cases HelperProviderCore.advance_cases hphase hstep with
  | called hstep => exact PhaseSafe.enter hstep
  | replied hreply =>
    rcases HelperProviderCore.reply_cases hreply with
      ⟨outcome, -, -, rfl⟩ | ⟨error, rfl⟩ | ⟨path, flags, -, rfl⟩ | ⟨path, entries, -, rfl⟩
    · exact hends h
    · exact h
    · exact h
    · exact h
  | locked => exact ⟨h, rfl⟩
  | started => exact h.1
  | notStarted | refused => exact hends h.1
  | missed | resolved | compared | entered | shared | writable | discarded | stopped | raised
  | aged | numbered | loaded => exact h
  | hit | unknown | differs | inactive | replaced | cleared | stored | filed | retained =>
    exact hends h
  | shutRaised | shutAged | shutCleared | shutClosed => trivial
  | empty hlock hsession =>
    refine fun _ => ⟨⟨hsession, hlock⟩, fun _ => ?_⟩
    apply Finset.eq_empty_of_forall_notMem
    intro c hc
    obtain ⟨session, hsome, -⟩ := horderly rfl c hc
    rw [hsession] at hsome
    cases hsome
  | taken hlock hsession =>
    refine ⟨⟨rfl, hlock⟩, ?_⟩
    intro c hc
    obtain ⟨session', hsome, hid⟩ := horderly rfl c hc
    rw [hsession] at hsome
    cases hsome
    exact Finset.mem_singleton.mpr hid.symm
  | @shutStopped session =>
    obtain ⟨hclosed, hrunning⟩ := h
    refine fun _ => ⟨{ hclosed with }, fun _ => ?_⟩
    show s.running.erase session.containerId = ∅
    rw [Finset.erase_eq_empty_iff]
    exact Finset.subset_singleton_iff.mp hrunning
  | shutFailed => exact fun _ => ⟨h.1, fun hfinished => by cases hfinished⟩

/-! ## Runs -/

namespace HelperSystem

def Safe (s : HelperSystem) : Prop :=
  ∀ i task, s.tasks i = some task → PhaseSafe s.core i task.call task.phase

variable {s s' : HelperSystem} {action : HelperAction}

theorem Safe.closed (h : s.Safe) {i : Nat} {task : HelperTask} (htask : s.tasks i = some task)
    (htaken : task.HasTaken) : Closed s.core := by
  have hphase := h i task htask
  rcases htaken with ⟨session, hstopping⟩ | ⟨hcall, outcome, hreturned⟩
  · rw [hstopping] at hphase
    exact hphase.1
  · rw [hreturned] at hphase
    exact (hphase hcall).1

/-- A task that holds the mutex is the only one, and no `shutdown` has closed the slot. -/
theorem Safe.lock_of_holds (h : s.Safe) {i : Nat} {task : HelperTask}
    (htask : s.tasks i = some task) (hholds : task.phase.Holds) : s.core.lock = some i := by
  have hphase := h i task htask
  generalize task.phase = phase at hphase hholds
  cases phase with
  | starting | refusing => exact hphase.2
  | _ => exact absurd hholds id

theorem Safe.step (h : s.Safe) (horderly : Orderly s action)
    (hstep : helperProgram.step s action = some s') :
    s'.Safe := by
  cases action with
  | call i call =>
    obtain ⟨-, rfl⟩ := Program.step_call hstep
    exact Pool.forall_put (fun j t _ hj => h j t hj) trivial
  | advance i answer =>
    obtain ⟨task, core, task', htask, hadvance, rfl⟩ := Program.step_advance hstep
    obtain ⟨hstart, htake⟩ := horderly task htask
    refine Pool.forall_put (fun j t hne hj => ?_) ((h i task htask).advance htake hadvance)
    show PhaseSafe core j t.call t.phase
    rcases HelperProviderCore.advance_session hadvance with
      hkeeps | ⟨hphase, hsession, hlock⟩ | hholds | ⟨hlock, hsession, rfl⟩
    · exact (h j t hj).ofKeeps hkeeps
    · exact (h j t hj).ofOther (hstart hphase hsession j t hj) (by simp [hlock])
    · have hlock := h.lock_of_holds htask hholds
      refine (h j t hj).ofOther (fun htaken => ?_) ?_
      · have hfree := (h.closed hj htaken).lock
        simp [hlock] at hfree
      · rw [hlock]
        exact fun hsame => hne (Option.some.inj hsame).symm
    · exact (h j t hj).ofTaken hlock hsession

end HelperSystem

end TuxStack.Docker
