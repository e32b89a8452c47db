import TuxStack.Docker.HelperShutdown

/-!
# Handles and sessions of the helper provider

A handle carries the epoch at which it was opened, and `read_at` compares it with the epoch
before it asks for the session. `invalidate_failed_session` takes the session out, stops its
container and raises the epoch only then. In between, a read of an old handle finds the slot
empty and starts a session of its own (`reads_from_another_container`).

When no session is started in that interval, and none is lost between the comparison and the
read, an epoch has one session and so have its handles (`handles_bound`).
-/

namespace TuxStack.Docker

open Vfs Runs Tasks

/-! ## Histories -/

/-- The system with two facts about every call: the container that was in the slot when it
took the epoch for its handle, and the container on which its helper call ran. -/
structure HelperHistory where
  system : HelperSystem
  openedOn : Nat → Option (Option String)
  ranOn : Nat → Option String

namespace HelperHistory

/-- What a step of the call `i` from a phase adds to the history. -/
def record (t : HelperHistory) (system : HelperSystem) (i : Nat) : HelperPhase → HelperHistory
  | .loading _ =>
    { t with
      system
      openedOn := Function.update t.openedOn i
        (some (t.system.core.session.map FilesystemSession.containerId)) }
  | .operating session _ =>
    { t with system, ranOn := Function.update t.ranOn i (some session.containerId) }
  | _ => { t with system }

def step (t : HelperHistory) (action : HelperAction) : Option HelperHistory :=
  (helperProgram.step t.system action).map fun system =>
    match action with
    | .call .. => { t with system }
    | .advance i _ =>
      match t.system.tasks i with
      | some task => t.record system i task.phase
      | none => { t with system }

def machine : Machine HelperHistory HelperAction where
  init t := HelperSystem.machine.init t.system ∧ t.openedOn = (fun _ => none) ∧
    t.ranOn = fun _ => none
  step := step

/-- **Handles are bound to a session**: a successful read of a handle ran on the container
that was current when the handle was opened. -/
def HandlesBound (t : HelperHistory) : Prop :=
  ∀ i j reader opener handle offset size bytes, t.system.tasks i = some reader →
    reader.call = .readAt handle offset size → reader.phase = .returned (.content bytes) →
    t.system.tasks j = some opener → opener.phase = .returned (.handle handle) →
      ∃ container, t.ranOn i = some container ∧ t.openedOn j = some (some container)

end HelperHistory

/-! ## What the steps need -/

/-- A call that has taken a session out and has not yet raised the epoch. -/
def HelperPhase.Drops : HelperPhase → Prop
  | .stopping .. | .raising _ | .aging _ => True
  | _ => False

def HelperSystem.Dropping (s : HelperSystem) : Prop :=
  ∃ k task, s.tasks k = some task ∧ task.phase.Drops

/-- What a step of a task needs: a read finds a session, at the epoch of its handle; another
call starts a session only for an active provider, and with no call that still has to raise
the epoch for the session before; a handle takes its epoch while there is a session; and the
epoch does not wrap. -/
def HelperTask.InSession (s : HelperSystem) (task : HelperTask) : Prop :=
  match task.phase with
  | .waiting =>
    match task.call with
    | .readAt handle _ _ =>
      s.core.session ≠ none ∧ s.core.sessionEpoch = handle.contentGeneration
    | _ => s.core.session = none → s.core.active = true ∧ ¬ s.Dropping
  | .loading _ => s.core.session ≠ none
  | .aging _ | .shutAging => s.core.sessionEpoch + 1 < 18446744073709551616
  | _ => True

theorem HelperTask.InSession.read {s : HelperSystem} {task : HelperTask}
    {handle : ProviderFileHandle} {offset size : Nat} (h : task.InSession s)
    (hphase : task.phase = .waiting) (hcall : task.call = .readAt handle offset size) :
    s.core.session ≠ none ∧ s.core.sessionEpoch = handle.contentGeneration := by
  unfold HelperTask.InSession at h
  rw [hphase] at h
  dsimp only at h
  rwa [hcall] at h

theorem HelperTask.InSession.start {s : HelperSystem} {task : HelperTask} (h : task.InSession s)
    (hphase : task.phase = .waiting)
    (hcall : ∀ handle offset size, task.call ≠ .readAt handle offset size)
    (hsession : s.core.session = none) : s.core.active = true ∧ ¬ s.Dropping := by
  unfold HelperTask.InSession at h
  rw [hphase] at h
  dsimp only at h
  split at h
  · next handle offset size hread => exact absurd hread (hcall handle offset size)
  · exact h hsession

def HelperHistory.InSession (t : HelperHistory) : HelperAction → Prop
  | .call .. => True
  | .advance i _ => ∀ task, t.system.tasks i = some task → task.InSession t.system

/-! ## One session for an epoch -/

/-- What the phase of the call `i` says, when `sessionOf` is the session of every epoch. -/
def PhaseBound (sessionOf : Nat → Option String) (core : HelperProviderCore)
    (openedOn : Option (Option String)) (ranOn : Option String) (i : Nat) (call : HelperCall) :
    HelperPhase → Prop
  | .starting | .refusing _ =>
    (∀ handle offset size, call ≠ .readAt handle offset size) ∧ core.lock = some i ∧
      core.session = none ∧ sessionOf core.sessionEpoch = none
  | .operating session _ => ∀ handle offset size, call = .readAt handle offset size →
      sessionOf handle.contentGeneration = some session.containerId
  | .filing _ generation =>
    ∃ container, openedOn = some (some container) ∧ sessionOf generation = some container
  | .returned (.handle handle) => ∃ container, openedOn = some (some container) ∧
      sessionOf handle.contentGeneration = some container
  | .returned (.content _) => ∀ handle offset size, call = .readAt handle offset size →
      ∃ container, ranOn = some container ∧ sessionOf handle.contentGeneration = some container
  | .shutRaising | .shutAging | .shutClearing | .shutClosing | .shutTaking => core.active = false
  | _ => True

/-- **The invariant**: the session in the slot is the one of the epoch; while the slot is
empty the epoch has had none, or it is about to be raised, or the provider is not active. -/
structure BoundBy (sessionOf : Nat → Option String) (t : HelperHistory) : Prop where
  current : ∀ session, t.system.core.session = some session →
    sessionOf t.system.core.sessionEpoch = some session.containerId
  vacant : t.system.core.session = none → sessionOf t.system.core.sessionEpoch = none ∨
    t.system.Dropping ∨ t.system.core.active = false
  later : ∀ epoch, t.system.core.sessionEpoch < epoch → sessionOf epoch = none
  phases : ∀ i task, t.system.tasks i = some task →
    PhaseBound sessionOf t.system.core (t.openedOn i) (t.ranOn i) i task.call task.phase

theorem PhaseBound.mono {sessionOf sessionOf' : Nat → Option String}
    {core core' : HelperProviderCore} {openedOn : Option (Option String)} {ranOn : Option String}
    {i : Nat} {call : HelperCall} {phase : HelperPhase}
    (h : PhaseBound sessionOf core openedOn ranOn i call phase)
    (hext : ∀ epoch container, sessionOf epoch = some container →
      sessionOf' epoch = some container)
    (hheld : core.lock = some i → core.session = none → sessionOf core.sessionEpoch = none →
      core'.lock = some i ∧ core'.session = none ∧ sessionOf' core'.sessionEpoch = none)
    (hactive : core.active = false → core'.active = false) :
    PhaseBound sessionOf' core' openedOn ranOn i call phase := by
  cases phase with
  | starting | refusing =>
    obtain ⟨hcall, hlock, hsession, hnone⟩ := h
    exact ⟨hcall, hheld hlock hsession hnone⟩
  | operating session fetched =>
    exact fun handle offset size hcall => hext _ _ (h handle offset size hcall)
  | filing id generation =>
    obtain ⟨container, hopened, hsession⟩ := h
    exact ⟨container, hopened, hext _ _ hsession⟩
  | returned outcome =>
    cases outcome with
    | handle handle =>
      obtain ⟨container, hopened, hsession⟩ := h
      exact ⟨container, hopened, hext _ _ hsession⟩
    | content bytes =>
      intro handle offset size hcall
      obtain ⟨container, hran, hsession⟩ := h handle offset size hcall
      exact ⟨container, hran, hext _ _ hsession⟩
    | _ => trivial
  | shutRaising | shutAging | shutClearing | shutClosing | shutTaking => exact hactive h
  | _ => trivial

namespace HelperHistory

variable {t : HelperHistory} {i : Nat} {phase : HelperPhase} {system : HelperSystem}

@[simp] theorem record_system : (t.record system i phase).system = system := by
  cases phase <;> rfl

variable {k : Nat}

theorem record_openedOn_ne (h : k ≠ i) : (t.record system i phase).openedOn k = t.openedOn k := by
  cases phase with
  | loading id => exact Function.update_of_ne h _ _
  | _ => rfl

theorem record_ranOn_ne (h : k ≠ i) : (t.record system i phase).ranOn k = t.ranOn k := by
  cases phase with
  | operating session fetched => exact Function.update_of_ne h _ _
  | _ => rfl

end HelperHistory

/-- A phase that says nothing about sessions. -/
def HelperTask.Plain (task : HelperTask) : Prop :=
  ∀ sessionOf core openedOn ranOn i, PhaseBound sessionOf core openedOn ranOn i task.call task.phase

namespace HelperProviderCore

variable {s s' : HelperProviderCore} {task task' : HelperTask}

theorem stop_sessionEpoch (s : HelperProviderCore) (session : FilesystemSession)
    (result : Except VfsError Unit) : (s.stop session result).sessionEpoch = s.sessionEpoch := by
  cases result with
  | ok => rfl
  | error => rfl

theorem stop_active (s : HelperProviderCore) (session : FilesystemSession)
    (result : Except VfsError Unit) : (s.stop session result).active = s.active := by
  cases result with
  | ok => rfl
  | error => rfl

theorem enter_plain (hcall : task.call ≠ .shutdown) (h : s.enter task = (s', task')) :
    task'.Plain ∧ s'.session = s.session ∧ s'.lock = s.lock ∧ s'.sessionEpoch = s.sessionEpoch ∧
      s'.active = s.active := by
  unfold enter at h
  split at h
  · obtain ⟨rfl, rfl⟩ := Prod.mk.inj h
    refine ⟨?_, rfl, rfl, rfl, rfl⟩
    split <;> exact fun _ _ _ _ _ => trivial
  · obtain ⟨rfl, rfl⟩ := Prod.mk.inj h
    exact ⟨fun _ _ _ _ _ => trivial, rfl, rfl, rfl, rfl⟩
  · obtain ⟨rfl, rfl⟩ := Prod.mk.inj h
    refine ⟨?_, rfl, rfl, rfl, rfl⟩
    split
    · exact fun _ _ _ _ _ => trivial
    · split <;> exact fun _ _ _ _ _ => trivial
  · obtain ⟨rfl, rfl⟩ := Prod.mk.inj h
    refine ⟨?_, rfl, rfl, rfl, rfl⟩
    split
    · exact fun _ _ _ _ _ => trivial
    · split <;> exact fun _ _ _ _ _ => trivial
  · split at h
    · obtain ⟨rfl, rfl⟩ := Prod.mk.inj h
      exact ⟨fun _ _ _ _ _ => trivial, rfl, rfl, rfl, rfl⟩
    · obtain ⟨rfl, rfl⟩ := Prod.mk.inj h
      refine ⟨?_, rfl, rfl, rfl, rfl⟩
      split <;> exact fun _ _ _ _ _ => trivial
  · obtain ⟨rfl, rfl⟩ := Prod.mk.inj h
    exact ⟨fun _ _ _ _ _ => trivial, rfl, rfl, rfl, rfl⟩
  · next hshutdown => exact absurd hshutdown hcall

/-- A reply says nothing about sessions, or it is the content of a read. -/
theorem reply_plain {session : FilesystemSession} {fetched : Nat} {answer : HelperReply}
    (h : reply task session fetched answer = some task') :
    task'.Plain ∨ ∃ bytes, task' = task.ends (.content bytes) := by
  unfold reply at h
  split at h
  · cases h
    left
    split <;> exact fun _ _ _ _ _ => trivial
  · left
    split at h
    · cases h
      exact fun _ _ _ _ _ => trivial
    · split at h <;> (cases h; exact fun _ _ _ _ _ => trivial)
    · cases h
  · left
    split at h
    · cases h
      exact fun _ _ _ _ _ => trivial
    · cases h
      exact fun _ _ _ _ _ => trivial
    · cases h
  · split at h
    · next bytes _ =>
      cases h
      exact .inr ⟨bytes, rfl⟩
    · cases h
      exact .inl fun _ _ _ _ _ => trivial
    · cases h

end HelperProviderCore

namespace BoundBy

variable {sessionOf sessionOf' : Nat → Option String} {t : HelperHistory} {i : Nat}
  {task task' : HelperTask} {core' : HelperProviderCore} {phase : HelperPhase}

/-- **A step of one call**: what it leaves for the others, the slot and the call itself. -/
theorem put (h : BoundBy sessionOf t)
    (hext : ∀ epoch container, sessionOf epoch = some container →
      sessionOf' epoch = some container)
    (hheld : ∀ k, k ≠ i → t.system.core.lock = some k → t.system.core.session = none →
      sessionOf t.system.core.sessionEpoch = none →
      core'.lock = some k ∧ core'.session = none ∧ sessionOf' core'.sessionEpoch = none)
    (hactive : t.system.core.active = false → core'.active = false)
    (hcurrent : ∀ session, core'.session = some session →
      sessionOf' core'.sessionEpoch = some session.containerId)
    (hvacant : core'.session = none → sessionOf' core'.sessionEpoch = none ∨
      HelperSystem.Dropping (t.system.put i core' task') ∨ core'.active = false)
    (hlater : ∀ epoch, core'.sessionEpoch < epoch → sessionOf' epoch = none)
    (hself :
      PhaseBound sessionOf' core' ((t.record (t.system.put i core' task') i phase).openedOn i)
      ((t.record (t.system.put i core' task') i phase).ranOn i) i task'.call task'.phase) :
    BoundBy sessionOf' (t.record (t.system.put i core' task') i phase) := by
  constructor
  case current =>
    rw [HelperHistory.record_system]
    exact hcurrent
  case vacant =>
    rw [HelperHistory.record_system]
    exact hvacant
  case later =>
    rw [HelperHistory.record_system]
    exact hlater
  case phases =>
    rw [HelperHistory.record_system]
    refine Pool.forall_put (fun k u hne hk => ?_) hself
    rw [HelperHistory.record_openedOn_ne hne, HelperHistory.record_ranOn_ne hne]
    exact (h.phases k u hk).mono hext (hheld k hne) hactive

theorem alone {core : HelperProviderCore} {k : Nat} (hlock : core.lock = some i) (hne : k ≠ i)
    (hk : core.lock = some k) : False :=
  hne (Option.some.inj (hk.symm.trans hlock))

theorem dropping_put (hdrops : ∀ task, t.system.tasks i = some task → task.phase.Drops →
      task'.phase.Drops) (h : t.system.Dropping) :
    HelperSystem.Dropping (t.system.put i core' task') := by
  obtain ⟨k, u, hk, hu⟩ := h
  by_cases hsame : k = i
  · subst hsame
    exact ⟨k, task', Pool.tasks_put_self .., hdrops u hk hu⟩
  · exact ⟨k, u, by rwa [Pool.tasks_put, if_neg hsame], hu⟩

/-- A step that leaves the slot, the epoch and the flag as they were, and the mutex to
whoever else has it. -/
theorem keeps (h : BoundBy sessionOf t)
    (hlock : ∀ k, k ≠ i → t.system.core.lock = some k → core'.lock = some k)
    (hsession : core'.session = t.system.core.session)
    (hepoch : core'.sessionEpoch = t.system.core.sessionEpoch)
    (hactive : core'.active = t.system.core.active)
    (hvacant : sessionOf t.system.core.sessionEpoch = none ∨
      (t.system.Dropping → HelperSystem.Dropping (t.system.put i core' task')))
    (hself : PhaseBound sessionOf core' ((t.record (t.system.put i core' task') i phase).openedOn i)
      ((t.record (t.system.put i core' task') i phase).ranOn i) i task'.call task'.phase) :
    BoundBy sessionOf (t.record (t.system.put i core' task') i phase) := by
  refine h.put (fun _ _ => id) ?_ ?_ ?_ ?_ ?_ hself
  · intro k hne hk hnone hfree
    rw [hsession, hepoch]
    exact ⟨hlock k hne hk, hnone, hfree⟩
  · intro hstopped
    rwa [hactive]
  · rw [hsession, hepoch]
    exact h.current
  · rw [hsession, hepoch, hactive]
    intro hnone
    rcases hvacant with hfree | hdropping
    · exact .inl hfree
    · exact (h.vacant hnone).imp_right (Or.imp_left hdropping)
  · rw [hepoch]
    exact h.later

/-- The epoch is raised: a session in the slot is that of the next epoch as well. -/
theorem age (h : BoundBy sessionOf t)
    (hwrap : t.system.core.sessionEpoch + 1 < 18446744073709551616)
    (hself : ∀ sessionOf' : Nat → Option String, PhaseBound sessionOf' t.system.core.age
      ((t.record (t.system.put i t.system.core.age task') i phase).openedOn i)
      ((t.record (t.system.put i t.system.core.age task') i phase).ranOn i) i task'.call
      task'.phase) :
    ∃ sessionOf', BoundBy sessionOf'
      (t.record (t.system.put i t.system.core.age task') i phase) := by
  have hepoch : t.system.core.age.sessionEpoch = t.system.core.sessionEpoch + 1 :=
    Nat.mod_eq_of_lt hwrap
  have hnext : sessionOf (t.system.core.sessionEpoch + 1) = none := h.later _ (Nat.lt_succ_self _)
  refine ⟨fun epoch => if epoch = t.system.core.sessionEpoch + 1 then
    t.system.core.session.map FilesystemSession.containerId else sessionOf epoch,
    h.put ?_ ?_ id ?_ ?_ ?_ (hself _)⟩
  · intro epoch container hsome
    rw [if_neg, hsome]
    rintro rfl
    rw [hnext] at hsome
    cases hsome
  · intro k _ hk hnone _
    refine ⟨hk, hnone, ?_⟩
    rw [hepoch, if_pos rfl, hnone]
    rfl
  · intro session hsession
    rw [hepoch, if_pos rfl]
    exact congrArg (Option.map _) hsession
  · intro hnone
    left
    rw [hepoch, if_pos rfl]
    exact congrArg (Option.map _) hnone
  · intro epoch hlt
    rw [hepoch] at hlt
    rw [if_neg (by omega)]
    exact h.later epoch (by omega)

theorem taken (h : BoundBy sessionOf t) (hlock : t.system.core.lock = none)
    (hgone : task'.phase.Drops ∨ t.system.core.active = false)
    (hself : PhaseBound sessionOf { t.system.core with session := none }
      ((t.record (t.system.put i { t.system.core with session := none } task') i phase).openedOn i)
      ((t.record (t.system.put i { t.system.core with session := none } task') i phase).ranOn i)
      i task'.call task'.phase) :
    BoundBy sessionOf
      (t.record (t.system.put i { t.system.core with session := none } task') i phase) := by
  refine h.put (fun _ _ => id) ?_ id nofun ?_ h.later hself
  · intro k _ hk
    cases hlock.symm.trans hk
  · intro _
    right
    exact hgone.imp_left fun hdrops => ⟨i, task', Pool.tasks_put_self .., hdrops⟩

/-- A task that finds no session takes the mutex: the epoch has had none. -/
theorem locks (h : BoundBy sessionOf t) (hphase : task.phase = .waiting)
    (hok : task.InSession t.system) (hlock : t.system.core.lock = none)
    (hsession : t.system.core.session = none) :
    BoundBy sessionOf (t.record (t.system.put i { t.system.core with lock := some i }
      (task.goto .starting)) i phase) := by
  have hread : ∀ handle offset size, task.call ≠ .readAt handle offset size :=
    fun handle offset size hcall => (hok.read hphase hcall).1 hsession
  obtain ⟨hactive, hdropping⟩ := hok.start hphase hread hsession
  have hfree : sessionOf t.system.core.sessionEpoch = none := by
    refine (h.vacant hsession).resolve_right ?_
    rintro (hdrops | hstopped)
    · exact hdropping hdrops
    · rw [hactive] at hstopped
      cases hstopped
  refine h.put (fun _ _ => id) ?_ id h.current (fun _ => .inl hfree) h.later
    ⟨hread, rfl, hsession, hfree⟩
  intro k _ hk
  cases hlock.symm.trans hk

variable {answer : HelperAnswer}

/-- The epoch had no session, so the one that was started is its first. -/
theorem starts (h : BoundBy sessionOf t) (containerId : String)
    (hread : ∀ handle offset size, task.call ≠ .readAt handle offset size)
    (hlock : t.system.core.lock = some i)
    (hfree : sessionOf t.system.core.sessionEpoch = none) :
    BoundBy (Function.update sessionOf t.system.core.sessionEpoch (some containerId))
      (t.record (t.system.put i
        { t.system.core with
          started := insert containerId t.system.core.started
          running := insert containerId t.system.core.running
          session := some ⟨containerId, true⟩
          lock := none }
        (task.goto (.operating ⟨containerId, true⟩ t.system.core.bumps))) i phase) := by
  refine h.put ?_ ?_ id ?_ nofun ?_ ?_
  · intro epoch container hsome
    rw [Function.update_of_ne, hsome]
    rintro rfl
    rw [hfree] at hsome
    cases hsome
  · exact fun k hne hk => (alone hlock hne hk).elim
  · rintro session ⟨⟩
    exact Function.update_self ..
  · intro epoch hlt
    rw [Function.update_of_ne (Nat.ne_of_gt hlt)]
    exact h.later epoch hlt
  · exact fun handle offset size hcall => absurd hcall (hread handle offset size)

/-- **Every step that meets the conditions** keeps one session for an epoch. -/
theorem advance (h : BoundBy sessionOf t) (htask : t.system.tasks i = some task)
    (hok : task.InSession t.system)
    (hstep : t.system.core.advance i task answer = some (core', task')) :
    ∃ sessionOf', BoundBy sessionOf' (t.record (t.system.put i core' task') i task.phase) := by
  have hself := h.phases i task htask
  have hcondition := hok
  unfold HelperTask.InSession at hcondition
  generalize hphase : task.phase = phase at hself hcondition
  -- most steps leave the session, its lock and the epoch alone
  have hquiet : ∀ {core' : HelperProviderCore} {task' : HelperTask},
      core'.session = t.system.core.session → core'.lock = t.system.core.lock →
      core'.sessionEpoch = t.system.core.sessionEpoch → core'.active = t.system.core.active →
      (phase.Drops → task'.phase.Drops) →
      PhaseBound sessionOf core' ((t.record (t.system.put i core' task') i phase).openedOn i)
        ((t.record (t.system.put i core' task') i phase).ranOn i) i task'.call task'.phase →
      ∃ sessionOf', BoundBy sessionOf' (t.record (t.system.put i core' task') i phase) :=
    fun hsession hlock hepoch hactive hdrops hself =>
      ⟨sessionOf, h.keeps (fun _ _ => hlock.trans) hsession hepoch hactive
        (.inr (dropping_put fun u hu hdropping => by
          cases htask.symm.trans hu
          exact hdrops (hphase ▸ hdropping))) hself⟩
  cases HelperProviderCore.advance_cases hphase hstep with
  | called hstep =>
    by_cases hcall : task.call = .shutdown
    · unfold HelperProviderCore.enter at hstep
      rw [hcall] at hstep
      obtain ⟨rfl, rfl⟩ := Prod.mk.inj hstep
      exact ⟨sessionOf, h.put (fun _ _ => id) (fun k _ hk hnone hfree => ⟨hk, hnone, hfree⟩)
        (fun _ => rfl) h.current (fun _ => .inr (.inr rfl)) h.later rfl⟩
    · obtain ⟨hplain, hsession, hlock, hepoch, hactive⟩ :=
        HelperProviderCore.enter_plain hcall hstep
      exact hquiet hsession hlock hepoch hactive False.elim (hplain ..)
  | shared hlock hsession =>
    refine hquiet rfl rfl rfl rfl False.elim ?_
    intro handle offset size hcall
    rw [← (hok.read hphase hcall).2]
    exact h.current _ hsession
  | locked hlock hsession => exact ⟨sessionOf, h.locks hphase hok hlock hsession⟩
  | writable | filed | shutRaised | shutCleared | shutClosed =>
    exact hquiet rfl rfl rfl rfl False.elim hself
  | started => exact ⟨_, h.starts _ hself.1 hself.2.1 hself.2.2.2⟩
  -- the call holds the lock here, so it is alone in its phase
  | notStarted =>
    exact ⟨sessionOf, h.keeps (fun _ hne hk => (alone hself.2.1 hne hk).elim) rfl rfl rfl
      (.inl hself.2.2.2) trivial⟩
  | refused =>
    exact ⟨sessionOf, h.keeps (fun _ hne hk => (alone hself.2.1 hne hk).elim)
      (HelperProviderCore.stop_session ..) (HelperProviderCore.stop_sessionEpoch ..)
      (HelperProviderCore.stop_active ..) (.inl hself.2.2.2) trivial⟩
  | @replied session _ _ _ hreply =>
    refine hquiet rfl rfl rfl rfl False.elim ?_
    rcases HelperProviderCore.reply_plain hreply with hplain | ⟨bytes, rfl⟩
    · exact hplain ..
    · intro handle offset size hcall
      exact ⟨session.containerId, Function.update_self .., hself handle offset size hcall⟩
  | discarded hlock => exact ⟨sessionOf, h.taken hlock (.inl trivial) trivial⟩
  | stopped =>
    exact hquiet (HelperProviderCore.stop_session ..) (HelperProviderCore.stop_lock ..)
      (HelperProviderCore.stop_sessionEpoch ..) (HelperProviderCore.stop_active ..)
      (fun _ => trivial) trivial
  | raised => exact hquiet rfl rfl rfl rfl (fun _ => trivial) trivial
  | aged => exact h.age hcondition fun _ => trivial
  | shutAged => exact h.age hcondition fun _ => hself
  | loaded =>
    obtain ⟨session, hsession⟩ := Option.ne_none_iff_exists'.mp hcondition
    refine hquiet rfl rfl rfl rfl False.elim ⟨session.containerId, ?_, h.current session hsession⟩
    show Function.update t.openedOn i _ i = _
    rw [Function.update_self, hsession]
    rfl
  | taken hlock => exact ⟨sessionOf, h.taken hlock (.inr hself) trivial⟩
  | @retained path => cases path with
    | none | some path => exact hquiet rfl rfl rfl rfl False.elim trivial
  | _ => exact hquiet rfl rfl rfl rfl False.elim trivial

end BoundBy

/-! ## Runs -/

namespace HelperHistory

variable {t t' : HelperHistory} {ok : HelperHistory → HelperAction → Prop} {i : Nat}

theorem step_call {call : HelperCall} (h : t.step (.call i call) = some t') :
    t.system.tasks i = none ∧ t' =
      { t with system :=
        t.system.put i t.system.core (helperProgram.spawn t.system.core call) } := by
  obtain ⟨system, hstep, rfl⟩ := Option.map_eq_some_iff.mp h
  obtain ⟨hfree, rfl⟩ := Program.step_call hstep
  exact ⟨hfree, rfl⟩

variable {answer : HelperAnswer} {core : HelperProviderCore}

theorem step_advance (h : t.step (.advance i answer) = some t') :
    ∃ task core task', t.system.tasks i = some task ∧
      t.system.core.advance i task answer = some (core, task') ∧
      t' = t.record (t.system.put i core task') i task.phase := by
  obtain ⟨system, hstep, rfl⟩ := Option.map_eq_some_iff.mp h
  obtain ⟨task, core, task', htask, hadvance, rfl⟩ := Program.step_advance hstep
  refine ⟨task, core, task', htask, hadvance, ?_⟩
  dsimp only
  rw [htask]

theorem step_of_advance {task task' : HelperTask} (htask : t.system.tasks i = some task)
    (hadvance : t.system.core.advance i task answer = some (core, task')) :
    t.step (.advance i answer) = some (t.record (t.system.put i core task') i task.phase) := by
  unfold HelperHistory.step
  rw [Program.step_of_advance (P := helperProgram) htask hadvance, Option.map_some]
  dsimp only
  rw [htask]

theorem boundBy_call {sessionOf : Nat → Option String} (h : BoundBy sessionOf t)
    (hfree : t.system.tasks i = none) (call : HelperCall) :
    BoundBy sessionOf
      { t with system :=
        t.system.put i t.system.core (helperProgram.spawn t.system.core call) } := by
  show BoundBy sessionOf (t.record _ i .called)
  exact h.keeps (fun _ _ => id) rfl rfl rfl (.inr (BoundBy.dropping_put fun task htask => by
    cases hfree.symm.trans htask)) trivial

theorem boundBy_of_reach (h : machine.Reach InSession t) : ∃ sessionOf, BoundBy sessionOf t := by
  refine h.invariant (I := fun t => ∃ sessionOf, BoundBy sessionOf t) ?_ ?_
  · rintro t ⟨⟨⟨nodeNamespace, hcore⟩, htasks⟩, -, -⟩
    refine ⟨fun _ => none, ⟨?_, fun _ => .inl rfl, fun _ _ => rfl, ?_⟩⟩
    · intro session hsession
      rw [hcore] at hsession
      cases hsession
    · intro i task htask
      rw [htasks] at htask
      cases htask
  · rintro t action t' ⟨sessionOf, h⟩ hok hstep
    cases action with
    | call i call =>
      obtain ⟨hfree, rfl⟩ := step_call hstep
      exact ⟨sessionOf, boundBy_call h hfree call⟩
    | advance i answer =>
      obtain ⟨task, core, task', htask, hadvance, rfl⟩ := step_advance hstep
      exact h.advance htask (hok task htask) hadvance

/-- **Handles are bound to their session** in every run whose steps meet the conditions. -/
theorem handles_bound (h : machine.Reach InSession t) : t.HandlesBound := by
  obtain ⟨sessionOf, hbound⟩ := boundBy_of_reach h
  intro i j reader opener handle offset size bytes hreader hcall hcontent hopener hhandle
  have hread := hbound.phases i reader hreader
  have hopen := hbound.phases j opener hopener
  rw [hcontent] at hread
  rw [hhandle] at hopen
  obtain ⟨container, hran, hsession⟩ := hread handle offset size hcall
  obtain ⟨container', hopened, hsession'⟩ := hopen
  rw [hsession] at hsession'
  cases hsession'
  exact ⟨container, hran, hopened⟩

/-! ## A handle that is read, and one that is read elsewhere -/

theorem reach_call (h : machine.Reach ok t) (i : Nat) (call : HelperCall)
    (hok : ok t (.call i call)) (hfree : t.system.tasks i = none) :
    machine.Reach ok
      { t with system :=
        t.system.put i t.system.core (helperProgram.spawn t.system.core call) } := by
  refine h.step hok ?_
  show t.step (.call i call) = _
  unfold HelperHistory.step
  rw [Program.step_of_call (P := helperProgram) hfree]
  rfl

theorem reach_advance (h : machine.Reach ok t) (i : Nat) (answer : HelperAnswer)
    {task task' : HelperTask} (hok : ok t (.advance i answer))
    (htask : t.system.tasks i = some task)
    (hadvance : t.system.core.advance i task answer = some (core, task')) :
    machine.Reach ok (t.record (t.system.put i core task') i task.phase) :=
  h.step hok (step_of_advance htask hadvance)

theorem inSession_advance {task : HelperTask} (htask : t.system.tasks i = some task)
    (h : task.InSession t.system) : InSession t (.advance i answer) := by
  intro other hother
  cases htask.symm.trans hother
  exact h

def start : HelperHistory := ⟨⟨.new [], fun _ => none⟩, fun _ => none, fun _ => none⟩

def aFile : VirtualPath := pathOf "/f"

def fileReply : HelperAnswer := .replied (.metadata (.new [] .regularFile 2))

/-- The call 0 opens the file on the container `first`. -/
def openActions : List HelperAction :=
  [.call 0 (.openFile aFile 0), .advance 0 .proceed, .advance 0 .proceed, .advance 0 .proceed,
    .advance 0 (.started "first" true), .advance 0 fileReply, .advance 0 .proceed,
    .advance 0 .proceed, .advance 0 .proceed]

/-- The call `i` reads its handle, up to the mutex of the session. -/
def readActions (i : Nat) : List HelperAction :=
  .call i (.readAt ⟨1, aFile, 1⟩ 0 2) :: List.replicate 4 (.advance i .proceed)

/-- A handle is read where it was opened. -/
theorem reads_where_opened : ∃ t : HelperHistory, t.HandlesBound ∧
    (∃ task, t.system.tasks 1 = some task ∧ task.phase = .returned (.content [104, 105])) ∧
    t.ranOn 1 = some "first" ∧ t.openedOn 0 = some (some "first") := by
  have h : machine.Reach InSession start := .init ⟨⟨⟨[], rfl⟩, rfl⟩, rfl, rfl⟩
  have h := reach_call h 0 (.openFile aFile 0) trivial rfl
  have h := reach_advance h 0 .proceed (inSession_advance rfl trivial) rfl rfl
  have h := reach_advance h 0 .proceed (inSession_advance rfl trivial) rfl rfl
  have h := reach_advance h 0 .proceed (inSession_advance rfl fun _ => ⟨rfl, by
    rintro ⟨k, task, hk, hdrops⟩
    refine (Pool.forall_put (P := fun _ u => ¬ u.phase.Drops) ?_ id) k task hk hdrops
    intro j u hj hu
    simp only [record_system, Pool.tasks_put, if_neg hj] at hu
    cases hu⟩) rfl rfl
  have h := reach_advance h 0 (.started "first" true) (inSession_advance rfl trivial) rfl rfl
  have h := reach_advance h 0 fileReply (inSession_advance rfl trivial) rfl rfl
  have h := reach_advance h 0 .proceed (inSession_advance rfl trivial) rfl rfl
  have h := reach_advance h 0 .proceed (inSession_advance rfl nofun) rfl rfl
  have h := reach_advance h 0 .proceed (inSession_advance rfl trivial) rfl rfl
  have h := reach_call h 1 (.readAt ⟨1, aFile, 1⟩ 0 2) trivial rfl
  have h := reach_advance h 1 .proceed (inSession_advance rfl trivial) rfl rfl
  have h := reach_advance h 1 .proceed (inSession_advance rfl trivial) rfl rfl
  have h := reach_advance h 1 .proceed (inSession_advance rfl trivial) rfl rfl
  have h := reach_advance h 1 .proceed (inSession_advance rfl trivial) rfl rfl
  have h := reach_advance h 1 .proceed (inSession_advance rfl ⟨nofun, rfl⟩) rfl rfl
  have h := reach_advance h 1 (.replied (.content (.ok [104, 105]))) (inSession_advance rfl trivial)
    rfl rfl
  exact ⟨_, handles_bound h, ⟨_, rfl, rfl⟩, rfl, rfl⟩

/-- **A read on another container.** While the call 2 stops the session that has failed, the
call 1 has found its handle valid and starts a session of its own. -/
theorem reads_from_another_container :
    ∃ t, machine.Reach (fun _ _ => True) t ∧ ¬ t.HandlesBound := by
  have h : machine.Reach (fun _ _ => True) start := .init ⟨⟨⟨[], rfl⟩, rfl⟩, rfl, rfl⟩
  have h := Machine.reach_of_exec h
    (Machine.allSteps_of_forall (fun _ _ => trivial)
      (openActions ++ readActions 1 ++ readActions 2 ++
      [.advance 2 .proceed, .advance 2 (.replied (.failed .stale true)), .advance 2 .proceed,
        .advance 1 .proceed, .advance 1 (.started "second" true),
        .advance 1 (.replied (.content (.ok [104, 105])))]) _) rfl
  refine ⟨_, h, fun hbound => ?_⟩
  obtain ⟨container, hran, hopened⟩ := hbound 1 0 _ _ _ _ _ _ rfl rfl rfl rfl rfl
  cases hran
  exact absurd (Option.some.inj (Option.some.inj hopened)) (by decide)

end HelperHistory

end TuxStack.Docker
