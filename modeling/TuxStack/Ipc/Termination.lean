import TuxStack.Ipc.Generations

/-!
# Ending an old connection

`terminate_generation` tests under one lock whether its generation is current,
takes the connection under the same lock a second time, and clears the dispatch
tables under another one. A reconnect may come in between.

`terminate_spares_newer` says that a task of an old connection changes nothing of
a newer one, provided no connection is installed while a `terminate_generation` of
the last one is between its test and its end. `reconnect_in_terminate_harms_newer`
is a run without this condition. The invariant is about the order of generations.
-/

namespace TuxStack.Ipc

open Runs

namespace State

/-! ## The control state -/

/-- The client's ends of a connection. -/
structure Ends where
  opened : Bool
  generation : Nat
  reader : LinkPhase
  writer : LinkPhase

def endsOf (l : Link) : Ends := ⟨l.opened, l.generation, l.reader, l.writer⟩

/-- The part of the state that replacing and terminating connections is about. -/
structure Control where
  connection : Option Connection
  nextGeneration : Nat
  reconnectLock : Option Replacing
  latest : Option Nat
  ends : Nat → Ends

def control (s : State) : Control where
  connection := s.inner.connection
  nextGeneration := s.inner.nextGeneration
  reconnectLock := s.inner.reconnectLock
  latest := s.latest
  ends k := endsOf (s.links k)

variable {s s' : State} {k : Nat} {t : LinkTask}

theorem control_setLink {l : Link} (h : endsOf l = endsOf (s.links k)) :
    (s.setLink k l).control = s.control := by
  have hends : (fun j => endsOf ((s.setLink k l).links j)) =
      fun j => endsOf (s.links j) := by
    funext j
    by_cases hj : j = k
    · subst hj
      rw [links_setLink_self]
      exact h
    · rw [links_setLink_ne s l hj]
  unfold control
  rw [hends]
  rfl

theorem control_trySendCurrent (s : State) (e : ProtocolEnvelope) :
    (s.takeRequestId.trySendCurrent e).control = s.control := by
  unfold trySendCurrent
  split
  · have hset := @control_setLink s.takeRequestId
    apply (hset _).trans
    · rfl
    · unfold Link.trySend
      split
      · rfl
      · rfl
  · rfl

theorem control_register {c : Nat} {purpose : Purpose} {body : ProtocolBody}
    (h : s.register c purpose body = some s') : s'.control = s.control := by
  unfold register at h
  split at h
  · cases h
    rfl
  · cases h

theorem control_callStep {c : Nat} {call : Call} {a : CallAction} (h : CallStep s c call a s') :
    s'.control = s.control := by
  cases h with
  | send hphase hroom =>
    show (s.setLink _ _).control = s.control
    exact control_setLink rfl
  | timedOut | guardCancelled => exact control_trySendCurrent s _
  | _ => rfl

theorem control_handleStep {h : Nat} {x : Handle} {a : HandleAction} (hs : HandleStep s h x a s') :
    s'.control = s.control := by
  cases hs with
  | request hphase hreg =>
    have hsame := control_register hreg
    exact hsame
  | sendUnsubscribe hphase => exact control_trySendCurrent s _
  | _ => rfl

theorem control_pop (s : State) (k : Nat) (rest : List ProtocolEnvelope) :
    (s.pop k rest).control = s.control :=
  control_setLink rfl

theorem control_dispatchEvent (s : State) (e : ReadEvent) :
    (s.dispatchEvent e).control = s.control := by
  unfold dispatchEvent trySendEvent
  dsimp only
  split
  · split
    · split
      · rfl
      · rfl
    · rfl
  · split
    · rfl
    · rfl

theorem control_dispatchPending (s : State) (requestId : RequestId)
    (reply : Except String Reply) :
    (s.dispatchPending requestId reply).control = s.control := by
  unfold dispatchPending
  split
  · rfl
  · rfl

/-- What a step can do to the control state: nothing, one section of `establish`,
or one of `terminate_generation` for a task of connection `k`. -/
inductive ControlStep (s : State) (a : Action) (s' : State) : Prop where
  | same (h : s'.control = s.control)
  | establish {b : EstablishAction} (ha : a = .establish b) (h : EstablishStep s b s')
  | terminate {s₁ : State} {k : Nat} {t : LinkTask} {b : TerminateAction}
      (hsame : s₁.control = s.control) (h : s₁.terminate k t b = some s')

theorem control_step {a : Action} (h : s.step a = some s') : ControlStep s a s' := by
  cases a with
  | establish b => exact .establish rfl (establish_inv h)
  | terminate k t b => exact .terminate rfl h
  | read k =>
    obtain ⟨envelope, rest, -, -, hread⟩ := read_inv h
    have hpop := control_pop s k rest
    cases hread with
    | event hbody => exact .same ((control_dispatchEvent _ _).trans hpop)
    | answer hevent hreply => exact .same ((control_dispatchPending _ _ _).trans hpop)
    | unexpected hevent hterm => exact .terminate hpop hterm
  | write k =>
    obtain ⟨e, rest, -, rfl⟩ := write_inv h
    exact .same (control_setLink rfl)
  | start c b =>
    obtain ⟨purpose, body, -, hreg⟩ := start_inv h
    exact .same (control_register hreg)
  | call c b =>
    obtain ⟨call, -, hstep⟩ := stepCall_inv h
    exact .same (control_callStep hstep)
  | insert c key =>
    obtain ⟨call, terminal, id, serial, k, -, -, -, -, rfl⟩ := insert_inv h
    exact .same rfl
  | handle key b =>
    obtain ⟨x, -, hstep⟩ := stepHandle_inv h
    exact .same (control_handleStep hstep)
  | server k b =>
    obtain ⟨-, server, -, rfl⟩ := stepServer_inv h
    exact .same (control_setLink rfl)

/-! ## The order of generations -/

/-- Inside `terminate_generation`, past its test. -/
def isEnding : LinkPhase → Bool
  | .checked => true
  | .taken => true
  | _ => false

def Ends.phaseOf (e : Ends) : LinkTask → LinkPhase
  | .reader => e.reader
  | .writer => e.writer

/-- The connection that is about to be installed. -/
def Replacing.conn : Replacing → Nat
  | .connected k => k
  | .taken k => k
  | .cleared k => k

/-- The connection installed last has the greatest generation. It is the current
one, if there is one, and the only one that can be inside `terminate_generation`.
A generation of zero stands for a connection that has not been installed. -/
structure Control.Sorted (c : Control) : Prop where
  idle : ∀ k, (c.ends k).generation = 0 → ∀ t, (c.ends k).phaseOf t = .idle
  unopened : ∀ k, (c.ends k).opened = false → (c.ends k).generation = 0
  replacing : ∀ r, c.reconnectLock = some r → (c.ends (Replacing.conn r)).generation = 0 ∧
    (c.ends (Replacing.conn r)).opened = true
  bound : ∀ k, (c.ends k).generation < c.nextGeneration
  unique : ∀ j k, (c.ends j).generation ≠ 0 → (c.ends j).generation = (c.ends k).generation → j = k
  latest : ∀ k, c.latest = some k → (c.ends k).generation + 1 = c.nextGeneration
  current : ∀ x, c.connection = some x →
    c.latest = some x.writer ∧ x.generation = (c.ends x.writer).generation
  ending : ∀ k t, isEnding ((c.ends k).phaseOf t) = true → c.latest = some k

theorem sorted_fresh : fresh.control.Sorted where
  idle k _ t := by cases t <;> rfl
  unopened k _ := rfl
  replacing r h := by cases h
  bound k := Nat.zero_lt_one
  unique j k h := absurd rfl h
  latest k h := by cases h
  current x h := by cases h
  ending k t h := by cases t <;> cases h

def Ends.setPhase (e : Ends) : LinkTask → LinkPhase → Ends
  | .reader, phase => { e with reader := phase }
  | .writer, phase => { e with writer := phase }

def Control.setPhase (c : Control) (k : Nat) (t : LinkTask) (phase : LinkPhase) : Control :=
  { c with ends := Function.update c.ends k ((c.ends k).setPhase t phase) }

theorem ends_setPhase_self (c : Control) (k : Nat) (t : LinkTask) (phase : LinkPhase) :
    (c.setPhase k t phase).ends k = (c.ends k).setPhase t phase :=
  Function.update_self ..

theorem ends_setPhase_ne (c : Control) {j : Nat} (t : LinkTask) (phase : LinkPhase) (h : j ≠ k) :
    (c.setPhase k t phase).ends j = c.ends j :=
  Function.update_of_ne h ..

theorem phaseOf_setPhase (e : Ends) (t t' : LinkTask) (phase : LinkPhase) :
    (e.setPhase t phase).phaseOf t' = if t' = t then phase else e.phaseOf t' := by
  cases t <;> cases t' <;> rfl

theorem generation_setPhase (e : Ends) (t : LinkTask) (phase : LinkPhase) :
    (e.setPhase t phase).generation = e.generation ∧ (e.setPhase t phase).opened = e.opened := by
  cases t <;> exact ⟨rfl, rfl⟩

theorem control_setPhase (s : State) (k : Nat) (t : LinkTask) (phase : LinkPhase) :
    (s.setLink k ((s.links k).setPhase t phase)).control = s.control.setPhase k t phase := by
  have hends : (fun j => endsOf ((s.setLink k ((s.links k).setPhase t phase)).links j)) =
      Function.update (fun j => endsOf (s.links j)) k ((endsOf (s.links k)).setPhase t phase) := by
    funext j
    by_cases hj : j = k
    · subst hj
      rw [links_setLink_self, Function.update_self]
      cases t <;> rfl
    · rw [links_setLink_ne s _ hj, Function.update_of_ne hj]
  unfold control Control.setPhase
  rw [hends]
  rfl

variable {c : Control}

/-- A task of `k` goes on: only a test that finds `k` current leads into the end. -/
theorem Control.Sorted.setPhase (h : c.Sorted) {phase : LinkPhase}
    (hinstalled : (c.ends k).generation ≠ 0) (hending : isEnding phase = true → c.latest = some k) :
    (c.setPhase k t phase).Sorted := by
  have hgen : ∀ j, ((c.setPhase k t phase).ends j).generation = (c.ends j).generation ∧
      ((c.setPhase k t phase).ends j).opened = (c.ends j).opened := by
    intro j
    by_cases hj : j = k
    · subst hj
      rw [ends_setPhase_self]
      exact generation_setPhase _ t phase
    · rw [ends_setPhase_ne c t phase hj]
      exact ⟨rfl, rfl⟩
  -- one task of one connection changes, and no generation does
  have hphase : ∀ j t', ((c.setPhase k t phase).ends j).phaseOf t' =
      if j = k ∧ t' = t then phase else (c.ends j).phaseOf t' := by
    intro j t'
    by_cases hj : j = k
    · subst hj
      rw [ends_setPhase_self, phaseOf_setPhase]
      simp
    · rw [ends_setPhase_ne c t phase hj, if_neg (fun hboth => hj hboth.1)]
  refine ⟨?_, ?_, ?_, ?_, ?_, ?_, ?_, ?_⟩
  · intro j hzero t'
    rw [(hgen j).1] at hzero
    have hj : j ≠ k := by
      rintro rfl
      exact hinstalled hzero
    rw [hphase, if_neg (fun hboth => hj hboth.1)]
    exact h.idle j hzero t'
  · intro j hclosed
    rw [(hgen j).2] at hclosed
    rw [(hgen j).1]
    exact h.unopened j hclosed
  · intro r hr
    rw [(hgen _).1, (hgen _).2]
    exact h.replacing r hr
  · intro j
    rw [(hgen j).1]
    exact h.bound j
  · intro i j hi heq
    rw [(hgen i).1] at hi heq
    rw [(hgen j).1] at heq
    exact h.unique i j hi heq
  · intro j hj
    rw [(hgen j).1]
    exact h.latest j hj
  · intro x hx
    rw [(hgen _).1]
    exact h.current x hx
  · intro j t' hend
    rw [hphase] at hend
    split at hend
    · rename_i hboth
      rw [hboth.1]
      exact hending hend
    · exact h.ending j t' hend

theorem Control.Sorted.noConnection (h : c.Sorted) : { c with connection := none }.Sorted where
  idle := h.idle
  unopened := h.unopened
  replacing := h.replacing
  bound := h.bound
  unique := h.unique
  latest := h.latest
  current x hx := by cases hx
  ending := h.ending

theorem Control.Sorted.install (h : c.Sorted) (hroom : c.nextGeneration + 1 < 2 ^ 64)
    (halone : ∀ j, c.latest = some j → ∀ t, isEnding ((c.ends j).phaseOf t) = false) {e : Ends}
    (hgen : e.generation = c.nextGeneration) (hopen : e.opened = true) :
    (⟨some ⟨c.nextGeneration, k⟩, wrappingSucc c.nextGeneration, none, some k,
      Function.update c.ends k e⟩ : Control).Sorted := by
  have hnext : wrappingSucc c.nextGeneration = c.nextGeneration + 1 :=
    Nat.mod_eq_of_lt hroom
  -- zero stands for a connection that was never installed
  have hpos : e.generation ≠ 0 := by
    have hbound := h.bound k
    rw [hgen]
    omega
  refine ⟨?_, ?_, ?_, ?_, ?_, ?_, ?_, ?_⟩ <;> dsimp only
  · intro j hzero t
    by_cases hj : j = k
    · subst hj
      rw [Function.update_self] at hzero
      exact absurd hzero hpos
    · rw [Function.update_of_ne hj] at hzero ⊢
      exact h.idle j hzero t
  · intro j hclosed
    by_cases hj : j = k
    · subst hj
      rw [Function.update_self, hopen] at hclosed
      cases hclosed
    · rw [Function.update_of_ne hj] at hclosed ⊢
      exact h.unopened j hclosed
  · intro r hr
    cases hr
  · intro j
    rw [hnext]
    by_cases hj : j = k
    · subst hj
      rw [Function.update_self, hgen]
      exact Nat.lt_succ_self _
    · rw [Function.update_of_ne hj]
      exact Nat.lt_succ_of_lt (h.bound j)
  · intro i j hi heq
    by_cases hik : i = k
    · subst hik
      by_contra hne
      -- every older generation is below the new one
      rw [Function.update_self, Function.update_of_ne (fun hj => hne hj.symm), hgen] at heq
      exact absurd heq.symm (Nat.ne_of_lt (h.bound j))
    · rw [Function.update_of_ne hik] at hi heq
      by_cases hjk : j = k
      · subst hjk
        rw [Function.update_self, hgen] at heq
        exact absurd heq (Nat.ne_of_lt (h.bound i))
      · rw [Function.update_of_ne hjk] at heq
        exact h.unique i j hi heq
  · intro j hj
    cases hj
    rw [Function.update_self, hgen, hnext]
  · intro x hx
    cases hx
    rw [Function.update_self, hgen]
    exact ⟨rfl, rfl⟩
  · intro j t hend
    by_cases hj : j = k
    · rw [hj]
    · rw [Function.update_of_ne hj] at hend
      rw [halone j (h.ending j t hend) t] at hend
      cases hend

/-! ## One step -/

/-- No connection is installed while a task of the last one is inside
`terminate_generation`, and the generation counter does not wrap. -/
def installsAlone (s : State) : Action → Bool
  | .establish .install =>
    (s.latest.all fun k => !isEnding (s.links k).reader && !isEnding (s.links k).writer) &&
      decide (s.inner.nextGeneration + 1 < 2 ^ 64)
  | _ => true

/-- What `terminate_generation` does, with the tests it has passed. -/
theorem terminate_cases {a : TerminateAction} (h : s.terminate k t a = some s') :
    ((s.links k).phaseOf t = .running ∧ ∃ phase,
      s' = s.setLink k ((s.links k).setPhase t phase) ∧
      (isEnding phase = true → ∃ x, s.inner.connection = some x ∧
        x.generation = (s.links k).generation)) ∨
    ((s.links k).phaseOf t = .checked ∧
      s' = s.takeConnection.setLink k ((s.links k).setPhase t .taken)) ∨
    ((s.links k).phaseOf t = .taken ∧ ∃ reason,
      s' = (s.clearDispatch reason).setLink k ((s.links k).setPhase t .stopped)) := by
  unfold terminate at h
  dsimp only at h
  split at h
  · rename_i hphase
    left
    split at h
    · rename_i hcurrent
      cases h
      refine ⟨hphase, .checked, rfl, ?_⟩
      intro _
      cases hconn : s.inner.connection with
      | none =>
        rw [hconn] at hcurrent
        cases hcurrent
      | some x =>
        rw [hconn] at hcurrent
        exact ⟨x, rfl, by simpa using hcurrent⟩
    · cases h
      refine ⟨hphase, .stopped, rfl, ?_⟩
      intro hend
      cases hend
  · rename_i hphase
    cases h
    exact .inr (.inl ⟨hphase, rfl⟩)
  · rename_i reason hphase
    cases h
    exact .inr (.inr ⟨hphase, reason, rfl⟩)
  · cases h

theorem phaseOf_endsOf (l : Link) (t : LinkTask) : (endsOf l).phaseOf t = l.phaseOf t := by
  cases t <;> rfl

theorem installed_of_phase (h : s.control.Sorted) (hphase : (s.links k).phaseOf t ≠ .idle) :
    (s.links k).generation ≠ 0 := by
  intro hzero
  apply hphase
  rw [← phaseOf_endsOf]
  exact h.idle k hzero t

theorem sorted_terminate {a : TerminateAction} (hs : s.control.Sorted)
    (h : s.terminate k t a = some s') : s'.control.Sorted := by
  rcases terminate_cases h with ⟨hphase, phase, rfl, hcurrent⟩ | ⟨hphase, rfl⟩ |
    ⟨hphase, reason, rfl⟩
  · have hinstalled : (s.links k).generation ≠ 0 :=
      installed_of_phase hs (by rw [hphase]; rintro ⟨⟩)
    rw [control_setPhase]
    refine hs.setPhase hinstalled ?_
    intro hend
    -- the current connection has this generation, so it is this connection
    obtain ⟨x, hx, hgen⟩ := hcurrent hend
    obtain ⟨hlatest, hsame⟩ := hs.current x hx
    have hk : k = x.writer := hs.unique k x.writer hinstalled (hgen.symm.trans hsame)
    rw [hk]
    exact hlatest
  · have hinstalled : (s.links k).generation ≠ 0 :=
      installed_of_phase hs (by rw [hphase]; rintro ⟨⟩)
    have hlatest : s.latest = some k := by
      refine hs.ending k t ?_
      show isEnding ((endsOf (s.links k)).phaseOf t) = true
      rw [phaseOf_endsOf, hphase]
      rfl
    have hset := control_setPhase s.takeConnection k t .taken
    rw [show s.links k = s.takeConnection.links k from rfl, hset]
    exact hs.noConnection.setPhase hinstalled fun _ => hlatest
  · have hinstalled : (s.links k).generation ≠ 0 :=
      installed_of_phase hs (by rw [hphase]; rintro ⟨⟩)
    have hset := control_setPhase (s.clearDispatch reason) k t .stopped
    rw [show s.links k = (s.clearDispatch reason).links k from rfl, hset]
    refine Control.Sorted.setPhase (c := s.control) hs hinstalled ?_
    intro hend
    cases hend

theorem sorted_handshake (hs : s.control.Sorted) (hnew : (s.links k).opened = false) :
    Control.Sorted (control { s.setLink k { s.links k with opened := true } with
      inner.reconnectLock := some (.connected k) }) := by
  have hzero : (endsOf (s.links k)).generation = 0 := hs.unopened k hnew
  have hends : ∀ j,
      (endsOf ((s.setLink k { s.links k with opened := true }).links j)).generation =
      (endsOf (s.links j)).generation ∧
      ∀ t, (endsOf ((s.setLink k { s.links k with opened := true }).links j)).phaseOf t =
        (endsOf (s.links j)).phaseOf t := by
    intro j
    by_cases hj : j = k
    · subst hj
      rw [links_setLink_self]
      exact ⟨rfl, fun t => by cases t <;> rfl⟩
    · rw [links_setLink_ne s _ hj]
      exact ⟨rfl, fun t => rfl⟩
  refine ⟨?_, ?_, ?_, ?_, ?_, ?_, ?_, ?_⟩ <;> dsimp only [control]
  · intro j hj t
    rw [(hends j).1] at hj
    rw [(hends j).2]
    exact hs.idle j hj t
  · intro j hclosed
    rw [(hends j).1]
    by_cases hj : j = k
    · subst hj
      exact hzero
    · rw [links_setLink_ne s _ hj] at hclosed
      exact hs.unopened j hclosed
  · intro r hr
    cases hr
    refine ⟨?_, ?_⟩
    · rw [(hends _).1]
      exact hzero
    · show (endsOf ((s.setLink k { s.links k with opened := true }).links k)).opened = true
      rw [links_setLink_self]
      rfl
  · intro j
    rw [(hends j).1]
    exact hs.bound j
  · intro i j hi heq
    rw [(hends i).1] at hi heq
    rw [(hends j).1] at heq
    exact hs.unique i j hi heq
  · intro j hj
    rw [(hends j).1]
    exact hs.latest j hj
  · intro x hx
    rw [(hends _).1]
    exact hs.current x hx
  · intro j t hend
    rw [(hends j).2] at hend
    exact hs.ending j t hend

theorem sorted_establish {a : EstablishAction} (hs : s.control.Sorted)
    (hok : s.installsAlone (.establish a) = true) (h : EstablishStep s a s') :
    s'.control.Sorted := by
  cases h with
  | handshake _ hnew => exact sorted_handshake hs hnew
  | @take k hlock =>
    have hnone := hs.noConnection
    refine ⟨hnone.idle, hnone.unopened, ?_, hnone.bound, hnone.unique, hnone.latest,
      hnone.current, hnone.ending⟩
    intro r hr
    cases hr
    exact hs.replacing (.connected k) hlock
  | @clear k hlock =>
    refine ⟨hs.idle, hs.unopened, ?_, hs.bound, hs.unique, hs.latest, hs.current, hs.ending⟩
    intro r hr
    cases hr
    exact hs.replacing (.taken k) hlock
  | @install k hlock =>
    obtain ⟨-, hopened⟩ := hs.replacing _ hlock
    -- alone: no end of the latest connection is ending, and the counter does not wrap
    have hguard : (∀ j, s.latest = some j →
        isEnding (s.links j).reader = false ∧ isEnding (s.links j).writer = false) ∧
          s.inner.nextGeneration + 1 < 2 ^ 64 := by
      simp only [installsAlone, Bool.and_eq_true, decide_eq_true_eq] at hok
      refine ⟨?_, hok.2⟩
      intro j hj
      simpa [hj] using hok.1
    let e : Ends := ⟨(s.links k).opened, s.inner.nextGeneration, .running, .running⟩
    have hinstalled := hs.install (k := k) (e := e) hguard.2 ?_ rfl hopened
    · have hends : (fun j => endsOf ((s.setLink k { s.links k with
          generation := s.inner.nextGeneration, reader := .running,
          writer := .running }).links j)) =
          Function.update (fun j => endsOf (s.links j)) k e := by
        funext j
        by_cases hj : j = k
        · subst hj
          rw [links_setLink_self, Function.update_self]
          rfl
        · rw [links_setLink_ne s _ hj, Function.update_of_ne hj]
      unfold control
      dsimp only
      rw [hends]
      exact hinstalled
    · intro j hj t
      cases t with
      | reader => exact (hguard.1 j hj).1
      | writer => exact (hguard.1 j hj).2

theorem sorted_step {a : Action} (hs : s.control.Sorted) (hok : s.installsAlone a = true)
    (h : s.step a = some s') : s'.control.Sorted := by
  cases control_step h with
  | same hsame =>
    rw [hsame]
    exact hs
  | establish ha hstep =>
    subst ha
    exact sorted_establish hs hok hstep
  | terminate hsame hterm =>
    rw [← hsame] at hs
    exact sorted_terminate hs hterm

/-! ## The main result -/

/-- **Ending an old connection leaves a newer one alone.** In every run that
installs no connection inside `terminate_generation`, a section of it for
connection `k` that runs when a newer connection `j` has been installed changes
neither the current connection nor the dispatch tables, and answers no call. -/
theorem terminate_spares_newer {s s' : State}
    (h : machine.Reach (fun s a => s.installsAlone a = true) s) {k j : Nat} {t : LinkTask}
    {a : TerminateAction} (hstep : s.step (.terminate k t a) = some s')
    (hnewer : (s.links k).generation < (s.links j).generation) :
    s'.inner.connection = s.inner.connection ∧ s'.inner.dispatch = s.inner.dispatch ∧
      s'.calls = s.calls ∧ s'.handles = s.handles := by
  have hs : s.control.Sorted := by
    refine h.invariant (I := fun s => s.control.Sorted) ?_ ?_
    · rintro _ rfl
      exact sorted_fresh
    · intro s a s' hs hok hstep
      exact sorted_step hs hok hstep
  have hnot : isEnding ((s.links k).phaseOf t) = false := by
    by_contra hend
    have hlatest : s.latest = some k := by
      refine hs.ending k t ?_
      show isEnding ((endsOf (s.links k)).phaseOf t) = true
      rw [phaseOf_endsOf]
      simpa using hend
    -- nothing is newer than the connection installed last
    have hmax : (s.links k).generation + 1 = s.inner.nextGeneration := hs.latest k hlatest
    have hbound : (s.links j).generation < s.inner.nextGeneration := hs.bound j
    omega
  rcases terminate_cases hstep with ⟨-, phase, rfl, -⟩ | ⟨hphase, -⟩ | ⟨hphase, -⟩
  · exact ⟨rfl, rfl, rfl, rfl⟩
  · rw [hphase] at hnot
    cases hnot
  · rw [hphase] at hnot
    cases hnot

/-! ## A reconnect in the middle -/

/-- The reader of connection 0 finds its generation current; then the client
reconnects, subscribes and queues a request on connection 1. -/
def lateTermination : List Action :=
  connectTo 0 ++ [Action.terminate 0 .reader .check] ++ connectTo 1 ++
    subscribeOn 1 0 0 .daemonStatus ++
    [Action.start 1 .ping, .call 1 .takeWriter, .call 1 .send]

def failure (call : Call) : Option String :=
  match call.reply with
  | some (.error reason) => some reason
  | _ => none

/-- What remains of `terminate_generation` for connection 0 removes connection 1,
fails the request in its queue and closes the subscription accepted on it. -/
theorem reconnect_in_terminate_harms_newer :
    ∃ s s₁ s₂ x, machine.Reach (fun _ _ => True) s ∧
      (s.links 0).generation < (s.links 1).generation ∧
      s.step (.terminate 0 .reader .take) = some s₁ ∧
      s₁.step (.terminate 0 .reader (.clear "closed")) = some s₂ ∧
      s.inner.connection = some ⟨2, 1⟩ ∧ s₁.inner.connection = none ∧
      (s.calls 1).map (·.requestId) = some 2 ∧ (s.links 1).writerQueue.map (·.requestId) = [2] ∧
      (s.calls 1).map failure = some none ∧ (s₂.calls 1).map failure = some (some "closed") ∧
      s.handles 0 = some x ∧ x.acceptedOn = 1 ∧
      s.inner.dispatch.subscriptions[x.id]? = some 0 ∧
      s₂.inner.dispatch.subscriptions[x.id]? = none := by
  let x : Handle := ⟨1, 0, 1, [], [], [], .held, .none⟩
  have hrun : ((machine.exec fresh lateTermination).bind fun s =>
      (s.step (.terminate 0 .reader .take)).bind fun s₁ =>
        (s₁.step (.terminate 0 .reader (.clear "closed"))).map fun s₂ =>
          decide ((s.links 0).generation < (s.links 1).generation ∧
            s.inner.connection = some ⟨2, 1⟩ ∧ s₁.inner.connection = none ∧
            (s.calls 1).map (·.requestId) = some 2 ∧
            (s.links 1).writerQueue.map (·.requestId) = [2] ∧
            (s.calls 1).map failure = some none ∧
            (s₂.calls 1).map failure = some (some "closed") ∧
            s.handles 0 = some x ∧ s.inner.dispatch.subscriptions[x.id]? = some 0 ∧
            s₂.inner.dispatch.subscriptions[x.id]? = none)) = some true := by
    decide +kernel
  obtain ⟨s, hs, hrest⟩ := Option.bind_eq_some_iff.mp hrun
  obtain ⟨s₁, hs₁, hlast⟩ := Option.bind_eq_some_iff.mp hrest
  obtain ⟨s₂, hs₂, hfacts⟩ := Option.map_eq_some_iff.mp hlast
  obtain ⟨hnewer, hconn, hgone, hid, hqueue, hopen, hfailed, hx, hentry, hclosed⟩ :=
    of_decide_eq_true hfacts
  have hreach : machine.Reach (fun _ _ => True) s :=
    Machine.reach_of_exec (.init rfl) (Machine.allSteps_of_forall (fun _ _ => trivial) _ _) hs
  exact ⟨s, s₁, s₂, x, hreach, hnewer, hs₁, hs₂, hconn, hgone, hid, hqueue, hopen, hfailed, hx,
    rfl, hentry, hclosed⟩

/-- The reconnect comes first; both tasks of connection 0 then find it replaced. -/
def timelyReconnect : List Action :=
  connectTo 0 ++ connectTo 1 ++ subscribeOn 1 0 0 .daemonStatus ++
    [Action.terminate 0 .reader .check]

/-- The result for the writer of connection 0 after such a run. -/
theorem late_writer_spares_newer :
    ∃ s s', machine.exec fresh timelyReconnect = some s ∧
      s.step (.terminate 0 .writer .check) = some s' ∧
      s.inner.dispatch.subscriptions[1]? = some 0 ∧ s'.inner.dispatch = s.inner.dispatch := by
  have hrun : ((machine.exec fresh timelyReconnect).bind fun s =>
      (s.step (.terminate 0 .writer .check)).map fun _ =>
        decide ((s.links 0).generation < (s.links 1).generation ∧
          s.inner.dispatch.subscriptions[1]? = some 0)) = some true := by
    decide +kernel
  have hsteps : machine.AllSteps (fun s a => s.installsAlone a = true) fresh timelyReconnect := by
    decide +kernel
  obtain ⟨s, hs, hrest⟩ := Option.bind_eq_some_iff.mp hrun
  obtain ⟨s', hs', hfacts⟩ := Option.map_eq_some_iff.mp hrest
  obtain ⟨hnewer, hentry⟩ := of_decide_eq_true hfacts
  obtain ⟨-, hdispatch, -⟩ :=
    terminate_spares_newer (Machine.reach_of_exec (.init rfl) hsteps hs) hs' hnewer
  exact ⟨s, s', hs, hs', hentry, hdispatch⟩

end State

end TuxStack.Ipc
