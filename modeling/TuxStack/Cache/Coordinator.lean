import TuxStack.Lib.Runs

/-!
# Single flight

`RequestCoordinator::run_once` (`crates/docker-core/src/cache/coordinator.rs`): the first
caller for a key becomes the leader and enters the shared future of its producer in
`in_flight`, later callers join it, and a drop guard of the leader removes the entry. The
guard uses `try_lock` and does nothing when the map is locked at that moment.

A run interleaves the sections of any number of calls: waiting for the lock, the section
under it, awaiting the shared future, and the drop of a call where it awaits.

Two things go wrong (`second_producer_and_stale_value`). A leader that is dropped takes the
entry of a producer with it that others still await; and a leader that returns while another
call has the lock leaves its entry behind. `single_flight` says that nothing else does.
-/

namespace TuxStack.Cache

open Runs

inductive FlightOutcome where
  | leader
  | joined
deriving DecidableEq, Repr

/-- Where a call of `run_once` stands. `locked` begins when the lock is handed to it. -/
inductive CallPhase (V : Type) where
  | locking
  | locked
  | leading (producer : Nat)
  | joining (producer : Nat)
  | returned (outcome : FlightOutcome) (producer : Nat) (value : V)
  | cancelled
deriving DecidableEq, Repr

/-- A call; `retired` are the producers whose leader had returned when it began. -/
structure Call (K V : Type) where
  key : K
  retired : List Nat
  phase : CallPhase V
deriving DecidableEq, Repr

/-- A shared future that has been started, with its value once it has finished. -/
structure Producer (K V : Type) where
  key : K
  value : Option V
deriving DecidableEq, Repr

namespace Call

variable {K V : Type}

/-- The producer that the call has started and awaits. -/
def leads (call : Call K V) : Option Nat :=
  match call.phase with
  | .leading p => some p
  | _ => none

/-- The producer that the call awaits. -/
def awaits (call : Call K V) : Option Nat :=
  match call.phase with
  | .leading p => some p
  | .joining p => some p
  | _ => none

/-- The producer whose value the call receives or has received. -/
def receives (call : Call K V) : Option Nat :=
  match call.phase with
  | .leading p => some p
  | .joining p => some p
  | .returned _ p _ => some p
  | _ => none

end Call

/-- `RequestCoordinator` with its calls. Calls and producers are numbered in the order in
which they begin. `retired` are the finished producers whose leader has returned. -/
structure Coordinator (K V : Type) where
  lock : Option Nat
  inFlight : K → Option Nat
  producers : List (Producer K V)
  calls : List (Call K V)
  retired : List Nat

inductive Action (K V : Type) where
  | begin (key : K)
  | acquire (c : Nat)
  | lookup (c : Nat)
  | finish (c : Nat) (value : V)
  | return (c : Nat)
  | cancel (c : Nat)

namespace Coordinator

variable {K V : Type}

/-- The call `c` goes on to `phase`. -/
def move (s : Coordinator K V) (c : Nat) (call : Call K V) (phase : CallPhase V) :
    Coordinator K V :=
  { s with calls := s.calls.set c { call with phase := phase } }

variable [DecidableEq K]

def new : Coordinator K V := ⟨none, fun _ => none, [], [], []⟩

def dropGuard (s : Coordinator K V) (key : K) : Coordinator K V :=
  if s.lock.isNone then { s with inFlight := Function.update s.inFlight key none } else s

/-- The section of `run_once` under the lock. -/
def lookup (s : Coordinator K V) (c : Nat) (call : Call K V) : Coordinator K V :=
  match s.inFlight call.key with
  | some p => { s.move c call (.joining p) with lock := none }
  | none =>
    { s.move c call (.leading s.producers.length) with
      lock := none
      inFlight := Function.update s.inFlight call.key (some s.producers.length)
      producers := s.producers ++ [⟨call.key, none⟩] }

def valueOf (s : Coordinator K V) (p : Nat) : Option V := (s.producers[p]?).bind (·.value)

def stepCall (s : Coordinator K V) (c : Nat) (call : Call K V) :
    CallPhase V → Action K V → Option (Coordinator K V)
  | .locking, .acquire _ =>
    if s.lock.isNone then some { s.move c call .locked with lock := some c } else none
  | .locked, .lookup _ => some (s.lookup c call)
  | .leading p, .return _ =>
    (s.valueOf p).map fun v =>
      { (s.dropGuard call.key).move c call (.returned .leader p v) with
        retired := p :: s.retired }
  | .joining p, .return _ =>
    (s.valueOf p).map fun v => s.move c call (.returned .joined p v)
  | .locking, .cancel _ => some (s.move c call .cancelled)
  | .locked, .cancel _ => some { s.move c call .cancelled with lock := none }
  | .joining _, .cancel _ => some (s.move c call .cancelled)
  | .leading _, .cancel _ => some ((s.dropGuard call.key).move c call .cancelled)
  | _, _ => none

/-- The producer `p` finishes when one of the calls that await it polls it. -/
def finish (s : Coordinator K V) (call : Call K V) (v : V) : Option (Coordinator K V) :=
  match call.awaits with
  | some p =>
    match s.producers[p]? with
    | some ⟨key, none⟩ => some { s with producers := s.producers.set p ⟨key, some v⟩ }
    | _ => none
  | none => none

def step (s : Coordinator K V) : Action K V → Option (Coordinator K V)
  | .begin key => some { s with calls := s.calls ++ [⟨key, s.retired, .locking⟩] }
  | .finish c v => (s.calls[c]?).bind fun call => s.finish call v
  | .acquire c => (s.calls[c]?).bind fun call => s.stepCall c call call.phase (.acquire c)
  | .lookup c => (s.calls[c]?).bind fun call => s.stepCall c call call.phase (.lookup c)
  | .return c => (s.calls[c]?).bind fun call => s.stepCall c call call.phase (.return c)
  | .cancel c => (s.calls[c]?).bind fun call => s.stepCall c call call.phase (.cancel c)

end Coordinator

/-- A coordinator and its callers. -/
def coordinator (K V : Type) [DecidableEq K] : Machine (Coordinator K V) (Action K V) where
  init s := s = .new
  step := Coordinator.step

namespace Coordinator

variable {K V : Type}

/-- A handle of the producer is held by the map or by a call. -/
def Live (s : Coordinator K V) (p : Nat) : Prop :=
  (∃ key, s.inFlight key = some p) ∨ ∃ call ∈ s.calls, call.awaits = some p

/-- Some call has joined the producer and still awaits it. -/
def isJoined (s : Coordinator K V) (p : Nat) : Bool :=
  s.calls.any fun call => call.awaits == some p && call.leads == none

/-- Leaders go in turn: none is dropped with the lock free while others await its
unfinished producer, and none returns while the map is locked. -/
def inTurn (s : Coordinator K V) : Action K V → Bool
  | .cancel c =>
    match (s.calls[c]?).bind Call.leads with
    | some p => s.lock.isSome || (s.valueOf p).isSome || !s.isJoined p
    | none => true
  | .return c =>
    match (s.calls[c]?).bind Call.leads with
    | some _ => s.lock.isNone
    | none => true
  | _ => true

variable [DecidableEq K]

/-! ## What a step can do -/

/-- The steps, with what holds when each is taken. A cancelled call that does not lead
leaves the map alone, wherever it stands. -/
inductive Step (s : Coordinator K V) : Action K V → Coordinator K V → Prop where
  | begin (key : K) :
      Step s (.begin key) { s with calls := s.calls ++ [⟨key, s.retired, .locking⟩] }
  | acquire (c : Nat) (call : Call K V) (hc : s.calls[c]? = some call)
      (hphase : call.phase = .locking) :
      Step s (.acquire c) { s.move c call .locked with lock := some c }
  | join (c : Nat) (call : Call K V) (p : Nat) (hc : s.calls[c]? = some call)
      (hphase : call.phase = .locked) (hentry : s.inFlight call.key = some p) :
      Step s (.lookup c) { s.move c call (.joining p) with lock := none }
  | lead (c : Nat) (call : Call K V) (hc : s.calls[c]? = some call)
      (hphase : call.phase = .locked) (hentry : s.inFlight call.key = none) :
      Step s (.lookup c)
        { s.move c call (.leading s.producers.length) with
          lock := none
          inFlight := Function.update s.inFlight call.key (some s.producers.length)
          producers := s.producers ++ [⟨call.key, none⟩] }
  | finish (c : Nat) (call : Call K V) (p : Nat) (key : K) (v : V)
      (hc : s.calls[c]? = some call) (hp : s.producers[p]? = some ⟨key, none⟩) :
      Step s (.finish c v) { s with producers := s.producers.set p ⟨key, some v⟩ }
  | returnLeader (c : Nat) (call : Call K V) (p : Nat) (v : V)
      (hc : s.calls[c]? = some call) (hphase : call.phase = .leading p)
      (hv : s.valueOf p = some v) :
      Step s (.return c)
        { (s.dropGuard call.key).move c call (.returned .leader p v) with
          retired := p :: s.retired }
  | returnJoined (c : Nat) (call : Call K V) (p : Nat) (v : V)
      (hc : s.calls[c]? = some call) (hphase : call.phase = .joining p)
      (hv : s.valueOf p = some v) :
      Step s (.return c) (s.move c call (.returned .joined p v))
  | cancel (c : Nat) (call : Call K V) (lock : Option Nat) (hc : s.calls[c]? = some call)
      (hleads : call.leads = none) :
      Step s (.cancel c) { s.move c call .cancelled with lock := lock }
  | cancelLeader (c : Nat) (call : Call K V) (p : Nat) (hc : s.calls[c]? = some call)
      (hphase : call.phase = .leading p) :
      Step s (.cancel c) ((s.dropGuard call.key).move c call .cancelled)

theorem step_cases {s s' : Coordinator K V} {a : Action K V} (h : s.step a = some s') :
    Step s a s' := by
  cases a with
  | begin key =>
    cases h
    exact .begin key
  | acquire c =>
    obtain ⟨call, hc, h⟩ := Option.bind_eq_some_iff.mp h
    cases hphase : call.phase with
    | locking =>
      rw [hphase] at h
      simp only [stepCall] at h
      split at h
      · cases h
        exact .acquire c call hc hphase
      · cases h
    | _ => simp [hphase, stepCall] at h
  | lookup c =>
    obtain ⟨call, hc, h⟩ := Option.bind_eq_some_iff.mp h
    cases hphase : call.phase with
    | locked =>
      rw [hphase] at h
      cases h
      unfold lookup
      split
      next p hentry => exact .join c call p hc hphase hentry
      next hentry => exact .lead c call hc hphase hentry
    | _ => simp [hphase, stepCall] at h
  | finish c v =>
    obtain ⟨call, hc, h⟩ := Option.bind_eq_some_iff.mp h
    unfold finish at h
    split at h
    next p _ =>
      split at h
      next key hp =>
        cases h
        exact .finish c call p key v hc hp
      next => cases h
    next => cases h
  | «return» c =>
    obtain ⟨call, hc, h⟩ := Option.bind_eq_some_iff.mp h
    cases hphase : call.phase with
    | leading p =>
      rw [hphase] at h
      obtain ⟨v, hv, rfl⟩ := Option.map_eq_some_iff.mp h
      exact .returnLeader c call p v hc hphase hv
    | joining p =>
      rw [hphase] at h
      obtain ⟨v, hv, rfl⟩ := Option.map_eq_some_iff.mp h
      exact .returnJoined c call p v hc hphase hv
    | _ => simp [hphase, stepCall] at h
  | cancel c =>
    obtain ⟨call, hc, h⟩ := Option.bind_eq_some_iff.mp h
    cases hphase : call.phase with
    | locking | joining p =>
      rw [hphase] at h
      cases h
      exact .cancel c call s.lock hc (by simp [Call.leads, hphase])
    | locked =>
      rw [hphase] at h
      cases h
      exact .cancel c call none hc (by simp [Call.leads, hphase])
    | leading p =>
      rw [hphase] at h
      cases h
      exact .cancelLeader c call p hc hphase
    | _ => simp [hphase, stepCall] at h

end Coordinator

/-! ## The invariant -/

namespace Coordinator

variable {K V : Type}

/-- The key that a producer was started for. -/
def keyOf (s : Coordinator K V) (p : Nat) : Option K := (s.producers[p]?).map (·.key)

/-- The producer `p` was started after those of `retired` that were started for `key`. -/
def Newer (s : Coordinator K V) (retired : List Nat) (key : K) (p : Nat) : Prop :=
  ∀ q ∈ retired, s.keyOf q = some key → q < p

/-- What a call leads is in the map. What it receives was started for its key, after all
those whose leader had returned when the call began. -/
structure CallSound (s : Coordinator K V) (call : Call K V) : Prop where
  leading : ∀ p, call.leads = some p → s.inFlight call.key = some p
  received : ∀ p, call.receives = some p → s.keyOf p = some call.key
  value : ∀ o p v, call.phase = .returned o p v → s.valueOf p = some v
  snapshot : call.retired ⊆ s.retired
  fresh : ∀ p, call.receives = some p → s.Newer call.retired call.key p

structure Inv (s : Coordinator K V) : Prop where
  entry : ∀ key p, s.inFlight key = some p → s.keyOf p = some key
  calls : ∀ (c : Nat) (call : Call K V), s.calls[c]? = some call → s.CallSound call
  alone : ∀ (c d : Nat) (call call' : Call K V) p, s.calls[c]? = some call →
    s.calls[d]? = some call' → call.leads = some p → call'.leads = some p → c = d
  -- the single flight: whoever is unfinished and still held is found in the map
  covered : ∀ key p, s.keyOf p = some key → s.valueOf p = none → s.Live p →
    s.inFlight key = some p
  newer : ∀ key p, s.inFlight key = some p → s.Newer s.retired key p
  started : ∀ p ∈ s.retired, p < s.producers.length

theorem inv_new : Inv (new : Coordinator K V) := by
  constructor <;> simp [new, keyOf, Live]

theorem CallSound.withCalls {s : Coordinator K V} {call : Call K V} (h : s.CallSound call)
    (lock : Option Nat) (calls : List (Call K V)) :
    CallSound { s with lock := lock, calls := calls } call :=
  { h with }

/-- The lock takes no part in the invariant. -/
theorem Inv.withLock {s : Coordinator K V} (h : s.Inv) (lock : Option Nat) :
    Inv { s with lock := lock } :=
  ⟨h.entry, fun c call hc => (h.calls c call hc).withCalls lock _, h.alone, h.covered, h.newer,
    h.started⟩

end Coordinator

namespace Call

variable {K V : Type}

theorem receives_of_leads {call : Call K V} {p : Nat} (h : call.leads = some p) :
    call.receives = some p := by
  unfold leads at h
  unfold receives
  split at h <;> simp_all

theorem awaits_of_leads {call : Call K V} {p : Nat} (h : call.leads = some p) :
    call.awaits = some p := by
  unfold leads at h
  unfold awaits
  split at h <;> simp_all

end Call

namespace Coordinator

variable {K V : Type}

variable {s : Coordinator K V} {c p : Nat} {key : K} {call : Call K V} {phase : CallPhase V} {v : V}

theorem move_calls (hc : s.calls[c]? = some call) {d : Nat} {call' : Call K V}
    (h : (s.move c call phase).calls[d]? = some call') :
    (d = c ∧ call' = { call with phase := phase }) ∨
      (d ≠ c ∧ s.calls[d]? = some call') := by
  obtain ⟨hlt, -⟩ := List.getElem?_eq_some_iff.mp hc
  simp only [move, List.getElem?_set] at h
  by_cases hd : c = d
  · subst hd
    simp only [if_true, hlt] at h
    exact .inl ⟨rfl, (Option.some.inj h).symm⟩
  · rw [if_neg hd] at h
    exact .inr ⟨Ne.symm hd, h⟩

theorem live_iff : s.Live p ↔
    (∃ key, s.inFlight key = some p) ∨
      ∃ (c : Nat) (call : Call K V), s.calls[c]? = some call ∧ call.awaits = some p := by
  simp only [Live, List.mem_iff_getElem?]
  constructor
  · rintro (h | ⟨call, ⟨c, hc⟩, ha⟩)
    · exact .inl h
    · exact .inr ⟨c, call, hc, ha⟩
  · rintro (h | ⟨c, call, hc, ha⟩)
    · exact .inl h
    · exact .inr ⟨call, ⟨c, hc⟩, ha⟩

/-- A call that moves on without taking the lead, to a producer that it had or finds in
the map, keeps the invariant. -/
theorem Inv.move (h : s.Inv) (hc : s.calls[c]? = some call) (hleads : ∀ p, phase ≠ .leading p)
    (hreceives : ∀ p, ({ call with phase := phase } : Call K V).receives = some p →
      call.receives = some p ∨ s.inFlight call.key = some p)
    (hawaits : ∀ p, ({ call with phase := phase } : Call K V).awaits = some p →
      s.Live p) (hvalue : ∀ o p v, phase = .returned o p v → s.valueOf p = some v) :
    (s.move c call phase).Inv := by
  have hnot : ∀ p, ({ call with phase := phase } : Call K V).leads ≠ some p := by
    intro p hl
    unfold Call.leads at hl
    split at hl
    next q hq => exact hleads q hq
    next => cases hl
  refine ⟨h.entry, ?calls, ?alone, ?covered, h.newer, h.started⟩
  case calls =>
    intro d call' hd
    rcases move_calls hc hd with ⟨-, rfl⟩ | ⟨-, hd⟩
    · have hcall := h.calls c call hc
      refine ⟨fun p hl => absurd hl (hnot p), fun p hr => ?_, hvalue, hcall.snapshot,
        fun p hr => ?_⟩
      · rcases hreceives p hr with hr | hentry
        · exact hcall.received p hr
        · exact h.entry call.key p hentry
      · rcases hreceives p hr with hr | hentry
        · exact hcall.fresh p hr
        · exact fun q hq => h.newer call.key p hentry q (hcall.snapshot hq)
    · exact (h.calls d call' hd).withCalls _ _
  case alone =>
    intro d e call₁ call₂ p hd he h₁ h₂
    rcases move_calls hc hd with ⟨-, rfl⟩ | ⟨-, hd⟩
    · exact absurd h₁ (hnot p)
    rcases move_calls hc he with ⟨-, rfl⟩ | ⟨-, he⟩
    · exact absurd h₂ (hnot p)
    · exact h.alone d e call₁ call₂ p hd he h₁ h₂
  case covered =>
    intro key p hkey hnone hlive
    apply h.covered key p hkey hnone
    rcases live_iff.mp hlive with hentry | ⟨d, call', hd, ha⟩
    · exact .inl hentry
    rcases move_calls hc hd with ⟨-, rfl⟩ | ⟨-, hd⟩
    · exact hawaits p ha
    · exact live_iff.mpr (.inr ⟨d, call', hd, ha⟩)

theorem Inv.begin (h : s.Inv) (key : K) :
    Inv { s with calls := s.calls ++ [⟨key, s.retired, .locking⟩] } := by
  have hcalls : ∀ (c : Nat) (call : Call K V),
      (s.calls ++ [⟨key, s.retired, .locking⟩])[c]? = some call →
        s.calls[c]? = some call ∨ call = ⟨key, s.retired, .locking⟩ := by
    intro c call hc
    rw [List.getElem?_append] at hc
    split at hc
    · exact .inl hc
    · exact .inr (List.mem_singleton.mp (List.mem_of_getElem? hc))
  refine ⟨h.entry, ?calls, ?alone, ?covered, h.newer, h.started⟩
  case calls =>
    intro c call hc
    rcases hcalls c call hc with hc | rfl
    · exact (h.calls c call hc).withCalls _ _
    · exact ⟨fun p hl => (by cases hl), fun p hr => (by cases hr), fun o p v hv => (by cases hv),
        List.Subset.refl _, fun p hr => (by cases hr)⟩
  case alone =>
    intro c d call call' p hc hd hl hl'
    rcases hcalls c call hc with hc | rfl
    · rcases hcalls d call' hd with hd | rfl
      · exact h.alone c d call call' p hc hd hl hl'
      · cases hl'
    · cases hl
  case covered =>
    intro k p hkey hnone hlive
    apply h.covered k p hkey hnone
    rcases live_iff.mp hlive with hentry | ⟨c, call, hc, ha⟩
    · exact .inl hentry
    rcases hcalls c call hc with hc | rfl
    · exact live_iff.mpr (.inr ⟨c, call, hc, ha⟩)
    · cases ha

theorem keyOf_finish (hp : s.producers[p]? = some ⟨key, none⟩) (q : Nat) :
    ({ s with producers := s.producers.set p ⟨key, some v⟩ } : Coordinator K V).keyOf q =
      s.keyOf q := by
  obtain ⟨hlt, -⟩ := List.getElem?_eq_some_iff.mp hp
  simp only [keyOf, List.getElem?_set]
  by_cases hq : p = q
  · subst hq
    simp only [hp, hlt, if_true, Option.map_some]
  · simp [hq]

theorem valueOf_finish (hp : s.producers[p]? = some ⟨key, none⟩) (q : Nat) :
    ({ s with producers := s.producers.set p ⟨key, some v⟩ } : Coordinator K V).valueOf q =
      if q = p then some v else s.valueOf q := by
  obtain ⟨hlt, -⟩ := List.getElem?_eq_some_iff.mp hp
  simp only [valueOf, List.getElem?_set]
  by_cases hq : p = q
  · subst hq
    simp [hlt]
  · simp [hq, Ne.symm hq]

theorem Inv.finish (h : s.Inv) (hp : s.producers[p]? = some ⟨key, none⟩) :
    Inv { s with producers := s.producers.set p ⟨key, some v⟩ } := by
  have hkey := keyOf_finish (v := v) hp
  have hvalue := valueOf_finish (v := v) hp
  have hnone : s.valueOf p = none := by simp [valueOf, hp]
  refine ⟨?entry, ?calls, h.alone, ?covered, ?newer, ?started⟩
  case entry =>
    intro k q hq
    rw [hkey]
    exact h.entry k q hq
  case calls =>
    intro c call hc
    have hcall := h.calls c call hc
    refine ⟨hcall.leading, fun q hr => (hkey q).trans (hcall.received q hr), fun o q w hv => ?_,
      hcall.snapshot, fun q hr r hmem hrk => hcall.fresh q hr r hmem ((hkey r).symm.trans hrk)⟩
    have hq := hcall.value o q w hv
    rw [hvalue, if_neg (fun heq => by simp [heq, hnone] at hq)]
    exact hq
  case covered =>
    intro k q hk hq hlive
    rw [hkey] at hk
    rw [hvalue] at hq
    split at hq
    · cases hq
    · exact h.covered k q hk hq hlive
  case newer =>
    intro k q hq r hr hrk
    rw [hkey] at hrk
    exact h.newer k q hq r hr hrk
  case started =>
    intro q hq
    simpa using h.started q hq

theorem lt_of_keyOf (h : s.keyOf p = some key) : p < s.producers.length := by
  obtain ⟨pr, hpr, -⟩ := Option.map_eq_some_iff.mp h
  exact (List.getElem?_eq_some_iff.mp hpr).1

theorem Inv.retire (h : s.Inv) (hkey : s.keyOf p = some key) (hentry : s.inFlight key = none) :
    Inv { s with retired := p :: s.retired } := by
  refine ⟨h.entry, fun c call hc => ?calls, h.alone, h.covered, ?newer, ?started⟩
  case calls =>
    have hcall := h.calls c call hc
    exact ⟨hcall.leading, hcall.received, hcall.value,
      List.Subset.trans hcall.snapshot (List.subset_cons_self _ _), hcall.fresh⟩
  case newer =>
    intro k q hq r hr hrk
    rcases List.mem_cons.mp hr with rfl | hr
    · cases hkey.symm.trans hrk
      rw [hentry] at hq
      cases hq
    · exact h.newer k q hq r hr hrk
  case started =>
    intro q hq
    rcases List.mem_cons.mp hq with rfl | hq
    · exact lt_of_keyOf hkey
    · exact h.started q hq

theorem leads_of_not_joined (h : s.isJoined p = false) (hc : s.calls[c]? = some call)
    (ha : call.awaits = some p) : call.leads = some p := by
  have hcall := List.any_eq_false.mp h call (List.mem_of_getElem? hc)
  cases hphase : call.phase <;> simp_all [Call.awaits, Call.leads]

variable [DecidableEq K]

@[simp] theorem dropGuard_producers (s : Coordinator K V) (key : K) :
    (s.dropGuard key).producers = s.producers := by
  unfold dropGuard
  split <;> rfl

/-- The coordinator after the call has found no entry and started a producer. -/
def started (s : Coordinator K V) (c : Nat) (call : Call K V) : Coordinator K V :=
  { s.move c call (.leading s.producers.length) with
    inFlight := Function.update s.inFlight call.key (some s.producers.length)
    producers := s.producers ++ [⟨call.key, none⟩] }

theorem producers_started (s : Coordinator K V) (c : Nat) (call : Call K V) :
    (∀ p, p ≠ s.producers.length → (s.started c call).keyOf p = s.keyOf p ∧
      (s.started c call).valueOf p = s.valueOf p) ∧
    (s.started c call).keyOf s.producers.length = some call.key := by
  refine ⟨fun p hp => ?_, by simp [started, keyOf]⟩
  have hold : (s.started c call).producers[p]? = s.producers[p]? := by
    rcases Nat.lt_or_gt_of_ne hp with hlt | hgt
    · exact List.getElem?_append_left hlt
    · rw [List.getElem?_eq_none (by simp [started]; omega), List.getElem?_eq_none (by omega)]
  exact ⟨congrArg (Option.map _) hold, congrArg (Option.bind · _) hold⟩

theorem keyOf_started (h : s.keyOf p = some key) : (s.started c call).keyOf p = some key :=
  ((producers_started s c call).1 p (Nat.ne_of_lt (lt_of_keyOf h))).1.trans h

theorem inFlight_started (hp : (s.started c call).inFlight key = some p) :
    (key = call.key ∧ p = s.producers.length) ∨ (key ≠ call.key ∧ s.inFlight key = some p) := by
  change Function.update s.inFlight call.key _ key = some p at hp
  by_cases hkey : key = call.key
  · rw [hkey, Function.update_self] at hp
    exact .inl ⟨hkey, (Option.some.inj hp).symm⟩
  · rw [Function.update_of_ne hkey] at hp
    exact .inr ⟨hkey, hp⟩

theorem Inv.call_started (h : s.Inv) (hentry : s.inFlight call.key = none) {other : Call K V}
    (hother : s.CallSound other) : (s.started c call).CallSound other where
  leading p hl := by
    have hin := hother.leading p hl
    have hne : other.key ≠ call.key := fun heq => by
      rw [heq, hentry] at hin
      cases hin
    exact (Function.update_of_ne hne ..).trans hin
  received p hr := keyOf_started (hother.received p hr)
  value o p v hv := by
    have hlt := lt_of_keyOf (hother.received p (by simp [Call.receives, hv]))
    rw [((producers_started s c call).1 p (Nat.ne_of_lt hlt)).2]
    exact hother.value o p v hv
  snapshot := hother.snapshot
  fresh p hr q hq hqk := by
    have hlt := h.started q (hother.snapshot hq)
    rw [((producers_started s c call).1 q (Nat.ne_of_lt hlt)).1] at hqk
    exact hother.fresh p hr q hq hqk

theorem live_started (hc : s.calls[c]? = some call) (hp : p ≠ s.producers.length)
    (hlive : (s.started c call).Live p) : s.Live p := by
  rcases live_iff.mp hlive with ⟨k, hk⟩ | ⟨d, call', hd, ha⟩
  · rcases inFlight_started hk with ⟨-, heq⟩ | ⟨-, hk⟩
    · exact absurd heq hp
    · exact .inl ⟨k, hk⟩
  · rcases move_calls hc hd with ⟨-, rfl⟩ | ⟨-, hd⟩
    · cases ha
      exact absurd rfl hp
    · exact live_iff.mpr (.inr ⟨d, call', hd, ha⟩)

/-- A caller that finds no entry starts a producer and takes the lead. -/
theorem Inv.lead (h : s.Inv) (hc : s.calls[c]? = some call) (hentry : s.inFlight call.key = none) :
    (s.started c call).Inv := by
  obtain ⟨hold, hnew⟩ := producers_started s c call
  -- the new number is past every producer, so no call leads it yet
  have hunled : ∀ (d : Nat) (call' : Call K V), s.calls[d]? = some call' →
      call'.leads ≠ some s.producers.length := fun d call' hd hl =>
    absurd (lt_of_keyOf ((h.calls d call' hd).received _ (Call.receives_of_leads hl)))
      (Nat.lt_irrefl _)
  refine ⟨?entry, ?calls, ?alone, ?covered, ?newer, ?started⟩
  case entry =>
    intro key p hp
    rcases inFlight_started hp with ⟨rfl, rfl⟩ | ⟨-, hp⟩
    · exact hnew
    · exact keyOf_started (h.entry key p hp)
  case calls =>
    intro d call' hd
    rcases move_calls hc hd with ⟨-, rfl⟩ | ⟨-, hd⟩
    · have hcall := h.calls c call hc
      refine ⟨fun p hl => ?_, fun p hr => ?_, fun o p v hv => (by cases hv), hcall.snapshot,
        fun p hr q hq _ => ?_⟩
      · cases hl
        exact Function.update_self ..
      · cases hr
        exact hnew
      · cases hr
        exact h.started q (hcall.snapshot hq)
    · exact h.call_started hentry (h.calls d call' hd)
  case alone =>
    intro d e call₁ call₂ p hd he h₁ h₂
    rcases move_calls hc hd with ⟨hdc, rfl⟩ | ⟨-, hd⟩
    · cases h₁
      rcases move_calls hc he with ⟨hec, rfl⟩ | ⟨-, he⟩
      · rw [hdc, hec]
      · exact absurd h₂ (hunled e call₂ he)
    · rcases move_calls hc he with ⟨-, rfl⟩ | ⟨-, he⟩
      · cases h₂
        exact absurd h₁ (hunled d call₁ hd)
      · exact h.alone d e call₁ call₂ p hd he h₁ h₂
  case covered =>
    intro key p hkey hnone hlive
    by_cases hp : p = s.producers.length
    · subst hp
      cases hkey.symm.trans hnew
      exact Function.update_self ..
    · rw [(hold p hp).1] at hkey
      rw [(hold p hp).2] at hnone
      -- an older producer of this key would have been found in the map
      have hin := h.covered key p hkey hnone (live_started hc hp hlive)
      have hne : key ≠ call.key := fun heq => by
        rw [heq, hentry] at hin
        cases hin
      exact (Function.update_of_ne hne ..).trans hin
  case newer =>
    intro key p hp q hq hqk
    have hlt := h.started q hq
    rcases inFlight_started hp with ⟨-, rfl⟩ | ⟨-, hp⟩
    · exact hlt
    · rw [(hold q (Nat.ne_of_lt hlt)).1] at hqk
      exact h.newer key p hp q hq hqk
  case started =>
    intro q hq
    show q < (s.producers ++ [Producer.mk call.key none]).length
    rw [List.length_append]
    exact Nat.lt_add_right _ (h.started q hq)

/-- The entry of a key that no leader holds can go, unless a call awaits its unfinished
producer. -/
theorem Inv.dropEntry (h : s.Inv) (hentry : s.inFlight key = some p)
    (hled : ∀ (d : Nat) (call : Call K V), s.calls[d]? = some call → call.leads ≠ some p)
    (hawait : s.valueOf p = none →
      ∀ (d : Nat) (call : Call K V), s.calls[d]? = some call → call.awaits ≠ some p) :
    Inv { s with inFlight := Function.update s.inFlight key none } := by
  have hsub : ∀ k q, Function.update s.inFlight key none k = some q →
      k ≠ key ∧ s.inFlight k = some q := by
    intro k q hq
    by_cases hk : k = key
    · subst hk
      simp at hq
    · exact ⟨hk, by rwa [Function.update_of_ne hk] at hq⟩
  refine ⟨?entry, ?calls, h.alone, ?covered, ?newer, h.started⟩
  case entry =>
    intro k q hq
    exact h.entry k q (hsub k q hq).2
  case calls =>
    intro d call hd
    have hcall := h.calls d call hd
    refine ⟨fun q hl => ?_, hcall.received, hcall.value, hcall.snapshot, hcall.fresh⟩
    have hin := hcall.leading q hl
    show Function.update s.inFlight key none call.key = some q
    rw [Function.update_of_ne]
    · exact hin
    · intro heq
      rw [heq, hentry] at hin
      cases hin
      exact hled d call hd hl
  case covered =>
    intro k q hkey hnone hlive
    have hbefore : s.Live q := by
      rcases hlive with ⟨k', hk'⟩ | hcall
      · exact .inl ⟨k', (hsub k' q hk').2⟩
      · exact .inr hcall
    have hin := h.covered k q hkey hnone hbefore
    show Function.update s.inFlight key none k = some q
    rw [Function.update_of_ne]
    · exact hin
    · -- the only unfinished producer of `key` would be `p`, and nobody holds it now
      rintro rfl
      rw [hentry] at hin
      cases hin
      rcases live_iff.mp hlive with ⟨k', hk'⟩ | ⟨d, call, hd, ha⟩
      · obtain ⟨hne, hk'⟩ := hsub k' p hk'
        have := (h.entry k' p hk').symm.trans (h.entry k p hentry)
        exact hne (Option.some.inj this)
      · exact hawait hnone d call hd ha
  case newer =>
    intro k q hq
    exact h.newer k q (hsub k q hq).2

/-- A leader leaves, by returning or by being dropped: the guard may take the entry
along when the producer has finished or nobody else awaits it. -/
theorem Inv.leave (h : s.Inv) (hc : s.calls[c]? = some call) (hphase : call.phase = .leading p)
    (hreceives : ∀ q, ({ call with phase := phase } : Call K V).receives = some q → q = p)
    (hawaits : ({ call with phase := phase } : Call K V).awaits = none)
    (hvalue : ∀ o q v, phase = .returned o q v → s.valueOf q = some v)
    (hfree : s.lock = none → s.valueOf p = none → s.isJoined p = false) :
    Inv ((s.dropGuard call.key).move c call phase) := by
  have hl : call.leads = some p := by simp [Call.leads, hphase]
  have hmoved : (s.move c call phase).Inv := by
    apply h.move hc
    · intro q hq
      simp [Call.awaits, hq] at hawaits
    · intro q hq
      rw [hreceives q hq]
      exact .inl (Call.receives_of_leads hl)
    · intro q hq
      rw [hawaits] at hq
      cases hq
    · exact hvalue
  have hothers : ∀ (d : Nat) (call' : Call K V),
      (s.move c call phase).calls[d]? = some call' → call'.awaits = some p →
        d ≠ c ∧ s.calls[d]? = some call' := by
    intro d call' hd ha
    rcases move_calls hc hd with ⟨-, rfl⟩ | hd
    · rw [hawaits] at ha
      cases ha
    · exact hd
  have hunled : ∀ (d : Nat) (call' : Call K V),
      (s.move c call phase).calls[d]? = some call' → call'.leads ≠ some p := by
    intro d call' hd hl'
    obtain ⟨hne, hd⟩ := hothers d call' hd (Call.awaits_of_leads hl')
    exact hne (h.alone d c call' call p hd hc hl' hl)
  unfold dropGuard
  split
  next hlock =>
    apply hmoved.dropEntry ((h.calls c call hc).leading p hl) hunled
    intro hnone d call' hd ha
    have hjoined := hfree (Option.isNone_iff_eq_none.mp hlock) hnone
    obtain ⟨-, hd'⟩ := hothers d call' hd ha
    exact hunled d call' hd (leads_of_not_joined hjoined hd' ha)
  next => exact hmoved

/-- **The step lemma**: a step in turn keeps the invariant. -/
theorem Inv.step {s' : Coordinator K V} {a : Action K V} (h : s.Inv) (hturn : s.inTurn a = true)
    (hs : s.step a = some s') : s'.Inv := by
  cases step_cases hs with
  | begin key => exact h.begin key
  | acquire c call hc hphase | cancel c call lock hc hleads =>
    apply Inv.withLock
    apply h.move hc <;> simp [Call.receives, Call.awaits]
  | join c call p hc hphase hentry =>
    apply Inv.withLock
    apply h.move hc
    · simp
    · intro q hq
      cases hq
      exact .inr hentry
    · intro q hq
      cases hq
      exact .inl ⟨call.key, hentry⟩
    · simp
  | lead c call hc hphase hentry => exact (h.lead hc hentry).withLock none
  | finish c call p key v hc hp => exact h.finish hp
  | returnLeader c call p v hc hphase hv =>
    have hl : call.leads = some p := by simp [Call.leads, hphase]
    have hlock : s.lock = none := by simpa [inTurn, hc, hl] using hturn
    have hleft : Inv ((s.dropGuard call.key).move c call (.returned .leader p v)) := by
      apply h.leave hc hphase
      · intro q hq
        cases hq
        rfl
      · rfl
      · intro o q w hq
        cases hq
        exact hv
      · intro _ hnone
        rw [hv] at hnone
        cases hnone
    -- in turn the lock is free, so the guard takes the finished entry out
    have hdrop : s.dropGuard call.key =
        { s with inFlight := Function.update s.inFlight call.key none } := by
      simp [dropGuard, hlock]
    rw [hdrop] at hleft ⊢
    have hkey := (h.calls c call hc).received p (Call.receives_of_leads hl)
    exact hleft.retire hkey (Function.update_self _ _ _)
  | returnJoined c call p v hc hphase hv =>
    apply h.move hc
    · simp
    · intro q hq
      cases hq
      exact .inl (by simp [Call.receives, hphase])
    · simp [Call.awaits]
    · intro o q w hq
      cases hq
      exact hv
  | cancelLeader c call p hc hphase =>
    have hl : call.leads = some p := by simp [Call.leads, hphase]
    apply h.leave hc hphase
    · simp [Call.receives]
    · rfl
    · simp
    · intro hlock hnone
      simpa [inTurn, hc, hl, hlock, hnone] using hturn

theorem lookup_of_starts {s' : Coordinator K V} {a : Action K V} {producer : Producer K V}
    (hs : s.step a = some s') (hnew : s'.producers[s.producers.length]? = some producer) :
    s.inFlight producer.key = none := by
  have hold : (s.producers)[s.producers.length]? = none :=
    List.getElem?_eq_none (Nat.le_refl _)
  cases step_cases hs with
  | lead c call hc hphase hentry =>
    simp only [List.getElem?_concat_length, Option.some.injEq] at hnew
    subst hnew
    exact hentry
  | finish c call p key v hc hp =>
    rw [List.getElem?_eq_none (by simp)] at hnew
    cases hnew
  | returnLeader c call p v hc hphase hv | cancelLeader c call p hc hphase =>
    simp only [Coordinator.move, dropGuard_producers, hold] at hnew
    cases hnew
  | _ =>
    simp only [Coordinator.move, hold] at hnew
    cases hnew

end Coordinator

section SingleFlight

variable {K V : Type} [DecidableEq K]

theorem inv_reach {s : Coordinator K V}
    (h : (coordinator K V).Reach (fun s a => s.inTurn a = true) s) : s.Inv := by
  apply Machine.Reach.invariant _ _ h
  · intro s hs
    rw [hs]
    exact Coordinator.inv_new
  · intro s a s' hi hturn hs
    exact hi.step hturn hs

/-- **Single flight and freshness.** When leaders go in turn: no step starts a producer
for the key of one that is unfinished and held; and a call gets the value of a producer
that was started for its key after all those whose leader had returned when the call
began. -/
theorem single_flight {s : Coordinator K V}
    (h : (coordinator K V).Reach (fun s a => s.inTurn a = true) s) :
    (∀ (a : Action K V) (s' : Coordinator K V) (second : Producer K V),
      s.step a = some s' → s'.producers[s.producers.length]? = some second →
      ∀ p, s.keyOf p = some second.key → s.valueOf p = none → ¬ s.Live p) ∧
    (∀ call ∈ s.calls, ∀ p, call.receives = some p →
      s.keyOf p = some call.key ∧ p ∉ call.retired ∧ s.Newer call.retired call.key p) ∧
    ∀ call ∈ s.calls, ∀ o p v, call.phase = .returned o p v → s.valueOf p = some v := by
  have hinv := inv_reach h
  refine ⟨?_, ?_, ?_⟩
  · intro a s' second hs hnew p hkey hnone hlive
    have hin := hinv.covered second.key p hkey hnone hlive
    rw [Coordinator.lookup_of_starts hs hnew] at hin
    cases hin
  · intro call hcall p hr
    obtain ⟨c, hc⟩ := List.mem_iff_getElem?.mp hcall
    have hkey := (hinv.calls c call hc).received p hr
    have hnewer := (hinv.calls c call hc).fresh p hr
    refine ⟨hkey, ?_, hnewer⟩
    intro hmem
    exact Nat.lt_irrefl p (hnewer p hmem hkey)
  · intro call hcall o p v hphase
    obtain ⟨c, hc⟩ := List.mem_iff_getElem?.mp hcall
    exact (hinv.calls c call hc).value o p v hphase

end SingleFlight

/-- A call runs up to the lookup. -/
def beginLookup (c : Nat) (key : String) : List (Action String Nat) :=
  [.begin key, .acquire c, .lookup c]

/-- A request that is joined, finishes and returns, and a request after it. -/
def sharedThenFresh : List (Action String Nat) :=
  beginLookup 0 "image" ++ beginLookup 1 "image" ++
    [Action.finish 1 7, .return 0, .return 1] ++ beginLookup 2 "image"

/-- The result for such a run: the last call has started a producer of its own. -/
theorem third_call_leads_afresh :
    ∃ s, (coordinator String Nat).exec .new sharedThenFresh = some s ∧
      s.producers = [⟨"image", some 7⟩, ⟨"image", none⟩] ∧
      s.calls[2]? = some ⟨"image", [0], .leading 1⟩ ∧ s.Newer [0] "image" 1 := by
  have hrun : ∃ s ∈ (coordinator String Nat).exec .new sharedThenFresh,
      s.producers = [⟨"image", some 7⟩, ⟨"image", none⟩] ∧
      s.calls[2]? = some ⟨"image", [0], .leading 1⟩ := by
    decide +kernel
  have hsteps : (coordinator String Nat).AllSteps (fun s a => s.inTurn a = true) .new
      sharedThenFresh := by
    decide +kernel
  obtain ⟨s, hs, hproducers, hcall⟩ := hrun
  have hreach := Machine.reach_of_exec (.init rfl) hsteps (Option.mem_def.mp hs)
  have hfresh := (single_flight hreach).2.1 _ (List.mem_of_getElem? hcall) 1 rfl
  exact ⟨s, Option.mem_def.mp hs, hproducers, hcall, hfresh.2.2⟩

/-- A leader is dropped while another call awaits its producer; then a third one comes. -/
def leaderDropped : List (Action String Nat) :=
  beginLookup 0 "image" ++ beginLookup 1 "image" ++ [Action.cancel 0, .begin "image", .acquire 2]

/-- A leader returns while a call for another key has the lock; a call for its own key
begins after that. -/
def returnedUnderLock : List (Action String Nat) :=
  beginLookup 0 "image" ++ [Action.finish 0 7, .begin "volume", .acquire 1, .return 0, .lookup 1] ++
    beginLookup 2 "image" ++ [Action.return 2]

/-- A second producer is started beside one that is unfinished and awaited, and a call
gets the value of a producer whose leader had returned before the call began. -/
theorem second_producer_and_stale_value :
    (∃ s s' : Coordinator String Nat,
      (coordinator String Nat).Reach (fun _ _ => True) s ∧
      s.step (.lookup 2) = some s' ∧
      s'.producers[s.producers.length]? = some ⟨"image", none⟩ ∧
      s.keyOf 0 = some "image" ∧ s.valueOf 0 = none ∧ s.Live 0) ∧
    ∃ s : Coordinator String Nat,
      (coordinator String Nat).Reach (fun _ _ => True) s ∧
      s.calls[2]? = some ⟨"image", [0], .returned .joined 0 7⟩ := by
  have hfree : ∀ as, (coordinator String Nat).AllSteps (fun _ _ => True) .new as :=
    fun as => Machine.allSteps_of_forall (fun _ _ => trivial) as _
  constructor
  · have hrun : ∃ s ∈ (coordinator String Nat).exec .new leaderDropped,
        (∃ s' ∈ s.step (.lookup 2),
          s'.producers[s.producers.length]? = some ⟨"image", none⟩) ∧
        s.keyOf 0 = some "image" ∧ s.valueOf 0 = none ∧
        ∃ call ∈ s.calls, call.awaits = some 0 := by
      decide +kernel
    obtain ⟨s, hs, ⟨s', hs', hnew⟩, hkey, hnone, hawaits⟩ := hrun
    exact ⟨s, s', Machine.reach_of_exec (.init rfl) (hfree _) (Option.mem_def.mp hs),
      Option.mem_def.mp hs', hnew, hkey, hnone, .inr hawaits⟩
  · have hrun : ∃ s ∈ (coordinator String Nat).exec .new returnedUnderLock,
        s.calls[2]? = some ⟨"image", [0], .returned .joined 0 7⟩ := by
      decide +kernel
    obtain ⟨s, hs, hcall⟩ := hrun
    exact ⟨s, Machine.reach_of_exec (.init rfl) (hfree _) (Option.mem_def.mp hs), hcall⟩

end TuxStack.Cache
