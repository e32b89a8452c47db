import TuxStack.Lib.Runs

/-!
# The state of the mount

`mount`, `unmount` and `remount` of `crates/tuxstack-daemon/src/state.rs`, as
`dispatch_request` calls them for any number of clients. The status, the session and
the notifier live in cells of their own, each with a lock that is held for one
access; an access, an `await` and a fallible call are one step here. What fails and
when is up to the environment, and so is when a client cancels its request or goes:
`serve_client` then drops the call where it awaits.

A `BackgroundSession` is alive as long as something owns it: the cell, the call
that spawned it, the task that joins it, which outlives a dropped call, or nobody any
more when the unmount failed.
-/

namespace TuxStack.Daemon

open Runs

/-! ## Calls and cells -/

inductive MountState where
  | unmounted
  | mounting
  | mounted
  | unmounting
  | failed (reason : String)
deriving DecidableEq

structure MountStatus where
  state : MountState
  mountPoint : Option String
  readOnly : Bool
deriving DecidableEq

/-- A session, by the number of the `spawn_mount` that made it. -/
abbrev BackgroundSession : Type := Nat

/-- The part of `DaemonState` that the calls share; `spawned` counts sessions. -/
structure MountCells where
  status : MountStatus
  session : Option BackgroundSession
  notifier : Option BackgroundSession
  events : List MountStatus
  spawned : Nat

inductive MountAction where
  | mount
  | unmount
  | remount

/-- Where a call is: each constructor is what it does next. In an `unmount`, `again`
says that it is the first half of a `remount`. -/
inductive MountCall where
  | checking
  | reporting
  | starting
  | rebuilding
  | adapting
  | spawning
  | notifying (session : BackgroundSession)
  | storing (session : BackgroundSession)
  | settling
  | leaving (again : Bool)
  | forgetting (again : Bool)
  | taking (again : Bool)
  | joining (again : Bool) (session : BackgroundSession)
  | clearing (again : Bool)
  | announcing (again : Bool) (status : MountStatus)
  | returned (result : Except String MountStatus)
  | dropped

def MountAction.entry : MountAction → MountCall
  | .mount => .checking
  | .unmount => .leaving false
  | .remount => .leaving true

namespace MountCall

def advance (point : String) (cells : MountCells) : MountCall → Option (MountCells × MountCall)
  | checking => some (cells, if cells.session.isSome then reporting else starting)
  | reporting => some (cells, returned (.ok cells.status))
  | starting => some ({ cells with status := ⟨.mounting, some point, true⟩ }, rebuilding)
  | rebuilding => some (cells, adapting)
  | adapting => some (cells, spawning)
  | spawning => some ({ cells with spawned := cells.spawned + 1 }, notifying cells.spawned)
  | notifying session => some ({ cells with notifier := some session }, storing session)
  | storing session => some ({ cells with session := some session }, settling)
  | settling =>
    let status : MountStatus := ⟨.mounted, some point, true⟩
    some ({ cells with status := status }, announcing false status)
  | leaving again =>
    some ({ cells with status := ⟨.unmounting, some point, true⟩ }, forgetting again)
  | forgetting again => some ({ cells with notifier := none }, taking again)
  | taking again =>
    match cells.session with
    | some session => some ({ cells with session := none }, joining again session)
    | none => some (cells, clearing again)
  | joining again _ => some (cells, clearing again)
  | clearing again =>
    let status : MountStatus := ⟨.unmounted, none, true⟩
    some ({ cells with status := status }, announcing again status)
  | announcing again status =>
    some ({ cells with events := cells.events ++ [status] },
      if again then checking else returned (.ok status))
  | returned _ | dropped => none

/-- The next step of a call when it fails: the four places with a `?`. -/
def fail (reason : String) : MountCall → Option MountCall
  | rebuilding | adapting | spawning | joining _ _ => some (returned (.error reason))
  | _ => none

/-- The call is at an `await`, where it can be dropped. -/
def awaits : MountCall → Bool
  | rebuilding | joining _ _ => true
  | _ => false

def holds : MountCall → Option BackgroundSession
  | notifying session | storing session | joining _ session => some session
  | _ => none

/-- From the check that found no session to the status `Mounted`. -/
def entering : MountCall → Bool
  | starting | rebuilding | adapting | spawning | notifying _ | storing _ | settling => true
  | _ => false

/-- From the status `Unmounting` to the status `Unmounted`. -/
def exiting : MountCall → Bool
  | forgetting _ | taking _ | joining _ _ | clearing _ => true
  | _ => false

def busy (call : MountCall) : Bool := call.entering || call.exiting

def inProgress : MountCall → Bool
  | returned _ | dropped => false
  | _ => true

end MountCall

/-- The cells, the sessions that a task joins for a dropped call, those whose unmount failed
without ending them, and all calls. -/
structure Mounts where
  cells : MountCells
  detached : List BackgroundSession
  lost : List BackgroundSession
  calls : List MountCall

inductive MountStep where
  | start (action : MountAction)
  | advance (i : Nat)
  | fail (i : Nat) (reason : String) (gone : Bool)
  | drop (i : Nat)
  | joined (session : BackgroundSession) (gone : Bool)

/-- A daemon that has just started. -/
def Mounts.fresh : Mounts := ⟨⟨⟨.unmounted, none, true⟩, none, none, [], 0⟩, [], [], []⟩

def mountCalls (point : String) : Machine Mounts MountStep where
  init s := s = .fresh
  step s
    | .start action => some { s with calls := s.calls ++ [action.entry] }
    | .advance i => do
        let call ← s.calls[i]?
        let next ← call.advance point s.cells
        some { s with cells := next.1, calls := s.calls.set i next.2 }
    | .fail i reason gone => do
        let call ← s.calls[i]?
        let next ← call.fail reason
        some
          { s with
            calls := s.calls.set i next
            lost := if gone then s.lost else call.holds.toList ++ s.lost }
    | .drop i => do
        let call ← s.calls[i]?
        if call.awaits then
          some
            { s with
              calls := s.calls.set i .dropped
              detached := call.holds.toList ++ s.detached }
        else none
    | .joined session gone =>
      if session ∈ s.detached then
        some
          { s with
            detached := s.detached.erase session
            lost := if gone then s.lost else session :: s.lost }
      else none

/-- Something owns the session, or its unmount failed. -/
def Mounts.Alive (s : Mounts) (session : BackgroundSession) : Prop :=
  s.cells.session = some session ∨ (∃ call ∈ s.calls, call.holds = some session) ∨
    session ∈ s.detached ++ s.lost

structure MountCells.Agree (cells : MountCells) : Prop where
  mounted : cells.status.state = .mounted ↔ cells.session.isSome = true
  unmounted : cells.status.state = .unmounted ↔ cells.session = none

/-! ## Calls that do not disturb each other -/

/-- The call may go on: a `mount` that found no session only while nobody else is in
the middle of something, an `unmount` only while no `mount` is. -/
def Mounts.Free (s : Mounts) : MountCall → Prop
  | .checking => s.cells.session.isSome = true ∨ ∀ call ∈ s.calls, call.busy = false
  | .leaving _ => ∀ call ∈ s.calls, call.entering = false
  | _ => True

instance (s : Mounts) : ∀ call, Decidable (s.Free call)
  | .checking =>
    inferInstanceAs (Decidable
      (s.cells.session.isSome = true ∨ ∀ call ∈ s.calls, call.busy = false))
  | .leaving _ => inferInstanceAs (Decidable (∀ call ∈ s.calls, call.entering = false))
  | .reporting | .starting | .rebuilding | .adapting | .spawning | .notifying _ | .storing _
  | .settling | .forgetting _ | .taking _ | .joining _ _ | .clearing _ | .announcing _ _
  | .returned _ | .dropped => inferInstanceAs (Decidable True)

/-- Nothing fails, no call is dropped, and calls wait for each other. -/
def Undisturbed (s : Mounts) : MountStep → Prop
  | .start _ | .joined _ _ => True
  | .advance i => ∀ call ∈ s.calls[i]?, s.Free call
  | .fail _ _ _ | .drop _ => False

instance (s : Mounts) : ∀ a, Decidable (Undisturbed s a)
  | .start _ | .joined _ _ => inferInstanceAs (Decidable True)
  | .advance i => inferInstanceAs (Decidable (∀ call ∈ s.calls[i]?, s.Free call))
  | .fail _ _ _ | .drop _ => inferInstanceAs (Decidable False)

/-! ## The invariant -/

/-- What a call in the middle of something relies on. -/
def MountCall.Fits (session : Option BackgroundSession) : MountCall → Prop
  | .starting | .rebuilding | .adapting | .spawning | .notifying _ | .storing _ | .joining _ _
  | .clearing _ => session = none
  | .settling => session.isSome = true
  | _ => True

variable {call next : MountCall} {s : Mounts} {i j : Nat} {cells : MountCells}

theorem MountCall.fits_of_idle (h : call.busy = false) (session : Option BackgroundSession) :
    call.Fits session := by
  cases call with
  | checking | reporting | leaving | forgetting | taking | announcing | returned | dropped =>
    trivial
  | _ => cases h

theorem MountCall.holds_none_of_idle (h : call.busy = false) : call.holds = none := by
  cases call with
  | notifying | storing | joining => cases h
  | _ => rfl

/-- A call that owns a session relies on there being none in the cell. -/
theorem MountCall.Fits.none_of_holds {session : Option BackgroundSession} (h : call.Fits session)
    {x : BackgroundSession} (hholds : call.holds = some x) : session = none := by
  cases call with
  | notifying | storing | joining => exact h
  | _ => cases hholds

structure Mounts.Inv (s : Mounts) : Prop where
  fits : ∀ call ∈ s.calls, call.Fits s.cells.session
  alone : ∀ (i j : Nat) (call other : MountCall), s.calls[i]? = some call →
    s.calls[j]? = some other → call.entering = true → other.busy = true → i = j
  one : ∀ call ∈ s.calls, ∀ other ∈ s.calls, ∀ x y : BackgroundSession, call.holds = some x →
    other.holds = some y → x = y
  idle : (∀ call ∈ s.calls, call.busy = false) → s.cells.Agree
  lost : s.detached ++ s.lost = []

theorem Mounts.Inv.fresh : Mounts.fresh.Inv :=
  ⟨by simp [Mounts.fresh], by simp [Mounts.fresh], by simp [Mounts.fresh],
    fun _ => ⟨by simp [Mounts.fresh], by simp [Mounts.fresh]⟩, rfl⟩

theorem Mounts.Inv.alive_unique (h : s.Inv) {x y : BackgroundSession} (hx : s.Alive x)
    (hy : s.Alive y) : x = y := by
  rcases hx with hx | ⟨c, hc, hx⟩ | hx
  · rcases hy with hy | ⟨d, hd, hy⟩ | hy
    · rw [hx] at hy
      cases hy
      rfl
    · rw [(h.fits d hd).none_of_holds hy] at hx
      cases hx
    · rw [h.lost] at hy
      cases hy
  · rcases hy with hy | ⟨d, hd, hy⟩ | hy
    · rw [(h.fits c hc).none_of_holds hx] at hy
      cases hy
    · exact h.one c hc d hd x y hx hy
    · rw [h.lost] at hy
      cases hy
  · rw [h.lost] at hx
    cases hx

theorem getElem?_of_set {α : Type} {l : List α} {a b : α} (h : (l.set i a)[j]? = some b) :
    (j = i ∧ b = a) ∨ (j ≠ i ∧ l[j]? = some b) := by
  rw [List.getElem?_set] at h
  split_ifs at h with hij hlt
  · cases h
    exact .inl ⟨hij.symm, rfl⟩
  · exact .inr ⟨fun hji => hij hji.symm, h⟩

/-- **One call moves.** What its next stage needs, what it leaves to the others and
what it owns, and the invariant is kept. -/
theorem Mounts.Inv.move (h : s.Inv) (hat : s.calls[i]? = some call)
    (hfits : next.Fits cells.session) (hothers : ∀ j other, j ≠ i → s.calls[j]? = some other →
      other.Fits s.cells.session → other.Fits cells.session) (hentering : next.entering = true →
      call.entering = true ∨ ∀ other ∈ s.calls, other.busy = false)
    (hexiting : next.exiting = true →
      call.exiting = true ∨ ∀ other ∈ s.calls, other.entering = false)
    (hholds : ∀ x, next.holds = some x → call.holds = some x ∨
      ∀ j other, j ≠ i → s.calls[j]? = some other → other.holds = none)
    (hidle : next.busy = false → cells.Agree ∨
      (call.busy = false ∧ cells.status = s.cells.status ∧ cells.session = s.cells.session)) :
    Mounts.Inv { s with cells := cells, calls := s.calls.set i next } := by
  have hmem : ∀ {j other}, s.calls[j]? = some other → other ∈ s.calls := List.mem_of_getElem?
  refine ⟨?_, ?_, ?_, ?_, h.lost⟩
  · intro c hc
    obtain ⟨j, hj⟩ := List.getElem?_of_mem hc
    rcases getElem?_of_set hj with ⟨-, rfl⟩ | ⟨hne, hj⟩
    · exact hfits
    · exact hothers j c hne hj (h.fits c (hmem hj))
  -- of two calls that exclude each other at most one has moved
  · intro j k c d hj hk hc hd
    rcases getElem?_of_set hj with ⟨rfl, rfl⟩ | ⟨hji, hcalls⟩
    · rcases getElem?_of_set hk with ⟨rfl, -⟩ | ⟨hki, hk⟩
      · rfl
      · rcases hentering hc with hcall | hnobody
        · exact h.alone j k call d hat hk hcall hd
        · rw [hnobody d (hmem hk)] at hd
          cases hd
    · rcases getElem?_of_set hk with ⟨rfl, rfl⟩ | ⟨hki, hk⟩
      · rcases Bool.or_eq_true_iff.mp hd with hd | hd
        · rcases hentering hd with hcall | hnobody
          · exact h.alone j k c call hcalls hat hc (by simp [MountCall.busy, hcall])
          · have hquiet := hnobody c (hmem hcalls)
            simp [MountCall.busy, hc] at hquiet
        · rcases hexiting hd with hcall | hnobody
          · exact h.alone j k c call hcalls hat hc (by simp [MountCall.busy, hcall])
          · rw [hnobody c (hmem hcalls)] at hc
            cases hc
      · exact h.alone j k c d hcalls hk hc hd
  · intro c hc d hd x y hx hy
    obtain ⟨j, hj⟩ := List.getElem?_of_mem hc
    obtain ⟨k, hk⟩ := List.getElem?_of_mem hd
    rcases getElem?_of_set hj with ⟨-, rfl⟩ | ⟨hji, hcalls⟩
    · rcases getElem?_of_set hk with ⟨-, rfl⟩ | ⟨hki, hk⟩
      · rw [hx] at hy
        cases hy
        rfl
      · rcases hholds x hx with hcall | hnobody
        · exact h.one call (hmem hat) d (hmem hk) x y hcall hy
        · rw [hnobody k d hki hk] at hy
          cases hy
    · rcases getElem?_of_set hk with ⟨-, rfl⟩ | ⟨hki, hk⟩
      · rcases hholds y hy with hcall | hnobody
        · exact h.one c (hmem hcalls) call (hmem hat) x y hx hcall
        · rw [hnobody j c hji hcalls] at hx
          cases hx
      · exact h.one c (hmem hcalls) d (hmem hk) x y hx hy
  -- with nobody busy, the move has settled the cells or was none
  · intro hquiet
    have hlt : i < s.calls.length := (List.getElem?_eq_some_iff.mp hat).1
    rcases hidle (hquiet next (List.mem_set hlt next)) with hagree | ⟨hcall, hstatus, hsession⟩
    · exact hagree
    · have hbefore : s.cells.Agree := by
        apply h.idle
        intro c hc
        obtain ⟨j, hj⟩ := List.getElem?_of_mem hc
        by_cases hji : j = i
        · rw [hji, hat] at hj
          cases hj
          exact hcall
        · apply hquiet c
          apply List.mem_of_getElem?
          rw [List.getElem?_set_ne (Ne.symm hji)]
          exact hj
      constructor
      · rw [hstatus, hsession]
        exact hbefore.mounted
      · rw [hstatus, hsession]
        exact hbefore.unmounted

/-- A step within a call that keeps the session and stays in the middle of the same
thing. -/
theorem Mounts.Inv.proceed (h : s.Inv) (hat : s.calls[i]? = some call)
    (hsession : cells.session = s.cells.session) (hfits : next.Fits s.cells.session)
    (hentering : next.entering = call.entering) (hexiting : next.exiting = call.exiting)
    (hbusy : call.busy = true) (hholds : ∀ x, next.holds = some x → call.holds = some x ∨
      ∀ j other, j ≠ i → s.calls[j]? = some other → other.holds = none) :
    Mounts.Inv { s with cells := cells, calls := s.calls.set i next } := by
  refine h.move hat (by rw [hsession]; exact hfits) ?_ ?_ ?_ hholds ?_
  · intro j other _ _ hother
    rw [hsession]
    exact hother
  · intro hnext
    exact .inl (hentering ▸ hnext)
  · intro hnext
    exact .inl (hexiting ▸ hnext)
  · intro hidle
    unfold MountCall.busy at hidle hbusy
    rw [hentering, hexiting, hbusy] at hidle
    cases hidle

theorem Mounts.Inv.rest (h : s.Inv) (hat : s.calls[i]? = some call) (hcall : call.busy = false)
    (hnext : next.busy = false) (hstatus : cells.status = s.cells.status)
    (hsession : cells.session = s.cells.session) :
    Mounts.Inv { s with cells := cells, calls := s.calls.set i next } := by
  obtain ⟨hentering, hexiting⟩ := Bool.or_eq_false_iff.mp hnext
  refine h.move hat (MountCall.fits_of_idle hnext _) ?_ ?_ ?_ ?_
    (fun _ => .inr ⟨hcall, hstatus, hsession⟩)
  · intro j other _ _ hother
    rw [hsession]
    exact hother
  · intro hyes
    rw [hentering] at hyes
    cases hyes
  · intro hyes
    rw [hexiting] at hyes
    cases hyes
  · intro x hx
    rw [MountCall.holds_none_of_idle hnext] at hx
    cases hx

theorem Mounts.Inv.others_idle (h : s.Inv) (hat : s.calls[i]? = some call)
    (hcall : call.entering = true) {other : MountCall} (hne : j ≠ i)
    (hother : s.calls[j]? = some other) : other.busy = false := by
  by_contra hbusy
  exact hne (h.alone i j call other hat hother hcall (by simpa using hbusy)).symm

theorem Mounts.Inv.advance (h : s.Inv) {point : String} (hat : s.calls[i]? = some call)
    (hfree : s.Free call) (hstep : call.advance point s.cells = some (cells, next)) :
    Mounts.Inv { s with cells := cells, calls := s.calls.set i next } := by
  have hfits := h.fits call (List.mem_of_getElem? hat)
  cases call with
  | checking =>
    cases hstep
    by_cases hheld : s.cells.session.isSome = true
    · rw [if_pos hheld]
      exact h.rest hat rfl rfl rfl rfl
    · rw [if_neg hheld]
      refine h.move hat ?_ (fun _ _ _ _ hother => hother) (fun _ => .inr ?_)
        (by simp [MountCall.exiting]) (by simp [MountCall.holds]) (fun hidle => by cases hidle)
      · simpa [MountCall.Fits] using hheld
      · exact hfree.resolve_left hheld
  | reporting =>
    cases hstep
    exact h.rest hat rfl rfl rfl rfl
  | starting | rebuilding | adapting | joining again session =>
    cases hstep
    exact h.proceed hat rfl hfits rfl rfl rfl (by simp [MountCall.holds])
  -- the one step that makes a session, while every other call is idle
  | spawning =>
    cases hstep
    refine h.proceed hat rfl hfits rfl rfl rfl (fun _ _ => .inr ?_)
    intro j other hne hother
    exact MountCall.holds_none_of_idle (h.others_idle hat rfl hne hother)
  | notifying session =>
    cases hstep
    exact h.proceed hat rfl hfits rfl rfl rfl (fun _ hx => .inl hx)
  | storing session =>
    cases hstep
    refine h.move hat rfl ?_ (fun _ => .inl rfl) (by simp [MountCall.exiting])
      (by simp [MountCall.holds]) (fun hidle => by cases hidle)
    intro j other hne hother _
    exact MountCall.fits_of_idle (h.others_idle hat rfl hne hother) _
  | settling =>
    cases hstep
    refine h.move hat trivial (fun _ _ _ _ hother => hother) (by simp [MountCall.entering])
      (by simp [MountCall.exiting]) (by simp [MountCall.holds]) (fun _ => .inl ⟨?_, ?_⟩)
    · have hheld : s.cells.session.isSome = true := hfits
      simp [hheld]
    · have hheld : s.cells.session.isSome = true := hfits
      simpa using Option.isSome_iff_ne_none.mp hheld
  | leaving again =>
    cases hstep
    exact h.move hat trivial (fun _ _ _ _ hother => hother) (by simp [MountCall.entering])
      (fun _ => .inr hfree) (by simp [MountCall.holds]) (fun hidle => by cases hidle)
  | forgetting again =>
    cases hstep
    exact h.proceed hat rfl trivial rfl rfl rfl (by simp [MountCall.holds])
  | taking again =>
    cases hsession : s.cells.session with
    | none =>
      simp only [MountCall.advance, hsession, Option.some.injEq, Prod.mk.injEq] at hstep
      obtain ⟨rfl, rfl⟩ := hstep
      exact h.proceed hat rfl hsession rfl rfl rfl (by simp [MountCall.holds])
    | some session =>
      simp only [MountCall.advance, hsession, Option.some.injEq, Prod.mk.injEq] at hstep
      obtain ⟨rfl, rfl⟩ := hstep
      refine h.move hat rfl ?_ (by simp [MountCall.entering]) (fun _ => .inl rfl)
        (fun _ _ => .inr ?_) (fun hidle => by cases hidle)
      · intro j other hne hother hfits
        cases other with
        | settling => exact absurd (h.alone j i _ _ hother hat rfl rfl) hne
        | starting | rebuilding | adapting | spawning | notifying | storing | joining | clearing =>
          rfl
        | _ => trivial
      · intro j other hne hother
        cases hholds : other.holds with
        | none => rfl
        | some x =>
          have hnone := (h.fits other (List.mem_of_getElem? hother)).none_of_holds hholds
          rw [hsession] at hnone
          cases hnone
  | clearing again =>
    cases hstep
    refine h.move hat trivial (fun _ _ _ _ hother => hother) (by simp [MountCall.entering])
      (by simp [MountCall.exiting]) (by simp [MountCall.holds]) (fun _ => .inl ⟨?_, ?_⟩)
    · have hnone : s.cells.session = none := hfits
      simp [hnone]
    · have hnone : s.cells.session = none := hfits
      simp [hnone]
  | announcing again status =>
    cases hstep
    cases again with
    | true | false =>
      exact h.rest hat rfl rfl rfl rfl
  | returned | dropped => cases hstep

theorem MountAction.entry_idle (action : MountAction) : action.entry.busy = false := by
  cases action with
  | mount | unmount | remount => rfl

theorem Mounts.Inv.start (h : s.Inv) (action : MountAction) :
    Mounts.Inv { s with calls := s.calls ++ [action.entry] } := by
  have hentry := action.entry_idle
  have hholds := MountCall.holds_none_of_idle hentry
  refine ⟨?_, ?_, ?_, ?_, h.lost⟩
  · intro c hc
    rcases List.mem_append.mp hc with hc | hc
    · exact h.fits c hc
    · rw [List.mem_singleton.mp hc]
      exact MountCall.fits_of_idle hentry _
  · intro j k c d hj hk hc hd
    rcases getElem?_concat hj with hj | ⟨-, rfl⟩
    · rcases getElem?_concat hk with hk | ⟨-, rfl⟩
      · exact h.alone j k c d hj hk hc hd
      · rw [hentry] at hd
        cases hd
    · rw [(Bool.or_eq_false_iff.mp hentry).1] at hc
      cases hc
  · intro c hc d hd x y hx hy
    rcases List.mem_append.mp hc with hc | hc
    · rcases List.mem_append.mp hd with hd | hd
      · exact h.one c hc d hd x y hx hy
      · rw [List.mem_singleton.mp hd, hholds] at hy
        cases hy
    · rw [List.mem_singleton.mp hc, hholds] at hx
      cases hx
  · intro hquiet
    exact h.idle fun c hc => hquiet c (List.mem_append_left _ hc)

theorem Mounts.Inv.step {point : String} {s' : Mounts} {a : MountStep} (h : s.Inv)
    (hok : Undisturbed s a) (hstep : (mountCalls point).step s a = some s') : s'.Inv := by
  cases a with
  | start action =>
    cases hstep
    exact h.start action
  | advance i =>
    obtain ⟨call, hat, hstep⟩ := Option.bind_eq_some_iff.mp hstep
    obtain ⟨next, hnext, hstep⟩ := Option.bind_eq_some_iff.mp hstep
    cases hstep
    exact h.advance hat (hok call hat) hnext
  | fail | drop => exact hok.elim
  | joined session gone =>
    obtain ⟨hdetached, -⟩ := List.append_eq_nil_iff.mp h.lost
    change (if session ∈ s.detached then _ else _) = _ at hstep
    rw [hdetached, if_neg List.not_mem_nil] at hstep
    cases hstep

/-- **The mount state machine.** As long as nothing fails, no call is dropped, no `mount` gets
past its check while another call is in the middle of something and no `unmount` starts while a
`mount` is, the status agrees with the session whenever all calls have returned, and
there are never two sessions. -/
theorem mount_state_agrees {point : String} {s : Mounts}
    (h : (mountCalls point).Reach Undisturbed s) :
    ((∀ call ∈ s.calls, call.inProgress = false) → s.cells.Agree) ∧
      ∀ x y, s.Alive x → s.Alive y → x = y := by
  have hinv : s.Inv := by
    refine Machine.Reach.invariant ?_ (fun s a s' hinv hok hstep => hinv.step hok hstep) h
    rintro s rfl
    exact Mounts.Inv.fresh
  refine ⟨?_, fun x y hx hy => hinv.alive_unique hx hy⟩
  intro hreturned
  apply hinv.idle
  intro call hcall
  have hdone := hreturned call hcall
  cases call with
  | returned | dropped => rfl
  | _ => cases hdone

/-- A mount, then a remount with an unmount in between. -/
def politeCalls : List MountStep :=
  [MountStep.start .mount] ++ List.replicate 9 (MountStep.advance 0) ++
    [MountStep.start .remount, .start .unmount] ++
    [MountStep.advance 1, .advance 2, .advance 1, .advance 2, .advance 1, .advance 2, .advance 2] ++
    List.replicate 12 (MountStep.advance 1) ++ [MountStep.advance 2]

theorem politeCalls_agree : ∃ s,
    (mountCalls "/m").exec .fresh politeCalls = some s ∧
    s.cells.session = some 1 ∧ s.cells.Agree ∧ ∀ x y, s.Alive x → s.Alive y → x = y := by
  have hok : (mountCalls "/m").AllSteps Undisturbed .fresh politeCalls := by decide +kernel
  have hrun : ∃ s ∈ (mountCalls "/m").exec .fresh politeCalls,
      s.cells.session = some 1 ∧ ∀ call ∈ s.calls, call.inProgress = false := by
    decide +kernel
  obtain ⟨s, hmem, hsession, hreturned⟩ := hrun
  have hrun := Option.mem_def.mp hmem
  obtain ⟨hagree, hone⟩ := mount_state_agrees (Machine.reach_of_exec (.init rfl) hok hrun)
  exact ⟨s, hrun, hsession, hagree hreturned, hone⟩

/-! ## Calls that do -/

/-- A rebuild that fails leaves `Mounting` behind. -/
def failedMount : List MountStep :=
  [.start .mount, .advance 0, .advance 0, .fail 0 "rebuild" true]

/-- A client that goes while the namespace is rebuilt leaves it behind too. -/
def droppedMount : List MountStep := [.start .mount, .advance 0, .advance 0, .drop 0]

/-- A `mount` after the drop of an `unmount` that waited for its session to be joined. -/
def mountWhileJoined : List MountStep :=
  [MountStep.start .mount] ++ List.replicate 9 (MountStep.advance 0) ++
    [MountStep.start .unmount, .advance 1, .advance 1, .advance 1, .drop 1, .start .mount] ++
    List.replicate 6 (MountStep.advance 2)

/-- Two mounts that both found no session. -/
def twoMounts : List MountStep :=
  [MountStep.start .mount, .start .mount, .advance 0, .advance 1] ++
    List.replicate 4 (MountStep.advance 0) ++ List.replicate 4 (MountStep.advance 1)

/-- A failed or dropped call leaves a status that fits nothing, and two mounts at once make two
sessions, and so does one beside the join of a dropped unmount. -/
theorem mount_state_disagrees :
    (∀ calls ∈ [failedMount, droppedMount], ∃ s, (mountCalls "/m").exec .fresh calls = some s ∧
      (∀ call ∈ s.calls, call.inProgress = false) ∧ s.cells.session = none ∧
      s.cells.status.state = .mounting ∧ ¬ s.cells.Agree) ∧
    ∀ calls ∈ [twoMounts, mountWhileJoined], ∃ s x y, (mountCalls "/m").exec .fresh calls = some s ∧
      s.Alive x ∧ s.Alive y ∧ x ≠ y := by
  constructor
  · intro calls hcalls
    have hrun : ∀ calls ∈ [failedMount, droppedMount], ∃ s ∈ (mountCalls "/m").exec .fresh calls,
        (∀ call ∈ s.calls, call.inProgress = false) ∧ s.cells.session = none ∧
        s.cells.status.state = .mounting := by
      decide +kernel
    obtain ⟨s, hmem, hreturned, hsession, hstatus⟩ := hrun calls hcalls
    refine ⟨s, hmem, hreturned, hsession, hstatus, ?_⟩
    intro hagree
    have hunmounted := hagree.unmounted.mpr hsession
    rw [hstatus] at hunmounted
    cases hunmounted
  · intro calls hcalls
    have hrun : ∀ calls ∈ [twoMounts, mountWhileJoined], ∃ s ∈ (mountCalls "/m").exec .fresh calls,
        (0 ∈ s.detached ∨ ∃ call ∈ s.calls, call.holds = some 0) ∧
        ∃ call ∈ s.calls, call.holds = some 1 := by
      decide +kernel
    obtain ⟨s, hmem, hfirst, hsecond⟩ := hrun calls hcalls
    refine ⟨s, 0, 1, hmem, Or.inr ?_, Or.inr (Or.inl hsecond), by decide⟩
    rcases hfirst with hdetached | hholds
    · exact Or.inr (List.mem_append_left _ hdetached)
    · exact Or.inl hholds

end TuxStack.Daemon
