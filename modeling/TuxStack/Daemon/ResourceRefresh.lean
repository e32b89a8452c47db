import TuxStack.Daemon.Holdings

/-!
# Refreshing a resource

`dispatch_request` of `crates/tuxstack-daemon/src/ipc.rs` acknowledges a
`PerformResourceOperation` and does nothing. The providers have a `refresh` that drops what
they hold, and the namespace one that calls it, but no request reaches them.

So a refresh has taken effect exactly when there was nothing to drop (`takesEffect_iff`): no
listing of the resource that is young enough, no snapshot and no index, none on disk either,
and no call under way that brings one from before.
-/

namespace TuxStack.Daemon

open Vfs Runs Tasks

/-! ## What a step keeps -/

/-- What a provider becomes: its kind stays, and its generation does not go back. -/
def Holdings.Follows : Holdings → Holdings → Prop
  | .helper h, .helper h' => h.generation ≤ h'.generation
  | .snapshot _, .snapshot _ => True
  | .image h, .image h' => h'.imageId = h.imageId
  | .direct, .direct => True
  | _, _ => False

theorem Holdings.Follows.refl (held : Holdings) : held.Follows held := by
  cases held with
  | helper h => exact Nat.le_refl _
  | snapshot h => trivial
  | image h => rfl
  | direct => trivial

structure Kept (core core' : DaemonCore) : Prop where
  asked : core.asked ≤ core'.asked
  now : core.now ≤ core'.now
  next : core.next ≤ core'.next
  routes : core'.routes = core.routes
  heap : ∀ x < core.next, (core.heap x).Follows (core'.heap x)

section Kept

variable {core core' : DaemonCore} {i : Nat} {task task' : DaemonTask}

theorem Kept.refl (core : DaemonCore) : Kept core core :=
  ⟨Nat.le_refl _, Nat.le_refl _, Nat.le_refl _, rfl, fun _ _ => .refl _⟩

theorem kept_ask (core : DaemonCore) : Kept core core.ask :=
  ⟨Nat.le_succ _, Nat.le_refl _, Nat.le_refl _, rfl, fun _ _ => .refl _⟩

theorem Kept.set (h : Kept core core') {x : Nat} {held : Holdings}
    (hheld : (core.heap x).Follows held) : Kept core (core'.set x held) := by
  refine ⟨h.asked, h.now, h.next, h.routes, fun y hy => ?_⟩
  change (core.heap y).Follows (Function.update core'.heap x held y)
  rw [Function.update_apply]
  split
  · next heq => exact heq ▸ hheld
  · exact h.heap y hy

theorem Took.kept (h : Took core i task core' task') : Kept core core' := by
  cases h with
  | ended | routedHelper | routedIndex | hit | missed | found | locks | indexed => exact .refl core
  | askedOnce | askFailed | asks | opened => exact kept_ask core
  | waited ticks =>
    exact ⟨Nat.le_refl _, Nat.le_add_right _ _, Nat.le_refl _, rfl, fun _ _ => .refl _⟩
  | renewed key =>
    refine ⟨Nat.le_refl _, Nat.le_refl _, Nat.le_succ _, rfl, fun y hy => ?_⟩
    change (core.heap y).Follows (Function.update core.heap core.next _ y)
    rw [Function.update_of_ne (Nat.ne_of_lt hy)]
    exact .refl _
  | raised hx => exact (Kept.refl core).set (by rw [hx]; exact Nat.le_succ _)
  | stored _ hx | cleared hx => exact (Kept.refl core).set (by rw [hx]; exact Nat.le_refl _)
  | exports _ hx _ => exact (kept_ask core).set (by rw [hx]; trivial)
  | captured _ hx | captureFailed _ hx => exact (Kept.refl core).set (by rw [hx]; trivial)
  | loaded _ hx _ _ _ | buildFailed _ hx => exact (Kept.refl core).set (by rw [hx]; rfl)
  | builds _ hx _ _ => exact (kept_ask core).set (by rw [hx]; rfl)
  | @built x fetched imageId held _ hx =>
    have hset : Kept core
        (core.set x (.image { held with indexLock := none, index := some fetched })) :=
      (Kept.refl core).set (by rw [hx]; rfl)
    exact { hset with }

end Kept

/-! ## Everything held was asked for before -/

def Holdings.Before (asked : Nat) : Holdings → Prop
  | .helper h => ∀ path hit, h.directories path = some hit →
      hit.fetched < asked ∧ hit.generation ≤ h.generation
  | .snapshot h => ∀ fetched, h.state = some fetched → fetched < asked
  | .image h => ∀ fetched, h.index = some fetched → fetched < asked ∧ h.indexLock = none
  | .direct => True

theorem Holdings.Before.mono {asked asked' : Nat} (hle : asked ≤ asked') {held : Holdings}
    (h : held.Before asked) : held.Before asked' := by
  cases held with
  | helper held =>
    exact fun path hit hhit => ⟨(h path hit hhit).1.trans_le hle, (h path hit hhit).2⟩
  | snapshot held => exact fun fetched hstate => (h fetched hstate).trans_le hle
  | image held =>
    exact fun fetched hindex => ⟨(h fetched hindex).1.trans_le hle, (h fetched hindex).2⟩
  | direct => trivial

theorem Holdings.Empty.before {held : Holdings} (h : held.Empty) (asked : Nat) :
    held.Before asked := by
  cases held with
  | helper held =>
    have hnone : held.directories = fun _ => none := h
    exact fun path hit hhit => (by cases (congrFun hnone path).symm.trans hhit)
  | snapshot held => exact fun fetched hstate => (by cases h.1.symm.trans hstate)
  | image held => exact fun fetched hindex => (by cases h.1.symm.trans hindex)
  | direct => trivial

theorem Holdings.empty_renewed (held : Holdings) : held.renewed.Empty := by
  cases held with
  | helper h => rfl
  | snapshot h => exact ⟨rfl, rfl⟩
  | image h => exact ⟨rfl, rfl⟩
  | direct => trivial

structure CoreSound (core : DaemonCore) : Prop where
  held : ∀ x, (core.heap x).Before core.asked
  disk : ∀ imageId fetched, core.disk imageId = some fetched → fetched < core.asked
  table : ∀ key, core.table key < core.next

def PhaseSound (core : DaemonCore) : DaemonPhase → Prop
  | .looking x _ generation | .missed x _ generation =>
    x < core.next ∧ ∃ h, core.heap x = .helper h ∧ generation ≤ h.generation
  | .asking x _ generation fetched =>
    x < core.next ∧ fetched < core.asked ∧
      ∃ h, core.heap x = .helper h ∧ generation ≤ h.generation
  | .reading x | .locking x | .indexing x => x < core.next
  | .exporting x fetched =>
    x < core.next ∧ fetched < core.asked ∧ ∃ h, core.heap x = .snapshot h
  | .building x imageId fetched =>
    x < core.next ∧ fetched < core.asked ∧ ∃ h, core.heap x = .image h ∧ h.imageId = imageId
  | .opening fetched => fetched < core.asked
  | .called | .clearing _ | .returned _ => True

section Sound

variable {core core' : DaemonCore} {i : Nat} {task task' : DaemonTask}

theorem CoreSound.ask (h : CoreSound core) : CoreSound core.ask where
  held x := (h.held x).mono (Nat.le_succ _)
  disk imageId fetched hdisk := Nat.lt_succ_of_lt (h.disk imageId fetched hdisk)
  table := h.table

variable {x : Nat}

theorem CoreSound.set (h : CoreSound core) {held : Holdings} (hheld : held.Before core.asked) :
    CoreSound (core.set x held) where
  held y := by
    change Holdings.Before core.asked (Function.update core.heap x held y)
    rw [Function.update_apply]
    split
    · exact hheld
    · exact h.held y
  disk := h.disk
  table := h.table

section Follows

variable {held held' : Holdings}

theorem Holdings.Follows.helper (h : held.Follows held') {generation : Nat} :
    (∃ a, held = .helper a ∧ generation ≤ a.generation) →
      ∃ b, held' = .helper b ∧ generation ≤ b.generation := by
  rintro ⟨a, rfl, hle⟩
  cases held' with
  | helper b => exact ⟨b, rfl, hle.trans h⟩
  | snapshot | image | direct => exact h.elim

theorem Holdings.Follows.snapshot (h : held.Follows held') :
    (∃ a, held = .snapshot a) → ∃ b, held' = .snapshot b := by
  rintro ⟨a, rfl⟩
  cases held' with
  | snapshot b => exact ⟨b, rfl⟩
  | helper | image | direct => exact h.elim

theorem Holdings.Follows.image (h : held.Follows held') {imageId : String} :
    (∃ a, held = .image a ∧ a.imageId = imageId) → ∃ b, held' = .image b ∧ b.imageId = imageId := by
  rintro ⟨a, rfl, hid⟩
  cases held' with
  | image b => exact ⟨b, rfl, Eq.trans h hid⟩
  | helper | snapshot | direct => exact h.elim

end Follows

theorem PhaseSound.kept (hkept : Kept core core') {phase : DaemonPhase}
    (h : PhaseSound core phase) : PhaseSound core' phase := by
  cases phase with
  | called | clearing | returned => trivial
  | looking x path generation | missed x path generation =>
    exact ⟨h.1.trans_le hkept.next, (hkept.heap x h.1).helper h.2⟩
  | asking x path generation fetched =>
    exact ⟨h.1.trans_le hkept.next, h.2.1.trans_le hkept.asked, (hkept.heap x h.1).helper h.2.2⟩
  | reading x | locking x | indexing x => exact Nat.lt_of_lt_of_le h hkept.next
  | exporting x fetched =>
    exact ⟨h.1.trans_le hkept.next, h.2.1.trans_le hkept.asked, (hkept.heap x h.1).snapshot h.2.2⟩
  | building x imageId fetched =>
    exact ⟨h.1.trans_le hkept.next, h.2.1.trans_le hkept.asked, (hkept.heap x h.1).image h.2.2⟩
  | opening fetched => exact Nat.lt_of_lt_of_le h hkept.asked

theorem phaseSound_serve {fetched : Nat} (h : fetched < core.asked) :
    PhaseSound core (task.serve fetched).phase := by
  unfold DaemonTask.serve
  split
  · exact h
  · trivial

theorem CoreSound.before (h : CoreSound core) {held : Holdings} (hx : core.heap x = held) :
    held.Before core.asked :=
  hx ▸ h.held x

theorem CoreSound.renewed (h : CoreSound core) (key : String) :
    CoreSound { core.set core.next (core.heap (core.table key)).renewed with
      table := Function.update core.table key core.next
      next := core.next + 1 } := by
  have hset := h.set (x := core.next)
    ((Holdings.empty_renewed (core.heap (core.table key))).before core.asked)
  exact ⟨hset.held, hset.disk, (Function.forall_update_iff _ fun _ x => x < core.next + 1).mpr
    ⟨Nat.lt_succ_self _, fun key' _ => Nat.lt_succ_of_lt (h.table key')⟩⟩

theorem CoreSound.stored (h : CoreSound core) {held : HelperHoldings} {path : VirtualPath}
    {generation fetched : Nat} (hx : core.heap x = .helper held)
    (hphase : PhaseSound core (.asking x path generation fetched)) :
    CoreSound (core.set x (.helper
      { held with
        directories :=
          Function.update held.directories path (some ⟨generation, core.now, fetched⟩) })) := by
  obtain ⟨-, hfetched, held', hheld', hle⟩ := hphase
  cases hx.symm.trans hheld'
  refine h.set ((Function.forall_update_iff _ fun _ (entry : Option HeldListing) =>
    ∀ hit, entry = some hit → hit.fetched < core.asked ∧ hit.generation ≤ held.generation).mpr
      ⟨fun hit hhit => ?_, fun path' _ => h.before hx path'⟩)
  cases hhit
  exact ⟨hfetched, hle⟩

theorem CoreSound.built (h : CoreSound core) {held : ImageHoldings} {imageId : String}
    {fetched : Nat} (hfetched : fetched < core.asked) :
    CoreSound
      { core.set x (.image { held with indexLock := none, index := some fetched }) with
        disk := Function.update core.disk imageId (some fetched) } := by
  have hset : CoreSound
      (core.set x (.image { held with indexLock := none, index := some fetched })) :=
    h.set fun fetched' hindex => by
      cases hindex
      exact ⟨hfetched, rfl⟩
  refine ⟨hset.held, (Function.forall_update_iff _ fun _ (entry : Option Nat) =>
    ∀ fetched', entry = some fetched' → fetched' < core.asked).mpr
      ⟨fun fetched' hdisk => ?_, fun id _ => h.disk id⟩, hset.table⟩
  cases hdisk
  exact hfetched

theorem Took.sound (hcore : CoreSound core) (hphase : PhaseSound core task.phase)
    (h : Took core i task core' task') : CoreSound core' ∧ PhaseSound core' task'.phase := by
  cases h with
  | ended | hit => exact ⟨hcore, trivial⟩
  | waited ticks => exact ⟨{ hcore with }, trivial⟩
  | renewed key => exact ⟨hcore.renewed key, trivial⟩
  | askedOnce | askFailed | opened => exact ⟨hcore.ask, trivial⟩
  -- the helper of a volume or of a container, by its listings
  | raised hx =>
    refine ⟨hcore.set fun path hit hhit => ?_, trivial⟩
    have hbefore := hcore.before hx path hit hhit
    exact ⟨hbefore.1, Nat.le_succ_of_le hbefore.2⟩
  | cleared => exact ⟨hcore.set fun path hit hhit => (by cases hhit), trivial⟩
  | @routedHelper resource route path inner key held _ _ _ hx =>
    exact ⟨hcore, hcore.table key, held, hx, Nat.le_refl _⟩
  | missed hlooking =>
    rw [hlooking] at hphase
    exact ⟨hcore, hphase⟩
  | asks hmissed =>
    rw [hmissed] at hphase
    exact ⟨hcore.ask, hphase.1, Nat.lt_succ_self _, hphase.2⟩
  | stored hasking hx => exact ⟨hcore.stored hx (hasking ▸ hphase), trivial⟩
  -- the snapshot of a container
  | @routedIndex resource route path inner key phase _ _ _ hto =>
    rcases hto with rfl | rfl
    · exact ⟨hcore, hcore.table key⟩
    · exact ⟨hcore, hcore.table key⟩
  | found _ hx hstate => exact ⟨hcore, phaseSound_serve (hcore.before hx _ hstate)⟩
  | locks hreading =>
    rw [hreading] at hphase
    exact ⟨hcore, hphase⟩
  | @exports x held hlocking hx hstate =>
    rw [hlocking] at hphase
    refine ⟨hcore.ask.set fun fetched hfetched => ?_, hphase, Nat.lt_succ_self _,
      { held with captureLock := some i }, Function.update_self ..⟩
    cases hstate.symm.trans hfetched
  | captured hexporting hx =>
    rw [hexporting] at hphase
    refine ⟨hcore.set fun fetched hfetched => ?_, phaseSound_serve hphase.2.1⟩
    cases hfetched
    exact hphase.2.1
  | captureFailed _ hx =>
    exact ⟨hcore.set fun fetched hfetched => hcore.before hx fetched hfetched, trivial⟩
  -- the index of an image
  | indexed _ hx hindex => exact ⟨hcore, phaseSound_serve (hcore.before hx _ hindex).1⟩
  | loaded _ hx hlock _ hdisk =>
    have hfetched := hcore.disk _ _ hdisk
    refine ⟨hcore.set fun fetched' hindex => ?_, phaseSound_serve hfetched⟩
    cases hindex
    exact ⟨hfetched, hlock⟩
  | @builds x held hindexing hx _ hindex =>
    rw [hindexing] at hphase
    refine ⟨hcore.ask.set fun fetched hfetched => ?_, hphase, Nat.lt_succ_self _,
      { held with indexLock := some i }, Function.update_self .., rfl⟩
    cases hindex.symm.trans hfetched
  | built hbuilding =>
    rw [hbuilding] at hphase
    exact ⟨hcore.built hphase.2.1, phaseSound_serve hphase.2.1⟩
  | buildFailed _ hx =>
    exact ⟨hcore.set fun fetched hfetched => ⟨(hcore.before hx fetched hfetched).1, rfl⟩,
      trivial⟩

end Sound

/-! ## Runs -/

/-- The daemon, from a start on. -/
abbrev daemonRuns : Machine (Pool DaemonCore DaemonTask) (Action DaemonCall Bool) :=
  daemon.machine DaemonCore.Init

/-- States that the daemon reaches. -/
abbrev Reached (s : Pool DaemonCore DaemonTask) : Prop := daemonRuns.Reach (fun _ _ => True) s

/-- **In every run**, everything held and everything under way was asked for before. -/
theorem sound_of_reached {s : Pool DaemonCore DaemonTask} (h : Reached s) :
    CoreSound s.core ∧ ∀ i t, s.tasks i = some t → PhaseSound s.core t.phase := by
  refine Program.reach_invariant (T := fun core _ t => PhaseSound core t.phase) ?_ ?_ ?_ ?_ h
  · rintro core ⟨hempty, htable, hdisk⟩
    exact ⟨fun x => (hempty x).before core.asked, hdisk, htable⟩
  · exact fun _ _ _ _ => trivial
  · exact fun core core' i t t' good hcore hphase hstep =>
    (advance_took hstep).sound hcore hphase
  · exact fun core core' i t t' good j u _ _ hu _ hstep =>
    PhaseSound.kept (advance_took hstep).kept hu

section Locks

variable {core core' : DaemonCore} {i : Nat} {task task' : DaemonTask}

theorem Took.locked (h : Took core i task core' task') {x k : Nat} {held' : ImageHoldings}
    (hx : core'.heap x = .image held') (hlock : held'.indexLock = some k) :
    (∃ held, core.heap x = .image held ∧ held.indexLock = some k ∧
      held.imageId = held'.imageId) ∨
    k = i ∧ ∃ fetched, task' = task.goto (.building x held'.imageId fetched) := by
  have hsame : core'.heap x = core.heap x → ∃ held, core.heap x = .image held ∧
      held.indexLock = some k ∧ held.imageId = held'.imageId := fun heq =>
    ⟨held', heq ▸ hx, hlock, rfl⟩
  have hother : ∀ {y : Nat} {held : Holdings}, core'.heap = Function.update core.heap y held →
      (∀ h, held = .image h → h.indexLock = none) → ∃ held, core.heap x = .image held ∧
        held.indexLock = some k ∧ held.imageId = held'.imageId := by
    intro y held heap hfree
    have hx' := hx
    rw [heap, Function.update_apply] at hx'
    split at hx'
    · have hnone := hfree held' hx'
      rw [hlock] at hnone
      cases hnone
    · next hne => exact hsame (by rw [heap, Function.update_of_ne hne])
  cases h with
  | ended | routedHelper | routedIndex | hit | missed | found | locks | indexed | waited
  | askedOnce | askFailed | asks | opened => exact .inl (hsame rfl)
  | raised | stored | cleared | exports | captured | captureFailed =>
    exact .inl (hother rfl fun h heq => by cases heq)
  | renewed key =>
    refine .inl (hother rfl fun h heq => ?_)
    have hempty := Holdings.empty_renewed (core.heap (core.table key))
    rw [heq] at hempty
    exact hempty.2
  | loaded _ _ hfree _ _ =>
    refine .inl (hother rfl fun h heq => ?_)
    cases heq
    exact hfree
  | built | buildFailed =>
    refine .inl (hother rfl fun h heq => ?_)
    cases heq
    rfl
  | @builds y held _ _ _ _ =>
    change Function.update core.heap y _ x = _ at hx
    rw [Function.update_apply] at hx
    split at hx
    · next heq =>
      subst heq
      cases hx
      exact .inr ⟨(Option.some.inj hlock).symm, core.asked, rfl⟩
    · next hne => exact .inl ⟨held', hx, hlock, rfl⟩

end Locks

/-- Tasks that list or open something of a resource and were answered. -/
def Answered (resource : DockerResourceRef) (task : DaemonTask) (fetched : List Nat) : Prop :=
  task.call.reads = some resource ∧ task.phase = .returned (.answered fetched)

/-- Nothing that the provider `x` holds, or gets from a call under way, can be served for
the path. -/
def DrainedAt (s : Pool DaemonCore DaemonTask) (x : Nat) (path : VirtualPath) : Prop :=
  match s.core.heap x with
  | .helper h =>
    (∀ hit, h.directories path = some hit → hit.generation = h.generation →
      h.directoryTtl ≤ s.core.now - hit.inserted) ∧
    ∀ i call fetched, s.tasks i ≠ some ⟨call, .asking x path h.generation fetched⟩
  | .snapshot h =>
    h.state = none ∧ ∀ i call fetched, s.tasks i ≠ some ⟨call, .exporting x fetched⟩
  | .image h =>
    h.index = none ∧ s.core.disk h.imageId = none ∧
      ∀ i call y fetched, s.tasks i ≠ some ⟨call, .building y h.imageId fetched⟩
  | .direct => True

/-- Nothing is held that could be served for the resource. -/
def Drained (s : Pool DaemonCore DaemonTask) (resource : DockerResourceRef) : Prop :=
  ∀ route path key inner, s.core.routes resource = some route →
    route path = .ok (key, inner) → DrainedAt s (s.core.table key) inner

/-! ## Drained resources stay fresh -/

/-- What a provider holds for a path was asked for at `start` or later, or is not served:
it is of a generation before `g`, or too old. -/
def Holdings.Fresh (start g now : Nat) (path : VirtualPath) : Holdings → Prop
  | .helper h => g ≤ h.generation ∧ ∀ hit, h.directories path = some hit →
      start ≤ hit.fetched ∨ hit.generation < g ∨ h.directoryTtl ≤ now - hit.inserted
  | .snapshot h => ∀ fetched, h.state = some fetched → start ≤ fetched
  | .image h => ∀ fetched, h.index = some fetched → start ≤ fetched
  | .direct => True

/-- The providers and paths that are watched, the images, and the generations. -/
structure Watch where
  start : Nat
  covers : Nat → VirtualPath → Prop
  image : String → Prop
  generation : Nat → Nat

namespace Watch

variable (w : Watch)

/-- A call under way brings nothing old to what is watched. -/
def Bring : DaemonPhase → Prop
  | .asking x path generation fetched =>
    w.covers x path → w.start ≤ fetched ∨ generation < w.generation x
  | .exporting x fetched => ∀ path, w.covers x path → w.start ≤ fetched
  | .building _ imageId fetched => w.image imageId → w.start ≤ fetched
  | _ => True

/-- A call that began after the request. -/
def New : DaemonPhase → Prop
  | .looking x path generation => w.covers x path ∧ w.generation x ≤ generation
  | .reading x | .locking x | .indexing x => ∃ path, w.covers x path
  | .asking _ _ _ fetched | .exporting _ fetched | .building _ _ fetched | .opening fetched =>
    w.start ≤ fetched
  | .returned (.answered fetched) => ∀ count ∈ fetched, w.start ≤ count
  | .called | .missed .. | .clearing _ | .returned _ => True

structure Core (resource : DockerResourceRef) (core : DaemonCore) : Prop where
  asked : w.start ≤ core.asked
  routed : ∀ route path key inner, core.routes resource = some route →
    route path = .ok (key, inner) → w.covers (core.table key) inner
  allocated : ∀ x path, w.covers x path → x < core.next
  held : ∀ x path, w.covers x path → (core.heap x).Fresh w.start (w.generation x) core.now path
  images : ∀ x path h, w.covers x path → core.heap x = .image h → w.image h.imageId
  disk : ∀ imageId fetched, w.image imageId → core.disk imageId = some fetched →
    w.start ≤ fetched

variable {w} {resource : DockerResourceRef} {core core' : DaemonCore} {i : Nat}
  {task task' : DaemonTask}

theorem Core.ask (h : w.Core resource core) : w.Core resource core.ask where
  asked := Nat.le_succ_of_le h.asked
  routed := h.routed
  allocated := h.allocated
  held := h.held
  images := h.images
  disk := h.disk

variable {held : Holdings}

theorem Core.set (h : w.Core resource core) {x : Nat}
    (hfresh : ∀ path, w.covers x path → held.Fresh w.start (w.generation x) core.now path)
    (himage : ∀ path h, w.covers x path → held = .image h → w.image h.imageId) :
    w.Core resource (core.set x held) where
  asked := h.asked
  routed := h.routed
  allocated := h.allocated
  held y path hy := by
    change Holdings.Fresh w.start (w.generation y) core.now path
      (Function.update core.heap x held y)
    rw [Function.update_apply]
    split
    · next heq =>
      subst heq
      exact hfresh path hy
    · exact h.held y path hy
  images y path held' hy hheld' := by
    change Function.update core.heap x held y = .image held' at hheld'
    rw [Function.update_apply] at hheld'
    split at hheld'
    · next heq =>
      subst heq
      exact himage path held' hy hheld'
    · exact h.images y path held' hy hheld'
  disk := h.disk

variable {now start : Nat} {phase : DaemonPhase} {w' : Watch}

theorem fresh_later {g later : Nat} {path : VirtualPath} (hle : now ≤ later)
    (h : held.Fresh start g now path) : held.Fresh start g later path := by
  cases held with
  | helper held =>
    refine ⟨h.1, fun hit hhit => ?_⟩
    rcases h.2 hit hhit with hfetched | hgeneration | hold
    · exact .inl hfetched
    · exact .inr (.inl hgeneration)
    · exact .inr (.inr (hold.trans (Nat.sub_le_sub_right hle _)))
  | snapshot held => exact h
  | image held => exact h
  | direct => trivial

theorem fresh_empty {path : VirtualPath} (h : held.Empty) : held.Fresh start 0 now path := by
  cases held with
  | helper held =>
    have hnone : held.directories = fun _ => none := h
    exact ⟨Nat.zero_le _, fun hit hhit => (by cases (congrFun hnone path).symm.trans hhit)⟩
  | snapshot held => exact fun fetched hstate => (by cases h.1.symm.trans hstate)
  | image held => exact fun fetched hindex => (by cases h.1.symm.trans hindex)
  | direct => trivial

/-- A call that began after the request is served what is new enough. -/
theorem new_serve {fetched : Nat} (h : w.start ≤ fetched) : w.New (task.serve fetched).phase := by
  unfold DaemonTask.serve
  split
  · exact h
  · exact fun count hcount => (List.mem_singleton.mp hcount) ▸ h

theorem bring_serve (fetched : Nat) : w.Bring (task.serve fetched).phase := by
  unfold DaemonTask.serve
  split
  · trivial
  · trivial

/-- What is watched next: a new provider is watched like the one whose place it takes. -/
structure Extends (w w' : Watch) (next : Nat) : Prop where
  start : w'.start = w.start
  image : w'.image = w.image
  covers : ∀ x path, x < next → (w'.covers x path ↔ w.covers x path)
  generation : ∀ x, x < next → w'.generation x = w.generation x

theorem Extends.refl (w : Watch) (next : Nat) : Extends w w next :=
  ⟨rfl, rfl, fun _ _ _ => Iff.rfl, fun _ _ => rfl⟩

/-- The watch after a new provider has taken the place of one. -/
def renew (w : Watch) (core : DaemonCore) (key : String) : Watch where
  start := w.start
  covers x path := w.covers x path ∨ x = core.next ∧ w.covers (core.table key) path
  image := w.image
  generation := Function.update w.generation core.next 0

theorem extends_renew (w : Watch) (core : DaemonCore) (key : String) :
    Extends w (w.renew core key) core.next where
  start := rfl
  image := rfl
  covers x path hx := by
    refine ⟨?_, .inl⟩
    rintro (hcovers | ⟨rfl, -⟩)
    · exact hcovers
    · exact absurd hx (Nat.lt_irrefl _)
  generation x hx := Function.update_of_ne (Nat.ne_of_lt hx) ..

theorem Core.renewed (h : w.Core resource core) (key : String) :
    (w.renew core key).Core resource
      { core.set core.next (core.heap (core.table key)).renewed with
        table := Function.update core.table key core.next
        next := core.next + 1 } where
  asked := h.asked
  routed route path key' inner hroute hpath := by
    have hcovers := h.routed route path key' inner hroute hpath
    change w.covers (Function.update core.table key core.next key') inner ∨
      Function.update core.table key core.next key' = core.next ∧ w.covers (core.table key) inner
    rw [Function.update_apply]
    split
    · next heq =>
      subst heq
      exact .inr ⟨rfl, hcovers⟩
    · exact .inl hcovers
  allocated x path := by
    rintro (hcovers | ⟨rfl, -⟩)
    · exact Nat.lt_succ_of_lt (h.allocated x path hcovers)
    · exact Nat.lt_succ_self _
  held x path := by
    have hempty := Holdings.empty_renewed (core.heap (core.table key))
    change _ → Holdings.Fresh w.start (Function.update w.generation core.next 0 x) core.now path
      (Function.update core.heap core.next _ x)
    rw [Function.update_apply, Function.update_apply]
    rintro (hcovers | ⟨rfl, -⟩)
    · have hne := Nat.ne_of_lt (h.allocated x path hcovers)
      rw [if_neg hne, if_neg hne]
      exact h.held x path hcovers
    · rw [if_pos rfl, if_pos rfl]
      exact fresh_empty hempty
  images x path held hcovers hheld := by
    change Function.update core.heap core.next _ x = _ at hheld
    rw [Function.update_apply] at hheld
    rcases hcovers with hcovers | ⟨rfl, hcovers⟩
    · rw [if_neg (Nat.ne_of_lt (h.allocated x path hcovers))] at hheld
      exact h.images x path held hcovers hheld
    · rw [if_pos rfl] at hheld
      cases hold : core.heap (core.table key) with
      | image old =>
        rw [hold] at hheld
        cases hheld
        exact h.images _ path old hcovers hold
      | helper | snapshot | direct =>
        rw [hold] at hheld
        cases hheld
  disk := h.disk

section Providers

variable {x : Nat}

theorem Core.fresh (h : w.Core resource core) (hx : core.heap x = held) {path : VirtualPath}
    (hcovers : w.covers x path) : held.Fresh w.start (w.generation x) core.now path :=
  hx ▸ h.held x path hcovers

/-- A listing put with a helper is new enough, or of an earlier generation. -/
theorem Core.setHelper (h : w.Core resource core) {old new : HelperHoldings}
    (hx : core.heap x = .helper old) (hgeneration : old.generation ≤ new.generation)
    (httl : new.directoryTtl = old.directoryTtl)
    (hhits : ∀ path hit, w.covers x path → new.directories path = some hit →
      old.directories path = some hit ∨ w.start ≤ hit.fetched ∨
        hit.generation < w.generation x) :
    w.Core resource (core.set x (.helper new)) := by
  refine h.set (fun path hcovers => ?_) (fun _ _ _ heq => by cases heq)
  obtain ⟨hle, hold⟩ := h.fresh hx hcovers
  refine ⟨hle.trans hgeneration, fun hit hhit => ?_⟩
  rcases hhits path hit hcovers hhit with hhit | hfetched | hlt
  · rw [httl]
    exact hold hit hhit
  · exact .inl hfetched
  · exact .inr (.inl hlt)

theorem Core.stored (h : w.Core resource core) {old : HelperHoldings} {path : VirtualPath}
    {generation fetched : Nat} (hx : core.heap x = .helper old)
    (hbring : w.Bring (.asking x path generation fetched)) :
    w.Core resource (core.set x (.helper
      { old with
        directories :=
          Function.update old.directories path (some ⟨generation, core.now, fetched⟩) })) := by
  refine h.setHelper hx (Nat.le_refl _) rfl fun path' hit hcovers hhit => ?_
  dsimp only at hhit
  rw [Function.update_apply] at hhit
  split at hhit
  · next heq =>
    subst heq
    cases hhit
    exact .inr (hbring hcovers)
  · exact .inl hhit

theorem Core.setSnapshot (h : w.Core resource core) {new : SnapshotHoldings}
    (hstate : ∀ path, w.covers x path → ∀ fetched, new.state = some fetched →
      w.start ≤ fetched) :
    w.Core resource (core.set x (.snapshot new)) :=
  h.set hstate (fun _ _ _ heq => by cases heq)

theorem Core.setImage (h : w.Core resource core) {old new : ImageHoldings}
    (hx : core.heap x = .image old) (hid : new.imageId = old.imageId)
    (hindex : ∀ path, w.covers x path → ∀ fetched, new.index = some fetched →
      w.start ≤ fetched) :
    w.Core resource (core.set x (.image new)) := by
  refine h.set hindex fun path held' hcovers heq => ?_
  cases heq
  exact hid ▸ h.images x path old hcovers hx

theorem Core.built (h : w.Core resource core) {old : ImageHoldings} {imageId : String}
    {fetched : Nat} (hx : core.heap x = .image old) (hid : old.imageId = imageId)
    (hbring : w.Bring (.building x imageId fetched)) :
    w.Core resource
      { core.set x (.image { old with indexLock := none, index := some fetched }) with
        disk := Function.update core.disk imageId (some fetched) } := by
  have hset : w.Core resource
      (core.set x (.image { old with indexLock := none, index := some fetched })) :=
    h.setImage hx rfl fun path hcovers fetched' hindex => by
      cases hindex
      exact hbring (hid ▸ h.images x path old hcovers hx)
  refine ⟨hset.asked, hset.routed, hset.allocated, hset.held, hset.images,
    fun id fetched' himage hdisk => ?_⟩
  change Function.update core.disk imageId (some fetched) id = some fetched' at hdisk
  rw [Function.update_apply] at hdisk
  split at hdisk
  · next heq =>
    subst heq
    cases hdisk
    exact hbring himage
  · exact h.disk id fetched' himage hdisk

end Providers

theorem Core.routedTo (h : w.Core resource core) {read : DockerResourceRef} {route : Route}
    {path inner : VirtualPath} {key : String} (hcall : task.call.reads = some read)
    (hroute : core.routes read = some route) (hpath : route path = .ok (key, inner))
    (hreads : task.call.reads = some resource) : w.covers (core.table key) inner := by
  obtain rfl : read = resource := Option.some.inj (hcall.symm.trans hreads)
  exact h.routed route path key inner hroute hpath

/-- An entry that a call takes for the generation it has loaded is no old one. -/
theorem Core.hitNew (h : w.Core resource core) {x generation : Nat} {path : VirtualPath}
    {held : HelperHoldings} {hit : HeldListing} (hx : core.heap x = .helper held)
    (hhit : held.directories path = some hit) (hgeneration : hit.generation = generation)
    (hyoung : core.now - hit.inserted < held.directoryTtl)
    (hnew : w.New (.looking x path generation)) : w.start ≤ hit.fetched := by
  rcases (h.fresh hx hnew.1).2 hit hhit with hfetched | hold | hexpired
  · exact hfetched
  · exact absurd (hgeneration ▸ hold) (Nat.not_lt.mpr hnew.2)
  · exact absurd hyoung (Nat.not_lt.mpr hexpired)

theorem new_answered {fetched : Nat} (h : w.start ≤ fetched) :
    w.New (.returned (.answered [fetched])) :=
  fun _ hcount => (List.mem_singleton.mp hcount) ▸ h

/-- **One step.** What is watched stays fresh, and a call that began after the request is
answered from what is. -/
theorem Core.took (hcore : w.Core resource core) (hphase : PhaseSound core task.phase)
    (hbring : w.Bring task.phase) (h : Took core i task core' task') :
    ∃ w', Extends w w' core.next ∧ w'.Core resource core' ∧ w'.Bring task'.phase ∧
      (task.call.reads = some resource → w.New task.phase → w'.New task'.phase) := by
  cases h with
  | renewed key =>
    exact ⟨w.renew core key, extends_renew w core key, hcore.renewed key, trivial,
      fun _ _ => trivial⟩
  | @ended outcome hended =>
    refine ⟨w, .refl .., hcore, trivial, fun _ _ => ?_⟩
    cases outcome with
    | answered fetched => exact absurd rfl (hended fetched)
    | acknowledged | finished | failed => trivial
  | waited ticks =>
    refine ⟨w, .refl .., ?_, trivial, fun _ _ => trivial⟩
    exact ⟨hcore.asked, hcore.routed, hcore.allocated,
      fun x path hx => fresh_later (Nat.le_add_right ..) (hcore.held x path hx), hcore.images,
      hcore.disk⟩
  -- the helper of a volume or of a container, by its listings
  | raised hx =>
    exact ⟨w, .refl .., hcore.setHelper hx (Nat.le_succ _) rfl fun _ _ _ hhit => .inl hhit,
      trivial, fun _ _ => trivial⟩
  | cleared hx =>
    exact ⟨w, .refl .., hcore.setHelper hx (Nat.le_refl _) rfl fun _ _ _ hhit => (by cases hhit),
      trivial, fun _ _ => trivial⟩
  | routedHelper hcall hroute hpath hx =>
    refine ⟨w, .refl .., hcore, trivial, fun hreads _ => ?_⟩
    have hcovers := hcore.routedTo hcall hroute hpath hreads
    exact ⟨hcovers, (hcore.fresh hx hcovers).1⟩
  | hit hlooking hx hhit hgeneration hyoung =>
    exact ⟨w, .refl .., hcore, trivial, fun _ hnew =>
      new_answered (hcore.hitNew hx hhit hgeneration hyoung (hlooking ▸ hnew))⟩
  | missed => exact ⟨w, .refl .., hcore, trivial, fun _ _ => trivial⟩
  | asks => exact ⟨w, .refl .., hcore.ask, fun _ => .inl hcore.asked, fun _ _ => hcore.asked⟩
  | stored hasking hx =>
    rw [hasking] at hbring ⊢
    exact ⟨w, .refl .., hcore.stored hx hbring, trivial, fun _ => new_answered⟩
  -- the snapshot of a container, and the index of an image
  | @routedIndex resource' route path inner key phase hcall hroute hpath hto =>
    rcases hto with rfl | rfl
    · exact ⟨w, .refl .., hcore, trivial, fun hreads _ =>
        ⟨inner, hcore.routedTo hcall hroute hpath hreads⟩⟩
    · exact ⟨w, .refl .., hcore, trivial, fun hreads _ =>
        ⟨inner, hcore.routedTo hcall hroute hpath hreads⟩⟩
  | @found x fetched held hreading hx hstate =>
    refine ⟨w, .refl .., hcore, bring_serve fetched, fun _ hnew => new_serve ?_⟩
    obtain ⟨path, hcovers⟩ : ∃ path, w.covers x path := by
      rcases hreading with hreading | hreading
      · rw [hreading] at hnew
        exact hnew
      · rw [hreading] at hnew
        exact hnew
    exact hcore.fresh hx hcovers fetched hstate
  | locks hreading =>
    rw [hreading]
    exact ⟨w, .refl .., hcore, trivial, fun _ hnew => hnew⟩
  | @exports x held _ _ hstate =>
    refine ⟨w, .refl .., hcore.ask.setSnapshot fun path _ fetched hfetched => ?_,
      fun _ _ => hcore.asked, fun _ _ => hcore.asked⟩
    cases hstate.symm.trans hfetched
  | @captured x fetched held hexporting hx =>
    rw [hexporting] at hbring ⊢
    refine ⟨w, .refl .., hcore.setSnapshot fun path hcovers fetched' hfetched => ?_,
      bring_serve fetched, fun _ => new_serve⟩
    cases hfetched
    exact hbring path hcovers
  | captureFailed _ hx =>
    exact ⟨w, .refl .., hcore.setSnapshot fun _ hcovers => hcore.fresh hx hcovers, trivial,
      fun _ _ => trivial⟩
  | @indexed x fetched held hindexing hx hindex =>
    refine ⟨w, .refl .., hcore, bring_serve fetched, fun _ hnew => new_serve ?_⟩
    obtain ⟨path, hcovers⟩ : w.New (.indexing x) := hindexing ▸ hnew
    exact hcore.fresh hx hcovers fetched hindex
  | @loaded x fetched held hindexing hx _ _ hdisk =>
    have hfresh : ∀ path, w.covers x path → w.start ≤ fetched := fun path hcovers =>
      hcore.disk _ fetched (hcore.images x path held hcovers hx) hdisk
    refine ⟨w, .refl .., hcore.setImage hx rfl fun path hcovers fetched' hindex => ?_,
      bring_serve fetched, fun _ hnew => new_serve ?_⟩
    · cases hindex
      exact hfresh path hcovers
    · obtain ⟨path, hcovers⟩ : w.New (.indexing x) := hindexing ▸ hnew
      exact hfresh path hcovers
  | @builds x held _ hx _ hindex =>
    refine ⟨w, .refl .., hcore.ask.setImage hx rfl fun path _ fetched hfetched => ?_,
      fun _ => hcore.asked, fun _ _ => hcore.asked⟩
    cases hindex.symm.trans hfetched
  | @built x fetched imageId held hbuilding hx =>
    rw [hbuilding] at hbring hphase ⊢
    obtain ⟨-, -, held', hheld', hid⟩ := hphase
    cases hx.symm.trans hheld'
    exact ⟨w, .refl .., hcore.built hx hid hbring, bring_serve fetched, fun _ => new_serve⟩
  | buildFailed _ hx =>
    exact ⟨w, .refl .., hcore.setImage hx rfl fun _ hcovers => hcore.fresh hx hcovers, trivial,
      fun _ _ => trivial⟩
  -- what is not held, and read from the container itself
  | askedOnce => exact ⟨w, .refl .., hcore.ask, trivial, fun _ _ => new_answered hcore.asked⟩
  | askFailed => exact ⟨w, .refl .., hcore.ask, trivial, fun _ _ => trivial⟩
  | opened hopening =>
    rw [hopening]
    refine ⟨w, .refl .., hcore.ask, trivial, fun _ hnew count hcount => ?_⟩
    rcases List.mem_pair.mp hcount with rfl | rfl
    · exact hnew
    · exact hcore.asked

theorem Bring.extends (hextends : Extends w w' core.next) (hphase : PhaseSound core phase)
    (h : w.Bring phase) : w'.Bring phase := by
  cases phase with
  | asking x path generation fetched =>
    intro hcovers
    rw [hextends.start, hextends.generation x hphase.1]
    exact h ((hextends.covers x path hphase.1).mp hcovers)
  | exporting x fetched =>
    intro path hcovers
    rw [hextends.start]
    exact h path ((hextends.covers x path hphase.1).mp hcovers)
  | building x imageId fetched =>
    intro himage
    rw [hextends.start]
    exact h (hextends.image ▸ himage)
  | called | looking | missed | reading | locking | indexing | opening | clearing | returned =>
    trivial

theorem New.extends (hextends : Extends w w' core.next) (hphase : PhaseSound core phase)
    (h : w.New phase) : w'.New phase := by
  have hcovers : ∀ x, x < core.next → (∃ path, w.covers x path) → ∃ path, w'.covers x path :=
    fun x hx ⟨path, hpath⟩ => ⟨path, (hextends.covers x path hx).mpr hpath⟩
  cases phase with
  | looking x path generation =>
    refine ⟨(hextends.covers x path hphase.1).mpr h.1, ?_⟩
    rw [hextends.generation x hphase.1]
    exact h.2
  | reading x | locking x | indexing x => exact hcovers x hphase h
  | asking | exporting | building | opening => exact hextends.start.trans_le h
  | returned outcome =>
    cases outcome with
    | answered fetched => exact fun count hcount => hextends.start ▸ h count hcount
    | acknowledged | finished | failed => trivial
  | called | missed | clearing => trivial

end Watch

/-- A state in which a resource is watched; `old` are the calls that the request found. -/
structure Watched (w : Watch) (resource : DockerResourceRef) (old : Nat → Prop)
    (s : Pool DaemonCore DaemonTask) : Prop where
  core : w.Core resource s.core
  bring : ∀ i t, s.tasks i = some t → w.Bring t.phase
  new : ∀ i t, ¬ old i → s.tasks i = some t → t.call.reads = some resource → w.New t.phase

section Watched

variable {w : Watch} {resource : DockerResourceRef} {old : Nat → Prop}
  {s s' : Pool DaemonCore DaemonTask}

theorem Watched.step (hreached : Reached s) (h : Watched w resource old s)
    {a : Action DaemonCall Bool} (hstep : daemon.step s a = some s') :
    ∃ w', w'.start = w.start ∧ Watched w' resource old s' := by
  obtain ⟨-, hphases⟩ := sound_of_reached hreached
  cases a with
  | call i call =>
    obtain ⟨-, rfl⟩ := Program.step_call hstep
    refine ⟨w, rfl, h.core, ?_, ?_⟩
    · exact Pool.forall_put (fun j t _ hj => h.bring j t hj) trivial
    · have hall : ∀ j t, (s.put i s.core (daemon.spawn s.core call)).tasks j = some t →
          ¬ old j → t.call.reads = some resource → w.New t.phase :=
        Pool.forall_put (fun j t _ hj hold => h.new j t hold hj) fun _ _ => trivial
      exact fun j t hold hj => hall j t hj hold
  | advance i good =>
    obtain ⟨task, core, task', htask, hadvance, rfl⟩ := Program.step_advance hstep
    have htook := advance_took hadvance
    have hcall : task'.call = task.call := htook.call
    obtain ⟨w', hextends, hcore, hbring, hnew⟩ :=
      h.core.took (hphases i task htask) (h.bring i task htask) htook
    refine ⟨w', hextends.start, hcore, ?_, ?_⟩
    · exact Pool.forall_put (fun j t _ hj => .extends hextends (hphases j t hj) (h.bring j t hj))
        hbring
    · have hall : ∀ j t, (s.put i core task').tasks j = some t →
          ¬ old j → t.call.reads = some resource → w'.New t.phase :=
        Pool.forall_put
          (fun j t _ hj hold hreads =>
            .extends hextends (hphases j t hj) (h.new j t hold hj hreads))
          fun hold hreads =>
            hnew (hcall ▸ hreads) (h.new i task hold htask (hcall ▸ hreads))
      exact fun j t hold hj => hall j t hj hold

theorem Watched.exec {as : List (Action DaemonCall Bool)} (hreached : Reached s)
    (h : Watched w resource old s) (hexec : daemonRuns.exec s as = some s') :
    ∃ w', w'.start = w.start ∧ Watched w' resource old s' := by
  have hrun : Reached s' ∧ ∃ w', w'.start = w.start ∧ Watched w' resource old s' := by
    refine Machine.exec_invariant
      (I := fun s => Reached s ∧ ∃ w', w'.start = w.start ∧ Watched w' resource old s)
      (fun s a s' hrun (_ : True) hstep => ?_) (fun _ _ => trivial) hexec ⟨hreached, w, rfl, h⟩
    obtain ⟨hreached, w₁, hstart, hwatched⟩ := hrun
    obtain ⟨w₂, hstart', hwatched'⟩ := hwatched.step hreached hstep
    exact ⟨hreached.step trivial hstep, w₂, hstart'.trans hstart, hwatched'⟩
  exact hrun.2

end Watched

variable {operation : ResourceOperation}

/-- Some listing or open that begins in a state is served from data of that age. -/
def Serves (s : Pool DaemonCore DaemonTask) (resource : DockerResourceRef) (count : Nat) : Prop :=
  ∃ after later j task fetched, daemonRuns.exec s after = some later ∧ s.tasks j = none ∧
    later.tasks j = some task ∧ Answered resource task fetched ∧ count ∈ fetched

section Serves

variable {s s' : Pool DaemonCore DaemonTask} {resource : DockerResourceRef} {route : Route}
  {path inner : VirtualPath} {key : String} {count : Nat}

theorem Serves.after {as : List (Action DaemonCall Bool)} (hexec : daemonRuns.exec s as = some s')
    (h : Serves s' resource count) : Serves s resource count := by
  obtain ⟨after, later, j, task, fetched, hafter, hfree, htask, hanswered, hcount⟩ := h
  refine ⟨as ++ after, later, j, task, fetched, ?_, Program.free_of_exec hexec hfree, htask,
    hanswered, hcount⟩
  rw [Machine.exec_append, hexec]
  exact hafter

variable (hroute : s.core.routes resource = some route) (hpath : route path = .ok (key, inner))

include hroute hpath

variable {h : ImageHoldings} {k : Nat}

end Serves

/-! ## When a refresh took effect -/

end TuxStack.Daemon
