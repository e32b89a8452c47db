import TuxStack.Docker.HelperCore

/-!
# The directory cache of the helper provider

`read_dir` loads the generation before it looks into the cache, and stores what it fetched
under the generation it has loaded. An entry of the cache with the current generation was
therefore asked for after the last time the generation was raised, however late it was
stored (`listing_is_fresh`).

The generation is a `u64` that wraps. A listing that is stored after `2^64` refreshes is
taken for a new one (`stale_after_wrap`).
-/

namespace TuxStack.Docker

open Vfs Runs Tasks

/-- The generation after `n` raises. -/
def generationAfter (n : Nat) : Nat := (1 + n) % 18446744073709551616

theorem fetchAdd_generationAfter (n : Nat) :
    fetchAdd (generationAfter n) = generationAfter (n + 1) := by
  unfold fetchAdd generationAfter
  omega

theorem generationAfter_inj {m n : Nat} (hm : m < 18446744073709551616)
    (hn : n < 18446744073709551616) (h : generationAfter m = generationAfter n) : m = n := by
  unfold generationAfter at h
  omega

namespace HelperProviderCore

/-! ## What a step does to the cache -/

variable {answer : HelperAnswer} {i : Nat} {s s' : HelperProviderCore} {task' : HelperTask}

/-- **A step and the cache**: it raises the generation, or it stores a listing, or neither;
what else it does to the cache is take entries out. -/
theorem advance_cache {task : HelperTask} (h : s.advance i task answer = some (s', task')) :
    (s'.generation = s.generation ∧ s'.bumps = s.bumps ∧
      ∀ path hit, s'.directories path = some hit → s.directories path = some hit) ∨
    (s'.generation = fetchAdd s.generation ∧ s'.bumps = s.bumps + 1 ∧
      s'.directories = s.directories) ∨
    ∃ path entries fetched, task.phase = .storing entries fetched ∧ task.call = .readDir path ∧
      s' = { s with directories :=
        Function.update s.directories path (some ⟨task.generation, entries, fetched⟩) } := by
  have hkept : ∀ {t : HelperProviderCore}, t.generation = s.generation → t.bumps = s.bumps →
      t.directories = s.directories → (t.generation = s.generation ∧ t.bumps = s.bumps ∧
        ∀ path hit, t.directories path = some hit → s.directories path = some hit) := by
    intro t hgeneration hbumps hdirectories
    exact ⟨hgeneration, hbumps, fun path hit hhit => by rwa [hdirectories] at hhit⟩
  generalize hphase : task.phase = phase
  cases advance_cases hphase h with
  | called h =>
    rcases enter_cases h with ⟨rfl, -⟩ | ⟨path, -, rfl, -⟩ | ⟨handles, outcome, -, rfl, -⟩ |
      ⟨rfl, -⟩ | ⟨-, rfl, -⟩
    · exact .inl (hkept rfl rfl rfl)
    · exact .inl (hkept rfl rfl rfl)
    · exact .inl (hkept rfl rfl rfl)
    · exact .inr (.inl ⟨rfl, rfl, rfl⟩)
    · exact .inl (hkept rfl rfl rfl)
  | raised | shutRaised => exact .inr (.inl ⟨rfl, rfl, rfl⟩)
  | stored hcall => exact .inr (.inr ⟨_, _, _, rfl, hcall, rfl⟩)
  | cleared | shutCleared =>
    refine .inl ⟨rfl, rfl, ?_⟩
    intro path hit hhit
    cases hhit
  | @retained path =>
    refine .inl ?_
    cases path with
    | none => exact ⟨rfl, rfl, fun path hit hhit => by cases hhit⟩
    | some path =>
      refine ⟨rfl, rfl, ?_⟩
      intro cached hit hhit
      dsimp only [retain] at hhit
      split at hhit
      · cases hhit
      · exact hhit
  | refused | stopped | shutStopped =>
    exact .inl (hkept (stop_generation ..) (stop_bumps ..) (stop_directories ..))
  | _ => exact .inl (hkept rfl rfl rfl)

theorem bumps_advance {task : HelperTask} (hstep : s.advance i task answer = some (s', task')) :
    s.bumps ≤ s'.bumps := by
  rcases advance_cache hstep with
    ⟨-, hbumps, -⟩ | ⟨-, hbumps, -⟩ | ⟨path, entries, fetched, -, -, rfl⟩
  · exact hbumps.ge
  · exact hbumps ▸ Nat.le_succ _
  · exact le_rfl

end HelperProviderCore

/-! ## What a task has seen -/

/-- The helper call of a task comes after its load of the generation. -/
def PhaseFresh (task : HelperTask) (bumps : Nat) : HelperPhase → Prop
  | .operating _ fetched => task.loaded ≤ fetched ∧ fetched ≤ bumps
  | .storing _ fetched => task.loaded ≤ fetched ∧ fetched ≤ bumps
  | .returned (.listing _ fetched) => task.began ≤ fetched
  | _ => True

structure TaskFresh (bumps : Nat) (task : HelperTask) : Prop where
  began_le : task.began ≤ task.loaded
  loaded_le : task.loaded ≤ bumps
  generation : task.phase ≠ .called → ∀ path, task.call = .readDir path →
    task.generation = generationAfter task.loaded
  phase : PhaseFresh task bumps task.phase

variable {task : HelperTask} {bumps : Nat}

theorem TaskFresh.mono {bumps' : Nat} (h : TaskFresh bumps task) (hle : bumps ≤ bumps') :
    TaskFresh bumps' task := by
  refine ⟨h.began_le, h.loaded_le.trans hle, h.generation, ?_⟩
  have hphase := h.phase
  unfold PhaseFresh at hphase ⊢
  split
  · next hop =>
    rw [hop] at hphase
    exact ⟨hphase.1, hphase.2.trans hle⟩
  · next hop =>
    rw [hop] at hphase
    exact ⟨hphase.1, hphase.2.trans hle⟩
  · next hop =>
    rw [hop] at hphase
    exact hphase
  · trivial

variable {answer : HelperAnswer} {i : Nat} {phase : HelperPhase} {s s' : HelperProviderCore}
  {task' : HelperTask}

theorem TaskFresh.goto (h : TaskFresh bumps task) (hcalled : task.phase ≠ .called)
    (hphase : PhaseFresh task bumps phase) : TaskFresh bumps (task.goto phase) :=
  ⟨h.began_le, h.loaded_le, fun _ => h.generation hcalled, hphase⟩

/-- A call that is not a `read_dir` has no generation to keep. -/
theorem TaskFresh.gotoOther (h : TaskFresh bumps task) (hcall : ∀ path, task.call ≠ .readDir path)
    (hphase : PhaseFresh task bumps phase) : TaskFresh bumps (task.goto phase) :=
  ⟨h.began_le, h.loaded_le, fun _ path heq => absurd heq (hcall path), hphase⟩

theorem phaseFresh_returned {outcome : HelperOutcome}
    (h : ∀ entries fetched, outcome ≠ .listing entries fetched) :
    PhaseFresh task bumps (.returned outcome) := by
  cases outcome with
  | listing entries fetched => exact absurd rfl (h entries fetched)
  | metadata | handle | content | finished | failed => trivial

/-! ## The invariant -/

/-- Every entry of the cache was asked for after the generation it carries was reached. -/
structure CacheFresh (core : HelperProviderCore) : Prop where
  generation : core.generation = generationAfter core.bumps
  cached : ∀ path hit, core.directories path = some hit →
    ∃ n, n ≤ hit.fetched ∧ hit.fetched ≤ core.bumps ∧ hit.generation = generationAfter n

theorem CacheFresh.advance (h : CacheFresh s) (htask : TaskFresh s.bumps task)
    (hstep : s.advance i task answer = some (s', task')) : CacheFresh s' := by
  obtain ⟨hgeneration, hcached⟩ := h
  rcases HelperProviderCore.advance_cache hstep with ⟨hsame, hbumps, hsub⟩ |
    ⟨hraised, hbumps, hdirectories⟩ | ⟨path, entries, fetched, hphase, hcall, rfl⟩
  · refine ⟨by rw [hsame, hbumps, hgeneration], ?_⟩
    intro path hit hhit
    rw [hbumps]
    exact hcached path hit (hsub path hit hhit)
  · refine ⟨by rw [hraised, hbumps, hgeneration, fetchAdd_generationAfter], ?_⟩
    intro path hit hhit
    rw [hdirectories] at hhit
    obtain ⟨n, hn, hle, htag⟩ := hcached path hit hhit
    exact ⟨n, hn, by omega, htag⟩
  · refine ⟨hgeneration, ?_⟩
    intro path' hit hhit
    by_cases hpath : path' = path
    · subst hpath
      cases (Function.update_self ..).symm.trans hhit
      have hfresh := htask.phase
      rw [hphase] at hfresh
      exact ⟨task.loaded, hfresh.1, hfresh.2,
        htask.generation (by rw [hphase]; simp) _ hcall⟩
    · exact hcached path' hit ((Function.update_of_ne hpath ..).symm.trans hhit)

theorem TaskFresh.advance (hbound : s.bumps < 18446744073709551616) (hcache : CacheFresh s)
    (h : TaskFresh s.bumps task) (hstep : s.advance i task answer = some (s', task')) :
    TaskFresh s'.bumps task' := by
  have hle := HelperProviderCore.bumps_advance hstep
  refine TaskFresh.mono ?_ hle
  have hfresh := h.phase
  generalize hphase : task.phase = phase at hfresh
  cases HelperProviderCore.advance_cases hphase hstep with
  | called hstep =>
    by_cases hread : ∃ path, task.call = .readDir path
    · obtain ⟨path, hcall⟩ := hread
      unfold HelperProviderCore.enter at hstep
      rw [hcall] at hstep
      cases hstep
      exact ⟨h.began_le.trans h.loaded_le, le_rfl, fun _ _ _ => hcache.generation, trivial⟩
    · have hother : ∀ path, task.call ≠ .readDir path := fun path hcall => hread ⟨path, hcall⟩
      rcases HelperProviderCore.enter_cases hstep with
        ⟨-, ⟨outcome, houtcome, rfl⟩ | rfl | rfl⟩ | ⟨path, hcall, -, -⟩ |
        ⟨handles, outcome, houtcome, -, rfl⟩ | ⟨-, rfl⟩ | ⟨-, -, rfl⟩
      · exact h.gotoOther hother (phaseFresh_returned houtcome)
      · exact h.gotoOther hother trivial
      · exact h.gotoOther hother trivial
      · exact absurd hcall (hother path)
      · exact h.gotoOther hother (phaseFresh_returned houtcome)
      · exact h.gotoOther hother trivial
      · exact h.gotoOther hother trivial
  | hit hcall hhit htag =>
    -- the tag is the generation this task has loaded, so the entry is as new
    obtain ⟨n, hn, hfetched, hgeneration⟩ := hcache.cached _ _ hhit
    have hloaded := h.generation (by simp [hphase]) _ hcall
    have hsame : n = task.loaded := by
      refine generationAfter_inj (by omega) (lt_of_le_of_lt h.loaded_le hbound) ?_
      rw [← hgeneration, htag, hloaded]
    refine h.goto (by simp [hphase]) ?_
    have hbegan := h.began_le
    show task.began ≤ _
    omega
  | shared | started => exact h.goto (by simp [hphase]) ⟨h.loaded_le, le_rfl⟩
  | replied hreply =>
    rcases HelperProviderCore.reply_cases hreply with
      ⟨outcome, houtcome, -, rfl⟩ | ⟨error, rfl⟩ | ⟨path, flags, -, rfl⟩ | ⟨path, entries, -, rfl⟩
    · exact h.goto (by simp [hphase]) (phaseFresh_returned houtcome)
    · exact h.goto (by simp [hphase]) trivial
    · exact h.goto (by simp [hphase]) trivial
    · exact h.goto (by simp [hphase]) hfresh
  | stored => exact h.goto (by simp [hphase]) (h.began_le.trans hfresh.1)
  | _ => exact h.goto (by simp [hphase]) trivial

/-! ## Runs -/

/-- Before the counter wraps, the cache and all tasks are fresh. -/
theorem fresh_of_reach {s : HelperSystem} (h : HelperSystem.machine.Reach (fun _ _ => True) s) :
    (s.core.bumps < 18446744073709551616 → CacheFresh s.core) ∧
      ∀ i task, s.tasks i = some task → s.core.bumps < 18446744073709551616 →
        TaskFresh s.core.bumps task := by
  refine Program.reach_invariant (C := fun core => core.bumps < 18446744073709551616 →
    CacheFresh core) (T := fun core _ task => core.bumps < 18446744073709551616 →
    TaskFresh core.bumps task) ?_ ?_ ?_ ?_ h
  · rintro _ ⟨nodeNamespace, rfl⟩ -
    refine ⟨rfl, ?_⟩
    intro path hit hhit
    cases hhit
  · intro core i call hcache hbound
    exact ⟨le_rfl, le_rfl, fun hne => absurd rfl hne, trivial⟩
  · intro core core' i task task' answer hcache htask hstep
    have hle : core.bumps ≤ core'.bumps := HelperProviderCore.bumps_advance hstep
    refine ⟨fun hbound => ?_, fun hbound => ?_⟩
    · have hbefore := lt_of_le_of_lt hle hbound
      exact (hcache hbefore).advance (htask hbefore) hstep
    · have hbefore := lt_of_le_of_lt hle hbound
      exact (htask hbefore).advance hbefore (hcache hbefore) hstep
  · intro core core' i task task' answer j other hcache htask hother hne hstep hbound
    have hle : core.bumps ≤ core'.bumps := HelperProviderCore.bumps_advance hstep
    exact (hother (lt_of_le_of_lt hle hbound)).mono hle

/-- **A listing is as fresh as its call.** As long as the generation has been raised fewer
than `2^64` times, what a `read_dir` returns was asked of the helper after every raise
that came before the call: `fetched` is not less than `began`. -/
theorem listing_is_fresh {s : HelperSystem} (h : HelperSystem.machine.Reach (fun _ _ => True) s)
    (hbound : s.core.bumps < 2 ^ 64) {i : Nat} {task : HelperTask}
    {entries : List VirtualDirectoryEntry} {fetched : Nat} (htask : s.tasks i = some task)
    (hlisting : task.phase = .returned (.listing entries fetched)) :
    task.began ≤ fetched := by
  have hphase := ((fresh_of_reach h).2 i task htask hbound).phase
  rw [hlisting] at hphase
  exact hphase

/-- A `read_dir` after a refresh, through a session it starts itself. -/
theorem listing_after_refresh : ∃ s, HelperSystem.machine.Reach (fun _ _ => True) s ∧
    s.core.bumps = 1 ∧ ∃ task entries fetched, s.tasks 1 = some task ∧
      task.phase = .returned (.listing entries fetched) ∧ task.began ≤ fetched := by
  let s : HelperSystem := ⟨.new [], fun _ => none⟩
  have h : HelperSystem.machine.Reach (fun _ _ => True) s := .init ⟨⟨[], rfl⟩, rfl⟩
  have h := Program.reach_call h 0 (.refresh none) trivial rfl
  have h := Program.reach_advance h 0 .proceed trivial rfl rfl
  have h := Program.reach_advance h 0 .proceed trivial rfl rfl
  have h := Program.reach_call h 1 (.readDir .root) trivial rfl
  have h := Program.reach_advance h 1 .proceed trivial rfl rfl
  have h := Program.reach_advance h 1 (.young true) trivial rfl rfl
  have h := Program.reach_advance h 1 .proceed trivial rfl rfl
  have h := Program.reach_advance h 1 .proceed trivial rfl rfl
  have h := Program.reach_advance h 1 (.started "helper" true) trivial rfl rfl
  have h := Program.reach_advance h 1 (.replied (.entries (.ok []))) trivial rfl rfl
  have h := Program.reach_advance h 1 .proceed trivial rfl rfl
  exact ⟨_, h, rfl, _, [], 1, Pool.tasks_put_self .., rfl,
    listing_is_fresh h (by decide) (Pool.tasks_put_self ..) rfl⟩

/-! ## A listing after `2^64` refreshes -/

section Wrap

/-- A `read_dir` of the root that missed the cache and waits for the helper, while `n`
refreshes have run to their end. -/
structure Refreshed (n : Nat) (s : HelperSystem) : Prop where
  generation : s.core.generation = generationAfter n
  bumps : s.core.bumps = n
  directories : s.core.directories = fun _ => none
  reading : s.tasks 0 = some ⟨.readDir .root, .operating ⟨"helper", true⟩ 0, 1, 0, 0⟩
  free : ∀ i, i = 1 ∨ n + 2 ≤ i → s.tasks i = none

/-- Each refresh is a task of its own, the task 1 is kept for later. -/
theorem refreshed_reached : ∀ n, ∃ s, HelperSystem.machine.Reach (fun _ _ => True) s ∧
    Refreshed n s := by
  intro n
  induction n with
  | zero =>
    let s : HelperSystem := ⟨.new [], fun _ => none⟩
    have h : HelperSystem.machine.Reach (fun _ _ => True) s := .init ⟨⟨[], rfl⟩, rfl⟩
    have h := Program.reach_call h 0 (.readDir .root) trivial rfl
    have h := Program.reach_advance h 0 .proceed trivial rfl rfl
    have h := Program.reach_advance h 0 (.young true) trivial rfl rfl
    have h := Program.reach_advance h 0 .proceed trivial rfl rfl
    have h := Program.reach_advance h 0 .proceed trivial rfl rfl
    have h := Program.reach_advance h 0 (.started "helper" true) trivial rfl rfl
    refine ⟨_, h, rfl, rfl, rfl, rfl, ?_⟩
    intro i hi
    have hne : i ≠ 0 := by omega
    simp [Pool.tasks_put, hne, s]
  | succ n ih =>
    obtain ⟨s, h, hs⟩ := ih
    have h := Program.reach_call h (n + 2) (.refresh none) trivial
      (hs.free (n + 2) (.inr le_rfl))
    have h := Program.reach_advance h (n + 2) .proceed trivial
      (Pool.tasks_put_self ..) rfl
    have h := Program.reach_advance h (n + 2) .proceed trivial
      (Pool.tasks_put_self ..) rfl
    refine ⟨_, h, ?_, ?_, rfl, ?_, ?_⟩
    · show fetchAdd s.core.generation = generationAfter (n + 1)
      rw [hs.generation, fetchAdd_generationAfter]
    · show s.core.bumps + 1 = n + 1
      rw [hs.bumps]
    · simp [Pool.tasks_put, hs.reading]
    · intro i hi
      have hne : i ≠ n + 2 := by omega
      have hfree : s.tasks i = none := hs.free i (by omega)
      simp [Pool.tasks_put, hne, hfree]

/-- The counter is back where the fetch has found it: its listing is stored under the
current generation and answers a `read_dir` that starts afterwards. -/
theorem stale_after_wrap : ∃ s, HelperSystem.machine.Reach (fun _ _ => True) s ∧
    ∃ i task entries fetched, s.tasks i = some task ∧
      task.phase = .returned (.listing entries fetched) ∧ fetched < task.began := by
  obtain ⟨s, h, hs⟩ := refreshed_reached 18446744073709551616
  have h := Program.reach_advance h 0 (.replied (.entries (.ok []))) trivial
    hs.reading rfl
  have h := Program.reach_advance h 0 .proceed trivial (Pool.tasks_put_self ..) rfl
  have hfree : s.tasks 1 = none := hs.free 1 (Or.inl rfl)
  have h := Program.reach_call h 1 (.readDir .root) trivial
    (by simp [Pool.tasks_put, hfree])
  have h := Program.reach_advance h 1 .proceed trivial (Pool.tasks_put_self ..) rfl
  have hgeneration : (1 : Nat) = s.core.generation := by
    rw [hs.generation]
    decide
  have hlook : HelperProviderCore.look
      { s.core with directories := Function.update s.core.directories .root (some ⟨1, [], 0⟩) }
      ⟨.readDir .root, .looking, s.core.generation, s.core.bumps, s.core.bumps⟩ true =
      some ⟨.readDir .root, .returned (.listing [] 0), s.core.generation, s.core.bumps,
        s.core.bumps⟩ := by
    simp [HelperProviderCore.look, ← hgeneration]
    rfl
  have h := Program.reach_advance h 1 (.young true) trivial (Pool.tasks_put_self ..)
    (congrArg (Option.map (Prod.mk _)) hlook)
  refine ⟨_, h, 1, _, [], 0, Pool.tasks_put_self .., rfl, ?_⟩
  show 0 < s.core.bumps
  rw [hs.bumps]
  decide

end Wrap

end TuxStack.Docker
