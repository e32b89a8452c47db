import TuxStack.Daemon.Plan
import TuxStack.Vfs.Walk

/-!
# Lookups during a rebuild

`rebuild_namespace` of `crates/tuxstack-daemon/src/state.rs` installs a plan by
clearing the two tables of the namespace and filling them again, each call with a
lock of its own. `getattr` and `lookup` read first the aliases, then the mounts,
then the mounts again for synthetic directories. Every lock acquisition is one step
here, and any number of lookups run next to one rebuild.

Between the clearing and its own entry a path of both plans is not there, and a
lookup that reads the table then answers `NotFound` (`every_rebuild_has_a_gap`).
`no_lookup_in_the_gap` says that this is the only way: a lookup that never reads a
table from which the rebuild has taken its path away does not answer `NotFound`.
-/

namespace TuxStack.Daemon

open Vfs Runs Vfs.NamespaceProvider

/-! ## The steps -/

/-- Where the rebuild is; the first list of a phase is what it has put back. -/
inductive Phase where
  | ready
  | cleared
  | mounting (added rest : List NamespaceMount)
  | linking (added rest : List NamespaceAlias)
  | finished
  | failed (mounts : List NamespaceMount)

/-- Where a lookup is: the table it reads next, or its answer. -/
inductive Lookup where
  | aliases (path : VirtualPath)
  | mounts (path : VirtualPath)
  | synthetic (path : VirtualPath)
  | answered (path : VirtualPath) (answer : Except VfsError VirtualMetadata)

structure Traffic where
  ns : NamespaceProvider
  phase : Phase
  lookups : List Lookup

inductive Act where
  | rebuild
  | ask (path : VirtualPath)
  | advance (i : Nat)

/-- The next lock that `rebuild_namespace` takes. An error of `mount` or `alias`
ends it there. -/
def stepRebuild (new : NamespacePlan) (ns : NamespaceProvider) :
    Phase → Option (NamespaceProvider × Phase)
  | .ready => some ({ ns with mounts := ∅ }, .cleared)
  | .cleared => some ({ ns with aliases := ∅ }, .mounting [] new.mounts)
  | .mounting _ [] => some (ns, .linking [] new.aliases)
  | .mounting added (m :: rest) =>
    match ns.mount m.path m.key m.provider with
    | .ok ns' => some (ns', .mounting (added ++ [m]) rest)
    | .error _ => some (ns, .failed added)
  | .linking _ [] => some (ns, .finished)
  | .linking added (a :: rest) =>
    match ns.addAlias a.path a.target with
    | .ok ns' => some (ns', .linking (added ++ [a]) rest)
    | .error _ => some (ns, .failed new.mounts)
  | .finished | .failed _ => none

/-- The next lock that `metadata` takes. The root is a directory without one. -/
def stepLookup (ns : NamespaceProvider) : Lookup → Option Lookup
  | .aliases path =>
    match ns.aliasFor path with
    | some target => some (.answered path (.ok (aliasMetadata path target)))
    | none => some (.mounts path)
  | .mounts path =>
    match ns.providerAt path with
    | some route => some (.answered path (route.provider.getattr route.relativePath))
    | none =>
      if path.isRoot then some (.answered path (.ok (syntheticMetadata path)))
      else some (.synthetic path)
  | .synthetic path =>
    if ns.isSyntheticDirectory path then some (.answered path (.ok (syntheticMetadata path)))
    else some (.answered path (.error .notFound))
  | .answered _ _ => none

/-- **A lookup without a rebuild in between is `metadata`.** -/
theorem stepLookup_alone (ns : NamespaceProvider) (path : VirtualPath) :
    ∃ n, (fun l => (stepLookup ns l).getD l)^[n] (.aliases path) =
      .answered path (ns.metadata path) := by
  refine ⟨3, ?_⟩
  simp only [Function.iterate_succ, Function.iterate_zero, Function.comp, id]
  unfold metadata
  cases halias : ns.aliasFor path with
  | some target => simp [stepLookup, halias]
  | none =>
    cases hroute : ns.providerAt path with
    | some route => simp [stepLookup, halias, hroute]
    | none =>
      by_cases hroot : path.isRoot = true
      · simp [stepLookup, halias, hroute, hroot, isSyntheticDirectory]
      · by_cases hdir : ns.isSyntheticDirectory path = true
        · simp [stepLookup, halias, hroute, hroot, hdir]
        · simp [stepLookup, halias, hroute, hroot, hdir]

def mountTable (mounts : List NamespaceMount) : AList fun _ : VirtualPath => MountedProvider :=
  mounts.foldl (fun table m => table.insert m.path ⟨m.key, m.provider⟩) ∅

def aliasTable (aliases : List NamespaceAlias) : AList fun _ : VirtualPath => VirtualPathBytes :=
  aliases.foldl (fun table a => table.insert a.path a.target) ∅

def traffic (old new : NamespacePlan) : Machine Traffic Act where
  init s := s = ⟨⟨mountTable old.mounts, aliasTable old.aliases⟩, .ready, []⟩
  step s
    | .rebuild =>
      (stepRebuild new s.ns s.phase).map fun next => { s with ns := next.1, phase := next.2 }
    | .ask path => some { s with lookups := s.lookups ++ [.aliases path] }
    | .advance i => do
        let lookup ← s.lookups[i]?
        let next ← stepLookup s.ns lookup
        some { s with lookups := s.lookups.set i next }

/-! ## What is in the tables -/

variable {old new : NamespacePlan}

def mountsIn (old new : NamespacePlan) : Phase → List NamespaceMount
  | .ready => old.mounts
  | .cleared => []
  | .mounting added _ => added
  | .linking _ _ | .finished => new.mounts
  | .failed mounts => mounts

def InBoth (old new : NamespacePlan) (path : VirtualPath) : Prop :=
  ((∃ m ∈ old.mounts, m.path = path) ∨ ∃ a ∈ old.aliases, a.path = path) ∧
    ((∃ m ∈ new.mounts, m.path = path) ∨ ∃ a ∈ new.aliases, a.path = path)

variable {s s' : Traffic} {path : VirtualPath} {a : Act}

theorem mem_mountTable {mounts : List NamespaceMount} :
    path ∈ mountTable mounts ↔ ∃ m ∈ mounts, m.path = path := by
  induction mounts using List.reverseRecOn with
  | nil => simp [mountTable]
  | append_singleton mounts m ih =>
    have hsnoc : mountTable (mounts ++ [m]) =
        (mountTable mounts).insert m.path ⟨m.key, m.provider⟩ := by
      simp [mountTable]
    rw [hsnoc, AList.mem_insert, ih]
    constructor
    · rintro (rfl | ⟨x, hx, rfl⟩)
      · exact ⟨m, by simp, rfl⟩
      · exact ⟨x, by simp [hx], rfl⟩
    · rintro ⟨x, hx, rfl⟩
      rcases List.mem_append.mp hx with hx | hx
      · exact .inr ⟨x, hx, rfl⟩
      · cases List.mem_singleton.mp hx
        exact .inl rfl

theorem lookup_mountTable {mounts : List NamespaceMount} {mounted : MountedProvider}
    (h : (mountTable mounts).lookup path = some mounted) :
    ∃ m ∈ mounts, m.path = path ∧ m.provider = mounted.provider := by
  induction mounts using List.reverseRecOn with
  | nil => simp [mountTable] at h
  | append_singleton mounts m ih =>
    have hsnoc : mountTable (mounts ++ [m]) =
        (mountTable mounts).insert m.path ⟨m.key, m.provider⟩ := by
      simp [mountTable]
    rw [hsnoc] at h
    by_cases hpath : path = m.path
    · rw [hpath, AList.lookup_insert] at h
      cases h
      exact ⟨m, by simp, hpath.symm, rfl⟩
    · rw [AList.lookup_insert_ne hpath] at h
      obtain ⟨x, hx, hat⟩ := ih h
      exact ⟨x, by simp [hx], hat⟩

/-- The mounts are those of the phase, and the lists of a phase add up to the new
plan. -/
structure Tables (old new : NamespacePlan) (s : Traffic) : Prop where
  mounts : s.ns.mounts = mountTable (mountsIn old new s.phase)
  mounting : ∀ added rest, s.phase = .mounting added rest → added ++ rest = new.mounts
  failed : ∀ mounts, s.phase = .failed mounts → mounts ⊆ new.mounts

theorem Tables.stepRebuild (h : Tables old new s) {ns : NamespaceProvider} {phase : Phase}
    (hstep : stepRebuild new s.ns s.phase = some (ns, phase)) :
    Tables old new { s with ns := ns, phase := phase } := by
  obtain ⟨hmounts, hmounting, -⟩ := h
  -- the phases in their order: both tables are cleared, then the mounts, then the aliases
  unfold Daemon.stepRebuild at hstep
  split at hstep
  case h_1 hphase =>
    cases hstep
    exact ⟨rfl, by simp, by simp⟩
  case h_2 hphase =>
    rw [hphase] at hmounts
    cases hstep
    exact ⟨hmounts, by simp, by simp⟩
  case h_3 added hphase =>
    have hall := hmounting _ _ hphase
    rw [List.append_nil] at hall
    rw [hphase] at hmounts
    cases hstep
    subst hall
    exact ⟨hmounts, by simp, by simp⟩
  case h_4 added m rest hphase =>
    have hall := hmounting _ _ hphase
    rw [hphase] at hmounts
    unfold NamespaceProvider.mount at hstep
    by_cases hroot : m.path.isRoot = true
    · simp only [hroot, if_true, Option.some.injEq, Prod.mk.injEq] at hstep
      obtain ⟨rfl, rfl⟩ := hstep
      refine ⟨hmounts, by simp, ?_⟩
      rintro _ ⟨rfl⟩
      exact hall ▸ List.subset_append_left _ _
    · simp only [hroot, if_false, Bool.false_eq_true, Option.some.injEq, Prod.mk.injEq] at hstep
      obtain ⟨rfl, rfl⟩ := hstep
      refine ⟨?_, ?_, by simp⟩
      · simp [mountsIn, mountTable, hmounts]
      · rintro _ _ ⟨rfl, rfl⟩
        simpa using hall
  case h_5 added hphase =>
    rw [hphase] at hmounts
    cases hstep
    exact ⟨hmounts, by simp, by simp⟩
  case h_6 added a rest hphase =>
    rw [hphase] at hmounts
    split at hstep
    · rename_i ns' halias
      unfold NamespaceProvider.addAlias at halias
      split at halias
      · cases halias
      · cases halias
        cases hstep
        exact ⟨hmounts, by simp, by simp⟩
    · cases hstep
      refine ⟨hmounts, by simp, ?_⟩
      rintro _ ⟨rfl⟩
      exact List.Subset.refl _
  all_goals cases hstep

theorem traffic_step (h : (traffic old new).step s a = some s') :
    (∃ ns phase, a = .rebuild ∧ stepRebuild new s.ns s.phase = some (ns, phase) ∧
      s' = { s with ns := ns, phase := phase }) ∨
    (∃ path, a = .ask path ∧ s' = { s with lookups := s.lookups ++ [.aliases path] }) ∨
    ∃ i lookup next, a = .advance i ∧ s.lookups[i]? = some lookup ∧
      stepLookup s.ns lookup = some next ∧ s' = { s with lookups := s.lookups.set i next } := by
  cases a with
  | rebuild =>
    obtain ⟨next, hnext, hs⟩ := Option.map_eq_some_iff.mp h
    exact .inl ⟨next.1, next.2, rfl, hnext, hs.symm⟩
  | ask path =>
    cases h
    exact .inr (.inl ⟨path, rfl, rfl⟩)
  | advance i =>
    obtain ⟨lookup, hlookup, h⟩ := Option.bind_eq_some_iff.mp h
    obtain ⟨next, hnext, h⟩ := Option.bind_eq_some_iff.mp h
    cases h
    exact .inr (.inr ⟨i, lookup, next, rfl, hlookup, hnext, rfl⟩)

theorem Tables.step (h : Tables old new s) (hstep : (traffic old new).step s a = some s') :
    Tables old new s' := by
  rcases traffic_step hstep with ⟨ns, phase, -, hrebuild, rfl⟩ | ⟨path, -, rfl⟩ |
    ⟨i, lookup, next, -, -, -, rfl⟩
  · exact h.stepRebuild hrebuild
  · exact { h with }
  · exact { h with }

theorem Tables.init :
    Tables old new ⟨⟨mountTable old.mounts, aliasTable old.aliases⟩, .ready, []⟩ :=
  ⟨rfl, by simp, by simp⟩

/-! ## Lookups outside of the gap -/

/-- The lookup is about to look for the path in the mounts. -/
def Lookup.readsMounts (path : VirtualPath) : Lookup → Bool
  | .mounts p => p = path
  | _ => false

/-- A lookup of the path that has found no alias reads the mounts only while the
path is one of them. -/
def OutsideGap (old new : NamespacePlan) (path : VirtualPath) (s : Traffic) : Act → Prop
  | .advance i =>
    s.lookups[i]?.any (fun lookup => lookup.readsMounts path) = true →
      ∃ m ∈ mountsIn old new s.phase, m.path = path
  | _ => True

instance (path : VirtualPath) (s : Traffic) : ∀ a, Decidable (OutsideGap old new path s a)
  | .rebuild => inferInstanceAs (Decidable True)
  | .ask _ => inferInstanceAs (Decidable True)
  | .advance i =>
    inferInstanceAs (Decidable (s.lookups[i]?.any (fun lookup => lookup.readsMounts path) = true →
      ∃ m ∈ mountsIn old new s.phase, m.path = path))

/-- No lookup of the path has got past the mounts or ended with `NotFound`. -/
def Served (path : VirtualPath) (s : Traffic) : Prop :=
  ∀ lookup ∈ s.lookups, lookup ≠ .synthetic path ∧ lookup ≠ .answered path (.error .notFound)

/-- The providers mounted at the path know their own root. -/
def RootsKnown (old new : NamespacePlan) (path : VirtualPath) : Prop :=
  ∀ m ∈ old.mounts ++ new.mounts, m.path = path →
    m.provider.getattr VirtualPath.root ≠ .error .notFound

theorem Tables.mountsIn_subset (h : Tables old new s) :
    mountsIn old new s.phase ⊆ old.mounts ++ new.mounts := by
  intro m hm
  rw [List.mem_append]
  cases hphase : s.phase with
  | ready =>
    rw [hphase] at hm
    exact .inl hm
  | cleared =>
    rw [hphase] at hm
    cases hm
  | mounting added rest =>
    rw [hphase] at hm
    rw [← h.mounting added rest hphase]
    exact .inr (List.mem_append_left _ hm)
  | linking added rest | finished =>
    rw [hphase] at hm
    exact .inr hm
  | failed mounts =>
    rw [hphase] at hm
    exact .inr (h.failed mounts hphase hm)

/-- At a mount point of the phase a provider of the plans answers for its root. -/
theorem Tables.providerAt (h : Tables old new s)
    (hpath : ∃ m ∈ mountsIn old new s.phase, m.path = path) :
    ∃ route, s.ns.providerAt path = some route ∧ route.relativePath = VirtualPath.root ∧
      ∃ m ∈ old.mounts ++ new.mounts, m.path = path ∧ m.provider = route.provider := by
  have hmem : path ∈ s.ns.mounts := by
    rw [h.mounts]
    exact mem_mountTable.mpr hpath
  obtain ⟨mounted, hlookup, hroute⟩ := providerAt_of_mem hmem
  rw [h.mounts] at hlookup
  obtain ⟨m, hm, hat, hprovider⟩ := lookup_mountTable hlookup
  exact ⟨_, hroute, rfl, m, h.mountsIn_subset hm, hat, hprovider⟩

theorem served_stepLookup (hroots : RootsKnown old new path) (htables : Tables old new s)
    {lookup next : Lookup} (hstep : stepLookup s.ns lookup = some next)
    (hlookup : lookup ≠ .synthetic path)
    (hgap : lookup.readsMounts path = true → ∃ m ∈ mountsIn old new s.phase, m.path = path) :
    next ≠ .synthetic path ∧ next ≠ .answered path (.error .notFound) := by
  cases lookup with
  | aliases p =>
    simp only [stepLookup] at hstep
    split at hstep
    · cases hstep
      simp
    · cases hstep
      simp
  | mounts p =>
    by_cases hp : p = path
    · obtain ⟨route, hroute, hroot, m, hm, hat, hprovider⟩ :=
        htables.providerAt (hgap (by simpa [Lookup.readsMounts] using hp))
      have hanswer := hroots m hm hat
      rw [hprovider, ← hroot] at hanswer
      rw [hp] at hstep
      simp only [stepLookup, hroute, Option.some.injEq] at hstep
      subst hstep
      simpa using hanswer
    · simp only [stepLookup] at hstep
      split at hstep
      · cases hstep
        simp [hp]
      · split at hstep
        · cases hstep
          simp
        · cases hstep
          simp [hp]
  | synthetic p =>
    have hp : p ≠ path := fun h => hlookup (h ▸ rfl)
    simp only [stepLookup] at hstep
    split at hstep
    · cases hstep
      simp
    · cases hstep
      simp [hp]
  | answered p answer => cases hstep

theorem Served.step (hroots : RootsKnown old new path) (htables : Tables old new s)
    (h : Served path s) (hgap : OutsideGap old new path s a)
    (hstep : (traffic old new).step s a = some s') : Served path s' := by
  rcases traffic_step hstep with ⟨ns, phase, -, -, rfl⟩ | ⟨p, -, rfl⟩ |
    ⟨i, lookup, next, rfl, hlookup, hnext, rfl⟩
  · exact h
  · intro lookup hmem
    rcases List.mem_append.mp hmem with hmem | hmem
    · exact h lookup hmem
    · cases List.mem_singleton.mp hmem
      simp
  · intro other hmem
    rcases List.mem_or_eq_of_mem_set hmem with hmem | rfl
    · exact h other hmem
    · refine served_stepLookup hroots htables hnext (h lookup (List.mem_of_getElem? hlookup)).1 ?_
      intro hreads
      exact hgap (by simp [hlookup, hreads])

/-- **A rebuild is an outage only in the gap.** Let every provider that the old or
the new plan mounts at the path know its own root. As long as each lookup of the path
that found no alias reads the mounts while the path is one of them, none of them
answers `NotFound`, wherever the rebuild is. -/
theorem no_lookup_in_the_gap {path : VirtualPath} (hroots : RootsKnown old new path)
    {s : Traffic} (h : (traffic old new).Reach (OutsideGap old new path) s)
    {answer : Except VfsError VirtualMetadata} (hanswer : .answered path answer ∈ s.lookups) :
    answer ≠ .error .notFound := by
  have hinv : Tables old new s ∧ Served path s := by
    refine Machine.Reach.invariant (I := fun s => Tables old new s ∧ Served path s) ?_ ?_ h
    · rintro s rfl
      exact ⟨Tables.init, by simp [Served]⟩
    · rintro s a s' ⟨htables, hserved⟩ hgap hstep
      exact ⟨htables.step hstep, hserved.step hroots htables hgap hstep⟩
  rintro rfl
  exact (hinv.2 _ hanswer).2 rfl

def samplePath : VirtualPath :=
  ⟨[⟨[97], by decide, by decide, by decide, by decide, by decide⟩], by decide⟩

/-- A plan with an empty directory at `/a`. -/
def samplePlan : NamespacePlan :=
  { NamespacePlan.empty with
    mounts := [⟨samplePath, "image:a",
      { lookup := fun _ _ => .error .notFound
        getattr := fun path =>
          if path.isRoot then .ok (VirtualMetadata.directory []) else .error .notFound
        readDir := fun _ => .ok []
        readLink := fun _ => .error .notFound }⟩] }

theorem samplePlan_rootsKnown : RootsKnown samplePlan samplePlan samplePath := by
  intro m hm _
  have hplan : samplePlan.mounts ++ samplePlan.mounts = List.replicate 2 samplePlan.mounts[0] := rfl
  rw [hplan] at hm
  rw [List.eq_of_mem_replicate hm]
  simp [samplePlan, VirtualPath.isRoot, VirtualPath.root]

/-- One lookup reads the mounts before the rebuild, one after the mount is back. -/
def aroundTheGap : List Act :=
  [.ask samplePath, .advance 0, .advance 0, .rebuild, .rebuild, .ask samplePath, .advance 1,
    .rebuild, .advance 1]

theorem lookups_around_the_gap :
    ∃ s answer₀ answer₁, (traffic samplePlan samplePlan).exec
        ⟨⟨mountTable samplePlan.mounts, aliasTable samplePlan.aliases⟩, .ready, []⟩
        aroundTheGap = some s ∧
      s.lookups = [.answered samplePath answer₀, .answered samplePath answer₁] ∧
      answer₀ ≠ .error .notFound ∧ answer₁ ≠ .error .notFound := by
  have hgap : (traffic samplePlan samplePlan).AllSteps (OutsideGap samplePlan samplePlan samplePath)
      ⟨⟨mountTable samplePlan.mounts, aliasTable samplePlan.aliases⟩, .ready, []⟩
      aroundTheGap := by
    decide +kernel
  refine ⟨_, _, _, rfl, rfl, ?_, ?_⟩
  · exact no_lookup_in_the_gap samplePlan_rootsKnown (Machine.reach_of_exec (.init rfl) hgap rfl)
      (by exact List.mem_cons_self)
  · exact no_lookup_in_the_gap samplePlan_rootsKnown (Machine.reach_of_exec (.init rfl) hgap rfl)
      (by exact List.mem_cons_of_mem _ List.mem_cons_self)

/-! ## The gap -/

/-- **Every rebuild has a gap.** Whatever the plans are, a lookup of any path below
the root that runs right after the clearing answers `NotFound`. -/
theorem every_rebuild_has_a_gap (old new : NamespacePlan) (path : VirtualPath)
    (hroot : path.isRoot = false) :
    ∃ s, (traffic old new).exec
        ⟨⟨mountTable old.mounts, aliasTable old.aliases⟩, .ready, []⟩
        [.ask path, .rebuild, .rebuild, .advance 0, .advance 0, .advance 0] = some s ∧
      s.phase = .mounting [] new.mounts ∧
      s.lookups = [.answered path (.error .notFound)] := by
  have haliases : stepLookup ⟨∅, ∅⟩ (.aliases path) = some (.mounts path) := rfl
  have hmounts : stepLookup ⟨∅, ∅⟩ (.mounts path) = some (.synthetic path) := by
    simp [stepLookup, hroot, providerAt]
  have hsynthetic : stepLookup ⟨∅, ∅⟩ (.synthetic path) =
      some (.answered path (.error .notFound)) := by
    simp [stepLookup, isSyntheticDirectory, hroot]
  refine ⟨⟨⟨∅, ∅⟩, .mounting [] new.mounts, [.answered path (.error .notFound)]⟩, ?_, rfl, rfl⟩
  simp [Machine.exec, traffic, stepRebuild, haliases, hmounts, hsynthetic]

/-- Both plans have `/a`, and while the rebuild runs a lookup does not find it. -/
theorem rebuild_is_an_outage : ∃ s,
    InBoth samplePlan samplePlan samplePath ∧ RootsKnown samplePlan samplePlan samplePath ∧
      (traffic samplePlan samplePlan).Reach (fun _ _ => True) s ∧
      s.phase = .mounting [] samplePlan.mounts ∧
      .answered samplePath (.error .notFound) ∈ s.lookups := by
  obtain ⟨s, hrun, hphase, hlookups⟩ := every_rebuild_has_a_gap samplePlan samplePlan
    samplePath rfl
  have hboth : InBoth samplePlan samplePlan samplePath :=
    ⟨Or.inl ⟨_, List.mem_singleton.mpr rfl, rfl⟩, Or.inl ⟨_, List.mem_singleton.mpr rfl, rfl⟩⟩
  refine ⟨s, hboth, samplePlan_rootsKnown, ?_, hphase, by simp [hlookups]⟩
  exact Machine.reach_of_exec (.init rfl) (Machine.allSteps_of_forall (fun _ _ => trivial) _ _) hrun

end TuxStack.Daemon
