import TuxStack.Docker.Container

/-!
# Inodes of containers

`DaemonState::add_container` (`crates/tuxstack-daemon/src/state.rs`) attaches
every container with a generation of its own, taken from one counter; a refresh
then counts the container's own copy up. The inode of a synthetic mount-route
directory is decided by its path inside the container and that generation, so
containers stay apart as long as their generations do.

A `World` is the adapter over a namespace with some containers attached.
`routes` is a history variable: which synthetic directory of which container was
answered with which inode.
-/

namespace TuxStack.Docker

open Vfs Tar Result Runs

/-! ## Attached containers -/

/-- A container as `add_container` leaves it in the namespace; `initial` is the
generation it was attached with. -/
structure AttachedContainer where
  mountPath : VirtualPath
  initial : Nat
  router : ContainerProviderRouter

def AttachedContainer.generation (c : AttachedContainer) : Nat := c.router.rootfs.generation

/-- A synthetic directory of a container was answered with an inode. -/
structure RouteServed where
  container : Nat
  path : VirtualPath
  inode : Nat
deriving DecidableEq

/-- `others` holds the mounts and aliases that are not containers. -/
structure World where
  containers : List AttachedContainer
  others : NamespaceProvider
  adapter : Adapter
  routes : List RouteServed

namespace World

def mountContainer (failure : VfsError) (ns : NamespaceProvider) (c : AttachedContainer) :
    NamespaceProvider :=
  { ns with
    mounts := ns.mounts.insert c.mountPath
      ⟨"container:" ++ c.router.router.containerId, c.router.toProvider failure⟩ }

/-- The namespace behind the adapter, where captures that are still to be made
fail with `failure`. -/
def namespaceOf (w : World) (failure : VfsError) : NamespaceProvider :=
  w.containers.foldl (mountContainer failure) w.others

/-- The synthetic directory of container `index` that an answer shows. -/
def routeOf (s : Served) (c : AttachedContainer) (index : Nat) : Option RouteServed :=
  (s.path.stripPrefix c.mountPath).bind fun path =>
    if c.router.isMountRouteParent path ∧
        s.metadata = c.router.syntheticMountRouteMetadata path then
      some ⟨index, path, s.inode⟩
    else none

/-- The synthetic directories among new answers. -/
def routesOf (w : World) (served : List Served) : List RouteServed :=
  served.flatMap fun s => w.containers.zipIdx.filterMap fun c => routeOf s c.1 c.2

inductive Action where
  | refresh (index : Nat) (exported : Except VfsError ArchiveByteStream)
  | capture (index : Nat) (exported : Except VfsError ArchiveByteStream)
  | changeMount (index : Nat) (mount : Nat) (provider : Provider)
  | changeOthers (others : NamespaceProvider)
  | call (failure : VfsError) (c : Adapter.Call)

def setRouter (w : World) (index : Nat) (c : AttachedContainer) :
    Except VfsError ContainerProviderRouter → World
  | .ok router => { w with containers := w.containers.set index { c with router := router } }
  | .error _ => w

/-- Another answering provider behind one mount of a container. -/
def changeMount (c : ContainerProviderRouter) (mount : Nat) (provider : Provider) :
    ContainerProviderRouter :=
  { c with router :=
      { c.router with mounts := c.router.mounts.modify mount fun m =>
          { m with provider := provider } } }

def step (w : World) : Action → Option World
  | .refresh index exported =>
    w.containers[index]?.map fun c => w.setRouter index c (c.router.refresh exported)
  | .capture index exported =>
    w.containers[index]?.map fun c => w.setRouter index c (c.router.capture exported)
  | .changeMount index mount provider =>
    w.containers[index]?.map fun c =>
      w.setRouter index c (.ok (changeMount c.router mount provider))
  | .changeOthers others => some { w with others := others }
  | .call failure c =>
    let adapter := w.adapter.after (w.namespaceOf failure).toProvider c
    let served := adapter.served.take (adapter.served.length - w.adapter.served.length)
    some { w with adapter := adapter, routes := w.routesOf served ++ w.routes }

/-- A fresh adapter, and containers at pairwise distinct initial generations. -/
def Initial (w : World) : Prop :=
  (∃ provider resource daemonIdentity providerKey,
      Adapter.new provider resource daemonIdentity providerKey = .ok w.adapter) ∧
    w.routes = [] ∧ (∀ c ∈ w.containers, c.generation = c.initial) ∧
    (w.containers.map AttachedContainer.initial).Nodup

def machine : Machine World Action where
  init := Initial
  step := step

/-- No refresh takes a container to a generation that another one has or had. -/
def FreshGeneration (w : World) : Action → Prop
  | .refresh index _ => ∀ c, w.containers[index]? = some c →
      ∀ other d, other ≠ index → w.containers[other]? = some d →
        ¬ (d.initial ≤ c.generation + 1 ∧ c.generation + 1 ≤ d.generation)
  | _ => True

/-! ## The invariant -/

/-- Every recorded route was served at a generation of its container, and no two
containers have had a generation in common. -/
structure Sound (w : World) : Prop where
  adapter : w.adapter.GenerationSound
  bounds : ∀ (i : Nat) (c : AttachedContainer), w.containers[i]? = some c →
    c.initial ≤ c.generation
  routes : ∀ r ∈ w.routes, ∃ (c : AttachedContainer) (s : Served),
    w.containers[r.container]? = some c ∧ s ∈
    w.adapter.served ∧ s.inode = r.inode ∧ c.initial ≤ s.metadata.generation ∧
      s.metadata.generation ≤ c.generation
  apart : ∀ (i j : Nat) (c d : AttachedContainer) (g : Nat), i ≠ j →
    w.containers[i]? = some c → w.containers[j]? = some d →
    c.initial ≤ g → g ≤ c.generation → d.initial ≤ g → g ≤ d.generation → False

theorem served_suffix (a : Adapter) (provider : Provider) (c : Adapter.Call) :
    a.served <:+ (a.after provider c).served := by
  have hstable : Adapter.Stable provider fun a' => a.served <:+ a'.served :=
    { cache := by
        intro a' path metadata ha _
        obtain ⟨-, hserved⟩ | ⟨inode, -, -, hserved⟩ := Adapter.cacheNode_cases a' path metadata
        · rwa [hserved]
        · rw [hserved]
          exact ha.trans (List.suffix_cons _ _)
      renew := fun _ _ _ _ ha _ => ha
      forget := fun _ _ _ ha => ha }
  exact hstable.after List.suffix_rfl c

variable {w : World} {exported : Except VfsError ArchiveByteStream}

theorem sound_initial (h : Initial w) : Sound w := by
  obtain ⟨⟨provider, resource, daemonIdentity, providerKey, hnew⟩, hroutes, hgen, hnodup⟩ := h
  refine ⟨Adapter.generationSound_of_new hnew, fun i c hc => ?_, fun r hr => ?_, ?_⟩
  · exact (hgen c (List.mem_of_getElem? hc)).ge
  · rw [hroutes] at hr
    cases hr
  · intro i j c d g hij hc hd hcg hgc hdg hgd
    rw [hgen c (List.mem_of_getElem? hc)] at hgc
    rw [hgen d (List.mem_of_getElem? hd)] at hgd
    have hinit : c.initial = d.initial := by omega
    have hi : (w.containers.map AttachedContainer.initial)[i]? = some c.initial := by simp [hc]
    have hj : (w.containers.map AttachedContainer.initial)[j]? = some c.initial := by
      simp [hd, hinit]
    exact hij ((List.getElem?_inj (List.getElem?_eq_some_iff.mp hi).1 hnodup).mp
      (hi.trans hj.symm))

/-- Replacing the router of one container by one whose generation is the same or
the next, unused one. -/
theorem sound_setRouter (hw : Sound w) {index : Nat} {c : AttachedContainer}
    (hc : w.containers[index]? = some c) {router : ContainerProviderRouter}
    (hgen : router.rootfs.generation = c.generation ∨
      (router.rootfs.generation = c.generation + 1 ∧
        ∀ other d, other ≠ index → w.containers[other]? = some d →
          ¬ (d.initial ≤ c.generation + 1 ∧ c.generation + 1 ≤ d.generation))) :
    Sound (w.setRouter index c (.ok router)) := by
  have hlt : index < w.containers.length := (List.getElem?_eq_some_iff.mp hc).1
  have hset : ∀ i x, (w.containers.set index { c with router := router })[i]? = some x →
      (i = index ∧ x = { c with router := router }) ∨ (i ≠ index ∧ w.containers[i]? = some x) := by
    intro i x hx
    by_cases hi : i = index
    · subst hi
      rw [List.getElem?_set_self hlt] at hx
      exact .inl ⟨rfl, (Option.some.inj hx).symm⟩
    · rw [List.getElem?_set_ne (Ne.symm hi)] at hx
      exact .inr ⟨hi, hx⟩
  have hge : c.generation ≤ router.rootfs.generation := by
    rcases hgen with h | ⟨h, -⟩ <;> omega
  have hnew : ∀ g, c.initial ≤ g → g ≤ router.rootfs.generation → ∀ j d, j ≠ index →
      w.containers[j]? = some d → d.initial ≤ g → g ≤ d.generation → False := by
    intro g hcg hgc j d hj hd hdg hgd
    by_cases hold : g ≤ c.generation
    · exact hw.apart index j c d g (Ne.symm hj) hc hd hcg hold hdg hgd
    · rcases hgen with h | ⟨h, hfresh⟩
      · omega
      · have hg : g = c.generation + 1 := by omega
        subst hg
        exact hfresh j d hj hd ⟨hdg, hgd⟩
  refine ⟨hw.adapter, fun i x hx => ?_, fun r hr => ?_, ?_⟩
  · rcases hset i x hx with ⟨-, rfl⟩ | ⟨-, hx⟩
    · exact (hw.bounds index c hc).trans hge
    · exact hw.bounds i x hx
  · obtain ⟨d, s, hd, hs, hinode, hlow, hhigh⟩ := hw.routes r hr
    by_cases hr : r.container = index
    · rw [hr, hc] at hd
      cases hd
      refine ⟨{ c with router := router }, s, ?_, hs, hinode, hlow, hhigh.trans hge⟩
      change (w.containers.set index _)[r.container]? = _
      rw [hr, List.getElem?_set_self hlt]
    · refine ⟨d, s, ?_, hs, hinode, hlow, hhigh⟩
      change (w.containers.set index _)[r.container]? = _
      rw [List.getElem?_set_ne (Ne.symm hr), hd]
  · intro i j x y g hij hx hy hxg hgx hyg hgy
    rcases hset i x hx with ⟨rfl, rfl⟩ | ⟨hi, hxi⟩
    · rcases hset j y hy with ⟨rfl, -⟩ | ⟨hj, hyj⟩
      · exact hij rfl
      · exact hnew g hxg hgx j y hj hyj hyg hgy
    · rcases hset j y hy with ⟨rfl, rfl⟩ | ⟨hj, hyj⟩
      · exact hnew g hyg hgy i x hi hxi hxg hgx
      · exact hw.apart i j x y g hij hxi hyj hxg hgx hyg hgy

theorem captureGeneration_ok {p p' : ContainerRootfsSnapshotProvider} {generation : Nat}
    (h : p.captureGeneration exported generation = .ok p') : p'.generation = generation := by
  obtain ⟨stream, -, h⟩ := bind_eq_ok.mp h
  obtain ⟨index, -, h⟩ := bind_eq_ok.mp h
  obtain ⟨overlaid, -, h⟩ := bind_eq_ok.mp h
  cases h
  rfl

theorem refresh_generation {c c' : ContainerProviderRouter} (h : c.refresh exported = .ok c') :
    c'.rootfs.generation = c.rootfs.generation + 1 := by
  obtain ⟨rootfs, hrootfs, h⟩ := bind_eq_ok.mp h
  cases h
  unfold ContainerRootfsSnapshotProvider.refresh at hrootfs
  split at hrootfs
  · exact captureGeneration_ok hrootfs
  · cases hrootfs

theorem capture_generation {c c' : ContainerProviderRouter} (h : c.capture exported = .ok c') :
    c'.rootfs.generation = c.rootfs.generation := by
  obtain ⟨rootfs, hrootfs, h⟩ := bind_eq_ok.mp h
  cases h
  exact captureGeneration_ok hrootfs

theorem mem_routesOf {served : List Served} {r : RouteServed} (h : r ∈ w.routesOf served) :
    ∃ s ∈ served, ∃ c, w.containers[r.container]? = some c ∧ s.inode = r.inode ∧
      s.metadata.generation = c.generation := by
  obtain ⟨s, hs, h⟩ := List.mem_flatMap.mp h
  obtain ⟨⟨c, i⟩, hc, h⟩ := List.mem_filterMap.mp h
  obtain ⟨path, -, h⟩ := Option.bind_eq_some_iff.mp h
  split at h
  · rename_i hroute
    cases h
    refine ⟨s, hs, c, List.mk_mem_zipIdx_iff_getElem?.mp hc, rfl, ?_⟩
    rw [hroute.2]
    rfl
  · cases h

/-- **One step** under the guard keeps the invariant. -/
theorem sound_step {w' : World} {a : Action} (hw : Sound w) (hok : FreshGeneration w a)
    (h : w.step a = some w') : Sound w' := by
  cases a with
  | refresh index exported =>
    obtain ⟨c, hc, rfl⟩ := Option.map_eq_some_iff.mp h
    cases hrefresh : c.router.refresh exported with
    | error e => exact hw
    | ok router =>
      exact sound_setRouter hw hc (.inr ⟨refresh_generation hrefresh, hok c hc⟩)
  | capture index exported =>
    obtain ⟨c, hc, rfl⟩ := Option.map_eq_some_iff.mp h
    cases hcapture : c.router.capture exported with
    | error e => exact hw
    | ok router => exact sound_setRouter hw hc (.inl (capture_generation hcapture))
  | changeMount index mount provider =>
    obtain ⟨c, hc, rfl⟩ := Option.map_eq_some_iff.mp h
    exact sound_setRouter hw hc (.inl rfl)
  | changeOthers others =>
    cases h
    exact { hw with }
  | call failure c =>
    cases h
    have hsuffix := served_suffix w.adapter (w.namespaceOf failure).toProvider c
    refine ⟨(Adapter.stable_generationSound _).after hw.adapter c, hw.bounds, ?_, hw.apart⟩
    intro r hr
    rcases List.mem_append.mp hr with hnew | hold
    · obtain ⟨s, hs, c', hc', hinode, hgen⟩ := mem_routesOf hnew
      refine ⟨c', s, hc', List.mem_of_mem_take hs, hinode, ?_, hgen.le⟩
      rw [hgen]
      exact hw.bounds _ c' hc'
    · obtain ⟨c', s, hc', hs, hinode, hlow, hhigh⟩ := hw.routes r hold
      exact ⟨c', s, hc', hsuffix.subset hs, hinode, hlow, hhigh⟩

/-- **Inode identity across containers.** In every run whose refreshes never take
a container to a generation that another container has or had, two synthetic
mount-route directories of different containers never have the same inode. -/
theorem routes_of_containers_apart {w : World} (h : machine.Reach FreshGeneration w)
    {r r' : RouteServed} (hr : r ∈ w.routes) (hr' : r' ∈ w.routes)
    (hne : r.container ≠ r'.container) : r.inode ≠ r'.inode := by
  have hw : Sound w := h.invariant (fun s hs => sound_initial hs)
    (fun s a s' hs hok hstep => sound_step hs hok hstep)
  intro hinode
  obtain ⟨c, s, hc, hs, hsi, hlow, hhigh⟩ := hw.routes r hr
  obtain ⟨c', s', hc', hs', hsi', hlow', hhigh'⟩ := hw.routes r' hr'
  have hgen := hw.adapter.eq hs hs' (by rw [hsi, hsi', hinode])
  rw [← hgen] at hlow' hhigh'
  exact hw.apart _ _ c c' _ hne hc hc' hlow hhigh hlow' hhigh'

/-! ## Two containers -/

/-- A provider that answers every path with a file, standing in for the archive
provider of a runtime mount. -/
def hostsProvider : Provider where
  lookup _ _ := .error .notFound
  getattr _ := .ok (VirtualMetadata.new (ascii "hosts") .regularFile 0)
  readDir _ := .error .notDirectory
  readLink _ := .error (.invalidInput "node is not a symlink")

/-- A container with the runtime mount `/etc/hosts`, attached at `generation`. -/
def sampleContainer (id : String) (generation : Nat) : AttachedContainer where
  mountPath := pathOf ("/containers/.by-id/" ++ id)
  initial := generation
  router :=
    { router := ⟨id, [⟨pathOf "/etc/hosts", "archive", VirtualPath.root, hostsProvider⟩], ""⟩
      rootfs := ⟨id, generation, TarLimits.standard, [pathOf "/etc/hosts"], none⟩ }

def sampleId (c : Char) : String := String.ofList (List.replicate 64 c)

/-- Containers `a` and `b`, attached at generations 1 and 2. -/
def sampleWorld : World where
  containers := [sampleContainer (sampleId 'a') 1, sampleContainer (sampleId 'b') 2]
  others := NamespaceProvider.new
  adapter := Adapter.fresh
  routes := []

def refreshThenLookUp (index : Nat) : List Action :=
  .refresh index (.ok [.ok (archive [])]) ::
    [(1, "containers"), (2, ".by-id"), (3, sampleId 'a'), (3, sampleId 'b')].map fun c =>
      .call .timedOut (.lookup c.1 (ascii c.2))

theorem initial_sampleWorld : machine.init sampleWorld :=
  ⟨⟨NamespaceProvider.new.toProvider, .volume "namespace", "daemon", "docker-namespace", rfl⟩,
    rfl, by decide, by decide⟩

/-- Refreshing `a` takes it to the generation of `b`, and the roots of both
containers are answered with inode 4. -/
theorem refreshed_container_shares_inode :
    machine.init sampleWorld ∧
      ∃ w, machine.exec sampleWorld (refreshThenLookUp 0) = some w ∧
        ∃ r ∈ w.routes, ∃ r' ∈ w.routes, r.container ≠ r'.container ∧ r.inode = r'.inode := by
  have hroutes : (machine.exec sampleWorld (refreshThenLookUp 0)).map World.routes =
      some [⟨1, VirtualPath.root, 4⟩, ⟨0, VirtualPath.root, 4⟩] := by
    decide +kernel
  obtain ⟨w, hw, hr⟩ := Option.map_eq_some_iff.mp hroutes
  refine ⟨initial_sampleWorld, w, hw, ⟨1, VirtualPath.root, 4⟩, ?_, ⟨0, VirtualPath.root, 4⟩, ?_,
    by decide, rfl⟩
  · simp [hr]
  · simp [hr]

/-- Refreshing `b`, which nothing follows, keeps the two apart. -/
theorem last_container_refreshed_apart :
    ∃ w, machine.exec sampleWorld (refreshThenLookUp 1) = some w ∧
      ∃ r ∈ w.routes, ∃ r' ∈ w.routes, r.container ≠ r'.container ∧ r.inode ≠ r'.inode := by
  have hroutes : (machine.exec sampleWorld (refreshThenLookUp 1)).map World.routes =
      some [⟨1, VirtualPath.root, 5⟩, ⟨0, VirtualPath.root, 4⟩] := by
    decide +kernel
  obtain ⟨w, hw, hr⟩ := Option.map_eq_some_iff.mp hroutes
  have hsteps : machine.AllSteps FreshGeneration sampleWorld (refreshThenLookUp 1) := by
    refine ⟨?_, fun s _ => ?_⟩
    · rintro c ⟨⟩ other d hother hd ⟨hlow, hhigh⟩
      cases other with
      | zero =>
        cases hd
        exact absurd hhigh (by decide)
      | succ other =>
        cases other with
        | zero => exact hother rfl
        | succ other => cases hd
    · exact ⟨trivial, fun _ _ => ⟨trivial, fun _ _ => ⟨trivial, fun _ _ =>
      ⟨trivial, fun _ _ => trivial⟩⟩⟩⟩
  have hreach := Machine.reach_of_exec (.init initial_sampleWorld) hsteps hw
  have hfirst : (⟨1, VirtualPath.root, 5⟩ : RouteServed) ∈ w.routes := by simp [hr]
  have hsecond : (⟨0, VirtualPath.root, 4⟩ : RouteServed) ∈ w.routes := by simp [hr]
  exact ⟨w, hw, _, hfirst, _, hsecond, by decide,
    routes_of_containers_apart hreach hfirst hsecond (by decide)⟩

end World

end TuxStack.Docker
