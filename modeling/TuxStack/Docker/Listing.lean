import TuxStack.Docker.Container
import TuxStack.Lib.SortedKeys
import TuxStack.Vfs.Walk

/-!
# A container's listing and its nodes

`ContainerProviderRouter::read_dir` merges what the covering provider lists with
the mounts below the directory; `getattr` routes every path by itself.
`readDir_agrees` says that the two tell the same, for any mounts with distinct
destinations over consistent providers.

One thing can come between: `getattr` translates a path before it looks whether
the path is only the parent of a mount, and the translation may be too long for a
path (`synthetic_parent_too_long`).
-/

namespace TuxStack.Docker

open Vfs Result SortedKeys

/-! ## Consistent providers -/

def StrictlySorted (entries : List VirtualDirectoryEntry) : Prop :=
  entries.Pairwise fun left right => compare left.name.bytes right.name.bytes = .lt

/-- A provider whose listings are its nodes. -/
structure Consistent (provider : Provider) : Prop where
  sorted : ∀ (d : VirtualPath) (entries : List VirtualDirectoryEntry),
    provider.readDir d = .ok entries → StrictlySorted entries
  listed : ∀ (d : VirtualPath) (entries : List VirtualDirectoryEntry),
    provider.readDir d = .ok entries → ∀ (name : VirtualFileName) (md : VirtualMetadata),
      ⟨name, md⟩ ∈ entries ↔ ∃ q, d.join name = .ok q ∧ provider.getattr q = .ok md
  missing : ∀ (d : VirtualPath) (e : VfsError), provider.readDir d = .error e →
    e = .notFound ∨ e = .notDirectory →
      ∀ (name : VirtualFileName) (q : VirtualPath) (md : VirtualMetadata),
        d.join name = .ok q → provider.getattr q ≠ .ok md

theorem StrictlySorted.nodup {entries : List VirtualDirectoryEntry} (h : StrictlySorted entries) :
    (entries.map fun entry => entry.name).Nodup := by
  rw [List.Nodup, List.pairwise_map]
  refine h.imp ?_
  intro left right hlt heq
  rw [heq, Std.ReflOrd.compare_self] at hlt
  cases hlt

/-! ## The order of the mounts -/

namespace ContainerPathRouter

theorem mountLe_iff {a b : ResolvedContainerMount} : mountLe a b = true ↔
    RankedLe (fun mount : ResolvedContainerMount => mount.destination.asBytes)
      (fun mount => OrderDual.toDual mount.destination.depth) a b := by
  simp [mountLe, RankedLe]

theorem mountLe_trans (a b c : ResolvedContainerMount) (hab : mountLe a b = true)
    (hbc : mountLe b c = true) : mountLe a c = true :=
  mountLe_iff.mpr ((mountLe_iff.mp hab).trans _ _ (mountLe_iff.mp hbc))

theorem mountLe_total (a b : ResolvedContainerMount) :
    (mountLe a b || mountLe b a) = true := by
  rw [Bool.or_eq_true, mountLe_iff, mountLe_iff]
  exact RankedLe.total _ _ a b

end ContainerPathRouter

/-- Mounts as a router keeps them: deep ones first, one for a destination. -/
structure Arranged (mounts : List ResolvedContainerMount) : Prop where
  deepFirst : mounts.Pairwise fun a b => b.destination.depth ≤ a.destination.depth
  distinct : (mounts.map fun mount => mount.destination).Nodup

variable {mounts : List ResolvedContainerMount}

theorem arranged_of_new {containerId rootfsKey : String} {router : ContainerPathRouter}
    (hnew : ContainerPathRouter.new containerId rootfsKey mounts = .ok router)
    (hdistinct : (mounts.map fun mount => mount.destination).Nodup) :
    Arranged router.mounts ∧ router.mounts.Perm mounts := by
  unfold ContainerPathRouter.new at hnew
  split at hnew
  · cases hnew
  · cases hnew
    have hperm := List.mergeSort_perm mounts ContainerPathRouter.mountLe
    refine ⟨⟨?_, ?_⟩, hperm⟩
    · refine (List.pairwise_mergeSort ContainerPathRouter.mountLe_trans
        ContainerPathRouter.mountLe_total mounts).imp ?_
      intro a b hle
      simp only [ContainerPathRouter.mountLe, Bool.or_eq_true, Bool.and_eq_true,
        decide_eq_true_eq] at hle
      omega
    · exact (hperm.map _).nodup_iff.mpr hdistinct

theorem Arranged.eq_of_destination (h : Arranged mounts) {a b : ResolvedContainerMount}
    (ha : a ∈ mounts) (hb : b ∈ mounts) (heq : a.destination = b.destination) : a = b :=
  List.inj_on_of_nodup_map h.distinct ha hb heq

theorem Arranged.find_exact (h : Arranged mounts) {mount : ResolvedContainerMount}
    (hmount : mount ∈ mounts) {path : VirtualPath} (hpath : mount.destination = path) :
    mounts.find? (fun mount => path.startsWith mount.destination) = some mount := by
  induction mounts with
  | nil => cases hmount
  | cons first rest ih =>
    have hself : path.startsWith path = true :=
      VirtualPath.startsWith_iff.mpr (List.prefix_refl _)
    obtain ⟨hdeep, hdeepRest⟩ := List.pairwise_cons.mp h.deepFirst
    have hrest : Arranged rest := ⟨hdeepRest, (List.nodup_cons.mp h.distinct).2⟩
    by_cases hcovers : path.startsWith first.destination = true
    · simp only [List.find?_cons, hcovers]
      rcases List.mem_cons.mp hmount with rfl | hmem
      · rfl
      · -- a covering mount before the exact one is as deep, so it is there too
        have hle := hdeep mount hmem
        have hpre := VirtualPath.startsWith_iff.mp hcovers
        have heq : first.destination = mount.destination := by
          rw [hpath] at hle ⊢
          exact VirtualPath.ext (hpre.eq_of_length_le hle)
        rw [h.eq_of_destination (by simp) hmount heq]
    · simp only [List.find?_cons, Bool.eq_false_iff.mpr hcovers]
      rcases List.mem_cons.mp hmount with rfl | hmem
      · rw [hpath, hself] at hcovers
        exact absurd rfl hcovers
      · exact ih hrest hmem

/-! ## Merging mounts into a listing -/

namespace ContainerProviderRouter

variable {c : ContainerProviderRouter} {failure : VfsError} {path : VirtualPath}

variable {name : VirtualFileName} {mount : ResolvedContainerMount} {child : VirtualPath}
  {entries : List VirtualDirectoryEntry} {route : ResolvedRoute}

theorem mem_setEntry {metadata : VirtualMetadata} :
    ∀ {entries : List VirtualDirectoryEntry}, (entries.map fun entry => entry.name).Nodup →
      ∀ (n : VirtualFileName) (md : VirtualMetadata), ⟨n, md⟩ ∈ setEntry name metadata entries ↔
        (n = name ∧ md = metadata) ∨ (n ≠ name ∧ ⟨n, md⟩ ∈ entries) := by
  intro entries
  induction entries with
  | nil =>
    intro _ n md
    simp [setEntry]
  | cons entry entries ih =>
    intro hnodup n md
    rw [List.map_cons] at hnodup
    obtain ⟨hfresh, hnodup⟩ := List.nodup_cons.mp hnodup
    unfold setEntry
    by_cases hname : entry.name = name
    · rw [if_pos hname, List.mem_cons, VirtualDirectoryEntry.mk.injEq, hname]
      constructor
      · rintro (h | hmem)
        · exact .inl h
        · refine .inr ⟨?_, List.mem_cons_of_mem _ hmem⟩
          rintro rfl
          exact hfresh (List.mem_map.mpr ⟨_, hmem, hname.symm⟩)
      · rintro (h | ⟨hne, hmem⟩)
        · exact .inl h
        · rcases List.mem_cons.mp hmem with heq | hmem
          · rw [← heq] at hname
            exact absurd hname hne
          · exact .inr hmem
    · rw [if_neg hname, List.mem_cons, List.mem_cons, ih hnodup n md]
      constructor
      · rintro (rfl | hset | ⟨hne, hmem⟩)
        · exact .inr ⟨hname, .inl rfl⟩
        · exact .inl hset
        · exact .inr ⟨hne, .inr hmem⟩
      · rintro (hset | ⟨hne, heq | hmem⟩)
        · exact .inr (.inl hset)
        · exact .inl heq
        · exact .inr (.inr ⟨hne, hmem⟩)

theorem nodup_setEntry {metadata : VirtualMetadata} :
    ∀ {entries : List VirtualDirectoryEntry}, (entries.map fun entry => entry.name).Nodup →
      ((setEntry name metadata entries).map fun entry => entry.name).Nodup := by
  intro entries
  induction entries with
  | nil =>
    intro _
    simp [setEntry]
  | cons entry entries ih =>
    intro hnodup
    have hall := hnodup
    rw [List.map_cons] at hnodup
    obtain ⟨hfresh, hnodup⟩ := List.nodup_cons.mp hnodup
    unfold setEntry
    by_cases hname : entry.name = name
    · rw [if_pos hname]
      exact hall
    · rw [if_neg hname, List.map_cons]
      refine List.nodup_cons.mpr ⟨?_, ih hnodup⟩
      intro hmem
      obtain ⟨⟨n, md⟩, hset, hn⟩ := List.mem_map.mp hmem
      rcases (mem_setEntry hnodup n md).mp hset with ⟨heq, -⟩ | ⟨-, hold⟩
      · exact hname (hn.symm.trans heq)
      · exact hfresh (List.mem_map.mpr ⟨_, hold, hn⟩)

/-- The mount is at the child `name` of `path` or below it. -/
def through (path : VirtualPath) (name : VirtualFileName) (mount : ResolvedContainerMount) :
    Bool :=
  (path.components ++ [name]).isPrefixOf mount.destination.components

theorem through_iff :
    through path name mount = true ↔ path.components ++ [name] <+: mount.destination.components :=
  List.isPrefixOf_iff_prefix

/-- What a mount makes of a child on the way to it. -/
def childMetadata (c : ContainerProviderRouter) (child : VirtualPath)
    (mount : ResolvedContainerMount) : Except VfsError VirtualMetadata :=
  if child = mount.destination then mount.provider.getattr mount.providerRoot
  else .ok (c.syntheticMountRouteMetadata child)

/-- A mount sets the entry of the one child on the way to it, if there is one. -/
theorem mergeMount_cases {merged : List VirtualDirectoryEntry}
    (h : c.mergeMount path entries mount = .ok merged) :
    (merged = entries ∧ ∀ name, through path name mount = false) ∨
      ∃ name child md, through path name mount = true ∧ path.join name = .ok child ∧
        c.childMetadata child mount = .ok md ∧ merged = setEntry name md entries := by
  unfold mergeMount at h
  by_cases haside : mount.destination.depth ≤ path.depth ∨ !mount.destination.startsWith path
  · rw [if_pos haside] at h
    cases h
    refine .inl ⟨rfl, fun name => Bool.eq_false_iff.mpr ?_⟩
    intro hthrough
    have hpre := through_iff.mp hthrough
    rcases haside with hdepth | hstarts
    · have hlen := hpre.length_le
      rw [List.length_append, List.length_singleton] at hlen
      unfold VirtualPath.depth at hdepth
      omega
    · have hcovers : mount.destination.startsWith path = true :=
        VirtualPath.startsWith_iff.mpr ((List.prefix_append _ _).trans hpre)
      rw [hcovers] at hstarts
      cases hstarts
  · rw [if_neg haside] at h
    rw [not_or] at haside
    obtain ⟨names, hnames⟩ : path.components <+: mount.destination.components :=
      VirtualPath.startsWith_iff.mp (by simpa using haside.2)
    cases names with
    | nil =>
      have hlen := congrArg List.length hnames
      rw [List.append_nil] at hlen
      have hdepth := haside.1
      unfold VirtualPath.depth at hdepth
      omega
    | cons name names =>
      have hat : mount.destination.components[path.depth]? = some name := by
        rw [← hnames, VirtualPath.depth]
        simp
      rw [hat] at h
      obtain ⟨child, hjoin, h⟩ := bind_eq_ok.mp h
      have hset : (c.childMetadata child mount >>= fun md => .ok (setEntry name md entries)) =
          .ok merged := by
        rw [← h]
        unfold childMetadata
        split <;> rfl
      obtain ⟨md, hmd, h⟩ := bind_eq_ok.mp hset
      cases h
      refine .inr ⟨name, child, md, through_iff.mpr ⟨names, ?_⟩, hjoin, hmd, rfl⟩
      rw [← hnames]
      simp

theorem through_unique {name' : VirtualFileName} (h : through path name mount = true)
    (h' : through path name' mount = true) : name = name' :=
  NamespaceProvider.next_unique (through_iff.mp h) (through_iff.mp h')

/-- **The merged listing**: a name on the way to a mount shows what the last such
mount makes of it, the other names are as they were. -/
theorem mem_merged : ∀ {mounts : List ResolvedContainerMount}
    {entries merged : List VirtualDirectoryEntry},
    (entries.map fun entry => entry.name).Nodup →
      mounts.foldlM (c.mergeMount path) entries = .ok merged →
        (merged.map fun entry => entry.name).Nodup ∧
        ∀ (name : VirtualFileName) (md : VirtualMetadata), ⟨name, md⟩ ∈ merged ↔
          match mounts.reverse.find? (through path name) with
          | some mount =>
            ∃ child, path.join name = .ok child ∧ c.childMetadata child mount = .ok md
          | none => ⟨name, md⟩ ∈ entries := by
  intro mounts
  induction mounts with
  | nil =>
    intro entries merged hnodup h
    cases h
    exact ⟨hnodup, fun _ _ => Iff.rfl⟩
  | cons mount mounts ih =>
    intro entries merged hnodup h
    rw [List.foldlM_cons] at h
    obtain ⟨mid, hmid, h⟩ := bind_eq_ok.mp h
    have hmidNodup : (mid.map fun entry => entry.name).Nodup := by
      rcases mergeMount_cases hmid with ⟨rfl, -⟩ | ⟨name, child, md, -, -, -, rfl⟩
      · exact hnodup
      · exact nodup_setEntry hnodup
    obtain ⟨hmergedNodup, hmem⟩ := ih hmidNodup h
    refine ⟨hmergedNodup, fun name md => ?_⟩
    rw [hmem name md, List.reverse_cons, List.find?_append]
    -- a later mount that goes through the name has the last word
    cases hlater : mounts.reverse.find? (through path name) with
    | some last => rfl
    | none =>
      rw [Option.none_or]
      rcases mergeMount_cases hmid with ⟨rfl, hnone⟩ |
        ⟨name', child, md', hthrough, hjoin, hmd', rfl⟩
      · simp only [List.find?_cons, hnone name, List.find?_nil]
      · by_cases hname : name = name'
        · subst hname
          simp only [List.find?_cons, hthrough]
          rw [mem_setEntry hnodup]
          constructor
          · rintro (⟨-, rfl⟩ | ⟨hne, -⟩)
            · exact ⟨child, hjoin, hmd'⟩
            · exact absurd rfl hne
          · rintro ⟨child', hjoin', hmd⟩
            rw [hjoin] at hjoin'
            cases hjoin'
            rw [hmd'] at hmd
            cases hmd
            exact .inl ⟨rfl, rfl⟩
        · have hnot : through path name mount = false := by
            refine Bool.eq_false_iff.mpr ?_
            intro hname'
            exact hname (through_unique hname' hthrough)
          simp only [List.find?_cons, hnot, List.find?_nil]
          rw [mem_setEntry hnodup]
          constructor
          · rintro (⟨heq, -⟩ | ⟨-, hold⟩)
            · exact absurd heq hname
            · exact hold
          · intro hold
            exact .inr ⟨hname, hold⟩

/-! ## Routing a child -/

theorem find?_congr {α : Type} {test test' : α → Bool} : ∀ {as : List α},
    (∀ a ∈ as, test a = test' a) → as.find? test = as.find? test'
  | [], _ => rfl
  | a :: as, h => by
      rw [List.find?_cons, List.find?_cons, h a (by simp),
        find?_congr fun x hx => h x (List.mem_cons_of_mem a hx)]

/-- A route is that of a mount, which covers the path, or that of the root
filesystem. -/
theorem route_cases (h : c.route failure path = .ok route) :
    (∃ mount ∈ c.router.mounts, route.mount = some mount ∧ route.provider = mount.provider ∧
      path.startsWith mount.destination = true ∧
      VirtualPath.fromComponents
        (mount.providerRoot.components ++ path.components.drop mount.destination.depth) =
          .ok route.providerPath) ∨
    (route.mount = none ∧ route.provider = c.rootfs.toProvider failure ∧
      route.providerPath = path) := by
  unfold ContainerProviderRouter.route ContainerPathRouter.route at h
  cases hfind : c.router.mounts.find? fun mount => path.startsWith mount.destination with
  | some mount =>
    rw [hfind] at h
    obtain ⟨route', hroute, h⟩ := bind_eq_ok.mp h
    obtain ⟨providerPath, hpath, hroute⟩ := bind_eq_ok.mp hroute
    cases hroute
    cases h
    exact .inl ⟨mount, List.mem_of_find?_eq_some hfind, rfl, rfl,
      by simpa using List.find?_some hfind, hpath⟩
  | none =>
    rw [hfind] at h
    cases h
    exact .inr ⟨rfl, rfl, rfl⟩

theorem route_child (hroute : c.route failure path = .ok route) (hjoin : path.join name = .ok child)
    (hfree : ∀ mount ∈ c.router.mounts, mount.destination ≠ child) : c.route failure child =
      (route.providerPath.join name).map fun providerPath =>
        { route with providerPath := providerPath } := by
  have hcomponents := VirtualPath.fromComponents_ok hjoin
  have hcovers : ∀ mount ∈ c.router.mounts,
      child.startsWith mount.destination = path.startsWith mount.destination := by
    intro mount hmount
    rw [Bool.eq_iff_iff, VirtualPath.startsWith_iff, VirtualPath.startsWith_iff, hcomponents,
      List.prefix_concat_iff]
    constructor
    · rintro (heq | hpre)
      · exact absurd (VirtualPath.ext (heq.trans hcomponents.symm)) (hfree mount hmount)
      · exact hpre
    · exact .inr
  have hfinds : (c.router.mounts.find? fun mount => child.startsWith mount.destination) =
      c.router.mounts.find? fun mount => path.startsWith mount.destination :=
    find?_congr hcovers
  unfold ContainerProviderRouter.route ContainerPathRouter.route at hroute ⊢
  rw [hfinds]
  cases hfind : c.router.mounts.find? fun mount => path.startsWith mount.destination with
  | some mount =>
    rw [hfind] at hroute
    obtain ⟨route', hroute', h⟩ := bind_eq_ok.mp hroute
    obtain ⟨providerPath, hpath, hroute'⟩ := bind_eq_ok.mp hroute'
    cases hroute'
    cases h
    have hpre : mount.destination.components <+: path.components :=
      VirtualPath.startsWith_iff.mp (by simpa using List.find?_some hfind)
    have hchild : mount.providerRoot.components ++
        child.components.drop mount.destination.depth = providerPath.components ++ [name] := by
      have hle : mount.destination.depth ≤ path.components.length := hpre.length_le
      rw [hcomponents, List.drop_append_of_le_length hle, ← List.append_assoc,
        VirtualPath.fromComponents_ok hpath]
    unfold VirtualPath.join
    dsimp only
    rw [hchild]
    cases VirtualPath.fromComponents (providerPath.components ++ [name]) <;> rfl
  | none =>
    rw [hfind] at hroute
    cases hroute
    show _ = (path.join name).map _
    rw [hjoin]
    rfl

/-! ## Agreement -/

/-- The last mount on the way is the one at the child itself, if there is one. -/
theorem last_through {mounts : List ResolvedContainerMount} (harranged : Arranged mounts)
    (hjoin : path.join name = .ok child) {last : ResolvedContainerMount}
    (hlast : mounts.reverse.find? (through path name) = some last) (hmount : mount ∈ mounts)
    (hexact : mount.destination = child) : last = mount := by
  have hcomponents := VirtualPath.fromComponents_ok hjoin
  obtain ⟨hthrough, before, after, hsplit, hbefore⟩ := List.find?_eq_some_iff_append.mp hlast
  have hmem : last ∈ mounts := List.mem_reverse.mp (by rw [hsplit]; simp)
  have hself : through path name mount = true := by
    rw [through_iff, hexact, hcomponents]
  have hin : mount ∈ before ++ last :: after := by
    rw [← hsplit]
    exact List.mem_reverse.mpr hmount
  have hdepth : last.destination.depth ≤ child.depth := by
    have hreverse : (before ++ last :: after).Pairwise fun a b =>
        a.destination.depth ≤ b.destination.depth := by
      rw [← hsplit, List.pairwise_reverse]
      exact harranged.deepFirst
    rcases List.mem_append.mp hin with hin | hin
    · have hnot := hbefore mount hin
      rw [hself] at hnot
      cases hnot
    · rcases List.mem_cons.mp hin with rfl | hin
      · rw [hexact]
      · rw [← hexact]
        exact (List.pairwise_cons.mp (List.pairwise_append.mp hreverse).2.1).1 mount hin
  have hpre : child.components <+: last.destination.components := by
    rw [hcomponents]
    exact through_iff.mp hthrough
  refine harranged.eq_of_destination hmem hmount ?_
  rw [hexact]
  exact (VirtualPath.ext (hpre.eq_of_length_le hdepth)).symm

/-- **A mount answers for its destination.** -/
theorem getattr_exact (harranged : Arranged c.router.mounts) (hmount : mount ∈ c.router.mounts) :
    c.getattr failure mount.destination = mount.provider.getattr mount.providerRoot := by
  have hfind := harranged.find_exact hmount rfl
  have hroute : c.route failure mount.destination =
      .ok ⟨mount.providerKey, mount.providerRoot, mount.provider, some mount⟩ := by
    have hdrop : mount.destination.components.drop mount.destination.depth = [] :=
      List.drop_length
    unfold route ContainerPathRouter.route
    rw [hfind]
    dsimp only
    rw [hdrop, List.append_nil, VirtualPath.fromComponents_components]
    rfl
  unfold getattr
  rw [hroute]
  simp [bind, Except.bind]

theorem isMountRouteParent_of_through (hjoin : path.join name = .ok child)
    (hmount : mount ∈ c.router.mounts) (hthrough : through path name mount = true)
    (hne : mount.destination ≠ child) : c.isMountRouteParent child = true := by
  have hcomponents := VirtualPath.fromComponents_ok hjoin
  have hpre : child.components <+: mount.destination.components := by
    rw [hcomponents]
    exact through_iff.mp hthrough
  refine List.any_eq_true.mpr ⟨mount, hmount, ?_⟩
  rw [Bool.and_eq_true, decide_eq_true_eq]
  refine ⟨?_, VirtualPath.startsWith_iff.mpr hpre⟩
  by_contra hdepth
  exact hne (VirtualPath.ext (hpre.eq_of_length_le (Nat.le_of_not_lt hdepth))).symm

/-- **The parent of mounts is a synthetic directory**, if it can be translated. -/
theorem getattr_parent (hroute : c.route failure path = .ok route)
    (hparent : c.isMountRouteParent path = true)
    (hfree : ∀ mount ∈ c.router.mounts, mount.destination ≠ path) :
    c.getattr failure path = .ok (c.syntheticMountRouteMetadata path) := by
  have hnot : (route.mount.any fun mount => mount.destination = path) = false := by
    rcases route_cases hroute with ⟨mount, hmount, hsome, -⟩ | ⟨hnone, -⟩
    · rw [hsome]
      simp [hfree mount hmount]
    · rw [hnone]
      rfl
  unfold getattr
  rw [hroute]
  simp [bind, Except.bind, hparent, hnot]

theorem getattr_plain (hparent : c.isMountRouteParent path = false) :
    c.getattr failure path =
      (c.route failure path >>= fun route => route.provider.getattr route.providerPath) := by
  unfold getattr
  cases c.route failure path with
  | error e => rfl
  | ok route => simp [bind, Except.bind, hparent]

/-- What `read_dir` merges the mounts into. -/
theorem readDir_cases (h : c.readDir failure path = .ok entries) :
    ∃ route base merged, c.route failure path = .ok route ∧
      (route.provider.readDir route.providerPath = .ok base ∨
        base = [] ∧ ∃ e, route.provider.readDir route.providerPath = .error e ∧
          (e = .notFound ∨ e = .notDirectory)) ∧
      c.router.mounts.foldlM (c.mergeMount path) base = .ok merged ∧
      entries =
        merged.mergeSort fun left right => (compare left.name.bytes right.name.bytes).isLE := by
  obtain ⟨route, hroute, h⟩ := bind_eq_ok.mp h
  cases hbase : route.provider.readDir route.providerPath with
  | ok base =>
    rw [hbase] at h
    obtain ⟨merged, hmerged, h⟩ := bind_eq_ok.mp h
    cases h
    exact ⟨route, base, merged, hroute, .inl hbase, hmerged, rfl⟩
  | error e =>
    rw [hbase] at h
    dsimp only at h
    split at h
    · rename_i hmissing
      obtain ⟨merged, hmerged, h⟩ := bind_eq_ok.mp h
      cases h
      exact ⟨route, [], merged, hroute, .inr ⟨rfl, e, hbase, hmissing.1⟩, hmerged, rfl⟩
    · cases h

theorem strictlySorted_mergeSort (hnodup : (entries.map fun entry => entry.name).Nodup) :
    StrictlySorted (entries.mergeSort fun left right =>
      (compare left.name.bytes right.name.bytes).isLE) := by
  have hkeys : (entries.map fun entry => entry.name.bytes).Nodup := by
    have hmap := hnodup.map fun a b : VirtualFileName => VirtualFileName.ext
    rwa [List.map_map] at hmap
  exact pairwise_lt_sortByKey (fun entry : VirtualDirectoryEntry => entry.name.bytes) hkeys

/-- **Container tree agreement.** Over consistent providers and mounts with distinct
destinations, a listing is in order and shows exactly the children that `getattr`
knows, with their metadata. The parents of mounts must be translatable. -/
theorem readDir_agrees {containerId : String} {rootfs : ContainerRootfsSnapshotProvider}
    {mounts : List ResolvedContainerMount} (hnew : new containerId rootfs mounts = .ok c)
    (hdistinct : (mounts.map fun mount => mount.destination).Nodup)
    (hmounts : ∀ mount ∈ mounts, Consistent mount.provider)
    (hrootfs : Consistent (rootfs.toProvider failure)) {entries : List VirtualDirectoryEntry}
    (h : c.readDir failure path = .ok entries) :
    StrictlySorted entries ∧
      ∀ (name : VirtualFileName) (child : VirtualPath) (md : VirtualMetadata),
        path.join name = .ok child →
        (c.isMountRouteParent child = true → ∃ route, c.route failure child = .ok route) →
          (⟨name, md⟩ ∈ entries ↔ c.getattr failure child = .ok md) := by
  obtain ⟨-, -, hnew⟩ := bind_eq_ok.mp hnew
  obtain ⟨router, hrouter, hnew⟩ := bind_eq_ok.mp hnew
  cases hnew
  obtain ⟨harranged, hperm⟩ := arranged_of_new hrouter hdistinct
  have hmem : ∀ mount ∈ router.mounts, mount ∈ mounts := fun mount => hperm.mem_iff.mp
  obtain ⟨route, base, merged, hroute, hbase, hmerged, rfl⟩ := readDir_cases h
  have hprovider : Consistent route.provider := by
    rcases route_cases hroute with ⟨mount, hmount, -, heq, -⟩ | ⟨-, heq, -⟩
    · rw [heq]
      exact hmounts mount (hmem mount hmount)
    · rw [heq]
      exact hrootfs
  have hbaseNodup : (base.map fun entry => entry.name).Nodup := by
    rcases hbase with hok | ⟨rfl, -⟩
    · exact (hprovider.sorted _ _ hok).nodup
    · exact List.nodup_nil
  -- a missing directory lists nothing and has no metadata below it
  have hbaseMem : ∀ (name : VirtualFileName) (md : VirtualMetadata), ⟨name, md⟩ ∈ base ↔
      ∃ q, route.providerPath.join name = .ok q ∧ route.provider.getattr q = .ok md := by
    intro name md
    rcases hbase with hok | ⟨rfl, e, herr, hmissing⟩
    · exact hprovider.listed _ _ hok name md
    · refine ⟨fun hnil => absurd hnil List.not_mem_nil, ?_⟩
      rintro ⟨q, hjoin, hq⟩
      exact absurd hq (hprovider.missing _ e herr hmissing name q md hjoin)
  obtain ⟨hmergedNodup, hmergedMem⟩ := mem_merged hbaseNodup hmerged
  refine ⟨strictlySorted_mergeSort hmergedNodup, ?_⟩
  intro name child md hjoin htranslates
  rw [List.mem_mergeSort, hmergedMem name md]
  cases hlast : router.mounts.reverse.find? (through path name) with
  | some last =>
    have hlastMem : last ∈ router.mounts :=
      List.mem_reverse.mp (List.mem_of_find?_eq_some hlast)
    have hthrough : through path name last = true := List.find?_some hlast
    have hshown : (∃ child', path.join name = .ok child' ∧
        childMetadata ⟨router, rootfs⟩ child' last = .ok md) ↔
          childMetadata ⟨router, rootfs⟩ child last = .ok md := by
      rw [hjoin]
      simp
    dsimp only
    rw [hshown]
    unfold childMetadata
    by_cases hexact : child = last.destination
    · rw [if_pos hexact, hexact, getattr_exact harranged hlastMem]
    · -- the last mount is not at the child, so no mount is
      have hfree : ∀ mount ∈ router.mounts, mount.destination ≠ child := by
        intro mount hmount hat
        rw [last_through harranged hjoin hlast hmount hat] at hexact
        exact hexact hat.symm
      have hparent := isMountRouteParent_of_through (c := ⟨router, rootfs⟩) hjoin hlastMem
        hthrough (hfree last hlastMem)
      obtain ⟨route', hroute'⟩ := htranslates hparent
      rw [if_neg hexact, getattr_parent hroute' hparent hfree]
  | none =>
    -- no mount goes through the name, so the child belongs to the path's own route
    have hnone : ∀ mount ∈ router.mounts, through path name mount = false := by
      intro mount hmount
      have hnot := List.find?_eq_none.mp hlast mount (List.mem_reverse.mpr hmount)
      exact Bool.eq_false_iff.mpr hnot
    have hcomponents := VirtualPath.fromComponents_ok hjoin
    have hfree : ∀ mount ∈ router.mounts, mount.destination ≠ child := by
      intro mount hmount hat
      have hself : through path name mount = true := by
        rw [through_iff, hat, hcomponents]
      rw [hnone mount hmount] at hself
      cases hself
    have hparent : isMountRouteParent ⟨router, rootfs⟩ child = false := by
      refine List.any_eq_false.mpr ?_
      intro mount hmount hbelow
      rw [Bool.and_eq_true] at hbelow
      have hself : through path name mount = true := by
        rw [through_iff, ← hcomponents]
        exact VirtualPath.startsWith_iff.mp hbelow.2
      rw [hnone mount hmount] at hself
      cases hself
    dsimp only
    rw [hbaseMem, getattr_plain hparent, route_child hroute hjoin hfree]
    cases route.providerPath.join name with
    | error e | ok q => simp [Except.map, bind, Except.bind]

/-! ## Nested mounts, and a translation that is too long -/

def idOf (c : Char) : String := String.ofList (List.replicate 64 c)

/-- A root filesystem that was never captured. -/
def uncaptured : ContainerRootfsSnapshotProvider where
  immutableContainerId := idOf 'a'
  generation := 1
  limits := TuxStack.Tar.TarLimits.standard
  mounts := []
  state := none

theorem uncaptured_consistent : Consistent (uncaptured.toProvider .notFound) where
  sorted d entries h := by cases h
  listed d entries h := by cases h
  missing d e _ _ name q md hjoin := by
    have hcomponents := VirtualPath.fromComponents_ok hjoin
    show (if q.isRoot then _ else _) ≠ _
    rw [if_neg (by simp [VirtualPath.isRoot, hcomponents])]
    exact fun h => by cases h

def oneFile (name : VirtualFileName) : Provider where
  lookup _ _ := .error .notFound
  getattr path :=
    if path.components = [] then .ok (VirtualMetadata.directory [])
    else if path.components = [name] then .ok (VirtualMetadata.new [] .regularFile 4)
    else .error .notFound
  readDir path :=
    if path.components = [] then .ok [⟨name, VirtualMetadata.new [] .regularFile 4⟩]
    else .error .notFound
  readLink _ := .error .notFound

theorem oneFile_child {n : VirtualFileName} {d q : VirtualPath} (hjoin : d.join n = .ok q)
    (md : VirtualMetadata) : (oneFile name).getattr q = .ok md ↔
      d.components = [] ∧ n = name ∧ md = VirtualMetadata.new [] .regularFile 4 := by
  have hcomponents := VirtualPath.fromComponents_ok hjoin
  simp only [oneFile, hcomponents, List.append_eq_nil_iff, List.cons_ne_self, and_false,
    if_false]
  by_cases hroot : d.components = []
  · by_cases hn : n = name
    · simp [hroot, hn, eq_comm]
    · simp [hroot, hn]
  · have hne : d.components ++ [n] ≠ [name] := by
      intro heq
      have hlen := congrArg List.length heq
      rw [List.length_append] at hlen
      exact hroot (List.length_eq_zero_iff.mp (by simpa using hlen))
    simp [hroot, hne]

theorem oneFile_consistent (name : VirtualFileName) : Consistent (oneFile name) where
  sorted d entries h := by
    simp only [oneFile] at h
    split at h
    · cases h
      exact List.pairwise_singleton _ _
    · cases h
  listed d entries h n md := by
    simp only [oneFile] at h
    split at h
    · rename_i hroot
      cases h
      have hsub : pathByteLen (d.components ++ [n]) ≤ defaultMaxPathBytes := by
        have hshort := n.short
        rw [hroot, List.nil_append, pathByteLen_of_ne_nil (by simp)]
        simp only [List.map_cons, List.map_nil, List.sum_singleton]
        unfold maxNameBytes at hshort
        unfold defaultMaxPathBytes
        omega
      have hjoin : d.join n = .ok ⟨d.components ++ [n], hsub⟩ := dif_pos hsub
      constructor
      · intro hmem
        refine ⟨_, hjoin, (oneFile_child hjoin md).mpr ⟨hroot, ?_⟩⟩
        simpa using hmem
      · rintro ⟨q, hq, hmd⟩
        obtain ⟨-, rfl, rfl⟩ := (oneFile_child hq md).mp hmd
        simp
    · cases h
  missing d e h _ n q md hjoin hmd := by
    obtain ⟨hroot, -, -⟩ := (oneFile_child hjoin md).mp hmd
    simp only [oneFile, if_pos hroot] at h
    cases h

def nameOf (text : String) : VirtualFileName :=
  ((VirtualFileName.new (ascii text)).toOption).getD
    ⟨[dot, dot, dot], by decide, by decide, by decide, by decide, by decide⟩

def nestedMounts : List ResolvedContainerMount :=
  [⟨pathOf "/srv/data/cache", "cache", VirtualPath.root, oneFile (nameOf "x")⟩,
    ⟨pathOf "/srv/data", "data", VirtualPath.root, oneFile (nameOf "cache")⟩]

def nestedRouter : ContainerProviderRouter :=
  ⟨⟨idOf 'a', nestedMounts, "rootfs:1"⟩, uncaptured⟩

theorem new_nested : new (idOf 'a') uncaptured nestedMounts = .ok nestedRouter := by
  have hsorted : nestedMounts.Pairwise fun a b => ContainerPathRouter.mountLe a b = true := by
    decide
  unfold new ContainerPathRouter.new
  rw [List.mergeSort_of_pairwise hsorted]
  rfl

/-- In the listing of the outer mount, the inner mount stands where the outer
provider has a file. -/
theorem nested_mounts_agree :
    ∃ entries, nestedRouter.readDir .notFound (pathOf "/srv/data") = .ok entries ∧
      StrictlySorted entries ∧
      (⟨nameOf "cache", VirtualMetadata.directory []⟩ ∈ entries ↔
        nestedRouter.getattr .notFound (pathOf "/srv/data/cache") =
          .ok (VirtualMetadata.directory [])) := by
  have hconsistent : ∀ mount ∈ nestedMounts, Consistent mount.provider := by
    intro mount hmount
    rcases List.mem_cons.mp hmount with rfl | hmount
    · exact oneFile_consistent _
    · cases List.mem_singleton.mp hmount
      exact oneFile_consistent _
  obtain ⟨entries, hentries⟩ :
      ∃ entries, nestedRouter.readDir .notFound (pathOf "/srv/data") = .ok entries := ⟨_, rfl⟩
  obtain ⟨hsorted, hagree⟩ :=
    readDir_agrees new_nested (by decide) hconsistent uncaptured_consistent hentries
  exact ⟨entries, hentries, hsorted, hagree _ _ _ rfl (fun h => absurd h (by decide))⟩

def longPath : VirtualPath where
  components := List.replicate 64
    ⟨List.replicate 255 97, by decide +kernel, by decide +kernel, by decide +kernel,
      by decide +kernel, by decide +kernel⟩
  bounded := by decide +kernel

/-- A mount below another one whose provider root is `longPath`. -/
def deepMounts : List ResolvedContainerMount :=
  [⟨pathOf "/m/x/y", "inner", VirtualPath.root, oneFile (nameOf "f")⟩,
    ⟨pathOf "/m", "outer", longPath, oneFile (nameOf "f")⟩]

def deepRouter : ContainerProviderRouter :=
  ⟨⟨idOf 'a', deepMounts, "rootfs:1"⟩, uncaptured⟩

/-- The listing of `/m` shows `x` on the way to the inner mount, and `getattr` of
`/m/x` fails because its translation is longer than a path may be. -/
theorem synthetic_parent_too_long :
    new (idOf 'a') uncaptured deepMounts = .ok deepRouter ∧
      (deepMounts.map fun mount => mount.destination).Nodup ∧
      (∀ mount ∈ deepMounts, Consistent mount.provider) ∧
      Consistent (uncaptured.toProvider .notFound) ∧
      ∃ entries md, deepRouter.readDir .notFound (pathOf "/m") = .ok entries ∧
        ⟨nameOf "x", md⟩ ∈ entries ∧
        (pathOf "/m").join (nameOf "x") = .ok (pathOf "/m/x") ∧
        deepRouter.getattr .notFound (pathOf "/m/x") = .error .pathTooLong := by
  have hsorted : deepMounts.Pairwise fun a b => ContainerPathRouter.mountLe a b = true := by
    decide
  refine ⟨?_, by decide, ?_, uncaptured_consistent,
    [⟨nameOf "x", deepRouter.syntheticMountRouteMetadata (pathOf "/m/x")⟩], _,
    by decide +kernel, List.mem_singleton.mpr rfl, rfl, by decide +kernel⟩
  · unfold new ContainerPathRouter.new
    rw [List.mergeSort_of_pairwise hsorted]
    rfl
  · intro mount hmount
    rcases List.mem_cons.mp hmount with rfl | hmount
    · exact oneFile_consistent _
    · cases List.mem_singleton.mp hmount
      exact oneFile_consistent _

end ContainerProviderRouter

end TuxStack.Docker
