import TuxStack.Lib.Result
import TuxStack.Lib.Runs
import TuxStack.Vfs.Namespace

/-!
# Walking down to a mount

`crates/tuxstack-vfs/src/namespace.rs` seen from the root: which mounts and
aliases can be found by listing directories. A path that no mount covers is a
directory only when a mount lies below it, an alias makes no directory, a
listing inside a mount is the provider's own, and `unmount` drops the aliases
below the path it is given but none that point there. So a table may hold paths
that no walk from the root arrives at; `walkable_iff` says which tables do not.
-/

namespace TuxStack.Vfs

open Runs

/-- A walk goes through `a` to `name`: `a` is a directory and lists the name. -/
def Provider.Shows (p : Provider) (a : VirtualPath) (name : VirtualFileName) : Prop :=
  (∃ metadata, p.getattr a = .ok metadata ∧ metadata.fileType = .directory) ∧
    ∃ entries, p.readDir a = .ok entries ∧ ∃ entry ∈ entries, entry.name = name

/-- `getattr` of the provider's own root is a directory. -/
def Provider.RootIsDirectory (p : Provider) : Prop :=
  ∃ metadata, p.getattr VirtualPath.root = .ok metadata ∧ metadata.fileType = .directory

namespace NamespaceProvider

/-! ## Runs of calls -/

inductive Call where
  | mount (path : VirtualPath) (key : String) (provider : Provider)
  | addAlias (path : VirtualPath) (target : VirtualPathBytes)
  | unmount (path : VirtualPath)
  | clear

def Call.run (ns : NamespaceProvider) : Call → Except VfsError NamespaceProvider
  | .mount path key provider => ns.mount path key provider
  | .addAlias path target => ns.addAlias path target
  | .unmount path => .ok (ns.unmount path)
  | .clear => .ok ns.clear

/-- Successful calls on a fresh namespace; a refused call changes nothing. -/
def calls : Machine NamespaceProvider Call where
  init ns := ns = new
  step ns call := (call.run ns).toOption

variable {ns : NamespaceProvider} {name : VirtualFileName} {a path q : VirtualPath}
  {e : Sigma fun _ : VirtualPath => MountedProvider}

theorem run_of_step {ns' : NamespaceProvider} {call : Call} (h : calls.step ns call = some ns') :
    call.run ns = .ok ns' := by
  change (call.run ns).toOption = some ns' at h
  cases hcall : call.run ns with
  | error e =>
    rw [hcall] at h
    cases h
  | ok t =>
    rw [hcall] at h
    cases h
    rfl

/-- A provider in the table after a call was there before or came with the call. -/
theorem mounted_of_run {ns' : NamespaceProvider} {call : Call} (hrun : call.run ns = .ok ns')
    (he : e ∈ ns'.mounts.entries) :
    e ∈ ns.mounts.entries ∨ ∃ path key, call = .mount path key e.2.provider := by
  cases call with
  | mount path key provider =>
    simp only [Call.run, mount] at hrun
    split at hrun
    · cases hrun
    · cases hrun
      rw [AList.entries_insert] at he
      rcases List.mem_cons.mp he with rfl | he
      · exact .inr ⟨path, key, rfl⟩
      · exact .inl ((List.kerase_sublist path _).subset he)
  | addAlias path target =>
    simp only [Call.run, addAlias] at hrun
    split at hrun
    · cases hrun
    · cases hrun
      exact .inl he
  | unmount path =>
    cases hrun
    exact .inl ((List.kerase_sublist path _).subset he)
  | clear =>
    cases hrun
    cases he

/-- Along a run, providers come only from the calls. -/
theorem mounted_of_exec : ∀ {as : List Call} {ns ns' : NamespaceProvider},
    calls.exec ns as = some ns' → ∀ {e}, e ∈ ns'.mounts.entries →
      e ∈ ns.mounts.entries ∨ ∃ path key, Call.mount path key e.2.provider ∈ as
  | [], ns, ns', h, e, he => by
      cases h
      exact .inl he
  | call :: as, ns, ns', h, e, he => by
      obtain ⟨ns₁, hstep, hrest⟩ := Option.bind_eq_some_iff.mp h
      rcases mounted_of_exec hrest he with he | ⟨path, key, hmem⟩
      · rcases mounted_of_run (run_of_step hstep) he with he | ⟨path, key, rfl⟩
        · exact .inl he
        · exact .inr ⟨path, key, by simp⟩
      · exact .inr ⟨path, key, by simp [hmem]⟩

/-! ## What the tables show at a path -/

/-- A mount covers `path` or none does. -/
theorem providerAt_eq_none_iff :
    ns.providerAt path = none ↔ ∀ m ∈ ns.mounts, ¬ m.components <+: path.components := by
  unfold providerAt
  constructor
  · intro h m hm hpre
    obtain ⟨e, he, rfl⟩ := List.mem_map.mp hm
    cases hmax : (ns.mounts.entries.filter fun e => path.startsWith e.1).argmax
        fun e => e.1.depth with
    | none =>
      have hmem : e ∈ ns.mounts.entries.filter fun e => path.startsWith e.1 :=
        List.mem_filter.mpr ⟨he, VirtualPath.startsWith_iff.mpr hpre⟩
      rw [List.argmax_eq_none.mp hmax] at hmem
      cases hmem
    | some top =>
      have htop := (List.mem_filter.mp (List.argmax_mem hmax)).2
      simp [hmax, VirtualPath.stripPrefix, htop] at h
  · intro h
    have hnil : (ns.mounts.entries.filter fun e => path.startsWith e.1) = [] := by
      rw [List.filter_eq_nil_iff]
      intro e he hstart
      exact h e.1 (List.mem_map.mpr ⟨e, he, rfl⟩) (VirtualPath.startsWith_iff.mp hstart)
    simp [hnil]

theorem providerAt_of_mem (h : path ∈ ns.mounts) : ∃ mounted, ns.mounts.lookup path = some mounted ∧
      ns.providerAt path = some ⟨mounted.key, mounted.provider, path, VirtualPath.root⟩ := by
  obtain ⟨e, he, rfl⟩ := List.mem_map.mp h
  have hmem : e ∈ ns.mounts.entries.filter fun m => e.1.startsWith m.1 :=
    List.mem_filter.mpr ⟨he, VirtualPath.startsWith_iff.mpr (List.prefix_refl _)⟩
  obtain ⟨top, htop⟩ : ∃ top, (ns.mounts.entries.filter fun m => e.1.startsWith m.1).argmax
      (fun m => m.1.depth) = some top := by
    rw [← Option.ne_none_iff_exists', Ne, List.argmax_eq_none]
    exact List.ne_nil_of_mem hmem
  obtain ⟨hentry, hcovers⟩ := List.mem_filter.mp (List.argmax_mem htop)
  have hpre := VirtualPath.startsWith_iff.mp hcovers
  -- the deepest covering mount is at least as deep as the path that it covers
  have hdepth : e.1.depth ≤ top.1.depth :=
    List.le_of_mem_argmax (f := fun m : Sigma fun _ : VirtualPath => MountedProvider => m.1.depth)
      hmem htop
  have hpath : top.1 = e.1 :=
    VirtualPath.ext (hpre.eq_of_length (le_antisymm hpre.length_le hdepth))
  have hlookup : ns.mounts.lookup top.1 = some top.2 := AList.mem_lookup_iff.mpr hentry
  refine ⟨top.2, hpath ▸ hlookup, ?_⟩
  unfold providerAt
  rw [htop]
  simp [VirtualPath.stripPrefix, hpath, VirtualPath.startsWith, VirtualPath.depth,
    VirtualPath.root]

theorem isSyntheticDirectory_iff : ns.isSyntheticDirectory path = true ↔
      path.components = [] ∨ ∃ m ∈ ns.mounts, path.components <+: m.components ∧ m ≠ path := by
  simp [isSyntheticDirectory, VirtualPath.isRoot, AList.mem_keys, VirtualPath.startsWith_iff]

instance : Std.TransCmp fun a b : VirtualFileName => compare a.bytes b.bytes :=
  inferInstanceAs (Std.TransCmp (compareOn VirtualFileName.bytes))

instance : Std.LawfulEqCmp fun a b : VirtualFileName => compare a.bytes b.bytes where
  eq_of_compare h := VirtualFileName.ext (Std.LawfulEqCmp.eq_of_compare h)

theorem join_towards (hpre : path.components ++ [name] <+: q.components) :
    ∃ child, path.join name = .ok child ∧ child.components = path.components ++ [name] := by
  have hfit : pathByteLen (path.components ++ [name]) ≤ defaultMaxPathBytes :=
    VirtualPath.bounded_sublist (p := q) hpre.sublist
  exact ⟨⟨_, hfit⟩, by simp [VirtualPath.join, VirtualPath.fromComponents, hfit], rfl⟩

/-- **What one mount does to a listing**: a mount in the directory sets the entry of
its own name, a deeper one makes up the first name on the way unless it is there,
and a mount elsewhere does nothing. -/
theorem addMountChild_cases (path : VirtualPath) {metadata : VirtualMetadata}
    (hroot : e.2.provider.getattr VirtualPath.root = .ok metadata) (children : Children) :
    (∃ name, e.1.components = path.components ++ [name] ∧
        addMountChild path children e = .ok (children.insert name metadata)) ∨
      (∃ name child, path.components ++ [name] <+: e.1.components ∧
        e.1.components ≠ path.components ++ [name] ∧ path.join name = .ok child ∧
        addMountChild path children e =
          .ok (children.insertIfNew name (syntheticMetadata child))) ∨
      ((∀ name, ¬ path.components ++ [name] <+: e.1.components) ∧
        addMountChild path children e = .ok children) := by
  unfold addMountChild
  split
  · rename_i hparent
    obtain ⟨last, hlast⟩ := parent_components hparent
    have hname : e.1.fileName = some last := by simp [VirtualPath.fileName, hlast]
    simp only [hname, hroot]
    exact .inl ⟨last, hlast, rfl⟩
  · rename_i hparent
    have hdirect : ∀ name, e.1.components ≠ path.components ++ [name] := by
      intro name heq
      apply hparent
      simp [VirtualPath.parent, heq]
    split
    · rename_i hbelow
      simp only [Bool.and_eq_true, decide_eq_true_eq, VirtualPath.startsWith_iff] at hbelow
      obtain ⟨⟨rest, hrest⟩, hdepth⟩ := hbelow
      cases rest with
      | nil =>
        rw [List.append_nil] at hrest
        simp [VirtualPath.depth, hrest] at hdepth
      | cons name rest =>
        have hat : e.1.components[path.depth]? = some name := by
          simp [← hrest, VirtualPath.depth]
        have hpre : path.components ++ [name] <+: e.1.components := ⟨rest, by simp [← hrest]⟩
        obtain ⟨child, hjoin, -⟩ := join_towards hpre
        simp only [hat, hjoin]
        exact .inr (.inl ⟨name, child, hpre, hdirect name, hjoin, rfl⟩)
    · rename_i hnot
      refine .inr (.inr ⟨fun name hpre => hnot ?_, rfl⟩)
      have hlen := hpre.length_le
      simp only [List.length_append, List.length_singleton] at hlen
      simp only [Bool.and_eq_true, decide_eq_true_eq, VirtualPath.startsWith_iff]
      exact ⟨(List.prefix_append _ _).trans hpre, hlen⟩

theorem next_unique {cs ds : List VirtualFileName} {name' : VirtualFileName}
    (h : cs ++ [name] <+: ds) (h' : cs ++ [name'] <+: ds) : name = name' := by
  have hlen : (cs ++ [name]).length = (cs ++ [name']).length := by simp
  have heq := (List.prefix_of_prefix_length_le h h' hlen.le).eq_of_length hlen
  simpa using heq

theorem addMountChild_adds (path : VirtualPath) (hroot : e.2.provider.RootIsDirectory)
    (children : Children) : ∃ children', addMountChild path children e = .ok children' ∧
      ∀ name, name ∈ children ∨ path.components ++ [name] <+: e.1.components →
        name ∈ children' := by
  obtain ⟨metadata, hmeta, -⟩ := hroot
  rcases addMountChild_cases path hmeta children with
    ⟨last, hlast, hadd⟩ | ⟨next, child, hnext, -, -, hadd⟩ | ⟨haside, hadd⟩
  · refine ⟨_, hadd, ?_⟩
    rintro name (hname | hname)
    · exact Std.TreeMap.mem_insert.mpr (.inr hname)
    · obtain rfl := next_unique hname (by rw [hlast])
      exact Std.TreeMap.mem_insert.mpr (.inl Std.ReflCmp.compare_self)
  · refine ⟨_, hadd, ?_⟩
    rintro name (hname | hname)
    · exact Std.TreeMap.mem_insertIfNew.mpr (.inr hname)
    · obtain rfl := next_unique hname hnext
      exact Std.TreeMap.mem_insertIfNew.mpr (.inl Std.ReflCmp.compare_self)
  · refine ⟨_, hadd, ?_⟩
    rintro name (hname | hname)
    · exact hname
    · exact absurd hname (haside name)

/-- **What one alias does to a listing**: one in the directory sets the entry of its
name. -/
theorem addAliasChild_cases (path : VirtualPath)
    (e : Sigma fun _ : VirtualPath => VirtualPathBytes) (children : Children) :
    (∃ name, e.1.components = path.components ++ [name] ∧
        addAliasChild path children e = .ok (children.insert name (aliasMetadata e.1 e.2))) ∨
      ((∀ name, e.1.components ≠ path.components ++ [name]) ∧
        addAliasChild path children e = .ok children) := by
  unfold addAliasChild
  split
  · rename_i hparent
    obtain ⟨last, hlast⟩ := parent_components hparent
    have hname : e.1.fileName = some last := by simp [VirtualPath.fileName, hlast]
    simp only [hname]
    exact .inl ⟨last, hlast, rfl⟩
  · rename_i hparent
    refine .inr ⟨fun name heq => hparent ?_, rfl⟩
    simp [VirtualPath.parent, heq]

theorem addAliasChild_adds (path : VirtualPath)
    (e : Sigma fun _ : VirtualPath => VirtualPathBytes) (children : Children) :
    ∃ children', addAliasChild path children e = .ok children' ∧
      ∀ name, name ∈ children ∨ path.components ++ [name] = e.1.components →
        name ∈ children' := by
  rcases addAliasChild_cases path e children with ⟨last, hlast, hadd⟩ | ⟨haside, hadd⟩
  · refine ⟨_, hadd, ?_⟩
    rintro name (hname | hname)
    · exact Std.TreeMap.mem_insert.mpr (.inr hname)
    · obtain rfl : name = last := by simpa [hlast] using hname
      exact Std.TreeMap.mem_insert.mpr (.inl Std.ReflCmp.compare_self)
  · refine ⟨_, hadd, ?_⟩
    rintro name (hname | hname)
    · exact hname
    · exact absurd hname.symm (haside name)

/-- **The listing of a made-up directory** has the next name on the way to
every mount below it and the name of every alias in it. -/
theorem readDir_synthetic (hroots : ∀ e ∈ ns.mounts.entries, e.2.provider.RootIsDirectory)
    (hnone : ns.providerAt path = none) (hsyn : ns.isSyntheticDirectory path = true) :
    ∃ entries, ns.readDir path = .ok entries ∧ ∀ name,
      (∃ m ∈ ns.mounts, path.components ++ [name] <+: m.components) ∨
        (∃ q ∈ ns.aliases, path.components ++ [name] = q.components) →
      ∃ entry ∈ entries, entry.name = name := by
  obtain ⟨mounted, hmounted, hin⟩ := Result.foldlM_collects
    (fun (children : Children) name => name ∈ children)
    (fun e he children => addMountChild_adds path (hroots e he) children) ∅
  obtain ⟨children, hchildren, hin'⟩ := Result.foldlM_collects
    (fun (children : Children) name => name ∈ children)
    (fun e (_ : e ∈ ns.aliases.entries) children => addAliasChild_adds path e children) mounted
  refine ⟨children.toList.map fun c => ⟨c.1, c.2⟩, ?_, ?_⟩
  · simp only [readDir, hnone, hsyn, if_true, hmounted, hchildren, bind, Except.bind]
  · intro name hname
    have hmem : name ∈ children := by
      apply hin'
      rcases hname with ⟨m, hm, hpre⟩ | ⟨q, hq, heq⟩
      · obtain ⟨e, he, rfl⟩ := List.mem_map.mp hm
        exact .inl (hin name (.inr ⟨e, he, hpre⟩))
      · obtain ⟨e, he, rfl⟩ := List.mem_map.mp hq
        exact .inr ⟨e, he, heq⟩
    rw [← Std.TreeMap.mem_keys, ← Std.TreeMap.map_fst_toList_eq_keys] at hmem
    obtain ⟨c, hc, rfl⟩ := List.mem_map.mp hmem
    exact ⟨_, List.mem_map.mpr ⟨c, hc, rfl⟩, rfl⟩

/-! ## Which tables can be walked -/

/-- A path the tables hold: a mount or an alias. -/
def Attached (ns : NamespaceProvider) (q : VirtualPath) : Prop := q ∈ ns.mounts ∨ q ∈ ns.aliases

/-- `q` is found from the root: every proper ancestor is a directory and lists
the next component. -/
def Walkable (ns : NamespaceProvider) (q : VirtualPath) : Prop :=
  ∀ a name, a.components ++ [name] <+: q.components → ns.toProvider.Shows a name

structure WayOpen (ns : NamespaceProvider) : Prop where
  /-- No alias stands above a mount or an alias. -/
  noAliasAbove : ∀ q, ns.Attached q → ∀ (a : VirtualPath) (name : VirtualFileName),
    a.components ++ [name] <+: q.components → a ∉ ns.aliases
  /-- A directory above an alias is the root, or below a mount, or above one. -/
  mountBesideAlias : ∀ q ∈ ns.aliases, ∀ (a : VirtualPath) (name : VirtualFileName),
    a.components ++ [name] <+: q.components → a.components = [] ∨
      ∃ m ∈ ns.mounts, m.components <+: a.components ∨ a.components <+: m.components
  /-- Inside a mount the provider itself shows the way. -/
  providerShows : ∀ q, ns.Attached q → ∀ (a : VirtualPath) (name : VirtualFileName),
    a.components ++ [name] <+: q.components →
    ∀ route, ns.providerAt a = some route → route.provider.Shows route.relativePath name

/-- A covered path is shown by its provider alone, unless an alias hides it. -/
theorem shows_covered {route : ResolvedNamespaceProvider} (hroute : ns.providerAt a = some route)
    (halias : a ∉ ns.aliases) (name : VirtualFileName) :
    ns.toProvider.Shows a name ↔ route.provider.Shows route.relativePath name := by
  have hnone : ns.aliasFor a = none := AList.lookup_eq_none.mpr halias
  simp only [Provider.Shows, toProvider, metadata, readDir, hnone, hroute]

theorem not_alias_of_shows (h : ns.toProvider.Shows a name) : a ∉ ns.aliases := by
  intro hmem
  obtain ⟨⟨metadata, hmeta, hdir⟩, -⟩ := h
  obtain ⟨target, htarget⟩ := Option.isSome_iff_exists.mp (AList.lookup_isSome.mpr hmem)
  simp only [toProvider, NamespaceProvider.metadata, aliasFor, htarget] at hmeta
  cases hmeta
  cases hdir

theorem synthetic_of_shows (hnone : ns.providerAt a = none) (h : ns.toProvider.Shows a name) :
    ns.isSyntheticDirectory a = true := by
  obtain ⟨-, entries, hread, -⟩ := h
  by_contra hsyn
  simp [toProvider, readDir, hnone, hsyn] at hread

theorem wayOpen_of_walkable (h : ∀ q, ns.Attached q → ns.Walkable q) : ns.WayOpen where
  noAliasAbove q hq a name hpre := not_alias_of_shows (h q hq a name hpre)
  mountBesideAlias q hq a name hpre := by
    have hshows := h q (.inr hq) a name hpre
    cases hroute : ns.providerAt a with
    | none =>
      have hsyn := synthetic_of_shows hroute hshows
      rcases isSyntheticDirectory_iff.mp hsyn with hnil | ⟨m, hm, hpre', -⟩
      · exact .inl hnil
      · exact .inr ⟨m, hm, .inr hpre'⟩
    | some route =>
      have hcover : ¬ ∀ m ∈ ns.mounts, ¬ m.components <+: a.components := by
        rw [← providerAt_eq_none_iff, hroute]
        simp
      push Not at hcover
      obtain ⟨m, hm, hpre'⟩ := hcover
      exact .inr ⟨m, hm, .inl hpre'⟩
  providerShows q hq a name hpre route hroute := by
    have hshows := h q hq a name hpre
    exact (shows_covered hroute (not_alias_of_shows hshows) name).mp hshows

/-- Above an attached path, outside of the mounts, there is a made-up directory. -/
theorem WayOpen.synthetic_above (h : ns.WayOpen) (hq : ns.Attached q)
    (hpre : a.components ++ [name] <+: q.components) (hnone : ns.providerAt a = none) :
    ns.isSyntheticDirectory a = true := by
  rw [isSyntheticDirectory_iff]
  have huncovered := providerAt_eq_none_iff.mp hnone
  rcases hq with hq | hq
  · refine .inr ⟨q, hq, (List.prefix_append _ _).trans hpre, ?_⟩
    rintro rfl
    have hlen := hpre.length_le
    simp at hlen
  · rcases h.mountBesideAlias q hq a name hpre with hnil | ⟨m, hm, hm' | hm'⟩
    · exact .inl hnil
    · exact absurd hm' (huncovered m hm)
    · refine .inr ⟨m, hm, hm', ?_⟩
      rintro rfl
      exact huncovered m hm (List.prefix_refl _)

/-- The next name towards an attached path is a mount's or an alias's. -/
theorem WayOpen.next_listed (h : ns.WayOpen) (hq : ns.Attached q)
    (hpre : a.components ++ [name] <+: q.components) (hnone : ns.providerAt a = none) :
    (∃ m ∈ ns.mounts, a.components ++ [name] <+: m.components) ∨
      ∃ q ∈ ns.aliases, a.components ++ [name] = q.components := by
  rcases hq with hq | hq
  · exact .inl ⟨q, hq, hpre⟩
  obtain ⟨rest, hrest⟩ := hpre
  cases rest with
  | nil => exact .inr ⟨q, hq, by simpa using hrest⟩
  | cons next rest =>
    -- the child is a proper ancestor of `q` itself: a made-up directory or a mount
    let child : VirtualPath :=
      ⟨a.components ++ [name], VirtualPath.bounded_sublist (p := q) (by rw [← hrest]; simp)⟩
    have hpre' : child.components ++ [next] <+: q.components :=
      ⟨rest, by rw [← hrest]; simp [child]⟩
    rcases h.mountBesideAlias q hq child next hpre' with hnil | ⟨m, hm, hm' | hm'⟩
    · simp [child] at hnil
    · rcases List.prefix_concat_iff.mp hm' with heq | hm'
      · exact .inl ⟨m, hm, by rw [heq]⟩
      · exact absurd hm' (providerAt_eq_none_iff.mp hnone m hm)
    · exact .inl ⟨m, hm, hm'⟩

theorem WayOpen.walkable (hroots : ∀ e ∈ ns.mounts.entries, e.2.provider.RootIsDirectory)
    (h : ns.WayOpen) (hq : ns.Attached q) : ns.Walkable q := by
  intro a name hpre
  have halias := h.noAliasAbove q hq a name hpre
  cases hroute : ns.providerAt a with
  | some route =>
    rw [shows_covered hroute halias]
    exact h.providerShows q hq a name hpre route hroute
  | none =>
    have hsyn := h.synthetic_above hq hpre hroute
    obtain ⟨entries, hread, hlisted⟩ := readDir_synthetic hroots hroute hsyn
    have hnone : ns.aliasFor a = none := AList.lookup_eq_none.mpr halias
    refine ⟨⟨syntheticMetadata a, ?_, rfl⟩, entries, hread, ?_⟩
    · simp [toProvider, metadata, hnone, hroute, hsyn]
    · exact hlisted name (h.next_listed hq hpre hroute)

/-- **Which namespaces can be walked.** After any run of successful calls that
mount providers whose own root is a directory, all mounts and aliases are found
from the root exactly when the tables leave the ways open. -/
theorem walkable_iff {as : List Call} {ns : NamespaceProvider}
    (hrun : calls.exec new as = some ns)
    (hroots : ∀ path key provider, Call.mount path key provider ∈ as →
      provider.RootIsDirectory) :
    (∀ q, ns.Attached q → ns.Walkable q) ↔ ns.WayOpen := by
  have hmounted : ∀ e ∈ ns.mounts.entries, e.2.provider.RootIsDirectory := by
    intro e he
    rcases mounted_of_exec hrun he with he | ⟨path, key, hmem⟩
    · cases he
    · exact hroots path key _ hmem
  exact ⟨wayOpen_of_walkable, fun h q hq => h.walkable hmounted hq⟩

def emptyProvider : Provider where
  lookup _ _ := .error .notFound
  getattr path :=
    if path.isRoot then .ok (VirtualMetadata.directory (ascii "root")) else .error .notFound
  readDir path := if path.isRoot then .ok [] else .error .notFound
  readLink _ := .error (.invalidInput "node is not a symlink")

/-- A volume under its identity and its friendly name. -/
def friendlyVolume : List Call :=
  [.mount (pathOf "/volumes/.by-id/data") "data" emptyProvider,
    .addAlias (pathOf "/volumes/data") (targetOf "/volumes/.by-id/data")]

/-- After the mount of `friendlyVolume` is gone its alias stays in the table, and
`/volumes`, where the alias would be listed, is not found. -/
theorem alias_outlives_its_directory :
    emptyProvider.RootIsDirectory ∧
      ∃ ns, calls.exec new (friendlyVolume ++ [.unmount (pathOf "/volumes/.by-id/data")]) =
        some ns ∧ ns.Attached (pathOf "/volumes/data") ∧
          ns.metadata (pathOf "/volumes") = .error .notFound ∧
      ¬ ns.Walkable (pathOf "/volumes/data") := by
  refine ⟨⟨VirtualMetadata.directory (ascii "root"), rfl, rfl⟩, _, rfl, Or.inr (by decide),
    by decide, ?_⟩
  intro h
  obtain ⟨⟨metadata, hmeta, -⟩, -⟩ := h (pathOf "/volumes") ⟨ascii "data", by decide, by decide,
    by decide, by decide, by decide⟩ (by decide)
  cases hmeta

/-- The tables after `friendlyVolume`. -/
def friendlyNamespace : NamespaceProvider where
  mounts := AList.singleton (pathOf "/volumes/.by-id/data") ⟨"data", emptyProvider⟩
  aliases := AList.singleton (pathOf "/volumes/data") (targetOf "/volumes/.by-id/data")

theorem friendly_wayOpen : friendlyNamespace.WayOpen := by
  have hmount : ∀ q, q ∈ friendlyNamespace.mounts ↔ q = pathOf "/volumes/.by-id/data" :=
    fun _ => List.mem_singleton
  have halias : ∀ q, q ∈ friendlyNamespace.aliases ↔ q = pathOf "/volumes/data" :=
    fun _ => List.mem_singleton
  constructor
  · intro q hq a name hpre ha
    rw [halias] at ha
    rw [Attached, hmount, halias] at hq
    subst ha
    rcases hq with rfl | rfl
    · exact absurd ((List.prefix_append _ _).trans hpre) (by decide)
    · have hlen := hpre.length_le
      simp at hlen
  · intro q hq a name hpre
    rw [halias] at hq
    subst hq
    have hlen : a.components.length ≤ (pathOf "/volumes").components.length := by
      have htwo : (pathOf "/volumes/data").components.length =
          (pathOf "/volumes").components.length + 1 := by decide
      have hle := hpre.length_le
      simp only [List.length_append, List.length_singleton] at hle
      omega
    have hpre' : a.components <+: (pathOf "/volumes").components :=
      List.prefix_of_prefix_length_le ((List.prefix_append _ _).trans hpre) (by decide) hlen
    exact .inr ⟨pathOf "/volumes/.by-id/data", by simp [hmount], .inr (hpre'.trans (by decide))⟩
  · intro q hq a name hpre route hroute
    rw [Attached, hmount, halias] at hq
    have hlen := hpre.length_le
    have hq' : q.components.length ≤ 3 := by
      rcases hq with rfl | rfl <;> decide
    have hnone : friendlyNamespace.providerAt a = none := by
      rw [providerAt_eq_none_iff]
      intro m hm hpre'
      rw [hmount] at hm
      subst hm
      have hthree : (pathOf "/volumes/.by-id/data").components.length = 3 := by decide
      have hlen' := hpre'.length_le
      simp only [List.length_append, List.length_singleton] at hlen
      omega
    rw [hnone] at hroute
    cases hroute

/-- While the mount is there both paths are found. -/
theorem friendly_volume_walkable :
    calls.exec new friendlyVolume = some friendlyNamespace ∧
      friendlyNamespace.Attached (pathOf "/volumes/data") ∧
      ∀ q, friendlyNamespace.Attached q → friendlyNamespace.Walkable q := by
  have hrun : calls.exec new friendlyVolume = some friendlyNamespace := rfl
  refine ⟨hrun, Or.inr (by decide), (walkable_iff hrun ?_).mpr friendly_wayOpen⟩
  intro path key provider hmem
  simp only [friendlyVolume, List.mem_cons, Call.mount.injEq, List.not_mem_nil, or_false,
    reduceCtorEq] at hmem
  rw [hmem.2.2]
  exact ⟨VirtualMetadata.directory (ascii "root"), rfl, rfl⟩

end NamespaceProvider

end TuxStack.Vfs
