import TuxStack.Lib.LongestPrefix
import TuxStack.Vfs.Walk

/-!
# The namespace's listing and its lookup

`crates/tuxstack-vfs/src/namespace.rs`. `read_dir` of a made-up directory puts its
entries together from the mounts in it, the mounts further below and the aliases,
each in the order a hash map gives them; `lookup` of one name asks the aliases, then
the deepest covering mount, then for made-up directories. `readDir_eq_lookup` says
that both tell the same whatever the two orders are.

The listing is read off its two loops as a function of the tables: `mountEntry` is
what the loop over the mounts leaves for a name, `listedEntry` what the loop over
the aliases makes of it.
-/

namespace TuxStack.Vfs

namespace NamespaceProvider

open LongestPrefix

/-! ## The deepest mount -/

def mountKey (e : Sigma fun _ : VirtualPath => MountedProvider) : List VirtualFileName :=
  e.1.components

theorem nodup_mountKey (ns : NamespaceProvider) : (ns.mounts.entries.map mountKey).Nodup := by
  have hkeys : (ns.mounts.entries.map Sigma.fst).Nodup := ns.mounts.nodupKeys
  have heq : ns.mounts.entries.map mountKey =
      (ns.mounts.entries.map Sigma.fst).map VirtualPath.components := by
    rw [List.map_map]
    rfl
  rw [heq]
  exact hkeys.map fun _ _ h => VirtualPath.ext h

/-- **`provider_at` finds the longest prefix**, and splits the path there. -/
theorem providerAt_longest {ns : NamespaceProvider} {path : VirtualPath}
    {route : ResolvedNamespaceProvider} (h : ns.providerAt path = some route) :
    ∃ e, Longest mountKey ns.mounts.entries path.components e ∧ route.key = e.2.key ∧
      route.provider = e.2.provider ∧ route.mountPath = e.1 ∧
      route.mountPath.components ++ route.relativePath.components = path.components := by
  unfold providerAt at h
  obtain ⟨e, hmax, h⟩ := Option.bind_eq_some_iff.mp h
  obtain ⟨relativePath, hstrip, rfl⟩ := Option.map_eq_some_iff.mp h
  have hlongest : Longest mountKey ns.mounts.entries path.components e :=
    longest_of_argmax (fun _ => VirtualPath.startsWith_iff) hmax
  refine ⟨e, hlongest, rfl, rfl, rfl, ?_⟩
  obtain ⟨rest, hrest⟩ := hlongest.covers
  have hstarts : path.startsWith e.1 = true := VirtualPath.startsWith_iff.mpr ⟨rest, hrest⟩
  rw [VirtualPath.stripPrefix, if_pos hstarts] at hstrip
  cases hstrip
  change e.1.components ++ path.components.drop e.1.components.length = path.components
  rw [← hrest, mountKey, List.drop_left]

/-- The order of the mounts does not matter to `provider_at`. -/
theorem providerAt_perm {ns other : NamespaceProvider}
    (hperm : other.mounts.entries.Perm ns.mounts.entries) (path : VirtualPath) :
    other.providerAt path = ns.providerAt path := by
  have hmem : ∀ m, m ∈ other.mounts ↔ m ∈ ns.mounts := fun m => (hperm.map Sigma.fst).mem_iff
  cases hns : ns.providerAt path with
  | none =>
    rw [providerAt_eq_none_iff] at hns ⊢
    exact fun m hm => hns m ((hmem m).mp hm)
  | some route =>
    cases hother : other.providerAt path with
    | none =>
      have hnone : ns.providerAt path = none := by
        rw [providerAt_eq_none_iff] at hother ⊢
        exact fun m hm => hother m ((hmem m).mpr hm)
      rw [hns] at hnone
      cases hnone
    | some route' =>
      obtain ⟨e, hlongest, hkey, hprovider, hmount, hsplit⟩ := providerAt_longest hns
      obtain ⟨e', hlongest', hkey', hprovider', hmount', hsplit'⟩ := providerAt_longest hother
      obtain rfl : e' = e :=
        hlongest.unique ns.nodup_mountKey ((longest_perm hperm).mp hlongest')
      have hrelative : route'.relativePath = route.relativePath := by
        rw [hmount, ← hsplit', hmount'] at hsplit
        exact VirtualPath.ext (List.append_cancel_left hsplit).symm
      cases route
      cases route'
      simp_all

theorem isSyntheticDirectory_perm {ns other : NamespaceProvider}
    (hperm : other.mounts.entries.Perm ns.mounts.entries) (path : VirtualPath) :
    other.isSyntheticDirectory path = ns.isSyntheticDirectory path := by
  have hmem : ∀ m, m ∈ other.mounts ↔ m ∈ ns.mounts := fun m => (hperm.map Sigma.fst).mem_iff
  rw [Bool.eq_iff_iff, isSyntheticDirectory_iff, isSyntheticDirectory_iff]
  simp only [hmem]

/-- Neither order matters to `lookup` and `getattr`. -/
theorem metadata_perm {ns other : NamespaceProvider}
    (hmounts : other.mounts.entries.Perm ns.mounts.entries)
    (haliases : other.aliases.entries.Perm ns.aliases.entries) (path : VirtualPath) :
    other.metadata path = ns.metadata path := by
  unfold metadata aliasFor
  rw [AList.perm_lookup haliases, providerAt_perm hmounts, isSyntheticDirectory_perm hmounts]

/-! ## The loop over the mounts -/

theorem eq_of_compare_bytes {a b : VirtualFileName} (h : compare a.bytes b.bytes = .eq) : a = b :=
  VirtualFileName.ext (Std.LawfulEqCmp.eq_of_compare h)

/-- The mount is the child `name` of `path`. -/
def mountedAt (path : VirtualPath) (name : VirtualFileName)
    (e : Sigma fun _ : VirtualPath => MountedProvider) : Bool :=
  e.1.components = path.components ++ [name]

/-- The mount is at the child `name` of `path` or below it. -/
def mountTowards (path : VirtualPath) (name : VirtualFileName)
    (e : Sigma fun _ : VirtualPath => MountedProvider) : Bool :=
  (path.components ++ [name]).isPrefixOf e.1.components

theorem mountedAt_iff {path : VirtualPath} {name : VirtualFileName}
    {e : Sigma fun _ : VirtualPath => MountedProvider} :
    mountedAt path name e = true ↔ e.1.components = path.components ++ [name] :=
  decide_eq_true_iff

theorem mountTowards_iff {path : VirtualPath} {name : VirtualFileName}
    {e : Sigma fun _ : VirtualPath => MountedProvider} :
    mountTowards path name e = true ↔ path.components ++ [name] <+: e.1.components :=
  List.isPrefixOf_iff_prefix

/-- What the mounts put under a name: the root of the provider mounted there, and
else a made-up directory if a mount is below. -/
def mountEntry (path : VirtualPath) (mounts : List (Sigma fun _ : VirtualPath => MountedProvider))
    (name : VirtualFileName) : Option VirtualMetadata :=
  match mounts.find? (mountedAt path name) with
  | some e => (e.2.provider.getattr VirtualPath.root).toOption
  | none =>
    if mounts.any (mountTowards path name) then
      (path.join name).toOption.map syntheticMetadata
    else none

section Mounts

variable {path : VirtualPath} {mounts : List (Sigma fun _ : VirtualPath => MountedProvider)}
  {e : Sigma fun _ : VirtualPath => MountedProvider} {name : VirtualFileName}

theorem mountEntry_aside (h : ¬ path.components ++ [name] <+: e.1.components) :
    mountEntry path (mounts ++ [e]) name = mountEntry path mounts name := by
  have hat : mountedAt path name e = false := by
    refine decide_eq_false fun heq => h ?_
    rw [heq]
  have htowards : mountTowards path name e = false :=
    Bool.eq_false_iff.mpr fun hpre => h (mountTowards_iff.mp hpre)
  simp only [mountEntry, List.find?_append, List.any_append, List.find?_cons, List.find?_nil,
    List.any_cons, List.any_nil, hat, htowards, Option.or_none, Bool.or_false]

theorem mountEntry_direct {metadata : VirtualMetadata}
    (hfresh : e.1 ∉ mounts.map Sigma.fst) (h : e.1.components = path.components ++ [name])
    (hroot : e.2.provider.getattr VirtualPath.root = .ok metadata) :
    mountEntry path (mounts ++ [e]) name = some metadata := by
  have hnone : mounts.find? (mountedAt path name) = none := by
    rw [List.find?_eq_none]
    intro entry hentry hat
    have heq : entry.1 = e.1 := VirtualPath.ext ((mountedAt_iff.mp hat).trans h.symm)
    exact hfresh (List.mem_map.mpr ⟨entry, hentry, heq⟩)
  have hat : mountedAt path name e = true := decide_eq_true h
  simp only [mountEntry, List.find?_append, hnone, Option.none_or, List.find?_cons, hat, hroot]
  rfl

/-- A mount further below adds a made-up directory if the name has nothing yet. -/
theorem mountEntry_deeper {child : VirtualPath}
    (hroots : ∀ entry ∈ mounts, ∃ md, entry.2.provider.getattr VirtualPath.root = .ok md)
    (h : path.components ++ [name] <+: e.1.components)
    (hne : e.1.components ≠ path.components ++ [name]) (hjoin : path.join name = .ok child) :
    mountEntry path (mounts ++ [e]) name =
      some ((mountEntry path mounts name).getD (syntheticMetadata child)) := by
  have hat : mountedAt path name e = false := decide_eq_false hne
  have htowards : mountTowards path name e = true := mountTowards_iff.mpr h
  simp only [mountEntry, List.find?_append, List.any_append, List.find?_cons, List.find?_nil,
    List.any_cons, List.any_nil, hat, htowards, hjoin, Option.or_none, Bool.or_true,
    Bool.true_or, if_true]
  cases hfind : mounts.find? (mountedAt path name) with
  | some first =>
    obtain ⟨md, hmd⟩ := hroots first (List.mem_of_find?_eq_some hfind)
    simp only [hmd]
    rfl
  | none =>
    cases mounts.any (mountTowards path name) <;> rfl

/-- **The loop over the mounts**, whatever their order. -/
theorem foldlM_addMountChild (path : VirtualPath)
    (mounts : List (Sigma fun _ : VirtualPath => MountedProvider)) :
    (mounts.map Sigma.fst).Nodup →
      (∀ e ∈ mounts, ∃ md, e.2.provider.getattr VirtualPath.root = .ok md) →
        ∃ children : Children, mounts.foldlM (addMountChild path) ∅ = .ok children ∧
          ∀ name, children[name]? = mountEntry path mounts name := by
  induction mounts using List.reverseRecOn with
  | nil =>
    intro _ _
    exact ⟨∅, rfl, fun _ => rfl⟩
  | append_singleton mounts e ih =>
    intro hnodup hroots
    rw [List.map_append, List.map_singleton, List.nodup_append] at hnodup
    obtain ⟨hnodup, -, hfresh⟩ := hnodup
    have hnew : e.1 ∉ mounts.map Sigma.fst := fun hmem => hfresh _ hmem e.1 (by simp) rfl
    have hbefore : ∀ entry ∈ mounts, ∃ md,
        entry.2.provider.getattr VirtualPath.root = .ok md :=
      fun entry hentry => hroots entry (by simp [hentry])
    obtain ⟨children, hchildren, hentries⟩ := ih hnodup hbefore
    obtain ⟨metadata, hroot⟩ := hroots e (by simp)
    have hfold : ∀ children', addMountChild path children e = .ok children' →
        (mounts ++ [e]).foldlM (addMountChild path) ∅ = .ok children' := by
      intro children' hadd
      rw [List.foldlM_append, hchildren]
      change [e].foldlM (addMountChild path) children = _
      rw [List.foldlM_cons, hadd]
      rfl
    rcases addMountChild_cases path hroot children with
      ⟨last, hlast, hadd⟩ | ⟨next, child, hnext, hne, hjoin, hadd⟩ | ⟨haside, hadd⟩
    · refine ⟨_, hfold _ hadd, fun name => ?_⟩
      rw [Std.TreeMap.getElem?_insert]
      split
      · rename_i hcmp
        obtain rfl := eq_of_compare_bytes hcmp
        exact (mountEntry_direct hnew hlast hroot).symm
      · rename_i hcmp
        rw [hentries, mountEntry_aside]
        intro hpre
        apply hcmp
        rw [next_unique hpre (by rw [hlast])]
        exact Std.ReflCmp.compare_self
    · refine ⟨_, hfold _ hadd, fun name => ?_⟩
      rw [Std.TreeMap.getElem?_insertIfNew]
      by_cases hname : next = name
      · subst hname
        rw [mountEntry_deeper hbefore hnext hne hjoin, ← hentries]
        -- a name that is there already keeps its entry
        by_cases hmem : next ∈ children
        · rw [if_neg fun h => h.2 hmem, Std.TreeMap.getElem?_eq_some_getElem hmem]
          rfl
        · rw [if_pos ⟨Std.ReflCmp.compare_self, hmem⟩,
            Std.TreeMap.getElem?_eq_none hmem]
          rfl
      · rw [if_neg fun h => hname (eq_of_compare_bytes h.1), hentries,
          mountEntry_aside]
        exact fun hpre => hname (next_unique hnext hpre)
    · refine ⟨_, hfold _ hadd, fun name => ?_⟩
      rw [hentries, mountEntry_aside (haside name)]

end Mounts

/-! ## The loop over the aliases -/

/-- The alias is the child `name` of `path`. -/
def aliasAt (path : VirtualPath) (name : VirtualFileName)
    (e : Sigma fun _ : VirtualPath => VirtualPathBytes) : Bool :=
  e.1.components = path.components ++ [name]

theorem aliasAt_iff {path : VirtualPath} {name : VirtualFileName}
    {e : Sigma fun _ : VirtualPath => VirtualPathBytes} :
    aliasAt path name e = true ↔ e.1.components = path.components ++ [name] :=
  decide_eq_true_iff

/-- What the aliases make of the entry of a name. -/
def listedEntry (path : VirtualPath)
    (aliases : List (Sigma fun _ : VirtualPath => VirtualPathBytes))
    (name : VirtualFileName) (mounted : Option VirtualMetadata) : Option VirtualMetadata :=
  match aliases.find? (aliasAt path name) with
  | some e => some (aliasMetadata e.1 e.2)
  | none => mounted

/-- **The loop over the aliases**, whatever their order. -/
theorem foldlM_addAliasChild (path : VirtualPath) (mounted : Children)
    (aliases : List (Sigma fun _ : VirtualPath => VirtualPathBytes)) :
    (aliases.map Sigma.fst).Nodup →
      ∃ children : Children, aliases.foldlM (addAliasChild path) mounted = .ok children ∧
        ∀ name, children[name]? = listedEntry path aliases name mounted[name]? := by
  induction aliases using List.reverseRecOn with
  | nil =>
    intro _
    exact ⟨mounted, rfl, fun _ => rfl⟩
  | append_singleton aliases e ih =>
    intro hnodup
    rw [List.map_append, List.map_singleton, List.nodup_append] at hnodup
    obtain ⟨hnodup, -, hfresh⟩ := hnodup
    obtain ⟨children, hchildren, hentries⟩ := ih hnodup
    have hfold : ∀ children', addAliasChild path children e = .ok children' →
        (aliases ++ [e]).foldlM (addAliasChild path) mounted = .ok children' := by
      intro children' hadd
      rw [List.foldlM_append, hchildren]
      change [e].foldlM (addAliasChild path) children = _
      rw [List.foldlM_cons, hadd]
      rfl
    have haside : ∀ name, e.1.components ≠ path.components ++ [name] →
        listedEntry path (aliases ++ [e]) name mounted[name]? =
          listedEntry path aliases name mounted[name]? := by
      intro name hne
      have hat : aliasAt path name e = false := decide_eq_false hne
      simp only [listedEntry, List.find?_append, List.find?_cons, List.find?_nil, hat,
        Option.or_none]
    rcases addAliasChild_cases path e children with ⟨last, hlast, hadd⟩ | ⟨hnone, hadd⟩
    · refine ⟨_, hfold _ hadd, fun name => ?_⟩
      rw [Std.TreeMap.getElem?_insert]
      split
      · rename_i hcmp
        obtain rfl := eq_of_compare_bytes hcmp
        have hearlier : aliases.find? (aliasAt path last) = none := by
          rw [List.find?_eq_none]
          intro entry hentry hat
          have heq : entry.1 = e.1 :=
            VirtualPath.ext ((aliasAt_iff.mp hat).trans hlast.symm)
          exact hfresh _ (List.mem_map.mpr ⟨entry, hentry, heq⟩) e.1 (by simp) rfl
        have hat : aliasAt path last e = true := decide_eq_true hlast
        simp only [listedEntry, List.find?_append, hearlier, Option.none_or, List.find?_cons,
          hat]
      · rename_i hcmp
        rw [hentries, haside]
        intro heq
        apply hcmp
        obtain rfl : last = name := by simpa [hlast] using heq
        exact Std.ReflCmp.compare_self
    · refine ⟨_, hfold _ hadd, fun name => ?_⟩
      rw [hentries, haside name (hnone name)]

/-! ## Listing and lookup -/

section Lookup

variable {ns : NamespaceProvider} {path child : VirtualPath} {name : VirtualFileName}

/-- The alias a listing shows is the one `lookup` answers. -/
theorem listedEntry_eq (hchild : child.components = path.components ++ [name])
    (mounted : Option VirtualMetadata) :
    listedEntry path ns.aliases.entries name mounted =
      ((ns.aliasFor child).map (aliasMetadata child)).or mounted := by
  unfold listedEntry aliasFor
  cases hfind : ns.aliases.entries.find? (aliasAt path name) with
  | some e =>
    have hat : aliasAt path name e = true := List.find?_some hfind
    obtain rfl : e.1 = child := VirtualPath.ext ((aliasAt_iff.mp hat).trans hchild.symm)
    have hlookup : ns.aliases.lookup e.1 = some e.2 :=
      AList.mem_lookup_iff.mpr (List.mem_of_find?_eq_some hfind)
    rw [hlookup]
    rfl
  | none =>
    have hlookup : ns.aliases.lookup child = none := by
      rw [AList.lookup_eq_none]
      intro hmem
      obtain ⟨e, he, rfl⟩ := List.mem_map.mp hmem
      exact List.find?_eq_none.mp hfind e he (aliasAt_iff.mpr hchild)
    rw [hlookup]
    rfl

/-- What the mounts put under a name is what `lookup` finds without the aliases. -/
theorem mountEntry_eq (hnone : ns.providerAt path = none)
    (hchild : child.components = path.components ++ [name]) :
    mountEntry path ns.mounts.entries name =
      match ns.providerAt child with
      | some route => (route.provider.getattr route.relativePath).toOption
      | none => if ns.isSyntheticDirectory child then some (syntheticMetadata child) else none := by
  have hjoin : path.join name = .ok child := by
    rw [VirtualPath.join, ← hchild, VirtualPath.fromComponents_components]
  unfold mountEntry
  cases hfind : ns.mounts.entries.find? (mountedAt path name) with
  | some e =>
    have hat : mountedAt path name e = true := List.find?_some hfind
    obtain rfl : e.1 = child := VirtualPath.ext ((mountedAt_iff.mp hat).trans hchild.symm)
    have hmem := List.mem_of_find?_eq_some hfind
    have hmount : e.1 ∈ ns.mounts := List.mem_map.mpr ⟨e, hmem, rfl⟩
    obtain ⟨mounted, hlookup, hroute⟩ := providerAt_of_mem hmount
    have hmounted : ns.mounts.lookup e.1 = some e.2 := AList.mem_lookup_iff.mpr hmem
    rw [hlookup] at hmounted
    cases hmounted
    simp only [hroute]
  | none =>
    have hnotMounted : ∀ m ∈ ns.mounts, m ≠ child := by
      rintro m hm rfl
      obtain ⟨e, he, rfl⟩ := List.mem_map.mp hm
      exact List.find?_eq_none.mp hfind e he (mountedAt_iff.mpr hchild)
    -- a mount covering the child covers the directory or is the child
    have hroute : ns.providerAt child = none := by
      rw [providerAt_eq_none_iff] at hnone ⊢
      intro m hm hpre
      rw [hchild] at hpre
      rcases List.prefix_concat_iff.mp hpre with heq | hpre
      · exact hnotMounted m hm (VirtualPath.ext (heq.trans hchild.symm))
      · exact hnone m hm hpre
    have hsyn : ns.mounts.entries.any (mountTowards path name) =
        ns.isSyntheticDirectory child := by
      rw [Bool.eq_iff_iff, isSyntheticDirectory_iff, List.any_eq_true]
      constructor
      · rintro ⟨e, he, htowards⟩
        have hm : e.1 ∈ ns.mounts := List.mem_map.mpr ⟨e, he, rfl⟩
        exact .inr ⟨e.1, hm, hchild ▸ mountTowards_iff.mp htowards, hnotMounted e.1 hm⟩
      · rintro (hnil | ⟨m, hm, hpre, -⟩)
        · simp [hchild] at hnil
        · obtain ⟨e, he, rfl⟩ := List.mem_map.mp hm
          exact ⟨e, he, mountTowards_iff.mpr (hchild ▸ hpre)⟩
    simp only [hroute, hsyn, hjoin]
    rfl

/-- The entry a listing shows under a name is what `lookup` answers for it. -/
theorem listedEntry_eq_lookup (hnone : ns.providerAt path = none) (name : VirtualFileName)
    (md : VirtualMetadata) :
    listedEntry path ns.aliases.entries name (mountEntry path ns.mounts.entries name) = some md ↔
      ns.toProvider.lookup path name = .ok md := by
  cases hjoin : path.join name with
  | ok child =>
    have hchild : child.components = path.components ++ [name] :=
        VirtualPath.fromComponents_ok hjoin
    have hlookup : ns.toProvider.lookup path name = ns.metadata child := by
      simp only [toProvider, hjoin]
      rfl
    rw [hlookup, listedEntry_eq hchild, mountEntry_eq hnone hchild, metadata]
    cases ns.aliasFor child with
    | some target => simp
    | none =>
      cases ns.providerAt child with
      | some route => simp [Result.toOption_eq_some]
      | none => cases ns.isSyntheticDirectory child <;> simp
  | error err =>
    -- a name in the tables fits below the directory
    have haway : ∀ q : VirtualPath, ¬ path.components ++ [name] <+: q.components := by
      intro q hpre
      obtain ⟨child, hfits, -⟩ := join_towards hpre
      rw [hjoin] at hfits
      cases hfits
    have haliases : ns.aliases.entries.find? (aliasAt path name) = none := by
      rw [List.find?_eq_none]
      intro e _ hat
      exact haway e.1 (by rw [aliasAt_iff.mp hat])
    have hmounts : ns.mounts.entries.find? (mountedAt path name) = none := by
      rw [List.find?_eq_none]
      intro e _ hat
      exact haway e.1 (by rw [mountedAt_iff.mp hat])
    have htowards : ns.mounts.entries.any (mountTowards path name) = false := by
      rw [List.any_eq_false]
      intro e _ hpre
      exact haway e.1 (mountTowards_iff.mp hpre)
    have hlookup : ns.toProvider.lookup path name = .error err := by
      simp only [toProvider, hjoin]
      rfl
    simp [listedEntry, mountEntry, haliases, hmounts, htowards, hlookup]

end Lookup

/-- **The namespace's listing is its lookup.** Let no mount cover `path` and let it be
a made-up directory. If every mounted provider answers `getattr` of its root, then
`read_dir`, which goes through the mounts and the aliases in any order, succeeds with
entries in strict order of their names, and they are what `lookup` answers. -/
theorem readDir_eq_lookup {ns : NamespaceProvider} {path : VirtualPath}
    (hroots : ∀ e ∈ ns.mounts.entries, ∃ md, e.2.provider.getattr VirtualPath.root = .ok md)
    (hnone : ns.providerAt path = none) (hsyn : ns.isSyntheticDirectory path = true)
    (order : NamespaceProvider) (hmounts : order.mounts.entries.Perm ns.mounts.entries)
    (haliases : order.aliases.entries.Perm ns.aliases.entries) :
    ∃ entries, order.readDir path = .ok entries ∧
      (entries.Pairwise fun left right => compare left.name.bytes right.name.bytes = .lt) ∧
      ∀ name metadata, ⟨name, metadata⟩ ∈ entries ↔
        ns.toProvider.lookup path name = .ok metadata := by
  have hroots' : ∀ e ∈ order.mounts.entries,
      ∃ md, e.2.provider.getattr VirtualPath.root = .ok md :=
    fun e he => hroots e (hmounts.mem_iff.mp he)
  have hnone' : order.providerAt path = none := (providerAt_perm hmounts path).trans hnone
  have hsyn' : order.isSyntheticDirectory path = true :=
    (isSyntheticDirectory_perm hmounts path).trans hsyn
  obtain ⟨mounted, hmounted, hmountEntry⟩ :=
    foldlM_addMountChild path order.mounts.entries order.mounts.nodupKeys hroots'
  obtain ⟨children, hchildren, hentry⟩ :=
    foldlM_addAliasChild path mounted order.aliases.entries order.aliases.nodupKeys
  refine ⟨children.toList.map fun c => ⟨c.1, c.2⟩, ?_, ?_, ?_⟩
  · simp only [readDir, hnone', hsyn', if_true, hmounted, hchildren, bind, Except.bind]
  · rw [List.pairwise_map]
    exact Std.TreeMap.ordered_keys_toList (t := children)
  · intro name metadata
    have hlisted : (⟨name, metadata⟩ : VirtualDirectoryEntry) ∈
        children.toList.map (fun c => ⟨c.1, c.2⟩) ↔ children[name]? = some metadata := by
      rw [← Std.TreeMap.mem_toList_iff_getElem?_eq_some, List.mem_map]
      constructor
      · rintro ⟨c, hc, heq⟩
        cases heq
        exact hc
      · intro hc
        exact ⟨_, hc, rfl⟩
    have hlookup : order.toProvider.lookup path name = ns.toProvider.lookup path name := by
      simp only [toProvider, metadata_perm hmounts haliases]
    rw [hlisted, hentry, hmountEntry, listedEntry_eq_lookup hnone', hlookup]

def rootOnly (id : String) : Provider where
  lookup _ _ := .error .notFound
  getattr path := if path.isRoot then .ok (.directory (ascii id)) else .error .notFound
  readDir _ := .ok []
  readLink _ := .error .notFound

/-- A mount in `/volumes`, one further below it and an alias in it. -/
def volumesNamespace : NamespaceProvider where
  mounts := ((∅ : AList fun _ : VirtualPath => MountedProvider).insert
      (pathOf "/volumes/a") ⟨"volume:a", rootOnly "a"⟩).insert
    (pathOf "/volumes/b/data") ⟨"volume:b", rootOnly "b"⟩
  aliases := AList.singleton (pathOf "/volumes/friendly") (targetOf "/volumes/a")

/-- The same tables, walked the other way round. -/
def volumesNamespaceReordered : NamespaceProvider where
  mounts := ((∅ : AList fun _ : VirtualPath => MountedProvider).insert
      (pathOf "/volumes/b/data") ⟨"volume:b", rootOnly "b"⟩).insert
    (pathOf "/volumes/a") ⟨"volume:a", rootOnly "a"⟩
  aliases := AList.singleton (pathOf "/volumes/friendly") (targetOf "/volumes/a")

/-- The listing of `/volumes` shows the directory on the way to the lower mount. -/
theorem readDir_eq_lookup_volumes : ∃ entries name,
    volumesNamespaceReordered.readDir (pathOf "/volumes") = .ok entries ∧
      VirtualFileName.new (ascii "b") = .ok name ∧
      ⟨name, syntheticMetadata (pathOf "/volumes/b")⟩ ∈ entries := by
  have hroots : ∀ e ∈ volumesNamespace.mounts.entries,
      ∃ md, e.2.provider.getattr VirtualPath.root = .ok md := by
    intro e he
    rw [volumesNamespace, AList.entries_insert_of_notMem (by decide),
      AList.entries_insert_of_notMem (by decide)] at he
    rcases List.mem_cons.mp he with rfl | he
    · exact ⟨_, rfl⟩
    · rcases List.mem_cons.mp he with rfl | he
      · exact ⟨_, rfl⟩
      · cases he
  have hnone : volumesNamespace.providerAt (pathOf "/volumes") = none := by decide
  obtain ⟨entries, hread, -, hlisted⟩ :=
    readDir_eq_lookup hroots hnone (by decide)
      volumesNamespaceReordered (AList.insert_insert_of_ne _ (by decide)) (List.Perm.refl _)
  exact ⟨entries, ⟨ascii "b", by decide, by decide, by decide, by decide, by decide⟩, hread,
    by decide, (hlisted _ _).mpr (by decide)⟩

end NamespaceProvider

end TuxStack.Vfs
