import TuxStack.Docker.Archive
import TuxStack.Lib.KeyedMaps
import TuxStack.Tar.Writer

/-!
# Whose node an archive provider reads

Docker's archive of a path holds the subtree at the path, with names that start
at its last component. `Depicts` says this of the members of an archive and a
model tree. The provider then looks for the node under the full path first, and
below `p = c₁/…/cₙ` with `cₙ = c₁` there may be a node at `p/c₂/…/cₙ` whose name
in the archive is the full text of `p`. Such a decoy is taken for `p` itself.

`readsNode_iff` says when all three operations answer with the node at `p`: the
archive and the file fit the limits, and a decoy, if the tree has one, cannot be
told from `p` by its type and its listing.
-/

namespace TuxStack.Docker

open Vfs Tar Tar.TarStreamReader Result

/-! ## Model trees -/

/-- A node of a filesystem; only regular files have content. -/
structure TreeNode where
  fileType : VirtualFileType
  content : Bytes
  files : fileType ≠ .regularFile → content = []

/-- A tree of nodes: the root is a directory and so is the parent of a node. -/
structure ModelTree where
  node : VirtualPath → Option TreeNode
  root : ∃ n, node VirtualPath.root = some n ∧ n.fileType = .directory
  parents : ∀ (p : VirtualPath) (name : VirtualFileName) (q : VirtualPath) (n : TreeNode),
    p.join name = .ok q → node q = some n → ∃ d, node p = some d ∧ d.fileType = .directory

/-- The directory at `p` has a child of this name, type and size. -/
def ModelTree.Lists (tree : ModelTree) (p : VirtualPath) (name : VirtualFileName)
    (fileType : VirtualFileType) (size : Nat) : Prop :=
  ∃ q n, p.join name = .ok q ∧ tree.node q = some n ∧ n.fileType = fileType ∧
    n.content.length = size

theorem ModelTree.above (tree : ModelTree) : ∀ {names : List VirtualFileName}
    {p q : VirtualPath} {n : TreeNode}, q.components = p.components ++ names → names ≠ [] →
      tree.node q = some n → ∃ d, tree.node p = some d ∧ d.fileType = .directory := by
  intro names
  induction names with
  | nil =>
    intro p q n _ hne _
    exact absurd rfl hne
  | cons name names ih =>
    intro p q n hq _ hn
    have hsub : (p.components ++ [name]).Sublist q.components := by
      rw [hq]
      simp
    have hjoin : p.join name = .ok ⟨p.components ++ [name], VirtualPath.bounded_sublist hsub⟩ :=
      dif_pos _
    by_cases hnames : names = []
    · subst hnames
      have hchild : q = ⟨p.components ++ [name], VirtualPath.bounded_sublist hsub⟩ :=
        VirtualPath.ext hq
      rw [hchild] at hn
      exact tree.parents p name _ n hjoin hn
    · obtain ⟨d, hd, -⟩ := ih (p := ⟨p.components ++ [name], VirtualPath.bounded_sublist hsub⟩)
        (by simpa using hq) hnames hn
      exact tree.parents p name _ d hjoin hd

variable {q : VirtualPath} {nodes : List (VirtualPath × TreeNode)}

theorem ModelTree.closed (tree : ModelTree) {p : VirtualPath} {n : TreeNode}
    (hpre : p.components <+: q.components) (hn : tree.node q = some n) :
    ∃ d, tree.node p = some d := by
  obtain ⟨names, hnames⟩ := hpre
  by_cases hnil : names = []
  · have heq : p = q := VirtualPath.ext (by simpa [hnil] using hnames)
    exact ⟨n, heq ▸ hn⟩
  · obtain ⟨d, hd, -⟩ := tree.above hnames.symm hnil hn
    exact ⟨d, hd⟩

/-! ## Archives of a subtree -/

/-- The name of `q` in the archive of `p`: it starts at the last component of `p`. -/
def archivePath (p q : VirtualPath) : TarPath := ⟨texts (q.components.drop (p.depth - 1))⟩

/-- A member shows a node: it has its type and content, or it is a hard link to a
file of the archive with that content. -/
def ShownBy (members : List (TarEntry × Bytes)) (m : TarEntry × Bytes) (n : TreeNode) : Prop :=
  (m.1.kind ≠ .hardlink ∧ m.1.fileType = n.fileType ∧ m.2 = n.content) ∨
    (m.1.kind = .hardlink ∧ n.fileType = .regularFile ∧
      ∃ file ∈ members, file.1.kind = .regularFile ∧ file.2 = n.content ∧
        ∃ target, m.1.linkTarget = some target ∧
          TarPath.fromTarBytes target TarLimits.standard = .ok file.1.path)

/-- The members are the subtree at `p`. The archive of the root may have an entry
for the root itself. -/
structure Depicts (tree : ModelTree) (p : VirtualPath) (members : List (TarEntry × Bytes)) :
    Prop where
  distinct : (members.map fun m => m.1.path).Nodup
  sound : ∀ m ∈ members, ∃ q n, p.components <+: q.components ∧ tree.node q = some n ∧
    m.1.path = archivePath p q ∧ ShownBy members m n
  complete : ∀ (q : VirtualPath) (n : TreeNode), p.components <+: q.components →
    q.isRoot = false → tree.node q = some n → ∃ m ∈ members, m.1.path = archivePath p q

theorem archivePath_inj {p r : VirtualPath} (hq : p.components <+: q.components)
    (hr : p.components <+: r.components) (h : archivePath p q = archivePath p r) : q = r := by
  obtain ⟨u, hu⟩ := hq
  obtain ⟨v, hv⟩ := hr
  have hdrop := texts_injective (congrArg TarPath.components h)
  have hle : p.depth - 1 ≤ p.components.length := Nat.sub_le _ _
  rw [← hu, ← hv, List.drop_append_of_le_length hle, List.drop_append_of_le_length hle] at hdrop
  refine VirtualPath.ext ?_
  rw [← hu, ← hv, List.append_cancel_left hdrop]

variable {hdistinct : (nodes.map Prod.fst).Nodup} {name : VirtualFileName}

theorem archivePath_self {p : VirtualPath} (h : p.fileName = some name) :
    archivePath p p = ⟨[name.bytes]⟩ := by
  obtain ⟨names, hnames⟩ := List.getLast?_eq_some_iff.mp h
  simp [archivePath, VirtualPath.depth, hnames, texts]

theorem archivePath_isRoot {p : VirtualPath} (hq : p.components <+: q.components) :
    (archivePath p q).isRoot = q.isRoot := by
  obtain ⟨names, hnames⟩ := hq
  by_cases hp : p.components = []
  · simp [archivePath, TarPath.isRoot, VirtualPath.isRoot, VirtualPath.depth, hp, texts]
  · have hlen : p.depth - 1 < q.components.length := by
      have hpos := List.length_pos_of_ne_nil hp
      rw [← hnames, List.length_append]
      unfold VirtualPath.depth
      omega
    have hqne : q.components ≠ [] := by
      rw [← hnames]
      simp [hp]
    have hdrop : (archivePath p q).components ≠ [] := by
      intro hnil
      have hle := List.drop_eq_nil_iff.mp (List.map_eq_nil_iff.mp hnil)
      omega
    rw [TarPath.isRoot, VirtualPath.isRoot, List.isEmpty_eq_false_iff.mpr hdrop,
      List.isEmpty_eq_false_iff.mpr hqne]

theorem archivePath_join {p c : VirtualPath} (hq : p.components <+: q.components)
    (hjoin : q.join name = .ok c) :
    archivePath p c = ⟨(archivePath p q).components ++ [name.bytes]⟩ := by
  have hc := VirtualPath.fromComponents_ok hjoin
  have hle : p.depth - 1 ≤ q.components.length := (Nat.sub_le _ _).trans hq.length_le
  simp [archivePath, hc, List.drop_append_of_le_length hle, texts]

/-- What lies above a name of the archive is the name of a path below `p`. -/
theorem exists_archivePath {p : VirtualPath} (hq : p.components <+: q.components) {t : TarPath}
    (ht : t.components <+: (archivePath p q).components) (hroot : t.isRoot = false) :
    ∃ r, p.components <+: r.components ∧ r.components <+: q.components ∧ t = archivePath p r := by
  let k := p.depth - 1 + t.depth
  have hk : p.components.length ≤ k := by
    have hpos : 0 < t.depth := by
      unfold TarPath.isRoot at hroot
      exact List.length_pos_of_ne_nil (by simpa using hroot)
    show p.components.length ≤ p.components.length - 1 + t.depth
    omega
  refine ⟨⟨q.components.take k, VirtualPath.bounded_sublist (List.take_sublist _ _)⟩, ?_,
    List.take_prefix _ _, TarPath.ext ?_⟩
  · exact List.prefix_take_iff.mpr ⟨hq, hk⟩
  · rw [List.prefix_iff_eq_take.mp ht]
    show List.take t.depth (texts (q.components.drop (p.depth - 1))) = _
    simp [archivePath, texts, List.drop_take, k]

/-! ## The index of such an archive -/

section Index

variable {tree : ModelTree} {p : VirtualPath} {members : List (TarEntry × Bytes)}
  {r : TarStreamReader} {index : TarIndex}

theorem Depicts.indexed_nodup (hdepicts : Depicts tree p members) :
    ((indexed members).map TarEntry.path).Nodup := by
  have hnodup : ((members.map Prod.fst).map TarEntry.path).Nodup := by
    rw [List.map_map]
    exact hdepicts.distinct
  exact hnodup.sublist (List.filter_sublist.map _)

/-- The index of such an archive, read to its end. -/
structure IndexOf (tree : ModelTree) (p : VirtualPath) (members : List (TarEntry × Bytes))
    (r : TarStreamReader) (index : TarIndex) : Prop where
  depicts : Depicts tree p members
  holds : r.Holds members
  get : ∀ t, index.get t = archiveGet (indexed members) t

theorem IndexOf.get_member (h : IndexOf tree p members r index)
    {m : TarEntry × Bytes} (hm : m ∈ members) (hroot : m.1.path.isRoot = false) :
    index.get m.1.path = some m.1 := by
  rw [h.get]
  exact archiveGet_of_mem h.holds.indexed_proper h.depicts.indexed_nodup
    (mem_indexed.mpr ⟨hroot, m.2, hm⟩)

variable {q : VirtualPath}

/-- A node below `p` is found under its name. -/
theorem IndexOf.get_node (h : IndexOf tree p members r index) {n : TreeNode}
    (hq : p.components <+: q.components) (hroot : q.isRoot = false) (hn : tree.node q = some n) :
    ∃ m ∈ members, m.1.path = archivePath p q ∧ index.get (archivePath p q) = some m.1 ∧
      ShownBy members m n := by
  obtain ⟨m, hm, hpath⟩ := h.depicts.complete q n hq hroot hn
  obtain ⟨q', n', hq', hn', hpath', hshown⟩ := h.depicts.sound m hm
  have heq : q' = q := archivePath_inj hq' hq (hpath'.symm.trans hpath)
  subst heq
  rw [hn] at hn'
  cases hn'
  refine ⟨m, hm, hpath, ?_, hshown⟩
  rw [← hpath]
  refine h.get_member hm ?_
  rw [hpath, archivePath_isRoot hq]
  exact hroot

/-- Everything in the index, below its root, is a node below `p`. -/
theorem IndexOf.node_of_get (h : IndexOf tree p members r index) {t : TarPath} {e : TarEntry}
    (ht : index.get t = some e) (hroot : t.isRoot = false) :
    ∃ q n, p.components <+: q.components ∧ tree.node q = some n ∧ t = archivePath p q := by
  rw [h.get] at ht
  obtain ⟨entry, hentry, hat⟩ := (archiveGet_isSome_iff hroot).mp (by rw [ht]; rfl)
  obtain ⟨-, body, hm⟩ := mem_indexed.mp hentry
  obtain ⟨q, n, hq, hn, hpath, -⟩ := h.depicts.sound _ hm
  have hpre : t.components <+: (archivePath p q).components := by
    rw [← hpath]
    rcases hat with hat | hat
    · rw [← hat]
    · exact (TarPath.mem_ancestors.mp hat).1
  obtain ⟨s, hs, hsq, hts⟩ := exists_archivePath hq hpre hroot
  obtain ⟨d, hd⟩ := tree.closed hsq hn
  exact ⟨s, d, hs, hd, hts⟩

theorem Depicts.nodesOf_le (hdepicts : Depicts tree p members) :
    (nodesOf (indexed members)).length ≤ (indexed members).length := by
  have hsub : nodesOf (indexed members) ⊆ (indexed members).map TarEntry.path := by
    intro t ht
    obtain ⟨hroot, entry, hentry, hat⟩ := mem_nodesOf.mp ht
    obtain ⟨-, body, hm⟩ := mem_indexed.mp hentry
    obtain ⟨q, n, hq, hn, hpath, -⟩ := hdepicts.sound _ hm
    have hpre : t.components <+: (archivePath p q).components := by
      rw [← hpath]
      rcases hat with rfl | hat
      · exact List.prefix_refl _
      · exact (TarPath.mem_ancestors.mp hat).1
    obtain ⟨s, hs, hsq, rfl⟩ := exists_archivePath hq hpre hroot
    obtain ⟨d, hd⟩ := tree.closed hsq hn
    rw [archivePath_isRoot hs] at hroot
    obtain ⟨m, hm', hmpath⟩ := hdepicts.complete s d hs hroot hd
    refine List.mem_map.mpr ⟨m.1, mem_indexed.mpr ⟨?_, m.2, hm'⟩, hmpath⟩
    rw [hmpath, archivePath_isRoot hs]
    exact hroot
  have hnodup : (nodesOf (indexed members)).Nodup := List.nodup_dedup _
  have hlen := (List.subperm_of_subset hnodup hsub).length_le
  rwa [List.length_map] at hlen

theorem Depicts.file_below (hdepicts : Depicts tree p members) {file : TarEntry × Bytes}
    (hfile : file ∈ members) (hkind : file.1.kind = .regularFile) :
    file.1.path.isRoot = false := by
  obtain ⟨q, n, hq, hn, hpath, hshown⟩ := hdepicts.sound file hfile
  rw [hpath, archivePath_isRoot hq]
  by_contra hroot
  have hqroot : q = VirtualPath.root :=
    VirtualPath.ext (List.isEmpty_iff.mp (by simpa [VirtualPath.isRoot] using hroot))
  obtain ⟨d, hd, hdir⟩ := tree.root
  rw [hqroot, hd] at hn
  cases hn
  rcases hshown with ⟨-, htype, -⟩ | ⟨hhard, -⟩
  · rw [hdir] at htype
    simp [TarEntry.fileType, hkind] at htype
  · rw [hkind] at hhard
    cases hhard

/-- The metadata of a node has its type and its size, through a hard link too. -/
theorem IndexOf.metadata_node (h : IndexOf tree p members r index) {n : TreeNode}
    (hq : p.components <+: q.components) (hroot : q.isRoot = false) (hn : tree.node q = some n)
    (identityPrefix : Bytes) (generation : Nat) :
    ∃ md, index.metadata (archivePath p q) identityPrefix generation = .ok md ∧
      md.fileType = n.fileType ∧ md.size = n.content.length := by
  obtain ⟨m, hm, hpath, hentry, hshown⟩ := h.get_node hq hroot hn
  unfold TarIndex.metadata
  rw [hentry]
  dsimp only
  rcases hshown with ⟨hkind, htype, hbody⟩ | ⟨hkind, htype, file, hfile, hregular, hbody, target,
    htarget, hparse⟩
  · rw [if_pos hkind]
    refine ⟨_, rfl, htype, ?_⟩
    show m.1.size = n.content.length
    rw [← hbody, h.holds.size m hm]
  · have hfound := h.get_member hfile (h.depicts.file_below hfile hregular)
    have hother : file.1.path ≠ archivePath p q := by
      intro heq
      rw [heq, hentry] at hfound
      rw [← Option.some.inj hfound, hkind] at hregular
      cases hregular
    have hresolve : index.resolveHardlink (archivePath p q) = .ok file.1 := by
      unfold TarIndex.resolveHardlink TarIndex.resolveLoop
      simp only [List.not_mem_nil, if_false, hentry, hkind, ne_eq, not_true_eq_false, htarget,
        hparse, bind, Except.bind]
      unfold TarIndex.resolveLoop
      simp [hother, hfound, hregular]
    rw [if_neg (by simp [hkind]), hresolve]
    refine ⟨_, rfl, ?_, ?_⟩
    · rw [htype]
      simp [TarEntry.metadata, TarEntry.fileType, hregular]
    · show file.1.size = n.content.length
      rw [← hbody, h.holds.size file hfile]

theorem IndexOf.kind_node (h : IndexOf tree p members r index) {n : TreeNode}
    (hq : p.components <+: q.components) (hn : tree.node q = some n) {e : TarEntry}
    (he : index.get (archivePath p q) = some e) :
    e.kind = .directory ↔ n.fileType = .directory := by
  by_cases hroot : q.isRoot = true
  · have hqroot : q = VirtualPath.root := VirtualPath.ext (List.isEmpty_iff.mp hroot)
    obtain ⟨d, hd, hdir⟩ := tree.root
    rw [hqroot, hd] at hn
    cases hn
    rw [h.get, archiveGet, if_pos (by rw [archivePath_isRoot hq, hroot])] at he
    cases he
    simp [hdir, TarEntry.root, TarEntry.syntheticDirectory]
  · obtain ⟨m, hm, -, hentry, hshown⟩ := h.get_node hq (by simpa using hroot) hn
    rw [he] at hentry
    cases hentry
    rcases hshown with ⟨-, htype, -⟩ | ⟨hkind, htype, -⟩
    · rw [← htype]
      unfold TarEntry.fileType
      cases m.1.kind <;> simp
    · simp [hkind, htype]

end Index

/-! ## The node that is selected -/

/-- The path whose name in the archive of `p` is the full text of `p`. It lies below
`p` when the last component of `p` is also its first. -/
def IsDecoy (p q : VirtualPath) : Prop :=
  2 ≤ p.depth ∧ p.components <+: q.components ∧
    q.components = p.components.dropLast ++ p.components

theorem archivePath_eq_full {p : VirtualPath} (hq : p.components <+: q.components) :
    archivePath p q = TarPath.fromVirtual p ↔
      q.components = p.components.dropLast ++ p.components := by
  have htake : q.components.take (p.depth - 1) = p.components.dropLast := by
    obtain ⟨names, hnames⟩ := hq
    have hle : p.depth - 1 ≤ p.components.length := Nat.sub_le _ _
    rw [← hnames, List.take_append_of_le_length hle, List.dropLast_eq_take]
    rfl
  constructor
  · intro h
    have hdrop : q.components.drop (p.depth - 1) = p.components :=
      texts_injective (congrArg TarPath.components h)
    rw [← List.take_append_drop (p.depth - 1) q.components, htake, hdrop]
  · intro h
    refine TarPath.ext (congrArg texts ?_)
    refine (List.append_right_inj p.components.dropLast).mp ?_
    rw [← htake, List.take_append_drop, htake]
    exact h

section Select

variable {tree : ModelTree} {p : VirtualPath} {n : TreeNode}
  {members : List (TarEntry × Bytes)} {r : TarStreamReader} {index : TarIndex}

theorem entries_nodup (hkeyed : ∀ t e, index.get t = some e → e.path = t) :
    (index.entries.toList.map Prod.snd).Nodup :=
  List.Nodup.of_map TarEntry.path (KeyedMaps.nodup_keys_of_values hkeyed)

theorem filter_at_path (hkeyed : ∀ t e, index.get t = some e → e.path = t) {t : TarPath}
    {e : TarEntry} (he : index.get t = some e) (test : TarEntry → Bool)
    (htest : ∀ x, test x = true ↔ x.path = t) :
    (index.entries.toList.map Prod.snd).filter test = [e] := by
  have hnodup : ((index.entries.toList.map Prod.snd).filter test).Nodup :=
    (entries_nodup hkeyed).filter _
  have hmem : ∀ x, x ∈ (index.entries.toList.map Prod.snd).filter test ↔ x = e := by
    intro x
    rw [List.mem_filter, htest, List.mem_map]
    constructor
    · rintro ⟨⟨⟨k, v⟩, hkv, rfl⟩, hpath⟩
      have hk : index.get k = some v := Std.TreeMap.mem_toList_iff_getElem?_eq_some.mp hkv
      rw [← hkeyed k v hk, hpath, he] at hk
      exact (Option.some.inj hk).symm
    · rintro rfl
      exact ⟨⟨(t, x), Std.TreeMap.mem_toList_iff_getElem?_eq_some.mpr he, rfl⟩, hkeyed t x he⟩
  rcases hlist : (index.entries.toList.map Prod.snd).filter test with _ | ⟨x, _ | ⟨y, rest⟩⟩
  · rw [hlist] at hmem
    exact absurd ((hmem e).mpr rfl) List.not_mem_nil
  · rw [hlist] at hmem
    rw [(hmem x).mp (by simp)]
  · rw [hlist] at hmem hnodup
    have hx := (hmem x).mp (by simp)
    have hy := (hmem y).mp (by simp)
    rw [hx, hy] at hnodup
    simp at hnodup

/-- **The selected node** is the one at `p`, or a decoy that the tree has. -/
theorem IndexOf.select (h : IndexOf tree p members r index) (hn : tree.node p = some n) :
    ∃ s d e, p.components <+: s.components ∧ tree.node s = some d ∧
      index.get (archivePath p s) = some e ∧ selectArchiveRoot index p = .ok e ∧
      ((s = p ∧ ∀ q, IsDecoy p q → tree.node q = none) ∨ IsDecoy p s) := by
  have hkeyed := keyed_of_get h.get
  by_cases hroot : p.isRoot = true
  · have hpath : archivePath p p = TarPath.root := by
      refine TarPath.ext (List.isEmpty_iff.mp ?_)
      exact (archivePath_isRoot (List.prefix_refl p.components)).trans hroot
    have hfound : index.get TarPath.root = some TarEntry.root := by
      rw [h.get]
      rfl
    refine ⟨p, n, TarEntry.root, List.prefix_refl _, hn, by rw [hpath, hfound], ?_,
      .inl ⟨rfl, ?_⟩⟩
    · unfold selectArchiveRoot
      rw [if_pos hroot, hfound]
    · rintro q ⟨hdepth, -, -⟩
      rw [VirtualPath.depth, List.isEmpty_iff.mp hroot] at hdepth
      simp at hdepth
  · have hroot' : p.isRoot = false := by simpa using hroot
    have hne : p.components ≠ [] := by simpa [VirtualPath.isRoot] using hroot
    -- an entry at the full path is taken first, be it of the node or of a decoy
    cases hfull : index.get (TarPath.fromVirtual p) with
    | some e =>
      have hfullRoot : (TarPath.fromVirtual p).isRoot = false := by
        simpa [TarPath.fromVirtual, TarPath.isRoot, texts] using hne
      obtain ⟨s, d, hs, hd, hpath⟩ := h.node_of_get hfull hfullRoot
      have hcomponents := (archivePath_eq_full hs).mp hpath.symm
      refine ⟨s, d, e, hs, hd, by rw [← hpath, hfull], ?_, ?_⟩
      · unfold selectArchiveRoot
        rw [if_neg hroot, hfull]
      · by_cases hdepth : 2 ≤ p.depth
        · exact .inr ⟨hdepth, hs, hcomponents⟩
        · have hlast : p.components.dropLast = [] := by
            refine List.length_eq_zero_iff.mp ?_
            rw [List.length_dropLast]
            unfold VirtualPath.depth at hdepth
            omega
          rw [hlast, List.nil_append] at hcomponents
          exact .inl ⟨VirtualPath.ext hcomponents, fun q hq => absurd hq.1 hdepth⟩
    | none =>
      obtain ⟨name, hname⟩ : ∃ name, p.fileName = some name :=
        ⟨_, List.getLast?_eq_some_getLast hne⟩
      obtain ⟨m, hm, hpath, hentry, -⟩ := h.get_node (List.prefix_refl _) hroot' hn
      refine ⟨p, n, m.1, List.prefix_refl _, hn, hentry, ?_, .inl ⟨rfl, ?_⟩⟩
      -- the one entry of depth one under the path's own name
      · have htest : ∀ x : TarEntry,
            (x.path.depth = 1 && x.path.name = some name.bytes) = true ↔
              x.path = archivePath p p := by
          intro x
          rw [archivePath_self hname]
          rw [Bool.and_eq_true, decide_eq_true_eq, decide_eq_true_eq]
          constructor
          · rintro ⟨hlen, hlast⟩
            obtain ⟨c, hc⟩ := List.length_eq_one_iff.mp hlen
            rw [TarPath.name, hc] at hlast
            exact TarPath.ext (by simpa [hc] using hlast)
          · intro heq
            simp [heq, TarPath.depth, TarPath.name]
        unfold selectArchiveRoot
        rw [if_neg hroot, hfull, hname]
        dsimp only
        rw [filter_at_path hkeyed hentry _ htest]
      · intro q hq
        by_contra hsome
        obtain ⟨d, hd⟩ := Option.ne_none_iff_exists'.mp hsome
        have hqroot : q.isRoot = false := by
          rw [VirtualPath.isRoot, hq.2.2]
          simp [hne]
        obtain ⟨m', -, -, hentry', -⟩ := h.get_node hq.2.1 hqroot hd
        rw [(archivePath_eq_full hq.2.1).mpr hq.2.2, hfull] at hentry'
        cases hentry'

end Select

/-! ## Listings -/

/-- In the archive, the children of a path are those it has in the tree. -/
theorem archivePath_parent {p s : VirtualPath} (hs : p.components <+: s.components)
    (hq : p.components <+: q.components) (h : (archivePath p q).parent = some (archivePath p s)) :
    ∃ name, s.join name = .ok q ∧ (archivePath p q).name = some name.bytes := by
  obtain ⟨raw, hraw⟩ := TarPath.parent_eq_some.mp h
  have hsq : s.components <+: q.components := by
    by_cases hroot : (archivePath p s).isRoot = true
    · rw [archivePath_isRoot hs] at hroot
      rw [List.isEmpty_iff.mp hroot]
      exact List.nil_prefix
    · obtain ⟨s', hs', hsq, heq⟩ :=
        exists_archivePath hq ⟨[raw], hraw.symm⟩ (by simpa using hroot)
      rw [archivePath_inj hs hs' heq]
      exact hsq
  obtain ⟨names, hnames⟩ := hsq
  have hle : p.depth - 1 ≤ s.components.length := (Nat.sub_le _ _).trans hs.length_le
  have htexts : texts names = [raw] := by
    refine (List.append_right_inj (archivePath p s).components).mp ?_
    rw [← hraw]
    simp [archivePath, ← hnames, List.drop_append_of_le_length hle, texts]
  obtain ⟨name, rfl, rfl⟩ : ∃ name, names = [name] ∧ name.bytes = raw := by
    simpa [texts, List.map_eq_singleton_iff] using htexts
  refine ⟨name, ?_, ?_⟩
  · rw [VirtualPath.join, hnames]
    exact VirtualPath.fromComponents_components q
  · rw [TarPath.name, hraw]
    simp

/-- Rows that list the children of the node at `s`, each name once. -/
def RowsOf (tree : ModelTree) (s : VirtualPath) (rows : List VirtualDirectoryEntry) : Prop :=
  (rows.map fun row => row.name).Nodup ∧
    ∀ (name : VirtualFileName) (fileType : VirtualFileType) (size : Nat),
      (∃ row ∈ rows, row.name = name ∧ row.metadata.fileType = fileType ∧
        row.metadata.size = size) ↔ tree.Lists s name fileType size

section Listing

variable {tree : ModelTree} {p s : VirtualPath} {members : List (TarEntry × Bytes)}
  {r : TarStreamReader} {index : TarIndex} (provider : ContainerArchiveProvider)

theorem IndexOf.childEntry_node (h : IndexOf tree p members r index)
    (hs : p.components <+: s.components) {c : TarEntry}
    (hc : c ∈ index.children (archivePath p s)) :
    ∃ q n row, tree.node q = some n ∧ s.join row.name = .ok q ∧
      provider.childEntry index p c = .ok row ∧ c.path.name = some row.name.bytes ∧
      row.metadata.fileType = n.fileType ∧ row.metadata.size = n.content.length := by
  obtain ⟨hentry, hparent⟩ := (mem_children (keyed_of_get h.get)).mp hc
  have hroot := isRoot_of_mem_ancestors (TarPath.parent_mem_ancestors hparent)
  obtain ⟨q, n, hq, hn, hpath⟩ := h.node_of_get hentry hroot
  rw [hpath] at hparent
  obtain ⟨name, hjoin, hname⟩ := archivePath_parent hs hq hparent
  have hcomponents := VirtualPath.fromComponents_ok hjoin
  have hqroot : q.isRoot = false := by
    rw [← archivePath_isRoot hq, ← hpath]
    exact hroot
  have hsub : (p.components ++ [name]).Sublist q.components := by
    rw [hcomponents]
    exact hs.sublist.append (List.Sublist.refl _)
  have hjoin' : p.join name = .ok ⟨p.components ++ [name], VirtualPath.bounded_sublist hsub⟩ :=
    dif_pos _
  obtain ⟨md, hmd, htype, hsize⟩ := h.metadata_node hq hqroot hn
    (provider.identityPrefix ⟨p.components ++ [name], VirtualPath.bounded_sublist hsub⟩) 0
  refine ⟨q, n, ⟨name, md⟩, hn, hjoin, ?_, by rw [hpath, hname], htype, hsize⟩
  unfold ContainerArchiveProvider.childEntry ContainerArchiveProvider.metadataFor
  rw [hpath, hname]
  dsimp only
  rw [VirtualFileName.new_bytes]
  refine bind_eq_ok.mpr ⟨name, rfl, bind_eq_ok.mpr ⟨_, hjoin', bind_eq_ok.mpr ⟨md, hmd, rfl⟩⟩⟩

/-- **Rows are the children of the selected node**. -/
theorem IndexOf.children_node (h : IndexOf tree p members r index)
    (hs : p.components <+: s.components) :
    ∃ rows, (index.children (archivePath p s)).mapM (provider.childEntry index p) = .ok rows ∧
      RowsOf tree s rows := by
  have hkeyed := keyed_of_get h.get
  have hrows : ∀ c ∈ index.children (archivePath p s),
      ∃ row, provider.childEntry index p c = .ok row := by
    intro c hc
    obtain ⟨-, -, row, -, -, hrow, -⟩ := h.childEntry_node provider hs hc
    exact ⟨row, hrow⟩
  obtain ⟨rows, hmap⟩ := exists_mapM_ok hrows
  have hnames : (index.children (archivePath p s)).map (fun c => c.path.name) =
      rows.map fun row => some row.name.bytes := by
    refine map_eq_of_mapM_ok ?_ hmap
    intro c row hc hrow
    obtain ⟨-, -, row', -, -, hrow', hname, -⟩ :=
      h.childEntry_node provider hs hc
    rw [hrow] at hrow'
    cases hrow'
    exact hname
  refine ⟨rows, hmap, ?_, ?_⟩
  · refine List.Nodup.of_map (fun name : VirtualFileName => some name.bytes) ?_
    rw [List.map_map]
    show (rows.map fun row => some row.name.bytes).Nodup
    rw [← hnames]
    -- two children of one parent with one name are at one path
    refine (List.nodup_map_iff_inj_on ?_).mpr ?_
    · exact (entries_nodup hkeyed).filter _
    · intro c hc c' hc' hname
      obtain ⟨hentry, hparent⟩ := (mem_children hkeyed).mp hc
      obtain ⟨hentry', hparent'⟩ := (mem_children hkeyed).mp hc'
      obtain ⟨raw, hraw⟩ := TarPath.parent_eq_some.mp hparent
      obtain ⟨raw', hraw'⟩ := TarPath.parent_eq_some.mp hparent'
      have hpath : c.path = c'.path := by
        refine TarPath.ext ?_
        simp only [TarPath.name, hraw, hraw', List.getLast?_concat, Option.some.injEq] at hname
        rw [hraw, hraw', hname]
      rw [hpath, hentry'] at hentry
      exact (Option.some.inj hentry).symm
  · intro name fileType size
    constructor
    · rintro ⟨row, hrow, rfl, rfl, rfl⟩
      obtain ⟨c, hc, hof⟩ := exists_of_mem_mapM_ok hmap hrow
      obtain ⟨q, n, row', hn, hjoin, hrow', -, htype, hsize⟩ :=
        h.childEntry_node provider hs hc
      rw [hof] at hrow'
      cases hrow'
      exact ⟨q, n, hjoin, hn, htype.symm, hsize.symm⟩
    · rintro ⟨q, n, hjoin, hn, rfl, rfl⟩
      have hcomponents := VirtualPath.fromComponents_ok hjoin
      have hq : p.components <+: q.components := by
        rw [hcomponents]
        exact hs.trans (List.prefix_append _ _)
      have hroot : q.isRoot = false := by simp [VirtualPath.isRoot, hcomponents]
      obtain ⟨m, hm, hpath, hentry, -⟩ := h.get_node hq hroot hn
      have hparent : (archivePath p q).parent = some (archivePath p s) :=
        TarPath.parent_eq_some.mpr ⟨name.bytes,
          congrArg TarPath.components (archivePath_join hs hjoin)⟩
      have hc : m.1 ∈ index.children (archivePath p s) :=
        (mem_children hkeyed).mpr ⟨by rw [hpath, hentry], by rw [hpath, hparent]⟩
      obtain ⟨q', n', row, hn', hjoin', hrow, hname, htype, hsize⟩ :=
        h.childEntry_node provider hs hc
      have hrowname : row.name = name := by
        refine VirtualFileName.ext ?_
        rw [hpath, TarPath.name, archivePath_join hs hjoin, List.getLast?_concat] at hname
        exact (Option.some.inj hname).symm
      rw [hrowname, hjoin] at hjoin'
      cases hjoin'
      rw [hn] at hn'
      cases hn'
      obtain ⟨row', hmem, hof⟩ := mem_of_mapM_ok hmap hc
      rw [hrow] at hof
      cases hof
      exact ⟨row, hmem, hrowname, htype, hsize⟩

end Listing

/-! ## Reading the node that was asked for -/

/-- All three operations answer with the node at `p`. -/
structure ReadsNode (provider : ContainerArchiveProvider) (tree : ModelTree) (p : VirtualPath)
    (n : TreeNode) : Prop where
  attributes : ∃ md, provider.getattr p = .ok md ∧ md.fileType = n.fileType ∧
    md.size = n.content.length
  listing : n.fileType = .directory → ∃ rows, provider.readDir p = .ok rows ∧
    (rows.map fun row => row.name).Nodup ∧
    ∀ (name : VirtualFileName) (fileType : VirtualFileType) (size : Nat),
      (∃ row ∈ rows, row.name = name ∧ row.metadata.fileType = fileType ∧
        row.metadata.size = size) ↔ tree.Lists p name fileType size
  content : n.fileType = .regularFile → ∀ flags : BitVec 32, isReadOnlyOpen flags = true →
    ∃ handle provider', provider.openFile p flags = .ok (handle, provider') ∧
      ∀ offset size : Nat,
        provider'.readAt handle offset size = .ok ((n.content.drop offset).take size)

/-- The archive of `p` is within the limits and no decoy gets in the way: there is
none, or it is a directory with the listing that `p` has. -/
structure Legible (provider : ContainerArchiveProvider) (tree : ModelTree) (p : VirtualPath)
    (n : TreeNode) (members : List (TarEntry × Bytes)) : Prop where
  entries : (indexed members).length ≤ provider.limits.maxEntries
  room : n.fileType = .regularFile →
    n.content.length ≤ provider.spool.limits.maxSingleBytes ∧
      provider.spool.reservedBytes + n.content.length ≤ provider.spool.limits.maxTotalBytes
  decoys : ∀ (q : VirtualPath) (d : TreeNode), IsDecoy p q → tree.node q = some d →
    d.fileType = .directory ∧
      ∀ (name : VirtualFileName) (fileType : VirtualFileType) (size : Nat),
        tree.Lists q name fileType size ↔ tree.Lists p name fileType size

section Reading

variable {provider : ContainerArchiveProvider} {tree : ModelTree} {p s : VirtualPath}
  {n d : TreeNode} {stream : ArchiveByteStream} {members : List (TarEntry × Bytes)}
  {r : TarStreamReader} {index : TarIndex} {e : TarEntry}

/-- The index of an operation exists exactly when the archive fits. -/
theorem Depicts.operationIndex (hdepicts : Depicts tree p members)
    (hsource : provider.source provider.objectId p = .ok stream)
    (hholds : (TarStreamReader.new stream provider.limits).Holds members) :
    ((indexed members).length ≤ provider.limits.maxEntries ∧
        ∃ index, provider.operationIndex p = .ok index ∧
          IndexOf tree p members (TarStreamReader.new stream provider.limits) index) ∨
      (¬ (indexed members).length ≤ provider.limits.maxEntries ∧
        ∃ e, provider.operationIndex p = .error e) := by
  have hindex : provider.operationIndex p = TarIndex.fromStream stream provider.limits := by
    unfold ContainerArchiveProvider.operationIndex
    rw [hsource]
    rfl
  rw [hindex]
  by_cases hroom : (indexed members).length ≤ provider.limits.maxEntries
  · obtain ⟨index, hok, hget⟩ := fromStream_of_holds provider.valid hholds
      hdepicts.indexed_nodup (hdepicts.nodesOf_le.trans hroom)
    exact .inl ⟨hroom, index, hok, hdepicts, hholds, hget⟩
  · refine .inr ⟨hroom, ?_⟩
    cases hresult : TarIndex.fromStream stream provider.limits with
    | error e => exact ⟨e, rfl⟩
    | ok index =>
      rw [fromStream_eq provider.valid hholds] at hresult
      exact absurd (length_le_of_fold hholds.indexed_proper hresult) hroom

theorem IndexOf.getattr_selected (h : IndexOf tree p members r index)
    (hindex : provider.operationIndex p = .ok index)
    (hs : p.components <+: s.components) (hd : tree.node s = some d)
    (he : index.get (archivePath p s) = some e) (hselect : selectArchiveRoot index p = .ok e)
    (hroot : p.isRoot = false) :
    ∃ md, provider.getattr p = .ok md ∧ md.fileType = d.fileType ∧
      md.size = d.content.length := by
  have hsroot : s.isRoot = false := by
    refine List.isEmpty_eq_false_iff.mpr ?_
    intro hnil
    rw [hnil] at hs
    exact List.isEmpty_eq_false_iff.mp hroot (List.prefix_nil.mp hs)
  obtain ⟨md, hmd, htype, hsize⟩ :=
    h.metadata_node hs hsroot hd (provider.identityPrefix p) 0
  refine ⟨md, ?_, htype, hsize⟩
  unfold ContainerArchiveProvider.getattr ContainerArchiveProvider.metadataFor
  rw [if_neg (by simp [hroot]), hindex]
  refine bind_eq_ok.mpr ⟨index, rfl, bind_eq_ok.mpr ⟨e, hselect, ?_⟩⟩
  rw [keyed_of_get h.get _ e he]
  exact hmd

theorem IndexOf.readDir_selected (h : IndexOf tree p members r index)
    (hindex : provider.operationIndex p = .ok index)
    (hs : p.components <+: s.components) (hd : tree.node s = some d)
    (he : index.get (archivePath p s) = some e) (hselect : selectArchiveRoot index p = .ok e)
    (hdir : d.fileType = .directory) :
    ∃ rows, provider.readDir p = .ok rows ∧ RowsOf tree s rows := by
  have hkind : e.kind = .directory := (h.kind_node hs hd he).mpr hdir
  obtain ⟨rows, hrows, hnodup, hlists⟩ := h.children_node provider hs
  let sorted := rows.mergeSort fun left right => (compare left.name.bytes right.name.bytes).isLE
  have hperm : sorted.Perm rows := List.mergeSort_perm rows _
  refine ⟨sorted, ?_, (hperm.map _).nodup_iff.mpr hnodup, ?_⟩
  · unfold ContainerArchiveProvider.readDir
    rw [hindex]
    refine bind_eq_ok.mpr ⟨index, rfl, bind_eq_ok.mpr ⟨e, hselect, ?_⟩⟩
    rw [if_neg (by simp [hkind]), keyed_of_get h.get _ e he, hrows]
    rfl
  · intro name fileType size
    rw [← hlists name fileType size]
    simp only [hperm.mem_iff]

/-- A file has no subtree: its archive is one regular member. -/
theorem Depicts.of_file (hdepicts : Depicts tree p members) (hn : tree.node p = some n)
    (hfile : n.fileType = .regularFile) :
    ∃ entry, members = [(entry, n.content)] ∧ entry.kind = .regularFile ∧
      entry.path = archivePath p p := by
  have hroot : p.isRoot = false := by
    by_contra hroot
    have hp : p = VirtualPath.root :=
      VirtualPath.ext (List.isEmpty_iff.mp (by simpa [VirtualPath.isRoot] using hroot))
    obtain ⟨d, hd, hdir⟩ := tree.root
    rw [hp, hd] at hn
    cases hn
    rw [hdir] at hfile
    cases hfile
  have hall : ∀ m ∈ members, m.1.path = archivePath p p ∧ ShownBy members m n := by
    intro m hm
    obtain ⟨q, n', ⟨names, hnames⟩, hn', hpath, hshown⟩ := hdepicts.sound m hm
    by_cases hnil : names = []
    · have hq : p = q := VirtualPath.ext (by simpa [hnil] using hnames)
      subst hq
      rw [hn] at hn'
      cases hn'
      exact ⟨hpath, hshown⟩
    · obtain ⟨d, hd, hdir⟩ := tree.above hnames.symm hnil hn'
      rw [hn] at hd
      cases hd
      rw [hfile] at hdir
      cases hdir
  obtain ⟨m, hm, hpath⟩ := hdepicts.complete p n (List.prefix_refl _) hroot hn
  have hone : ∀ x ∈ members, x = m := by
    intro x hx
    exact List.inj_on_of_nodup_map hdepicts.distinct hx hm ((hall x hx).1.trans hpath.symm)
  have hlist : members = [m] := by
    have hnodup : members.Nodup := hdepicts.distinct.of_map _
    rcases members with _ | ⟨x, _ | ⟨y, rest⟩⟩
    · cases hm
    · rw [hone x (by simp)]
    · rw [hone x (by simp), hone y (by simp)] at hnodup
      simp at hnodup
  rcases (hall m hm).2 with ⟨hkind, htype, hbody⟩ | ⟨hkind, -, file, hmem, hregular, -⟩
  · refine ⟨m.1, ?_, ?_, hpath⟩
    · rw [hlist, ← hbody]
    · rw [hfile] at htype
      unfold TarEntry.fileType at htype
      cases hcase : m.1.kind <;> simp_all
  · rw [hone file hmem, hkind] at hregular
    cases hregular

/-- **Opening a file** gives its content exactly when it fits the spool. -/
theorem Depicts.openFile_iff (hdepicts : Depicts tree p members)
    (hsource : provider.source provider.objectId p = .ok stream)
    (hholds : (TarStreamReader.new stream provider.limits).Holds members)
    (hn : tree.node p = some n) (hfile : n.fileType = .regularFile)
    (hentries : (indexed members).length ≤ provider.limits.maxEntries) {flags : BitVec 32}
    (hflags : isReadOnlyOpen flags = true) :
    (∃ handle provider', provider.openFile p flags = .ok (handle, provider') ∧
        ∀ offset size : Nat,
          provider'.readAt handle offset size = .ok ((n.content.drop offset).take size)) ↔
      (n.content.length ≤ provider.spool.limits.maxSingleBytes ∧
        provider.spool.reservedBytes + n.content.length ≤
          provider.spool.limits.maxTotalBytes) := by
  obtain ⟨entry, hmembers, hkind, hpath⟩ := hdepicts.of_file hn hfile
  subst hmembers
  have hfileRoot : entry.path.isRoot = false :=
    hdepicts.file_below (List.mem_singleton.mpr rfl) hkind
  have hone : 1 ≤ provider.limits.maxEntries := by
    simpa [indexed, hfileRoot] using hentries
  have hroot : p.isRoot = false := by
    rw [← archivePath_isRoot (List.prefix_refl p.components), ← hpath]
    exact hfileRoot
  obtain ⟨name, hname⟩ : ∃ name, p.fileName = some name :=
    ⟨_, List.getLast?_eq_some_getLast (List.isEmpty_eq_false_iff.mp hroot)⟩
  have hrounds : 2 ≤ (TarStreamReader.new stream provider.limits).source.left.length + 1 := by
    have hlen := hholds.length_le
    simp only [List.length_singleton] at hlen
    omega
  have hroom : provider.spool.writer.Room provider.spool n.content.length ↔
      (n.content.length ≤ provider.spool.limits.maxSingleBytes ∧
        provider.spool.reservedBytes + n.content.length ≤
          provider.spool.limits.maxTotalBytes) := by
    unfold ContentSpoolWriter.Room
    rw [show provider.spool.writer.content = [] from rfl, List.length_nil, Nat.zero_add]
  rw [← hroom]
  -- the open extracts the file first; whether it fits decides the answer
  have hopen : provider.openFile p flags =
      (extractRegularFile stream p provider.limits provider.spool >>= fun content =>
        .ok (⟨provider.nextHandle, p, 0⟩,
          { provider with
            spool := content.1
            nextHandle := provider.nextHandle + 1
            handles := provider.handles.insert provider.nextHandle content.2 })) := by
    unfold ContainerArchiveProvider.openFile ContainerArchiveProvider.operationContent
    rw [hflags, hsource]
    rfl
  rw [hopen]
  rcases @extractLoop_file p _ _ _ provider.spool _ _ _ hholds hkind
      (hpath.trans (archivePath_self hname)) hone hrounds with
    ⟨hfits, spool', writer, r', hrun, hcount, hcontent⟩ | ⟨hnot, e, hrun⟩
  · refine ⟨fun _ => hfits, fun _ => ?_⟩
    have hextract : extractRegularFile stream p provider.limits provider.spool =
        .ok (spool', writer.finish) := by
      unfold extractRegularFile
      rw [hname]
      dsimp only
      rw [hrun]
      rfl
    rw [hextract]
    refine ⟨_, _, rfl, ?_⟩
    intro offset size
    unfold ContainerArchiveProvider.readAt
    rw [AList.lookup_insert, ← hcontent, ← ContentSpoolWriter.readAt_finish hcount]
  · refine ⟨?_, fun hfits => absurd hfits hnot⟩
    rintro ⟨handle, provider', h, -⟩
    have hextract : extractRegularFile stream p provider.limits provider.spool = .error e := by
      unfold extractRegularFile
      rw [hname]
      dsimp only
      rw [hrun]
      rfl
    rw [hextract] at h
    cases h

theorem IsDecoy.ne_root {q : VirtualPath} (h : IsDecoy p q) : p.isRoot = false := by
  refine List.isEmpty_eq_false_iff.mpr ?_
  intro hnil
  have hdepth := h.1
  rw [VirtualPath.depth, hnil] at hdepth
  simp at hdepth

theorem IsDecoy.directory {q : VirtualPath} (h : IsDecoy p q) (hn : tree.node p = some n)
    (hd : tree.node q = some d) : n.fileType = .directory := by
  obtain ⟨hdepth, ⟨names, hnames⟩, hq⟩ := h
  have hne : names ≠ [] := by
    rintro rfl
    have hlen := congrArg List.length (hnames.trans hq)
    rw [List.length_append, List.length_append, List.length_dropLast, List.length_nil] at hlen
    unfold VirtualPath.depth at hdepth
    omega
  obtain ⟨n', hn', hdir⟩ := tree.above hnames.symm hne hd
  rw [hn] at hn'
  cases hn'
  exact hdir

/-- **The archive provider reads the node it was asked for** exactly when the
archive and the file fit the limits and a decoy in the tree, if there is one,
looks like the node. -/
theorem readsNode_iff (hn : tree.node p = some n)
    (hsource : provider.source provider.objectId p = .ok stream)
    (hholds : (TarStreamReader.new stream provider.limits).Holds members)
    (hdepicts : Depicts tree p members) :
    ReadsNode provider tree p n ↔ Legible provider tree p n members := by
  rcases hdepicts.operationIndex hsource hholds with ⟨hroom, index, hindex, hof⟩ |
    ⟨hnot, e, herr⟩
  · obtain ⟨s, d, e, hs, hd, he, hselect, hwhich⟩ := hof.select hn
    constructor
    · intro h
      refine ⟨hroom, fun hfile => ?_, fun q d' hq hd' => ?_⟩
      · exact (hdepicts.openFile_iff hsource hholds hn hfile hroom (by decide)).mp
          (h.content hfile 0 (by decide))
      · have hsq : s = q := by
          rcases hwhich with ⟨-, hnone⟩ | hdecoy
          · rw [hnone q hq] at hd'
            cases hd'
          · exact VirtualPath.ext (hdecoy.2.2.trans hq.2.2.symm)
        subst hsq
        rw [hd] at hd'
        cases hd'
        have hdir : n.fileType = .directory := hq.directory hn hd
        obtain ⟨md, hmd, htype, -⟩ :=
          hof.getattr_selected hindex hs hd he hselect hq.ne_root
        obtain ⟨md', hmd', htype', -⟩ := h.attributes
        rw [hmd] at hmd'
        cases hmd'
        have hddir : d.fileType = .directory := by rw [← htype, htype', hdir]
        obtain ⟨rows, hrows, -, hlists⟩ :=
          hof.readDir_selected hindex hs hd he hselect hddir
        obtain ⟨rows', hrows', -, hlists'⟩ := h.listing hdir
        rw [hrows] at hrows'
        cases hrows'
        exact ⟨hddir, fun name fileType size =>
          (hlists name fileType size).symm.trans (hlists' name fileType size)⟩
    · intro h
      -- whichever node was selected, it looks like the one at `p`
      have hlike : d.fileType = n.fileType ∧ d.content.length = n.content.length ∧
          ∀ (name : VirtualFileName) (fileType : VirtualFileType) (size : Nat),
            tree.Lists s name fileType size ↔ tree.Lists p name fileType size := by
        rcases hwhich with ⟨rfl, -⟩ | hdecoy
        · rw [hn] at hd
          cases hd
          exact ⟨rfl, rfl, fun _ _ _ => Iff.rfl⟩
        · obtain ⟨hddir, hlists⟩ := h.decoys s d hdecoy hd
          have hdir : n.fileType = .directory := hdecoy.directory hn hd
          refine ⟨hddir.trans hdir.symm, ?_, hlists⟩
          rw [d.files (by simp [hddir]), n.files (by simp [hdir])]
      obtain ⟨htype, hsize, hlists⟩ := hlike
      refine ⟨?_, fun hdir => ?_, fun hfile flags hflags => ?_⟩
      · by_cases hroot : p.isRoot = true
        · have hp : p = VirtualPath.root := VirtualPath.ext (List.isEmpty_iff.mp hroot)
          obtain ⟨n', hn', hdir⟩ := tree.root
          rw [← hp, hn] at hn'
          cases hn'
          refine ⟨_, if_pos hroot, hdir.symm, ?_⟩
          rw [n.files (by simp [hdir])]
          rfl
        · obtain ⟨md, hmd, hmdType, hmdSize⟩ :=
            hof.getattr_selected hindex hs hd he hselect (by simpa using hroot)
          exact ⟨md, hmd, hmdType.trans htype, hmdSize.trans hsize⟩
      · obtain ⟨rows, hrows, hnodup, hrowLists⟩ :=
          hof.readDir_selected hindex hs hd he hselect (htype.trans hdir)
        exact ⟨rows, hrows, hnodup, fun name fileType size =>
          (hrowLists name fileType size).trans (hlists name fileType size)⟩
      · exact (hdepicts.openFile_iff hsource hholds hn hfile hroom hflags).mpr (h.room hfile)
  · constructor
    · intro h
      exfalso
      by_cases hroot : p.isRoot = true
      · have hp : p = VirtualPath.root := VirtualPath.ext (List.isEmpty_iff.mp hroot)
        obtain ⟨n', hn', hdir⟩ := tree.root
        rw [← hp, hn] at hn'
        cases hn'
        obtain ⟨rows, hrows, -⟩ := h.listing hdir
        unfold ContainerArchiveProvider.readDir at hrows
        rw [herr] at hrows
        cases hrows
      · obtain ⟨md, hmd, -⟩ := h.attributes
        unfold ContainerArchiveProvider.getattr at hmd
        rw [if_neg hroot, herr] at hmd
        cases hmd
    · intro h
      exact absurd h.entries hnot

end Reading

/-! ## A directory that contains its own name -/

theorem find_node (hdistinct : (nodes.map Prod.fst).Nodup) {x : VirtualPath × TreeNode}
    (hx : x ∈ nodes) : nodes.find? (fun y => y.1 = x.1) = some x := by
  cases hfind : nodes.find? fun y => y.1 = x.1 with
  | none => exact absurd (by simp) (List.find?_eq_none.mp hfind x hx)
  | some y =>
    have hpath : y.1 = x.1 := by simpa using List.find?_some hfind
    rw [List.inj_on_of_nodup_map hdistinct (List.mem_of_find?_eq_some hfind) hx hpath]

def ModelTree.ofNodes (nodes : List (VirtualPath × TreeNode))
    (hroot : ∃ x ∈ nodes, x.1 = VirtualPath.root ∧ x.2.fileType = .directory)
    (hdistinct : (nodes.map Prod.fst).Nodup)
    (hparents : ∀ x ∈ nodes, x.1.components ≠ [] → ∃ y ∈ nodes,
      y.1.components = x.1.components.dropLast ∧ y.2.fileType = .directory) : ModelTree where
  node q := (nodes.find? fun x => x.1 = q).map Prod.snd
  root := by
    obtain ⟨x, hx, hpath, hdir⟩ := hroot
    exact ⟨x.2, by rw [← hpath, find_node hdistinct hx]; rfl, hdir⟩
  parents p name q n hjoin hn := by
    obtain ⟨x, hfind, rfl⟩ := Option.map_eq_some_iff.mp hn
    have hpath : x.1 = q := by simpa using List.find?_some hfind
    have hcomponents := VirtualPath.fromComponents_ok hjoin
    obtain ⟨y, hy, habove, hdir⟩ := hparents x (List.mem_of_find?_eq_some hfind)
      (by rw [hpath, hcomponents]; simp)
    have hyp : y.1 = p := by
      refine VirtualPath.ext ?_
      rw [habove, hpath, hcomponents, List.dropLast_concat]
    exact ⟨y.2, by rw [← hyp, find_node hdistinct hy]; rfl, hdir⟩

theorem ModelTree.mem_of_ofNodes
    {hroot : ∃ x ∈ nodes, x.1 = VirtualPath.root ∧ x.2.fileType = .directory}
    {hparents : ∀ x ∈ nodes, x.1.components ≠ [] → ∃ y ∈ nodes,
      y.1.components = x.1.components.dropLast ∧ y.2.fileType = .directory} {n : TreeNode}
    (h : (ofNodes nodes hroot hdistinct hparents).node q = some n) : (q, n) ∈ nodes := by
  obtain ⟨x, hfind, rfl⟩ := Option.map_eq_some_iff.mp h
  have hpath : x.1 = q := by simpa using List.find?_some hfind
  rw [← hpath]
  exact List.mem_of_find?_eq_some hfind

/-- The endpoint: every path of the tree but the root has its archive. -/
def Serves (provider : ContainerArchiveProvider) (tree : ModelTree) : Prop :=
  ∀ (p : VirtualPath) (n : TreeNode), p.isRoot = false → tree.node p = some n →
    ∃ stream members, provider.source provider.objectId p = .ok stream ∧
      (TarStreamReader.new stream provider.limits).Holds members ∧ Depicts tree p members

def directoryNode : TreeNode := ⟨.directory, [], fun _ => rfl⟩

def fileNode (content : Bytes) : TreeNode := ⟨.regularFile, content, fun h => absurd rfl h⟩

/-- The directory `/a/a` with a file `a` in it. -/
def doubledNodes : List (VirtualPath × TreeNode) :=
  [(VirtualPath.root, directoryNode), (pathOf "/a", directoryNode), (pathOf "/a/a", directoryNode),
    (pathOf "/a/a/a", fileNode (ascii "text"))]

def doubledTree : ModelTree :=
  ModelTree.ofNodes doubledNodes (by decide) (by decide) (by decide)

/-- A member of a written archive. -/
def archiveFile (path : VirtualPath) (body : Option Bytes) : Option ArchiveFile :=
  if h : path.components ≠ [] ∧ (relativeName path.components).length ≤ 100 ∧
      (body.getD []).length ≤ TarLimits.standard.maxEntryBytes then
    some
      { components := path.components
        isDir := body.isNone
        mode := 0o644
        body := body.getD []
        nonempty := h.1
        name_short := h.2.1
        mode_fits := by decide
        body_fits := h.2.2
        dir_empty := fun hnone => by rw [Option.isNone_iff_eq_none.mp hnone]; rfl }
  else none

/-- The archives of the tree: names start at the last component. -/
def doubledFiles (p : VirtualPath) : List ArchiveFile :=
  (if p = pathOf "/a" then
    [archiveFile (pathOf "/a") none, archiveFile (pathOf "/a/a") none,
      archiveFile (pathOf "/a/a/a") (some (ascii "text"))]
  else if p = pathOf "/a/a" then
    [archiveFile (pathOf "/a") none, archiveFile (pathOf "/a/a") (some (ascii "text"))]
  else [archiveFile (pathOf "/a") (some (ascii "text"))]).reduceOption

def doubledSource : ContainerArchiveSource := fun _ p =>
  match writeArchive (doubledFiles p) with
  | some bytes => .ok [.ok bytes]
  | none => .error .notFound

def doubledProvider : ContainerArchiveProvider where
  objectId := "c0ffee"
  source := doubledSource
  spool := ⟨.standard, ContentSpoolLimits.validate_standard, 0, ContentSpoolLimits.zero_le_standard⟩
  limits := TarLimits.standard
  valid := TarLimits.validate_standard
  nextHandle := 1
  handles := ∅

/-- What to check for the members to be the subtree, when there are no hard links. -/
theorem depicts_ofNodes {hroot : ∃ x ∈ nodes, x.1 = VirtualPath.root ∧ x.2.fileType = .directory}
    {hparents : ∀ x ∈ nodes, x.1.components ≠ [] → ∃ y ∈ nodes,
      y.1.components = x.1.components.dropLast ∧ y.2.fileType = .directory} {p : VirtualPath}
    {members : List (TarEntry × Bytes)} (hnodup : (members.map fun m => m.1.path).Nodup)
    (hsound : ∀ m ∈ members, ∃ x ∈ nodes, p.components <+: x.1.components ∧
      m.1.path = archivePath p x.1 ∧ m.1.kind ≠ .hardlink ∧ m.1.fileType = x.2.fileType ∧
      m.2 = x.2.content) (hcomplete : ∀ x ∈ nodes, p.components <+: x.1.components →
      ∃ m ∈ members, m.1.path = archivePath p x.1) :
    Depicts (ModelTree.ofNodes nodes hroot hdistinct hparents) p members where
  distinct := hnodup
  sound m hm := by
    obtain ⟨x, hx, hpre, hpath, hkind, htype, hbody⟩ := hsound m hm
    refine ⟨x.1, x.2, hpre, ?_, hpath, .inl ⟨hkind, htype, hbody⟩⟩
    show (nodes.find? fun y => y.1 = x.1).map Prod.snd = some x.2
    rw [find_node hdistinct hx]
    rfl
  complete q n hpre _ hn := hcomplete (q, n) (ModelTree.mem_of_ofNodes hn) hpre

theorem doubled_holds {p : VirtualPath}
    (hsize : ∀ bytes ∈ writeArchive (doubledFiles p),
      bytes.length ≤ TarLimits.standard.maxArchiveBytes) :
    ∃ stream, doubledProvider.source doubledProvider.objectId p = .ok stream ∧
      (TarStreamReader.new stream doubledProvider.limits).Holds
        ((doubledFiles p).map fun f => (f.entry, f.body)) := by
  obtain ⟨bytes, hbytes⟩ : ∃ bytes, writeArchive (doubledFiles p) = some bytes :=
    ⟨_, writeArchive_eq _⟩
  refine ⟨[bytes].map .ok, ?_, holds_of_written hbytes (hsize bytes hbytes) (by simp)⟩
  show doubledSource doubledProvider.objectId p = _
  unfold doubledSource
  rw [hbytes]
  rfl

theorem doubledProvider_serves : Serves doubledProvider doubledTree := by
  intro p n hroot hn
  have hmem := ModelTree.mem_of_ofNodes hn
  have hpaths : p = pathOf "/a" ∨ p = pathOf "/a/a" ∨ p = pathOf "/a/a/a" := by
    simp only [doubledNodes, List.mem_cons, Prod.mk.injEq, List.not_mem_nil, or_false] at hmem
    rcases hmem with ⟨rfl, -⟩ | ⟨rfl, -⟩ | ⟨rfl, -⟩ | ⟨rfl, -⟩
    · cases hroot
    · exact .inl rfl
    · exact .inr (.inl rfl)
    · exact .inr (.inr rfl)
  obtain ⟨stream, hsource, hholds⟩ := doubled_holds (p := p)
    (by rcases hpaths with rfl | rfl | rfl <;> decide +kernel)
  refine ⟨stream, _, hsource, hholds, ?_⟩
  rcases hpaths with rfl | rfl | rfl <;>
    exact depicts_ofNodes (by decide +kernel) (by decide +kernel) (by decide +kernel)

/-- The directory `/a/a` is reported as the file `/a/a/a`. -/
theorem decoy_read_instead :
    Serves doubledProvider doubledTree ∧
      ∃ n, doubledTree.node (pathOf "/a/a") = some n ∧ n.fileType = .directory ∧
        (doubledProvider.getattr (pathOf "/a/a")).map
          (fun md => (md.fileType, md.size)) = .ok (.regularFile, 4) ∧
        doubledProvider.readDir (pathOf "/a/a") = .error .notDirectory ∧
        ¬ ReadsNode doubledProvider doubledTree (pathOf "/a/a") n := by
  have hattr : (doubledProvider.getattr (pathOf "/a/a")).map
      (fun md => (md.fileType, md.size)) = .ok (.regularFile, 4) := by decide +kernel
  refine ⟨doubledProvider_serves, directoryNode, rfl, rfl, hattr, by decide +kernel, ?_⟩
  intro h
  obtain ⟨md, hmd, htype, -⟩ := h.attributes
  rw [hmd] at hattr
  have hreported : md.fileType = .regularFile := by
    simp only [Except.map, Except.ok.injEq, Prod.mk.injEq] at hattr
    exact hattr.1
  rw [hreported] at htype
  cases htype

/-- The file `/a/a/a` has no decoy and is read. -/
theorem doubled_file_read :
    ReadsNode doubledProvider doubledTree (pathOf "/a/a/a") (fileNode (ascii "text")) := by
  have hnode : doubledTree.node (pathOf "/a/a/a") = some (fileNode (ascii "text")) := rfl
  obtain ⟨stream, hsource, hholds⟩ := doubled_holds (p := pathOf "/a/a/a") (by decide +kernel)
  refine (readsNode_iff hnode hsource hholds
    (depicts_ofNodes (by decide +kernel) (by decide +kernel) (by decide +kernel))).mpr ?_
  refine ⟨by decide +kernel, fun _ => by decide +kernel, ?_⟩
  intro q d hq hd
  have hmem := ModelTree.mem_of_ofNodes hd
  have hshort : ∀ x ∈ doubledNodes,
      x.1.components ≠ (pathOf "/a/a/a").components.dropLast ++ (pathOf "/a/a/a").components := by
    decide
  exact absurd hq.2.2 (hshort (q, d) hmem)

end TuxStack.Docker
