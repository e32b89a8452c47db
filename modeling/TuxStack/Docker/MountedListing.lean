import TuxStack.Docker.MountOverlays
import TuxStack.Lib.Following
import TuxStack.Lib.KeyedMaps

/-!
# Listing a snapshot under its mounts

`directory_entries` of an index that `from_stream` built and `apply_mount_overlays` laid
mounts over. The overlays may take the file away that a hardlink elsewhere names, and the
archive itself may hold hardlinks to nothing, or to each other.

The whole listing fails with the first child whose metadata cannot be had: a directory is
listed exactly when each of its hardlinks leads to an entry within the hops of
`resolve_hardlink` (`listing_iff`). Everything else a listing needs, the index always has
(`WellNamed`).
-/

namespace TuxStack.Docker

open Vfs Tar Result Following

/-! ## What the overlays keep -/

/-- Every entry is at its own path, which is made of file names. -/
structure WellNamed (index : TarIndex) : Prop where
  keyed : ∀ p e, index.get p = some e → e.path = p
  valid : ∀ p e, index.get p = some e → p.Valid

namespace WellNamed

variable {index index' : TarIndex} {maxEntries : Nat}

theorem valid_of_mem_ancestors {p q : TarPath} (hp : p.Valid) (hq : q ∈ p.ancestors) : q.Valid :=
  fun c hc => hp c ((TarPath.mem_ancestors.mp hq).1.subset hc)

theorem valid_fromVirtual (v : VirtualPath) : (TarPath.fromVirtual v).Valid := by
  intro c hc
  obtain ⟨name, -, rfl⟩ := List.mem_map.mp hc
  exact ⟨name, VirtualFileName.new_bytes name⟩

theorem applyMountOverlay (h : WellNamed index) {destination : VirtualPath}
    (hoverlay : applyMountOverlay maxEntries index destination = .ok index') :
    WellNamed index' where
  keyed p e he := by
    rcases get_applyMountOverlay hoverlay he with hold | ⟨rfl, -⟩
    · exact h.keyed p e hold
    · rfl
  valid p e he := by
    rcases get_applyMountOverlay hoverlay he with hold | ⟨-, rfl | habove⟩
    · exact h.valid p e hold
    · exact valid_fromVirtual destination
    · exact valid_of_mem_ancestors (valid_fromVirtual destination) habove

theorem of_fromStream {stream : ArchiveByteStream} {limits : TarLimits}
    (h : TarIndex.fromStream stream limits = .ok index) : WellNamed index := by
  obtain ⟨members, -, hproper, hfold⟩ := fromStream_ok h
  obtain ⟨hget, -, -⟩ := get_of_fold hproper hfold
  exact ⟨keyed_of_get hget, fun p e he => valid_of_get hget hproper he⟩

/-- **Names stay right under any mounts**, in any order. -/
theorem applyMountOverlays (h : WellNamed index) {mounts : List VirtualPath}
    (hoverlays : applyMountOverlays index mounts maxEntries = .ok index') : WellNamed index' :=
  foldlM_invariant WellNamed (fun _ _ _ _ hbefore hstep => hbefore.applyMountOverlay hstep) h
    hoverlays

end WellNamed

/-! ## Hardlinks -/

def hardlinkHop (get : TarPath → Option TarEntry) (path : TarPath) :
    Except VfsError (TarEntry ⊕ TarPath) :=
  match get path with
  | none => .error .notFound
  | some entry =>
    if entry.kind ≠ .hardlink then .ok (.inl entry)
    else
      match entry.linkTarget with
      | none => .error (.io "hardlink has no target")
      | some target => (TarPath.fromTarBytes target TarLimits.standard).map .inr

theorem resolveLoop_eq_follow (get : TarPath → Option TarEntry) : ∀ (rounds : Nat)
    (visited : List TarPath) (path : TarPath),
    TarIndex.resolveLoop get rounds visited path =
      follow (hardlinkHop get) .symlinkLoop rounds visited path
  | 0, _, _ => rfl
  | rounds + 1, visited, path => by
      rw [TarIndex.resolveLoop, follow, hardlinkHop]
      split
      · rfl
      · cases hget : get path with
        | none => rfl
        | some entry =>
          dsimp only
          split
          · rfl
          · cases entry.linkTarget with
            | none => rfl
            | some target =>
              dsimp only
              cases TarPath.fromTarBytes target TarLimits.standard with
              | error e => rfl
              | ok next => exact resolveLoop_eq_follow get rounds (path :: visited) next

/-- The hardlinks from a path lead to an entry that is none, in fewer than 40 hops. -/
def HardlinkResolves (index : TarIndex) (path : TarPath) : Prop :=
  ∃ hops < 40, ∃ entry, Leads (hardlinkHop index.get) hops path entry

theorem resolveHardlink_iff {index : TarIndex} {path : TarPath} :
    (∃ entry, index.resolveHardlink path = .ok entry) ↔ HardlinkResolves index path := by
  unfold TarIndex.resolveHardlink HardlinkResolves
  simp only [resolveLoop_eq_follow, follow_iff]
  constructor
  · rintro ⟨entry, hops, hlt, h⟩
    exact ⟨hops, hlt, entry, h⟩
  · rintro ⟨hops, hlt, entry, h⟩
    exact ⟨entry, hops, hlt, h⟩

/-! ## One row for each child -/

def childPath (directory : TarPath) (name : Bytes) : TarPath := ⟨directory.components ++ [name]⟩

theorem parent_childPath {p directory : TarPath} :
    p.parent = some directory ↔ ∃ name, p = childPath directory name := by
  rw [TarPath.parent_eq_some]
  exact exists_congr fun name => TarPath.ext_iff.symm

@[simp] theorem name_childPath (directory : TarPath) (name : Bytes) :
    (childPath directory name).name = some name := by
  simp [TarPath.name, childPath]

structure ListsChildren (index : TarIndex) (directory : TarPath) (identityPrefix : Bytes)
    (generation : Nat) (rows : List VirtualDirectoryEntry) : Prop where
  nodup : (rows.map fun row => row.name.bytes).Nodup
  complete : ∀ name, name ∈ rows.map (fun row => row.name.bytes) ↔
    (index.get (childPath directory name)).isSome = true
  metadata : ∀ row ∈ rows,
    index.metadata (childPath directory row.name.bytes) identityPrefix generation =
      .ok row.metadata

section Rows

variable {index : TarIndex} {directory : TarPath} {identityPrefix : Bytes} {generation : Nat}

theorem exists_metadata_iff {p : TarPath} {e : TarEntry} (he : index.get p = some e) :
    (∃ m, index.metadata p identityPrefix generation = .ok m) ↔
      (e.kind = .hardlink → HardlinkResolves index p) := by
  unfold TarIndex.metadata
  rw [he]
  dsimp only
  split
  · rename_i hkind
    exact iff_of_true ⟨_, rfl⟩ fun h => absurd h hkind
  · rename_i hkind
    rw [← resolveHardlink_iff]
    constructor
    · rintro ⟨m, hm⟩ -
      obtain ⟨entry, hentry, -⟩ := bind_eq_ok.mp hm
      exact ⟨entry, hentry⟩
    · intro h
      obtain ⟨entry, hentry⟩ := h (not_not.mp hkind)
      exact ⟨_, bind_eq_ok.mpr ⟨entry, hentry, rfl⟩⟩

theorem mem_children_iff (hnamed : WellNamed index) {e : TarEntry} :
    e ∈ index.children directory ↔
      ∃ name, e.path = childPath directory name ∧
        index.get (childPath directory name) = some e := by
  rw [mem_children hnamed.keyed, parent_childPath]
  constructor
  · rintro ⟨he, name, hname⟩
    exact ⟨name, hname, hname ▸ he⟩
  · rintro ⟨name, hname, he⟩
    exact ⟨hname ▸ he, name, hname⟩

theorem directoryEntry_ok {e : TarEntry} {row : VirtualDirectoryEntry}
    (h : index.directoryEntry identityPrefix generation e = .ok row) :
    e.path.name = some row.name.bytes ∧
      index.metadata e.path identityPrefix generation = .ok row.metadata := by
  unfold TarIndex.directoryEntry at h
  split at h
  · cases h
  · rename_i raw hraw
    obtain ⟨name, hname, hrest⟩ := bind_eq_ok.mp h
    obtain ⟨m, hm, hend⟩ := bind_eq_ok.mp hrest
    cases hend
    exact ⟨by rw [hraw, VirtualFileName.bytes_of_new hname], hm⟩

theorem exists_row_iff (hnamed : WellNamed index) {name : Bytes} {e : TarEntry}
    (hpath : e.path = childPath directory name)
    (he : index.get (childPath directory name) = some e) :
    (∃ row, index.directoryEntry identityPrefix generation e = .ok row) ↔
      (e.kind = .hardlink → HardlinkResolves index (childPath directory name)) := by
  have hmetadata : (∃ m, index.metadata (childPath directory name) identityPrefix generation =
      .ok m) ↔ (e.kind = .hardlink → HardlinkResolves index (childPath directory name)) :=
    exists_metadata_iff he
  rw [← hmetadata, ← hpath]
  constructor
  · rintro ⟨row, hrow⟩
    exact ⟨row.metadata, (directoryEntry_ok hrow).2⟩
  · rintro ⟨m, hm⟩
    obtain ⟨fileName, hfileName⟩ := hnamed.valid _ e he name (by simp [childPath])
    refine ⟨⟨fileName, m⟩, ?_⟩
    unfold TarIndex.directoryEntry
    rw [hpath, name_childPath, ← hpath]
    exact bind_eq_ok.mpr ⟨fileName, hfileName, bind_eq_ok.mpr ⟨m, hm, rfl⟩⟩

theorem nodup_names (hnamed : WellNamed index) :
    ((index.children directory).map fun e => e.path.name).Nodup := by
  have hkeys : ((index.entries.toList.map Prod.snd).map TarEntry.path).Nodup :=
    KeyedMaps.nodup_keys_of_values hnamed.keyed
  have hpaths : ((index.children directory).map TarEntry.path).Nodup :=
    hkeys.sublist (List.filter_sublist.map _)
  refine List.Nodup.map_on ?_ (List.Nodup.of_map _ hpaths)
  intro e he e' he' heq
  obtain ⟨name, hpath, hget⟩ := (mem_children_iff hnamed).mp he
  obtain ⟨name', hpath', hget'⟩ := (mem_children_iff hnamed).mp he'
  rw [hpath, hpath', name_childPath, name_childPath] at heq
  cases heq
  rw [hget] at hget'
  exact Option.some.inj hget'

theorem listsChildren_of_mapM (hnamed : WellNamed index) {rows : List VirtualDirectoryEntry}
    (h : (index.children directory).mapM (index.directoryEntry identityPrefix generation) =
      .ok rows) : ListsChildren index directory identityPrefix generation rows := by
  have hnames : (index.children directory).map (fun e => e.path.name) =
      (rows.map fun row => row.name.bytes).map some := by
    rw [List.map_map]
    exact map_eq_of_mapM_ok (fun e row _ hrow => (directoryEntry_ok hrow).1) h
  refine ⟨?_, fun name => ?_, fun row hrow => ?_⟩
  · exact List.Nodup.of_map some (hnames ▸ nodup_names hnamed)
  · have hmem : name ∈ rows.map (fun row => row.name.bytes) ↔
        some name ∈ (index.children directory).map fun e => e.path.name := by
      rw [hnames]
      simp
    rw [hmem, List.mem_map, Option.isSome_iff_exists]
    refine exists_congr fun e => ?_
    rw [mem_children_iff hnamed]
    constructor
    · rintro ⟨⟨name', hpath, hget⟩, hname⟩
      rw [hpath, name_childPath] at hname
      cases hname
      exact hget
    · intro hget
      have hpath := hnamed.keyed _ e hget
      exact ⟨⟨name, hpath, hget⟩, by rw [hpath, name_childPath]⟩
  · obtain ⟨e, he, hof⟩ := exists_of_mem_mapM_ok h hrow
    obtain ⟨name, hpath, -⟩ := (mem_children_iff hnamed).mp he
    obtain ⟨hname, hmetadata⟩ := directoryEntry_ok hof
    rw [hpath, name_childPath] at hname
    cases hname
    rwa [← hpath]

theorem exists_rows_iff (hnamed : WellNamed index) :
    (∃ rows, (index.children directory).mapM
        (index.directoryEntry identityPrefix generation) = .ok rows) ↔
      ∀ name e, index.get (childPath directory name) = some e → e.kind = .hardlink →
        HardlinkResolves index (childPath directory name) := by
  constructor
  · rintro ⟨rows, hrows⟩ name e he
    have hpath := hnamed.keyed _ e he
    obtain ⟨row, -, hrow⟩ := mem_of_mapM_ok hrows ((mem_children_iff hnamed).mpr ⟨name, hpath, he⟩)
    exact (exists_row_iff hnamed hpath he).mp ⟨row, hrow⟩
  · intro h
    refine exists_mapM_ok fun e he => ?_
    obtain ⟨name, hpath, hget⟩ := (mem_children_iff hnamed).mp he
    exact (exists_row_iff hnamed hpath hget).mpr (h name e hget)

end Rows

/-- **When a directory of a snapshot is listed.** For every stream that indexes, any mounts
laid over it, and every path whose entry is a directory: the listing succeeds exactly when
every child that is a hardlink leads to an entry, and a listing that succeeds has one row
for each child. -/
theorem listing_iff {stream : ArchiveByteStream} {limits : TarLimits} {built index : TarIndex}
    (hbuilt : TarIndex.fromStream stream limits = .ok built) {mounts : List VirtualPath}
    {maxEntries : Nat} (hindex : applyMountOverlays built mounts maxEntries = .ok index)
    {path : VirtualPath} {directory : TarEntry} (hget : index.getVirtual path = some directory)
    (hkind : directory.kind = .directory) (identityPrefix : Bytes) (generation : Nat) :
    ((∃ rows, index.directoryEntries path identityPrefix generation = .ok rows) ↔
      ∀ name e, index.get (childPath (TarPath.fromVirtual path) name) = some e →
        e.kind = .hardlink →
        HardlinkResolves index (childPath (TarPath.fromVirtual path) name)) ∧
    ∀ rows, index.directoryEntries path identityPrefix generation = .ok rows →
      ListsChildren index (TarPath.fromVirtual path) identityPrefix generation rows := by
  have hnamed := (WellNamed.of_fromStream hbuilt).applyMountOverlays hindex
  have hrows : index.directoryEntries path identityPrefix generation =
      (index.children (TarPath.fromVirtual path)).mapM
        (index.directoryEntry identityPrefix generation) := by
    unfold TarIndex.getVirtual at hget
    unfold TarIndex.directoryEntries
    dsimp only
    rw [hget]
    exact if_neg (not_not_intro hkind)
  rw [hrows]
  exact ⟨exists_rows_iff hnamed, fun rows => listsChildren_of_mapM hnamed⟩

/-- A file `data/f` and a hardlink to it, at the top. -/
def linkToData : Bytes :=
  archive [member (ascii "data/f") 48 [], header (ascii "link") 49 0 (ascii "data/f")]

/-- The mount at `data` hides the file, and the root is listed no more. -/
theorem orphaned_hardlink_poisons_root :
    ∃ built index, TarIndex.fromStream [.ok linkToData] TarLimits.standard = .ok built ∧
      applyMountOverlays built [pathOf "/data"] TarLimits.standard.maxEntries = .ok index ∧
      (index.getVirtual VirtualPath.root).map TarEntry.kind = some .directory ∧
      index.directoryEntries VirtualPath.root [] 0 = .error .notFound := by
  have hrun : ((TarIndex.fromStream [.ok linkToData] TarLimits.standard).bind fun built =>
      (applyMountOverlays built [pathOf "/data"] TarLimits.standard.maxEntries).map fun index =>
        ((index.getVirtual VirtualPath.root).map TarEntry.kind,
          index.directoryEntries VirtualPath.root [] 0)) =
      .ok (some .directory, .error .notFound) := by
    decide +kernel
  obtain ⟨built, hbuilt, hrest⟩ := bind_eq_ok.mp hrun
  cases hindex : applyMountOverlays built [pathOf "/data"] TarLimits.standard.maxEntries with
  | error e =>
    rw [hindex] at hrest
    cases hrest
  | ok index =>
    rw [hindex] at hrest
    simp only [Except.map, Except.ok.injEq, Prod.mk.injEq] at hrest
    exact ⟨built, index, hbuilt, hindex, hrest⟩

/-- A mount elsewhere leaves the file, and the root is listed, the hardlink with it. -/
theorem resolving_hardlink_is_listed :
    ∃ built index rows, TarIndex.fromStream [.ok linkToData] TarLimits.standard = .ok built ∧
      applyMountOverlays built [pathOf "/mnt"] TarLimits.standard.maxEntries = .ok index ∧
      index.directoryEntries VirtualPath.root [] 0 = .ok rows ∧
      rows.map (fun row => row.name.bytes) = [ascii "data", ascii "link", ascii "mnt"] ∧
      ListsChildren index TarPath.root [] 0 rows ∧
      ∀ name e, index.get (childPath TarPath.root name) = some e → e.kind = .hardlink →
        HardlinkResolves index (childPath TarPath.root name) := by
  have hrun : ((TarIndex.fromStream [.ok linkToData] TarLimits.standard).bind fun built =>
      (applyMountOverlays built [pathOf "/mnt"] TarLimits.standard.maxEntries).map fun index =>
        ((index.getVirtual VirtualPath.root).map TarEntry.kind,
          (index.directoryEntries VirtualPath.root [] 0).map fun rows =>
            rows.map fun row => row.name.bytes)) =
      .ok (some .directory, .ok [ascii "data", ascii "link", ascii "mnt"]) := by
    decide +kernel
  obtain ⟨built, hbuilt, hrest⟩ := bind_eq_ok.mp hrun
  cases hindex : applyMountOverlays built [pathOf "/mnt"] TarLimits.standard.maxEntries with
  | error e =>
    rw [hindex] at hrest
    cases hrest
  | ok index =>
    rw [hindex] at hrest
    simp only [Except.map, Except.ok.injEq, Prod.mk.injEq, Option.map_eq_some_iff] at hrest
    obtain ⟨⟨directory, hget, hkind⟩, hrows⟩ := hrest
    cases hentries : index.directoryEntries VirtualPath.root [] 0 with
    | error e =>
      rw [hentries] at hrows
      cases hrows
    | ok rows =>
      rw [hentries] at hrows
      obtain ⟨hiff, hlists⟩ := listing_iff hbuilt hindex hget hkind [] 0
      exact ⟨built, index, rows, hbuilt, hindex, hentries, Except.ok.inj hrows,
        hlists rows hentries, hiff.mp ⟨rows, hentries⟩⟩

end TuxStack.Docker
