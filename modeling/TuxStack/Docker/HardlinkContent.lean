import TuxStack.Docker.MountedListing
import TuxStack.Docker.SnapshotGenerations
import TuxStack.Tar.Persisted

/-!
# Hardlinks, as they are listed and as they are opened

`TarIndex::metadata` and `TarIndex::content_path` of
`crates/docker-core/src/vfs_providers/tar_index.rs`. Each has its own table of kinds, and both
begin with `resolve_hardlink` (`metadata_eq`, `contentPath_eq`). What it finds is no hardlink:
the two tables meet at the regular files.

An index is built under a limit on its paths. Under the limit of the virtual filesystem each
path of the index is one of the virtual filesystem too, also that of a link target.
-/

namespace TuxStack.Docker

open Vfs Tar Result Following

/-! ## Paths of the index are paths of the filesystem -/

theorem toVirtual_fromVirtual (v : VirtualPath) :
    (TarPath.fromVirtual v).toVirtual = .ok v := by
  have hnames : (texts v.components).mapM VirtualFileName.new = .ok v.components := by
    refine mapM_eq_ok.mpr ?_
    unfold texts
    rw [List.forall₂_map_left_iff, List.forall₂_same]
    exact fun name _ => VirtualFileName.new_bytes name
  unfold TarPath.toVirtual TarPath.fromVirtual
  exact bind_eq_ok.mpr ⟨v.components, hnames, VirtualPath.fromComponents_components v⟩

def PathsFit (index : TarIndex) : Prop :=
  ∀ p e, index.get p = some e → p.encodedLen ≤ defaultMaxPathBytes

theorem encodedLen_fromVirtual_le (v : VirtualPath) :
    (TarPath.fromVirtual v).encodedLen ≤ defaultMaxPathBytes := by
  rw [encodedLen_fromVirtual]
  exact v.bounded

theorem PathsFit.applyMountOverlays {index index' : TarIndex} {mounts : List VirtualPath}
    {maxEntries : Nat} (h : PathsFit index)
    (hoverlays : applyMountOverlays index mounts maxEntries = .ok index') : PathsFit index' := by
  refine foldlM_invariant PathsFit (fun d _ before after hbefore hstep p e he => ?_) h hoverlays
  rcases get_applyMountOverlay hstep he with hold | ⟨-, rfl | habove⟩
  · exact hbefore p e hold
  · exact encodedLen_fromVirtual_le d
  · exact encodedLen_le_of_prefix (by decide) (TarPath.mem_ancestors.mp habove).1
      (encodedLen_fromVirtual_le d)

theorem PathsFit.of_fromStream {stream : ArchiveByteStream} {limits : TarLimits}
    {index : TarIndex} (h : TarIndex.fromStream stream limits = .ok index)
    (hlimit : limits.maxPathBytes ≤ defaultMaxPathBytes) : PathsFit index := fun p e he =>
  ((TarIndex.intact_of_fromStream h).2.2.fits p e he).trans hlimit

/-! ## Both begin with the target -/

section Target

variable {index : TarIndex} {p : TarPath} {e target : TarEntry} {v : VirtualPath}
  {identityPrefix : Bytes} {generation : Nat}

theorem resolveHardlink_ok (h : index.resolveHardlink p = .ok target) :
    ∃ hops, Leads (hardlinkHop index.get) hops p target := by
  unfold TarIndex.resolveHardlink at h
  rw [resolveLoop_eq_follow, follow_iff] at h
  obtain ⟨hops, -, hleads⟩ := h
  exact ⟨hops, hleads⟩

/-- A chain of hardlinks ends at an entry of the index that is none. -/
theorem get_of_leads {hops : Nat} (h : Leads (hardlinkHop index.get) hops p target) :
    target.kind ≠ .hardlink ∧ ∃ q, index.get q = some target := by
  induction h with
  | @stop a b hstop =>
    unfold hardlinkHop at hstop
    cases hget : index.get a with
    | none =>
      rw [hget] at hstop
      cases hstop
    | some entry =>
      rw [hget] at hstop
      dsimp only at hstop
      split at hstop
      · next hkind =>
        cases hstop
        exact ⟨hkind, a, hget⟩
      · split at hstop
        · cases hstop
        · next target _ =>
          cases hnext : TarPath.fromTarBytes target TarLimits.standard with
          | error error | ok next =>
            rw [hnext] at hstop
            cases hstop
  | hop _ _ ih => exact ih

theorem resolveHardlink_self (he : index.get p = some e) (hkind : e.kind ≠ .hardlink) :
    index.resolveHardlink p = .ok e := by
  unfold TarIndex.resolveHardlink
  rw [TarIndex.resolveLoop, if_neg List.not_mem_nil, he]
  exact if_pos hkind

/-- The metadata of a path whose entry is `e`: that of its target, a hardlink with a link
more. -/
def linkedMetadata (identityPrefix : Bytes) (generation : Nat) (e target : TarEntry) :
    VirtualMetadata :=
  let metadata := target.metadata identityPrefix generation
  { metadata with nlink := if e.kind = .hardlink then max metadata.nlink 2 else metadata.nlink }

theorem metadata_eq (he : index.get p = some e) :
    index.metadata p identityPrefix generation =
      (index.resolveHardlink p).map (linkedMetadata identityPrefix generation e) := by
  unfold TarIndex.metadata
  rw [he]
  dsimp only
  by_cases hkind : e.kind = .hardlink
  · rw [if_neg (not_not_intro hkind)]
    cases index.resolveHardlink p with
    | error error => rfl
    | ok target =>
      show Except.ok _ = Except.ok (linkedMetadata identityPrefix generation e target)
      unfold linkedMetadata
      simp only [if_pos hkind]
  · rw [if_pos hkind, resolveHardlink_self he hkind]
    show _ = Except.ok (linkedMetadata identityPrefix generation e e)
    unfold linkedMetadata
    simp only [if_neg hkind]

/-- The content of a target: where it is, if it is a file. -/
def targetContent (target : TarEntry) : Except VfsError VirtualPath :=
  match target.kind with
  | .regularFile => target.path.toVirtual
  | .directory => .error .isDirectory
  | .characterDevice | .blockDevice | .namedPipe | .other => .error .specialFile
  | _ => .error (.invalidInput "node is not a regular file")

theorem contentPath_eq (hv : TarPath.fromVirtual v = p) (he : index.get p = some e) :
    index.contentPath v = (index.resolveHardlink p).bind targetContent := by
  subst hv
  unfold TarIndex.contentPath
  simp only [he]
  by_cases hkind : e.kind = .hardlink
  · rw [if_pos hkind]
    rfl
  · rw [if_neg hkind, resolveHardlink_self he hkind]
    rfl

/-- **The tables meet at the regular files.** -/
theorem targetContent_ok {q : VirtualPath} (hkind : target.kind ≠ .hardlink) :
    targetContent target = .ok q ↔
      target.fileType = .regularFile ∧ target.path.toVirtual = .ok q := by
  unfold targetContent TarEntry.fileType
  cases hcase : target.kind with
  | regularFile => simp
  | hardlink => exact absurd hcase hkind
  | directory | symlink | characterDevice | blockDevice | namedPipe | other => simp

theorem kind_of_fileType (hkind : target.kind ≠ .hardlink)
    (h : target.fileType = .regularFile) : target.kind = .regularFile := by
  unfold TarEntry.fileType at h
  cases hcase : target.kind with
  | regularFile => rfl
  | hardlink => exact absurd hcase hkind
  | directory | symlink | characterDevice | blockDevice | namedPipe | other =>
    rw [hcase] at h
    cases h

/-- A chain of hardlinks that runs into a circle is told as a loop, by both. -/
theorem symlinkLoop_of_circles (hv : TarPath.fromVirtual v = p) (he : index.get p = some e)
    (h : Circles (hardlinkHop index.get) p) :
    index.metadata p identityPrefix generation = .error .symlinkLoop ∧
      index.contentPath v = .error .symlinkLoop := by
  have hresolve : index.resolveHardlink p = .error .symlinkLoop := by
    unfold TarIndex.resolveHardlink
    rw [resolveLoop_eq_follow]
    exact follow_of_circles 40 [] h
  rw [metadata_eq he, contentPath_eq hv he, hresolve]
  exact ⟨rfl, rfl⟩

end Target

/-- What `metadata` says of a path, when `q` is the file that `content_path` opens for it. -/
structure DescribesFile (index : TarIndex) (identityPrefix : Bytes) (generation : Nat)
    (p : TarPath) (q : VirtualPath) : Prop where
  /-- `q` is a regular file of the index, and the hardlinks lead there -/
  reached : ∃ target hops, index.get (TarPath.fromVirtual q) = some target ∧
    target.kind = .regularFile ∧ Leads (hardlinkHop index.get) hops p target
  /-- what is reported for the path is what is reported for `q` -/
  reported : ∃ m file, index.metadata p identityPrefix generation = .ok m ∧
    index.metadata (TarPath.fromVirtual q) identityPrefix generation = .ok file ∧
    m.fileType = .regularFile ∧ m.size = file.size ∧ m.original = file.original ∧
    m.nodeId = file.nodeId

/-- **Stat and open agree on hardlinks**, in every index under any mounts: a path is reported
as a regular file exactly when it has content, and its content is the file that is reported.
Hardlinks in a circle end both with the same error. -/
theorem stat_open_agree {stream : ArchiveByteStream} {limits : TarLimits} {built index : TarIndex}
    (hbuilt : TarIndex.fromStream stream limits = .ok built)
    (hlimit : limits.maxPathBytes ≤ defaultMaxPathBytes) {mounts : List VirtualPath}
    {maxEntries : Nat} (hindex : applyMountOverlays built mounts maxEntries = .ok index)
    {p : TarPath} {e : TarEntry} (he : index.get p = some e) (identityPrefix : Bytes)
    (generation : Nat) :
    ∃ v, TarPath.fromVirtual v = p ∧
      ((∃ m, index.metadata p identityPrefix generation = .ok m ∧ m.fileType = .regularFile) ↔
        ∃ q, index.contentPath v = .ok q) ∧
      (∀ q, index.contentPath v = .ok q → DescribesFile index identityPrefix generation p q) ∧
      (Circles (hardlinkHop index.get) p →
        index.metadata p identityPrefix generation = .error .symlinkLoop ∧
          index.contentPath v = .error .symlinkLoop) := by
  have hnamed := (WellNamed.of_fromStream hbuilt).applyMountOverlays hindex
  have hfit := (PathsFit.of_fromStream hbuilt hlimit).applyMountOverlays hindex
  obtain ⟨v, hv⟩ := exists_virtual (hnamed.valid p e he) (hfit p e he)
  refine ⟨v, hv, ?_, fun q hq => ?_, symlinkLoop_of_circles hv he⟩
  · rw [metadata_eq he, contentPath_eq hv he]
    -- both answers come from the entry at the end of the chain of links
    cases htarget : index.resolveHardlink p with
    | error error =>
      refine iff_of_false ?_ ?_
      · rintro ⟨m, hm, -⟩
        cases hm
      · rintro ⟨q, hq⟩
        cases hq
    | ok target =>
      obtain ⟨hops, hleads⟩ := resolveHardlink_ok htarget
      obtain ⟨hkind, place, hget⟩ := get_of_leads hleads
      constructor
      · rintro ⟨m, hm, hfile⟩
        cases hm
        obtain ⟨q, hq⟩ := exists_virtual (hnamed.valid place target hget)
          (hfit place target hget)
        have hpath : target.path.toVirtual = .ok q := by
          rw [hnamed.keyed place target hget, ← hq]
          exact toVirtual_fromVirtual q
        exact ⟨q, (targetContent_ok hkind).mpr ⟨hfile, hpath⟩⟩
      · rintro ⟨q, hq⟩
        exact ⟨_, rfl, ((targetContent_ok hkind).mp hq).1⟩
  · rw [contentPath_eq hv he] at hq
    obtain ⟨target, htarget, hcontent⟩ := bind_eq_ok.mp hq
    obtain ⟨hops, hleads⟩ := resolveHardlink_ok htarget
    obtain ⟨hkind, place, hget⟩ := get_of_leads hleads
    obtain ⟨hfile, hpath⟩ := (targetContent_ok hkind).mp hcontent
    have hq' : TarPath.fromVirtual q = place := by
      obtain ⟨w, hw⟩ := exists_virtual (hnamed.valid place target hget) (hfit place target hget)
      rw [hnamed.keyed place target hget, ← hw, toVirtual_fromVirtual] at hpath
      cases hpath
      exact hw
    refine ⟨⟨target, hops, hq' ▸ hget, kind_of_fileType hkind hfile, hleads⟩, ?_⟩
    refine ⟨linkedMetadata identityPrefix generation e target,
      target.metadata identityPrefix generation, ?_, ?_, hfile, rfl, rfl, rfl⟩
    · rw [metadata_eq he, htarget]
      rfl
    · unfold TarIndex.metadata
      rw [hq', hget]
      exact if_pos hkind

/-- The hardlink at the top is reported as the file `data/f`, and opens it. -/
theorem link_describes_file : ∃ built v q,
    TarIndex.fromStream [.ok linkToData] TarLimits.standard = .ok built ∧
      TarPath.fromVirtual v = ⟨[ascii "link"]⟩ ∧ built.contentPath v = .ok q ∧
      DescribesFile built [] 0 ⟨[ascii "link"]⟩ q := by
  have hrun : ((TarIndex.fromStream [.ok linkToData] TarLimits.standard).map fun built =>
      ((built.get ⟨[ascii "link"]⟩).map TarEntry.kind,
        (built.metadata ⟨[ascii "link"]⟩ [] 0).map VirtualMetadata.fileType)) =
      .ok (some .hardlink, .ok .regularFile) := by
    decide +kernel
  cases hbuilt : TarIndex.fromStream [.ok linkToData] TarLimits.standard with
  | error error =>
    rw [hbuilt] at hrun
    cases hrun
  | ok built =>
    rw [hbuilt] at hrun
    simp only [Except.map, Except.ok.injEq, Prod.mk.injEq, Option.map_eq_some_iff] at hrun
    obtain ⟨⟨e, he, -⟩, hmetadata⟩ := hrun
    have hindex : applyMountOverlays built [] 0 = .ok built := rfl
    obtain ⟨v, hv, hiff, hdescribes, -⟩ :=
      stat_open_agree hbuilt (by decide) hindex he [] 0
    have hfile : ∃ m, built.metadata ⟨[ascii "link"]⟩ [] 0 = .ok m ∧
        m.fileType = .regularFile := by
      cases hm : built.metadata ⟨[ascii "link"]⟩ [] 0 with
      | error error =>
        rw [hm] at hmetadata
        cases hmetadata
      | ok m =>
        rw [hm] at hmetadata
        exact ⟨m, rfl, Except.ok.inj hmetadata⟩
    obtain ⟨q, hq⟩ := hiff.mp hfile
    exact ⟨built, v, q, rfl, hv, hq, hdescribes q hq⟩

end TuxStack.Docker
