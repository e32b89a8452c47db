import TuxStack.Docker.Container
import TuxStack.Lib.SortedKeys
import TuxStack.Tar.Tree

/-!
# Mounts over a snapshot

`apply_mount_overlays` of `crates/docker-core/src/vfs_providers/container.rs`, after the sort
of `ContainerRootfsSnapshotProvider::new`. Each mount takes away what is below it and puts a
synthetic directory in its place, with the parents that are missing.

Shallow mounts come first, so no mount takes away what an earlier one has put: after every
mount the index is the lower layer, hidden below the mounts so far (`Overlaid`). The sort
forgets the order in which the mounts were given.
-/

namespace TuxStack.Docker

open Vfs Tar Result SortedKeys

/-! ## The order of the overlays -/

namespace ContainerRootfsSnapshotProvider

variable {left right : VirtualPath} {id : String} {generation : Nat} {limits : TarLimits}
  {mounts other : List VirtualPath} {p : ContainerRootfsSnapshotProvider}

theorem overlayLe_iff : overlayLe left right = true ↔
    RankedLe VirtualPath.asBytes VirtualPath.depth left right := by
  simp [overlayLe, RankedLe]

theorem depth_le_of_overlayLe (h : overlayLe left right = true) : left.depth ≤ right.depth := by
  rcases overlayLe_iff.mp h with hlt | ⟨heq, -⟩
  · exact hlt.le
  · exact heq.le

theorem overlayLe_trans (a b c : VirtualPath) (hab : overlayLe a b = true)
    (hbc : overlayLe b c = true) : overlayLe a c = true :=
  overlayLe_iff.mpr ((overlayLe_iff.mp hab).trans _ _ (overlayLe_iff.mp hbc))

theorem overlayLe_total (a b : VirtualPath) : (overlayLe a b || overlayLe b a) = true := by
  rw [Bool.or_eq_true, overlayLe_iff, overlayLe_iff]
  exact RankedLe.total _ _ a b

theorem eq_of_asBytes (h : left.asBytes = right.asBytes) : left = right := by
  have hleft := VirtualPath.fromAbsolute_asBytes left
  rw [h, VirtualPath.fromAbsolute_asBytes right] at hleft
  exact (Except.ok.inj hleft).symm

theorem overlayLe_antisymm (hle : overlayLe left right = true) (hge : overlayLe right left = true) :
    left = right :=
  eq_of_asBytes ((overlayLe_iff.mp hle).key_eq _ _ (overlayLe_iff.mp hge))

instance : Std.Antisymm fun left right : VirtualPath => overlayLe left right = true where
  antisymm _ _ := overlayLe_antisymm

theorem mounts_of_new (h : new id generation limits mounts = .ok p) :
    p.mounts = (mounts.mergeSort overlayLe).dedup := by
  obtain ⟨u, -, h⟩ := bind_eq_ok.mp h
  obtain ⟨u', -, h⟩ := bind_eq_ok.mp h
  cases h
  exact (List.pairwise_mergeSort overlayLe_trans overlayLe_total mounts).destutter_eq_dedup

theorem mem_mounts_of_new (h : new id generation limits mounts = .ok p) (d : VirtualPath) :
    d ∈ p.mounts ↔ d ∈ mounts := by
  rw [mounts_of_new h, List.mem_dedup, List.mem_mergeSort]

theorem pairwise_mounts_of_new (h : new id generation limits mounts = .ok p) :
    p.mounts.Pairwise fun a b => overlayLe a b = true := by
  rw [mounts_of_new h]
  exact (List.pairwise_mergeSort overlayLe_trans overlayLe_total mounts).sublist
    (List.dedup_sublist _)

/-- **The order of the mounts is forgotten**, and how often each is given. -/
theorem mounts_of_new_congr {p' : ContainerRootfsSnapshotProvider}
    (h : new id generation limits mounts = .ok p) (h' : new id generation limits other = .ok p')
    (hsame : ∀ d, d ∈ other ↔ d ∈ mounts) : p'.mounts = p.mounts := by
  have hperm : p'.mounts.Perm p.mounts := by
    rw [List.perm_ext_iff_of_nodup]
    · exact fun d => by rw [mem_mounts_of_new h', mem_mounts_of_new h, hsame]
    · rw [mounts_of_new h']
      exact List.nodup_dedup _
    · rw [mounts_of_new h]
      exact List.nodup_dedup _
  exact hperm.eq_of_pairwise (fun a b _ _ => overlayLe_antisymm) (pairwise_mounts_of_new h')
    (pairwise_mounts_of_new h)

end ContainerRootfsSnapshotProvider

/-! ## One overlay -/

theorem mem_takeWhile_of_pairwise {α : Type*} {R : α → α → Prop} {P : α → Bool} {x : α} :
    ∀ {l : List α}, l.Pairwise R → x ∈ l → P x = true → (∀ y ∈ l, R y x → P y = true) →
      x ∈ l.takeWhile P
  | a :: l, hpairs, hx, hself, habove => by
      obtain ⟨hhead, htail⟩ := List.pairwise_cons.mp hpairs
      rcases List.mem_cons.mp hx with rfl | hx
      · rw [List.takeWhile_cons_of_pos hself]
        exact List.mem_cons_self
      · rw [List.takeWhile_cons_of_pos (habove a List.mem_cons_self (hhead x hx))]
        exact List.mem_cons_of_mem _ (mem_takeWhile_of_pairwise htail hx hself
          fun y hy => habove y (List.mem_cons_of_mem _ hy))

/-- What one mount at `path` does to an index. -/
structure Laid (index : TarIndex) (path : TarPath) (index' : TarIndex) : Prop where
  destination : index'.get path = some (TarEntry.syntheticDirectory path)
  below : ∀ q, path ∈ q.ancestors → index'.get q = none
  above : ∀ q ∈ path.ancestors, index'.get q = index.get q ∨
    index.get q = none ∧ index'.get q = some (TarEntry.syntheticDirectory q)
  /-- a path above the mount with nothing at it, nor between it and the mount -/
  way : ∀ q ∈ path.ancestors, index.get path = none → index.get q = none →
    (∀ a ∈ path.ancestors, q ∈ a.ancestors → index.get a = none) →
      index'.get q = some (TarEntry.syntheticDirectory q)
  elsewhere : ∀ q, q ≠ path → path ∉ q.ancestors → q ∉ path.ancestors →
    index'.get q = index.get q

namespace TarPath

theorem not_mem_ancestors_of_mem {p q : TarPath} (h : q ∈ p.ancestors) : p ∉ q.ancestors :=
  fun h' => TarPath.not_mem_ancestors_self p (TarPath.ancestors_trans h h')

theorem ne_of_mem_ancestors {p q : TarPath} (h : q ∈ p.ancestors) : q ≠ p := by
  rintro rfl
  exact TarPath.not_mem_ancestors_self q h

theorem depth_lt_of_mem_ancestors {p q : TarPath} (h : q ∈ p.ancestors) : q.depth < p.depth :=
  (TarPath.mem_ancestors.mp h).2

end TarPath

theorem depth_fromVirtual (d : VirtualPath) : (TarPath.fromVirtual d).depth = d.depth := by
  simp [TarPath.fromVirtual, TarPath.depth, VirtualPath.depth, texts]

section Overlay

variable {index index' : TarIndex} {maxEntries : Nat}

theorem applyMountOverlay_laid {destination : VirtualPath} (hroot : destination.isRoot = false)
    (h : applyMountOverlay maxEntries index destination = .ok index') :
    Laid index (TarPath.fromVirtual destination) index' := by
  have hnotRoot : (TarPath.fromVirtual destination).isRoot = false := by
    cases hcomponents : destination.components <;>
      simp_all [TarPath.fromVirtual, TarPath.isRoot, VirtualPath.isRoot, texts]
  unfold applyMountOverlay at h
  generalize TarPath.fromVirtual destination = path at h hnotRoot ⊢
  dsimp only at h
  have hremoved : ∀ q, path ∉ q.ancestors → (index.removeDescendants path).get q = index.get q :=
    fun q hq => by rw [TarIndex.get_removeDescendants, if_neg hq]
  have hpath := hremoved path (TarPath.not_mem_ancestors_self path)
  rw [hpath] at h
  split at h
  · next hpresent =>
    cases h
    -- the path is there: it alone is replaced
    have hput : ∀ q, q ≠ path →
        ((index.removeDescendants path).put (TarEntry.syntheticDirectory path)).get q =
          (index.removeDescendants path).get q := fun q hq => by
      rw [TarIndex.get_put, if_neg]
      exact hq
    refine ⟨by rw [TarIndex.get_put]; exact if_pos rfl, fun q hq => ?_, fun q hq => .inl ?_,
      fun q hq hnone => ?_, fun q hne hq _ => ?_⟩
    · rw [hput q (TarPath.ne_of_mem_ancestors hq).symm, TarIndex.get_removeDescendants,
        if_pos hq]
    · rw [hput q (TarPath.ne_of_mem_ancestors hq),
        hremoved q (TarPath.not_mem_ancestors_of_mem hq)]
    · rw [hnone] at hpresent
      cases hpresent
    · rw [hput q hne, hremoved q hq]
  -- the path is not there: it is put in with its missing parents
  · unfold TarIndex.insertSyntheticDirectory at h
    rw [if_neg (by simp [hnotRoot])] at h
    have hget : ∀ q, index'.get q = if q = path then some (TarEntry.syntheticDirectory path)
        else if q ∈ path.ancestors.takeWhile fun q =>
            ((index.removeDescendants path).get q).isNone then
          some (TarEntry.syntheticDirectory q)
        else (index.removeDescendants path).get q := TarIndex.get_insertWithParents h
    refine ⟨(hget path).trans (if_pos rfl), fun q hq => ?_, fun q hq => ?_,
      fun q hq _ hnone hbetween => ?_, fun q hne hq hnot => ?_⟩
    · rw [hget, if_neg (TarPath.ne_of_mem_ancestors hq).symm, if_neg,
        TarIndex.get_removeDescendants, if_pos hq]
      exact fun hmem => TarPath.not_mem_ancestors_of_mem hq
        ((List.takeWhile_sublist _).subset hmem)
    · rw [hget, if_neg (TarPath.ne_of_mem_ancestors hq),
        hremoved q (TarPath.not_mem_ancestors_of_mem hq)]
      split
      · next hmissing =>
        have hnone := List.mem_takeWhile_imp hmissing
        rw [hremoved q (TarPath.not_mem_ancestors_of_mem hq)] at hnone
        exact .inr ⟨Option.isNone_iff_eq_none.mp hnone, rfl⟩
      · exact .inl rfl
    · have hmissing : ∀ a ∈ path.ancestors, index.get a = none →
          ((index.removeDescendants path).get a).isNone = true := fun a ha hnone => by
        rw [hremoved a (TarPath.not_mem_ancestors_of_mem ha), hnone]
        rfl
      rw [hget, if_neg (TarPath.ne_of_mem_ancestors hq), if_pos]
      exact mem_takeWhile_of_pairwise (TarPath.ancestors_pairwise path) hq (hmissing q hq hnone)
        fun a ha hqa => hmissing a ha (hbetween a ha hqa)
    · rw [hget, if_neg hne, if_neg, hremoved q hq]
      exact fun hmem => hnot ((List.takeWhile_sublist _).subset hmem)

/-- Whatever is there after a mount was there before, or is a synthetic directory at the mount
or above it. -/
theorem get_applyMountOverlay {destination : VirtualPath} {q : TarPath} {e : TarEntry}
    (h : applyMountOverlay maxEntries index destination = .ok index')
    (he : index'.get q = some e) : index.get q = some e ∨ e = TarEntry.syntheticDirectory q ∧
      (q = TarPath.fromVirtual destination ∨ q ∈ (TarPath.fromVirtual destination).ancestors) := by
  unfold applyMountOverlay at h
  generalize TarPath.fromVirtual destination = path at h ⊢
  dsimp only at h
  have hremoved : (index.removeDescendants path).get q = some e → index.get q = some e := by
    rw [TarIndex.get_removeDescendants]
    split
    · exact fun hnone => by cases hnone
    · exact fun hsome => hsome
  split at h
  · cases h
    rw [TarIndex.get_put] at he
    split at he
    · next hq =>
      have hq : q = path := hq
      exact .inr ⟨hq ▸ (Option.some.inj he).symm, .inl hq⟩
    · exact .inl (hremoved he)
  · unfold TarIndex.insertSyntheticDirectory at h
    split at h
    · cases h
      exact .inl (hremoved he)
    · rw [TarIndex.get_insertWithParents h] at he
      split at he
      · next hq =>
        have hq : q = path := hq
        exact .inr ⟨hq ▸ (Option.some.inj he).symm, .inl hq⟩
      · split at he
        · next hmissing =>
          exact .inr ⟨(Option.some.inj he).symm,
            .inr ((List.takeWhile_sublist _).subset hmissing)⟩
        · exact .inl (hremoved he)

/-! ## All overlays -/

/-- The index `lower` under the mounts `done`. -/
structure Overlaid (lower : TarIndex) (done : List TarPath) (index : TarIndex) : Prop where
  destination : ∀ d ∈ done, index.get d = some (TarEntry.syntheticDirectory d)
  way : ∀ q, q ∉ done → (∃ d ∈ done, d ∈ q.ancestors) → (∃ d ∈ done, q ∈ d.ancestors) →
    index.get q = some (TarEntry.syntheticDirectory q)
  hidden : ∀ q, q ∉ done → (∃ d ∈ done, d ∈ q.ancestors) → (∀ d ∈ done, q ∉ d.ancestors) →
    index.get q = none
  kept : ∀ q e, q ∉ done → (∀ d ∈ done, d ∉ q.ancestors) → lower.get q = some e →
    index.get q = some e
  added : ∀ q e, q ∉ done → (∀ d ∈ done, d ∉ q.ancestors) → lower.get q = none →
    index.get q = some e → e = TarEntry.syntheticDirectory q ∧ ∃ d ∈ done, q ∈ d.ancestors

theorem overlaid_nil (lower : TarIndex) : Overlaid lower [] lower where
  destination _ hd := absurd hd List.not_mem_nil
  way _ _ := fun ⟨_, hd, _⟩ => absurd hd List.not_mem_nil
  hidden _ _ := fun ⟨_, hd, _⟩ => absurd hd List.not_mem_nil
  kept _ _ _ _ he := he
  added q e _ _ hnone he := by
    rw [hnone] at he
    cases he

/-- **One more mount**, as deep as those before or deeper. -/
theorem Overlaid.laid {lower : TarIndex} {done : List TarPath} {path : TarPath}
    (h : Overlaid lower done index) (hdepth : ∀ d ∈ done, d.depth ≤ path.depth)
    (hlaid : Laid index path index') : Overlaid lower (path :: done) index' := by
  have hnotBelow : ∀ d ∈ done, path ∉ d.ancestors := fun d hd hmem =>
    absurd (TarPath.depth_lt_of_mem_ancestors hmem) (Nat.not_lt.mpr (hdepth d hd))
  refine ⟨fun d hd => ?_, fun q hq hbelow hway => ?_, fun q hq hbelow hnoWay => ?_,
    fun q e hq hoff hlower => ?_, fun q e hq hoff hlower he => ?_⟩
  · rcases List.mem_cons.mp hd with rfl | hd
    · exact hlaid.destination
    · by_cases hsame : d = path
      · exact hsame ▸ hlaid.destination
      · have hget := h.destination d hd
        by_cases habove : d ∈ path.ancestors
        · rcases hlaid.above d habove with hkept | ⟨-, hnew⟩
          · rw [hkept, hget]
          · exact hnew
        · rw [hlaid.elsewhere d hsame (hnotBelow d hd) habove, hget]
  · obtain ⟨hne, hq⟩ := not_or.mp (fun hor => hq (List.mem_cons.mpr hor))
    -- what is on the way to a mount is above it, so it is not below the new one
    have hnew : path ∉ q.ancestors := by
      obtain ⟨d, hd, hqd⟩ := hway
      intro hmem
      have hlt := TarPath.depth_lt_of_mem_ancestors (TarPath.ancestors_trans hqd hmem)
      rcases List.mem_cons.mp hd with rfl | hd
      · exact absurd hlt (Nat.lt_irrefl _)
      · exact absurd hlt (Nat.not_lt.mpr (hdepth d hd))
    have hold : ∃ d ∈ done, d ∈ q.ancestors := by
      obtain ⟨d, hd, hdq⟩ := hbelow
      rcases List.mem_cons.mp hd with rfl | hd
      · exact absurd hdq hnew
      · exact ⟨d, hd, hdq⟩
    by_cases hwayOld : ∃ d ∈ done, q ∈ d.ancestors
    · have hget := h.way q hq hold hwayOld
      by_cases habove : q ∈ path.ancestors
      · rcases hlaid.above q habove with hkept | ⟨-, hget'⟩
        · rw [hkept, hget]
        · exact hget'
      · rw [hlaid.elsewhere q hne hnew habove, hget]
    · have hnoWay : ∀ d ∈ done, q ∉ d.ancestors := fun d hd hqd => hwayOld ⟨d, hd, hqd⟩
      obtain ⟨d, hd, hqd⟩ := hway
      have habove : q ∈ path.ancestors := by
        rcases List.mem_cons.mp hd with rfl | hd
        · exact hqd
        · exact absurd hqd (hnoWay d hd)
      -- nothing of the lower layer is left between `q` and the mount
      have hempty : ∀ a, q ∈ a.ancestors → (a = path ∨ a ∈ path.ancestors) →
          index.get a = none := by
        intro a hqa ha
        obtain ⟨e, he, heq⟩ := hold
        refine h.hidden a (fun hmem => hnoWay a hmem hqa)
          ⟨e, he, TarPath.ancestors_trans hqa heq⟩ fun d hd had => ?_
        exact hnoWay d hd (TarPath.ancestors_trans had hqa)
      exact hlaid.way q habove (hempty path habove (.inl rfl)) (h.hidden q hq hold hnoWay)
        fun a ha hqa => hempty a hqa (.inr ha)
  · obtain ⟨hne, hq⟩ := not_or.mp (fun hor => hq (List.mem_cons.mpr hor))
    by_cases hnew : path ∈ q.ancestors
    · exact hlaid.below q hnew
    · have hold : ∃ d ∈ done, d ∈ q.ancestors := by
        obtain ⟨d, hd, hdq⟩ := hbelow
        rcases List.mem_cons.mp hd with rfl | hd
        · exact absurd hdq hnew
        · exact ⟨d, hd, hdq⟩
      rw [hlaid.elsewhere q hne hnew (hnoWay path List.mem_cons_self)]
      exact h.hidden q hq hold fun d hd => hnoWay d (List.mem_cons_of_mem _ hd)
  · obtain ⟨hne, hq⟩ := not_or.mp (fun hor => hq (List.mem_cons.mpr hor))
    have hget := h.kept q e hq (fun d hd => hoff d (List.mem_cons_of_mem _ hd)) hlower
    by_cases habove : q ∈ path.ancestors
    · rcases hlaid.above q habove with hkept | ⟨hnone, -⟩
      · rw [hkept, hget]
      · rw [hget] at hnone
        cases hnone
    · rw [hlaid.elsewhere q hne (hoff path List.mem_cons_self) habove, hget]
  · obtain ⟨hne, hq⟩ := not_or.mp (fun hor => hq (List.mem_cons.mpr hor))
    have hoff' : ∀ d ∈ done, d ∉ q.ancestors := fun d hd => hoff d (List.mem_cons_of_mem _ hd)
    have hbefore : index.get q = some e →
        e = TarEntry.syntheticDirectory q ∧ ∃ d ∈ path :: done, q ∈ d.ancestors := by
      intro hget
      obtain ⟨hsynthetic, d, hd, hqd⟩ := h.added q e hq hoff' hlower hget
      exact ⟨hsynthetic, d, List.mem_cons_of_mem _ hd, hqd⟩
    by_cases habove : q ∈ path.ancestors
    · rcases hlaid.above q habove with hkept | ⟨-, hnew⟩
      · exact hbefore (hkept ▸ he)
      · rw [hnew] at he
        exact ⟨(Option.some.inj he).symm, path, List.mem_cons_self, habove⟩
    · rw [hlaid.elsewhere q hne (hoff path List.mem_cons_self) habove] at he
      exact hbefore he

theorem Overlaid.applyMountOverlays {lower : TarIndex} : ∀ {mounts : List VirtualPath}
    {done : List TarPath} {index : TarIndex}, Overlaid lower done index →
      mounts.Pairwise (fun a b => a.depth ≤ b.depth) → (∀ d ∈ mounts, d.isRoot = false) →
      (∀ e ∈ done, ∀ d ∈ mounts, e.depth ≤ d.depth) →
      applyMountOverlays index mounts maxEntries = .ok index' →
      Overlaid lower ((mounts.map TarPath.fromVirtual).reverse ++ done) index'
  | [], done, index, h, _, _, _, hfold => by
      cases hfold
      exact h
  | d :: mounts, done, index, h, hsorted, hroots, hdepth, hfold => by
      obtain ⟨hhead, htail⟩ := List.pairwise_cons.mp hsorted
      unfold Docker.applyMountOverlays at hfold
      rw [List.foldlM_cons] at hfold
      obtain ⟨mid, hmid, hrest⟩ := bind_eq_ok.mp hfold
      have hlaid := applyMountOverlay_laid (hroots d List.mem_cons_self) hmid
      have hnext : Overlaid lower (TarPath.fromVirtual d :: done) mid := by
        refine h.laid (fun e he => ?_) hlaid
        rw [depth_fromVirtual]
        exact hdepth e he d List.mem_cons_self
      have hdepth' : ∀ e ∈ TarPath.fromVirtual d :: done, ∀ d' ∈ mounts, e.depth ≤ d'.depth := by
        intro e he d' hd'
        rcases List.mem_cons.mp he with rfl | he
        · rw [depth_fromVirtual]
          exact hhead d' hd'
        · exact hdepth e he d' (List.mem_cons_of_mem _ hd')
      have hall := hnext.applyMountOverlays htail
        (fun d' hd' => hroots d' (List.mem_cons_of_mem _ hd')) hdepth' hrest
      simpa using hall

end Overlay

/-- The lower layer is hidden by the mounts, and by nothing else. -/
structure HidesLowerLayer (lower : TarIndex) (mounts : List VirtualPath) (index : TarIndex) :
    Prop where
  destination : ∀ d ∈ mounts, index.get (TarPath.fromVirtual d) =
    some (TarEntry.syntheticDirectory (TarPath.fromVirtual d))
  below : ∀ d ∈ mounts, ∀ q e, q.isDescendantOf (TarPath.fromVirtual d) = true →
    (index.get q = some e ↔ e = TarEntry.syntheticDirectory q ∧ ∃ other ∈ mounts,
      q = TarPath.fromVirtual other ∨ (TarPath.fromVirtual other).isDescendantOf q = true)
  unchanged : ∀ q e, lower.get q = some e →
    (∀ d ∈ mounts, q ≠ TarPath.fromVirtual d ∧ q.isDescendantOf (TarPath.fromVirtual d) = false) →
    index.get q = some e
  added : ∀ q e, lower.get q = none → index.get q = some e → e = TarEntry.syntheticDirectory q ∧
    ∃ d ∈ mounts, q = TarPath.fromVirtual d ∨ (TarPath.fromVirtual d).isDescendantOf q = true

theorem Overlaid.hides {lower index : TarIndex} {mounts : List VirtualPath} {done : List TarPath}
    (hdone : ∀ q, q ∈ done ↔ ∃ d ∈ mounts, q = TarPath.fromVirtual d)
    (h : Overlaid lower done index) : HidesLowerLayer lower mounts index := by
  have hmem : ∀ d ∈ mounts, TarPath.fromVirtual d ∈ done := fun d hd => (hdone _).mpr ⟨d, hd, rfl⟩
  have hbelow : ∀ q, (∃ d ∈ done, d ∈ q.ancestors) → ∀ e, index.get q = some e →
      e = TarEntry.syntheticDirectory q ∧ ∃ d ∈ done, q = d ∨ q ∈ d.ancestors := by
    intro q hq e he
    by_cases hqd : q ∈ done
    · rw [h.destination q hqd] at he
      exact ⟨(Option.some.inj he).symm, q, hqd, .inl rfl⟩
    · by_cases hway : ∃ d ∈ done, q ∈ d.ancestors
      · rw [h.way q hqd hq hway] at he
        obtain ⟨d, hd, hqa⟩ := hway
        exact ⟨(Option.some.inj he).symm, d, hd, .inr hqa⟩
      · rw [h.hidden q hqd hq fun d hd hqa => hway ⟨d, hd, hqa⟩] at he
        cases he
  have hmounts : ∀ q, (∃ d ∈ done, q = d ∨ q ∈ d.ancestors) → ∃ other ∈ mounts,
      q = TarPath.fromVirtual other ∨ (TarPath.fromVirtual other).isDescendantOf q = true := by
    rintro q ⟨d, hd, hq⟩
    obtain ⟨other, hother, rfl⟩ := (hdone d).mp hd
    exact ⟨other, hother, hq.imp_right TarPath.mem_ancestors_iff.mp⟩
  refine ⟨fun d hd => h.destination _ (hmem d hd), fun d hd q e hq => ⟨fun he => ?_, ?_⟩,
    fun q e hlower hoff => ?_, fun q e hlower he => ?_⟩
  · obtain ⟨hsynthetic, hway⟩ :=
      hbelow q ⟨_, hmem d hd, TarPath.mem_ancestors_iff.mpr hq⟩ e he
    exact ⟨hsynthetic, hmounts q hway⟩
  · rintro ⟨rfl, other, hother, rfl | hway⟩
    · exact h.destination _ (hmem other hother)
    · by_cases hqd : q ∈ done
      · exact h.destination q hqd
      · exact h.way q hqd ⟨_, hmem d hd, TarPath.mem_ancestors_iff.mpr hq⟩
          ⟨_, hmem other hother, TarPath.mem_ancestors_iff.mpr hway⟩
  · refine h.kept q e (fun hqd => ?_) (fun d hd hdq => ?_) hlower
    · obtain ⟨d, hd, heq⟩ := (hdone q).mp hqd
      exact (hoff d hd).1 heq
    · obtain ⟨other, hother, rfl⟩ := (hdone d).mp hd
      rw [TarPath.mem_ancestors_iff, (hoff other hother).2] at hdq
      cases hdq
  · by_cases hq : ∃ d ∈ done, d ∈ q.ancestors
    · obtain ⟨hsynthetic, hway⟩ := hbelow q hq e he
      exact ⟨hsynthetic, hmounts q hway⟩
    · by_cases hqd : q ∈ done
      · rw [h.destination q hqd] at he
        exact ⟨(Option.some.inj he).symm, hmounts q ⟨q, hqd, .inl rfl⟩⟩
      · obtain ⟨hsynthetic, d, hd, hqa⟩ :=
          h.added q e hqd (fun d hd hdq => hq ⟨d, hd, hdq⟩) hlower he
        exact ⟨hsynthetic, hmounts q ⟨d, hd, .inr hqa⟩⟩

/-- **Mounts hide the lower layer**, exactly what is below them, for every index and in
whatever order they are given. -/
theorem overlays_hide_lower_layer {id : String} {generation : Nat} {limits : TarLimits}
    {mounts : List VirtualPath} {p : ContainerRootfsSnapshotProvider}
    (hnew : ContainerRootfsSnapshotProvider.new id generation limits mounts = .ok p)
    (hroots : ∀ d ∈ mounts, d.isRoot = false) {lower index : TarIndex} {maxEntries : Nat}
    (h : applyMountOverlays lower p.mounts maxEntries = .ok index) :
    HidesLowerLayer lower mounts index ∧
      ∀ other p', (∀ d, d ∈ other ↔ d ∈ mounts) →
        ContainerRootfsSnapshotProvider.new id generation limits other = .ok p' →
          applyMountOverlays lower p'.mounts maxEntries = .ok index := by
  refine ⟨?_, fun other p' hsame hnew' => ?_⟩
  · have hmem := ContainerRootfsSnapshotProvider.mem_mounts_of_new hnew
    have hsorted : p.mounts.Pairwise fun a b => a.depth ≤ b.depth :=
      (ContainerRootfsSnapshotProvider.pairwise_mounts_of_new hnew).imp
        ContainerRootfsSnapshotProvider.depth_le_of_overlayLe
    have hall := (overlaid_nil lower).applyMountOverlays hsorted
      (fun d hd => hroots d ((hmem d).mp hd)) (fun e he => absurd he List.not_mem_nil) h
    refine hall.hides fun q => ?_
    simp only [List.append_nil, List.mem_reverse, List.mem_map, hmem]
    constructor
    · rintro ⟨d, hd, rfl⟩
      exact ⟨d, hd, rfl⟩
    · rintro ⟨d, hd, rfl⟩
      exact ⟨d, hd, rfl⟩
  · rw [ContainerRootfsSnapshotProvider.mounts_of_new_congr hnew hnew' hsame]
    exact h

/-- A layer with a file that a mount shadows, and one elsewhere. -/
def shadowedLayer : Bytes :=
  archive [member (ascii "data/lower") 48 [], member (ascii "unrelated") 48 []]

/-- A mount at `data` and one deep in it: the file of the lower layer is gone, the one
elsewhere is there. -/
theorem shadowed_layer_hidden : ∃ lower index p,
    TarIndex.fromStream [.ok shadowedLayer] TarLimits.standard = .ok lower ∧
      ContainerRootfsSnapshotProvider.new (String.ofList (List.replicate 64 'a')) 9
        TarLimits.standard [pathOf "/data", pathOf "/data/mounted/deep"] = .ok p ∧
      applyMountOverlays lower p.mounts TarLimits.standard.maxEntries = .ok index ∧
      HidesLowerLayer lower [pathOf "/data", pathOf "/data/mounted/deep"] index ∧
      index.getVirtual (pathOf "/data/lower") = none ∧
      (index.getVirtual (pathOf "/unrelated")).isSome = true := by
  let p : ContainerRootfsSnapshotProvider :=
    ⟨String.ofList (List.replicate 64 'a'), 9, TarLimits.standard,
      [pathOf "/data", pathOf "/data/mounted/deep"], none⟩
  have hnew : ContainerRootfsSnapshotProvider.new (String.ofList (List.replicate 64 'a')) 9
      TarLimits.standard [pathOf "/data", pathOf "/data/mounted/deep"] = .ok p := by
    have hid : validateIdentity (String.ofList (List.replicate 64 'a')) = .ok () := by
      decide +kernel
    have hsorted : [pathOf "/data", pathOf "/data/mounted/deep"].Pairwise
        fun a b => ContainerRootfsSnapshotProvider.overlayLe a b = true := by
      decide +kernel
    have hdistinct : [pathOf "/data", pathOf "/data/mounted/deep"].destutter (· ≠ ·) =
        [pathOf "/data", pathOf "/data/mounted/deep"] := by
      decide +kernel
    unfold ContainerRootfsSnapshotProvider.new
    rw [hid, TarLimits.validate_standard, List.mergeSort_of_pairwise hsorted, hdistinct]
    rfl
  have hrun : ((TarIndex.fromStream [.ok shadowedLayer] TarLimits.standard).bind fun lower =>
      (applyMountOverlays lower p.mounts TarLimits.standard.maxEntries).map fun index =>
        (index.getVirtual (pathOf "/data/lower"),
          (index.getVirtual (pathOf "/unrelated")).isSome)) = .ok (none, true) := by
    decide +kernel
  obtain ⟨lower, hlower, hrest⟩ := bind_eq_ok.mp hrun
  cases hindex : applyMountOverlays lower p.mounts TarLimits.standard.maxEntries with
  | error e =>
    rw [hindex] at hrest
    cases hrest
  | ok index =>
    rw [hindex] at hrest
    simp only [Except.map, Except.ok.injEq, Prod.mk.injEq] at hrest
    have hhides := (overlays_hide_lower_layer hnew (by decide +kernel) hindex).1
    exact ⟨lower, index, p, hlower, hnew, hindex, hhides, hrest⟩

end TuxStack.Docker
