import Mathlib.Data.List.Sort

/-!
# Sorting by distinct keys

A list that is sorted by a key, when no two of its elements have the same key.
-/

namespace TuxStack.SortedKeys

/-! ## Ties -/

section Ties

variable {α : Type*} {le : α → α → Bool} {l : List α} {a b : α}

theorem not_swapped_of_nodup (h : l.Nodup) (hab : [a, b].Sublist l) : ¬ [b, a].Sublist l := by
  induction l with
  | nil => cases hab
  | cons c l ih =>
    have hc := (List.nodup_cons.mp h).1
    intro hba
    cases hab with
    | cons _ hab =>
      cases hba with
      | cons _ hba => exact ih (List.nodup_cons.mp h).2 hab hba
      | cons_cons _ hba => exact hc (hab.subset (by simp))
    | cons_cons _ hab =>
      cases hba with
      | cons _ hba | cons_cons _ hba => exact hc (hba.subset (by simp))

/-- **A sort forgets the order** of elements without repetition just when those that are each
before the other are the same. -/
theorem mergeSort_map_eq_iff {β : Type*} {f : β → α} {l : List β}
    (htrans : ∀ a b c, le a b = true → le b c = true → le a c = true)
    (htotal : ∀ a b, (le a b || le b a) = true) (hnodup : (l.map f).Nodup) :
    (∀ other : List β, other.Perm l → (other.map f).mergeSort le = (l.map f).mergeSort le) ↔
      ∀ a ∈ l, ∀ b ∈ l, le (f a) (f b) = true → le (f b) (f a) = true → f a = f b := by
  constructor
  · intro h a ha b hb hab hba
    by_contra hne
    have hpair : [a, b].Nodup := by simpa using fun heq => hne (congrArg f heq)
    obtain ⟨pair, hpair, hsub⟩ := List.subperm_of_subset hpair
      (List.cons_subset.mpr ⟨ha, List.cons_subset.mpr ⟨hb, List.nil_subset l⟩⟩)
    obtain ⟨rest, hrest⟩ := hsub.exists_perm_append
    have hperm : ([a, b] ++ rest).Perm l := (hpair.symm.append_right rest).trans hrest.symm
    have hfirst := List.pair_sublist_mergeSort htrans htotal hab
      ((List.sublist_append_left [a, b] rest).map f)
    have hsecond := List.pair_sublist_mergeSort htrans htotal hba
      ((List.sublist_append_left [b, a] rest).map f)
    rw [h _ hperm] at hfirst
    rw [h ([b, a] ++ rest) ((List.Perm.swap a b rest).trans hperm)] at hsecond
    have hsorted := (List.mergeSort_perm (l.map f) le).nodup_iff.mpr hnodup
    exact not_swapped_of_nodup hsorted hfirst hsecond
  · intro h other hperm
    have hmap := hperm.map f
    have hsame := (List.mergeSort_perm (other.map f) le).trans
      (hmap.trans (List.mergeSort_perm (l.map f) le).symm)
    refine hsame.eq_of_pairwise ?_ (List.pairwise_mergeSort htrans htotal (other.map f))
      (List.pairwise_mergeSort htrans htotal (l.map f))
    intro x y hx hy hxy hyx
    obtain ⟨a, ha, rfl⟩ := List.mem_map.mp (hmap.mem_iff.mp (List.mem_mergeSort.mp hx))
    obtain ⟨b, hb, rfl⟩ := List.mem_map.mp (List.mem_mergeSort.mp hy)
    exact h a ha b hb hxy hyx

/-- **A sort forgets the order** within the two parts of a list, when elements that are each
before the other are the same or stand in different parts: those stay in the order of the
parts. -/
theorem mergeSort_append_eq {front front' back back' : List α}
    (htrans : ∀ a b c, le a b = true → le b c = true → le a c = true)
    (htotal : ∀ a b, (le a b || le b a) = true) (hfront : front'.Perm front)
    (hback : back'.Perm back) (hnodup : (front ++ back).Nodup)
    (hties : ∀ a ∈ front ++ back, ∀ b ∈ front ++ back, le a b = true → le b a = true →
      a = b ∨ a ∈ front ∧ b ∈ back ∨ a ∈ back ∧ b ∈ front) :
    (front' ++ back').mergeSort le = (front ++ back).mergeSort le := by
  have hsorted : ∀ {l l' : List α}, l.Perm front → l'.Perm back →
      ((l ++ l').mergeSort le).Pairwise fun x y =>
        le x y = true ∧ (le y x = true → ¬ (x ∈ back ∧ y ∈ front)) := by
    intro l l' hl hl'
    have hperm : (l ++ l').Perm (front ++ back) := hl.append hl'
    have hsort := List.mergeSort_perm (l ++ l') le
    refine (List.pairwise_mergeSort htrans htotal _).and (List.pairwise_of_forall_sublist ?_)
    rintro x y hxy hle ⟨hx, hy⟩
    have hsub : [y, x].Sublist (l ++ l') :=
      (List.singleton_sublist.mpr (hl.mem_iff.mpr hy)).append
        (List.singleton_sublist.mpr (hl'.mem_iff.mpr hx))
    have hyx := List.pair_sublist_mergeSort htrans htotal hle hsub
    exact not_swapped_of_nodup (hsort.nodup_iff.mpr (hperm.nodup_iff.mpr hnodup)) hxy hyx
  have hperm : (front' ++ back').Perm (front ++ back) := hfront.append hback
  refine ((List.mergeSort_perm ..).trans (hperm.trans (List.mergeSort_perm ..).symm)).eq_of_pairwise
    ?_ (hsorted hfront hback) (hsorted (List.Perm.refl _) (List.Perm.refl _))
  rintro x y hx hy ⟨hxy, hswap⟩ ⟨hyx, hswap'⟩
  have hx' := hperm.mem_iff.mp (List.mem_mergeSort.mp hx)
  rcases hties x hx' y (List.mem_mergeSort.mp hy) hxy hyx with heq | ⟨hf, hb⟩ | ⟨hb, hf⟩
  · exact heq
  · exact absurd ⟨hb, hf⟩ (hswap' hxy)
  · exact absurd ⟨hb, hf⟩ (hswap hyx)

end Ties

/-! ## Keys -/

variable {α κ : Type*} [Ord κ] (key : α → κ)

def sortByKey (l : List α) : List α :=
  l.mergeSort fun a b => (compare (key a) (key b)).isLE

theorem perm_sortByKey (l : List α) : (sortByKey key l).Perm l := List.mergeSort_perm ..

variable [Std.TransOrd κ]

theorem pairwise_le_sortByKey (l : List α) :
    (sortByKey key l).Pairwise fun a b => (compare (key a) (key b)).isLE := by
  have htrans : ∀ a b c : α, (compare (key a) (key b)).isLE → (compare (key b) (key c)).isLE →
      (compare (key a) (key c)).isLE :=
    fun _ _ _ hab hbc => Std.TransOrd.isLE_trans hab hbc
  refine List.pairwise_mergeSort htrans (fun a b => ?_) l
  rw [Std.OrientedOrd.eq_swap (a := key b)]
  cases compare (key a) (key b) <;> rfl

variable [Std.LawfulEqOrd κ]

/-- **Distinct keys are in strict order.** -/
theorem pairwise_lt_sortByKey {l : List α} (h : (l.map key).Nodup) :
    (sortByKey key l).Pairwise fun a b => compare (key a) (key b) = .lt := by
  have hkeys := ((perm_sortByKey key l).map key).nodup_iff.mpr h
  rw [List.Nodup, List.pairwise_map] at hkeys
  refine ((pairwise_le_sortByKey key l).and hkeys).imp ?_
  rintro a b ⟨hle, hne⟩
  cases hcmp : compare (key a) (key b) with
  | lt => rfl
  | eq => exact absurd (Std.LawfulEqOrd.eq_of_compare hcmp) hne
  | gt =>
    rw [hcmp] at hle
    cases hle

/-- **The one list in strict order** with the elements of a list is the sorted one. -/
theorem sortByKey_eq {l sorted : List α} (hperm : sorted.Perm l)
    (h : sorted.Pairwise fun a b => compare (key a) (key b) = .lt) : sortByKey key l = sorted := by
  have hkeys : (sorted.map key).Nodup := by
    rw [List.Nodup, List.pairwise_map]
    refine h.imp fun {a b} hlt heq => ?_
    rw [heq, Std.ReflOrd.compare_self] at hlt
    cases hlt
  refine ((perm_sortByKey key l).trans hperm.symm).eq_of_pairwise ?_
    (pairwise_lt_sortByKey key ((hperm.map key).nodup_iff.mp hkeys)) h
  intro a b _ _ hab hba
  rw [Std.OrientedOrd.eq_swap, hab] at hba
  cases hba

/-! ## A rank first, then a key -/

section Ranked

variable {ρ : Type*} [LinearOrder ρ] (rank : α → ρ)

/-- The lower rank first; a key decides between elements of one rank. -/
def RankedLe (a b : α) : Prop :=
  rank a < rank b ∨ rank a = rank b ∧ (compare (key a) (key b)).isLE = true

omit [Std.LawfulEqOrd κ] in
theorem RankedLe.trans {a b c : α} (hab : RankedLe key rank a b) (hbc : RankedLe key rank b c) :
    RankedLe key rank a c := by
  rcases hab with hab | ⟨hab, hcmp⟩
  · rcases hbc with hbc | ⟨hbc, -⟩
    · exact .inl (hab.trans hbc)
    · exact .inl (hbc ▸ hab)
  · rcases hbc with hbc | ⟨hbc, hcmp'⟩
    · exact .inl (hab ▸ hbc)
    · exact .inr ⟨hab.trans hbc, Std.TransOrd.isLE_trans hcmp hcmp'⟩

omit [Std.LawfulEqOrd κ] in
theorem RankedLe.total (a b : α) : RankedLe key rank a b ∨ RankedLe key rank b a := by
  rcases lt_trichotomy (rank a) (rank b) with hlt | heq | hgt
  · exact .inl (.inl hlt)
  · have hcmp : (compare (key a) (key b)).isLE = true ∨ (compare (key b) (key a)).isLE = true := by
      rw [Std.OrientedOrd.eq_swap (a := key b)]
      cases compare (key a) (key b) <;> simp
    exact hcmp.imp (fun hle => .inr ⟨heq, hle⟩) fun hle => .inr ⟨heq.symm, hle⟩
  · exact .inr (.inl hgt)

theorem RankedLe.key_eq {a b : α} (hab : RankedLe key rank a b) (hba : RankedLe key rank b a) :
    key a = key b := by
  rcases hab with hlt | ⟨heq, hle⟩
  · rcases hba with hgt | ⟨heq, -⟩
    · exact absurd hlt hgt.asymm
    · exact absurd heq hlt.ne'
  · rcases hba with hgt | ⟨-, hge⟩
    · exact absurd heq hgt.ne'
    · exact Std.LawfulEqOrd.eq_of_compare (Std.OrientedCmp.isLE_antisymm hle hge)

end Ranked

end TuxStack.SortedKeys
