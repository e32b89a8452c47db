import Mathlib.Data.List.Induction
import Mathlib.Data.List.Pairwise

/-!
# Votes

The value that occurs most often, when some values count as the same one: `cmp` tells them
apart and decides between values with as many votes. The votes are counted in a list with one
entry for each value; which entry wins does not depend on the order of that list.
-/

namespace TuxStack.Votes

open Std

/-! ## The greatest element -/

section Greatest

variable {β : Type*} (rank : β → β → Ordering)

/-- `Iterator::max_by`: of elements that are as great, the last. -/
def maxBy (l : List β) : Option β :=
  l.foldl (fun best next =>
    match best with
    | none => some next
    | some best => if rank best next = .gt then some best else some next) none

variable [TransCmp rank]

theorem maxBy_spec {l : List β} (hne : l ≠ []) :
    ∃ best ∈ l, maxBy rank l = some best ∧ ∀ x ∈ l, (rank x best).isLE = true := by
  induction l using List.reverseRecOn with
  | nil => exact absurd rfl hne
  | append_singleton l last ih =>
    have hlast : (rank last last).isLE = true := by
      have hself : rank last last = .eq := ReflCmp.compare_self
      rw [hself]
      rfl
    unfold maxBy at ih ⊢
    rw [List.foldl_append, List.foldl_cons, List.foldl_nil]
    by_cases hnil : l = []
    · subst hnil
      exact ⟨last, by simp, rfl, by simpa using hlast⟩
    · obtain ⟨best, hbest, hmax, hle⟩ := ih hnil
      rw [hmax]
      dsimp only
      split
      · next hgt =>
        refine ⟨best, List.mem_append_left _ hbest, rfl, fun x hx => ?_⟩
        rcases List.mem_append.mp hx with hx | hx
        · exact hle x hx
        · rw [List.mem_singleton.mp hx, OrientedCmp.gt_iff_lt.mp hgt]
          rfl
      · next hle' =>
        have hbound : (rank best last).isLE = true := by
          cases hcmp : rank best last with
          | lt => rfl
          | eq => rfl
          | gt => exact absurd hcmp hle'
        refine ⟨last, by simp, rfl, fun x hx => ?_⟩
        rcases List.mem_append.mp hx with hx | hx
        · exact TransCmp.isLE_trans (hle x hx) hbound
        · rwa [List.mem_singleton.mp hx]

end Greatest

/-! ## Counting -/

section Counting

variable {α : Type*} (cmp : α → α → Ordering)

def votes (values : List α) (v : α) : Nat := values.countP fun other => cmp v other = .eq

/-- One entry for each value, with its votes. -/
structure Tally (values : List α) (counts : List (α × Nat)) : Prop where
  distinct : counts.Pairwise fun a b => cmp a.1 b.1 ≠ .eq
  mem : ∀ e ∈ counts, e.1 ∈ values
  count : ∀ e ∈ counts, e.2 = votes cmp values e.1
  complete : ∀ v ∈ values, ∃ e ∈ counts, cmp e.1 v = .eq

/-- More votes first; then the lesser value. -/
def rank (a b : α × Nat) : Ordering := (compare a.2 b.2).then (cmp b.1 a.1)

/-- The value with the most votes, and the least of those; no value only when there is none. -/
structure MostFrequent (values : List α) (best : Option α) : Prop where
  none_iff : best = none ↔ values = []
  mem : ∀ b ∈ best, b ∈ values
  most : ∀ b ∈ best, ∀ v ∈ values, votes cmp values v ≤ votes cmp values b
  least : ∀ b ∈ best, ∀ v ∈ values, votes cmp values v = votes cmp values b →
    (cmp b v).isLE = true

variable {cmp} {values : List α} {counts other : List (α × Nat)} {v w : α}

theorem votes_append (values : List α) (v w : α) :
    votes cmp (values ++ [w]) v = votes cmp values v + if cmp v w = .eq then 1 else 0 := by
  unfold votes
  rw [List.countP_append]
  congr 1
  by_cases h : cmp v w = .eq <;> simp [h]

theorem votes_perm {values' : List α} (h : values.Perm values') (v : α) :
    votes cmp values v = votes cmp values' v := h.countP_eq _

theorem MostFrequent.perm {values' : List α} {best : Option α} (h : MostFrequent cmp values best)
    (hperm : values.Perm values') : MostFrequent cmp values' best where
  none_iff := by
    rw [h.none_iff]
    constructor
    · rintro rfl
      exact List.nil_perm.mp hperm
    · rintro rfl
      exact List.perm_nil.mp hperm
  mem b hb := hperm.mem_iff.mp (h.mem b hb)
  most b hb v hv := by
    rw [← votes_perm hperm, ← votes_perm hperm]
    exact h.most b hb v (hperm.mem_iff.mpr hv)
  least b hb v hv heq := by
    rw [← votes_perm hperm, ← votes_perm hperm] at heq
    exact h.least b hb v (hperm.mem_iff.mpr hv) heq

variable [TransCmp cmp]

instance : TransCmp (rank cmp) :=
  have _ : TransCmp fun a b : α × Nat => compare a.2 b.2 :=
    inferInstanceAs (TransCmp (compareOn Prod.snd))
  have _ : TransCmp fun a b : α × Nat => cmp b.1 a.1 :=
    { eq_swap := OrientedCmp.eq_swap
      isLE_trans := fun hab hbc => TransCmp.isLE_trans hbc hab }
  inferInstanceAs (TransCmp (compareLex (fun a b : α × Nat => compare a.2 b.2)
    fun a b => cmp b.1 a.1))

theorem votes_congr (h : cmp v w = .eq) (values : List α) :
    votes cmp values v = votes cmp values w := by
  unfold votes
  congr 1
  funext other
  rw [TransCmp.congr_left h]

namespace Tally

variable {values' : List α}

theorem perm (h : Tally cmp values counts) (hperm : counts.Perm other) :
    Tally cmp values other where
  distinct := hperm.pairwise h.distinct fun hne heq => hne (OrientedCmp.eq_symm heq)
  mem e he := h.mem e (hperm.mem_iff.mpr he)
  count e he := h.count e (hperm.mem_iff.mpr he)
  complete v hv := by
    obtain ⟨e, he, heq⟩ := h.complete v hv
    exact ⟨e, hperm.mem_iff.mp he, heq⟩

theorem eq_of_cmp (h : Tally cmp values counts) {a b : α × Nat} (ha : a ∈ counts)
    (hb : b ∈ counts) (heq : cmp a.1 b.1 = .eq) : a = b := by
  by_contra hne
  have _ : Std.Symm fun a b : α × Nat => cmp a.1 b.1 ≠ .eq :=
    ⟨fun _ _ hne heq => hne (OrientedCmp.eq_symm heq)⟩
  exact h.distinct.forall ha hb hne heq

theorem vote {front back : List (α × Nat)} {e : α × Nat}
    (h : Tally cmp values (front ++ e :: back)) (heq : cmp e.1 v = .eq) :
    Tally cmp (values ++ [v]) (front ++ (e.1, e.2 + 1) :: back) := by
  have he : e ∈ front ++ e :: back := by simp
  -- the other entries are for other values, and get no vote
  have hother : ∀ f ∈ front ++ back, cmp f.1 v ≠ .eq := by
    intro f hf hvote
    have hsame : cmp e.1 f.1 = .eq := TransCmp.eq_trans heq (OrientedCmp.eq_symm hvote)
    have hdistinct := h.distinct
    rw [List.pairwise_append, List.pairwise_cons] at hdistinct
    obtain ⟨-, ⟨hback, -⟩, hfront⟩ := hdistinct
    rcases List.mem_append.mp hf with hf | hf
    · exact hfront f hf e List.mem_cons_self (OrientedCmp.eq_symm hsame)
    · exact hback f hf hsame
  have hmem : ∀ f ∈ front ++ (e.1, e.2 + 1) :: back, f = (e.1, e.2 + 1) ∨ f ∈ front ++ back := by
    intro f hf
    simp only [List.mem_append, List.mem_cons] at hf ⊢
    tauto
  have hold : ∀ f ∈ front ++ back, f ∈ front ++ e :: back := by
    intro f hf
    simp only [List.mem_append, List.mem_cons] at hf ⊢
    tauto
  constructor
  case distinct =>
    have hdistinct := h.distinct
    rw [List.pairwise_append, List.pairwise_cons] at hdistinct ⊢
    obtain ⟨hfront, ⟨hback, hrest⟩, hcross⟩ := hdistinct
    refine ⟨hfront, ⟨hback, hrest⟩, fun a ha b hb => ?_⟩
    rcases List.mem_cons.mp hb with rfl | hb
    · exact hcross a ha e List.mem_cons_self
    · exact hcross a ha b (List.mem_cons_of_mem _ hb)
  case mem =>
    intro f hf
    rcases hmem f hf with rfl | hf
    · exact List.mem_append_left _ (h.mem e he)
    · exact List.mem_append_left _ (h.mem f (hold f hf))
  case count =>
    intro f hf
    rw [votes_append]
    rcases hmem f hf with rfl | hf
    · rw [if_pos heq, h.count e he]
    · rw [if_neg (hother f hf), h.count f (hold f hf), Nat.add_zero]
  case complete =>
    intro w hw
    have hnew : (e.1, e.2 + 1) ∈ front ++ (e.1, e.2 + 1) :: back := by simp
    rcases List.mem_append.mp hw with hw | hw
    · obtain ⟨f, hf, hfw⟩ := h.complete w hw
      have hcase : f = e ∨ f ∈ front ++ back := by
        simp only [List.mem_append, List.mem_cons] at hf ⊢
        tauto
      rcases hcase with rfl | hf
      · exact ⟨_, hnew, hfw⟩
      · refine ⟨f, ?_, hfw⟩
        simp only [List.mem_append, List.mem_cons] at hf ⊢
        tauto
    · rw [List.mem_singleton.mp hw]
      exact ⟨_, hnew, heq⟩

theorem newValue (h : Tally cmp values counts) (hnew : ∀ e ∈ counts, cmp e.1 v ≠ .eq) :
    Tally cmp (values ++ [v]) (counts ++ [(v, 1)]) := by
  have hself : cmp v v = .eq := ReflCmp.compare_self
  constructor
  case distinct =>
    rw [List.pairwise_append]
    refine ⟨h.distinct, List.pairwise_singleton _ _, fun a ha b hb => ?_⟩
    rw [List.mem_singleton.mp hb]
    exact hnew a ha
  case mem =>
    intro e he
    rcases List.mem_append.mp he with he | he
    · exact List.mem_append_left _ (h.mem e he)
    · rw [List.mem_singleton.mp he]
      simp
  case count =>
    intro e he
    rw [votes_append]
    rcases List.mem_append.mp he with he | he
    · rw [if_neg (hnew e he), h.count e he, Nat.add_zero]
    · rw [List.mem_singleton.mp he, if_pos hself]
      have hzero : votes cmp values v = 0 := by
        unfold votes
        rw [List.countP_eq_zero]
        intro w hw hvw
        obtain ⟨f, hf, hfw⟩ := h.complete w hw
        exact hnew f hf (TransCmp.eq_trans hfw (OrientedCmp.eq_symm (of_decide_eq_true hvw)))
      rw [hzero]
  case complete =>
    intro w hw
    rcases List.mem_append.mp hw with hw | hw
    · obtain ⟨f, hf, hfw⟩ := h.complete w hw
      exact ⟨f, List.mem_append_left _ hf, hfw⟩
    · rw [List.mem_singleton.mp hw]
      exact ⟨(v, 1), by simp, hself⟩

/-- **The winner** is the most frequent value, in whatever order the entries are. -/
theorem mostFrequent (h : Tally cmp values counts) :
    MostFrequent cmp values ((maxBy (rank cmp) counts).map Prod.fst) := by
  by_cases hnil : counts = []
  · have hvalues : values = [] := by
      rw [List.eq_nil_iff_forall_not_mem]
      intro v hv
      obtain ⟨e, he, -⟩ := h.complete v hv
      rw [hnil] at he
      cases he
    subst hnil hvalues
    exact ⟨iff_of_true rfl rfl, fun b hb => (by cases hb), fun b hb => (by cases hb),
      fun b hb => (by cases hb)⟩
  · obtain ⟨best, hbest, hmax, hle⟩ := maxBy_spec (rank cmp) hnil
    rw [hmax, Option.map_some]
    have hmem := h.mem best hbest
    constructor
    case none_iff =>
      refine iff_of_false (by simp) fun hvalues => ?_
      rw [hvalues] at hmem
      cases hmem
    case mem =>
      rintro b hb
      cases hb
      exact hmem
    case most =>
      rintro b hb v hv
      cases hb
      obtain ⟨e, he, hev⟩ := h.complete v hv
      have hcount := Ordering.isLE_left_of_isLE_then (hle e he)
      rw [← votes_congr hev, ← h.count e he, ← h.count best hbest]
      exact Nat.isLE_compare.mp hcount
    case least =>
      rintro b hb v hv heq
      cases hb
      obtain ⟨e, he, hev⟩ := h.complete v hv
      have hrank := hle e he
      rw [← votes_congr hev, ← h.count e he, ← h.count best hbest] at heq
      unfold rank at hrank
      rw [heq, Nat.compare_eq_eq.mpr rfl] at hrank
      rw [← TransCmp.congr_right hev]
      exact hrank

theorem maxBy_perm (h : Tally cmp values counts) (hperm : other.Perm counts) :
    maxBy (rank cmp) other = maxBy (rank cmp) counts := by
  by_cases hnil : counts = []
  · subst hnil
    rw [List.perm_nil.mp hperm]
  · have hnil' : other ≠ [] := by
      rintro rfl
      exact hnil (List.nil_perm.mp hperm)
    obtain ⟨best, hbest, hmax, hle⟩ := maxBy_spec (rank cmp) hnil
    obtain ⟨best', hbest', hmax', hle'⟩ := maxBy_spec (rank cmp) hnil'
    have hmem := hperm.mem_iff.mp hbest'
    have hrank : rank cmp best' best = .eq :=
      OrientedCmp.isLE_antisymm (hle best' hmem) (hle' best (hperm.mem_iff.mpr hbest))
    unfold rank at hrank
    rw [Ordering.then_eq_eq] at hrank
    rw [hmax, hmax', h.eq_of_cmp hmem hbest (OrientedCmp.eq_symm hrank.2)]

end Tally

end Counting

end TuxStack.Votes
