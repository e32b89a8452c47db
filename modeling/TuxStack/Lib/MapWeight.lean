import TuxStack.Lib.AssocList

/-!
# Weights of finite maps

The weight of a map is the sum of the weights of its values. A counter that is kept
beside a map, raised with every new entry and lowered with every removed one, stays the
weight of the map: `weight_insert` and `weight_erase` are the two steps.
-/

namespace TuxStack.Maps

variable {α β : Type} {cmp : α → α → Ordering} (f : β → Nat)

def weight (t : Std.TreeMap α β cmp) : Nat := (t.toList.map fun e => f e.2).sum

theorem weight_empty : weight f (∅ : Std.TreeMap α β cmp) = 0 := rfl

theorem values_eq_map (t : Std.TreeMap α β cmp) : t.values = t.toList.map Prod.snd := by
  have hfold : t.values = t.foldr (fun _ v l => v :: l) [] := rfl
  rw [hfold, Std.TreeMap.foldr_eq_foldr_toList]
  induction t.toList with
  | nil => rfl
  | cons e es ih => rw [List.foldr_cons, ih, List.map_cons]

theorem length_filter_values (p : β → Bool) (t : Std.TreeMap α β cmp) :
    (t.values.filter p).length = weight (fun v => if p v then 1 else 0) t := by
  rw [values_eq_map]
  unfold weight
  induction t.toList with
  | nil => rfl
  | cons e es ih =>
    rw [List.map_cons, List.map_cons, List.filter_cons, List.sum_cons, ← ih]
    split
    · rename_i hp
      simp [hp, Nat.add_comm]
    · rename_i hp
      simp [hp]

variable {f} {t : Std.TreeMap α β cmp} {k : α} {v : β} [Std.TransCmp cmp]

theorem nodup_toList (t : Std.TreeMap α β cmp) : t.toList.Nodup := by
  refine t.distinct_keys_toList.imp ?_
  rintro a _ hne rfl
  exact hne Std.ReflCmp.compare_self

variable [Std.LawfulEqCmp cmp]

theorem perm_of_getElem {t₁ t₂ : Std.TreeMap α β cmp} (h : ∀ k : α, t₁[k]? = t₂[k]?) :
    t₁.toList.Perm t₂.toList := by
  rw [List.perm_ext_iff_of_nodup (nodup_toList t₁) (nodup_toList t₂)]
  rintro ⟨key, value⟩
  rw [Std.TreeMap.mem_toList_iff_getElem?_eq_some, Std.TreeMap.mem_toList_iff_getElem?_eq_some, h]

theorem weight_congr {t₁ t₂ : Std.TreeMap α β cmp} (h : ∀ k : α, t₁[k]? = t₂[k]?) :
    weight f t₁ = weight f t₂ := by
  have hperm := (perm_of_getElem h).map fun e => f e.2
  exact hperm.sum_eq

theorem weight_erase_of_none (h : t[k]? = none) : weight f (t.erase k) = weight f t := by
  apply weight_congr
  intro key
  rw [Std.TreeMap.getElem?_erase]
  split
  · rename_i hkey
    rw [← Std.LawfulEqCmp.eq_of_compare hkey, h]
  · rfl

/-! ## Association lists with the same entries -/

section Lookup

variable [DecidableEq α] {m : AList fun _ : α => β}

theorem lookup_insert_eq (h : ∀ k, m.lookup k = t[k]?) (k : α) (v : β) (k' : α) :
    (m.insert k v).lookup k' = (t.insert k v)[k']? := by
  rw [Std.TreeMap.getElem?_insert]
  by_cases hk : k' = k
  · subst hk
    rw [AList.lookup_insert, if_pos Std.ReflCmp.compare_self]
  · rw [AList.lookup_insert_ne hk, h, if_neg]
    exact fun heq => hk (Std.LawfulEqCmp.eq_of_compare heq).symm

theorem lookup_erase_eq (h : ∀ k, m.lookup k = t[k]?) (k k' : α) :
    (m.erase k).lookup k' = (t.erase k)[k']? := by
  rw [Std.TreeMap.getElem?_erase]
  by_cases hk : k' = k
  · subst hk
    rw [AList.lookup_erase, if_pos Std.ReflCmp.compare_self]
  · rw [AList.lookup_erase_ne hk, h, if_neg]
    exact fun heq => hk (Std.LawfulEqCmp.eq_of_compare heq).symm

theorem values_perm_of_lookup (h : ∀ k, m.lookup k = t[k]?) :
    (Assoc.values m).Perm t.values := by
  have hperm : (m.entries.map fun e => (e.1, e.2)).Perm t.toList := by
    refine (List.perm_ext_iff_of_nodup (.of_map Prod.fst ?_) (nodup_toList t)).mpr ?_
    · rw [List.map_map]
      exact m.nodupKeys
    · rintro ⟨key, value⟩
      rw [Std.TreeMap.mem_toList_iff_getElem?_eq_some, ← h, List.mem_map]
      constructor
      · rintro ⟨e, he, heq⟩
        cases heq
        exact AList.mem_lookup_iff.mpr he
      · intro hlookup
        exact ⟨⟨key, value⟩, AList.mem_lookup_iff.mp hlookup, rfl⟩
  rw [values_eq_map]
  have hmap := hperm.map Prod.snd
  rwa [List.map_map] at hmap

theorem length_values_of_lookup (h : ∀ k, m.lookup k = t[k]?) :
    (Assoc.values m).length = t.size := by
  rw [(values_perm_of_lookup h).length_eq, values_eq_map, List.length_map,
    Std.TreeMap.length_toList]

end Lookup

/-! ## Steps -/

variable [BEq α] [Std.LawfulBEqCmp cmp]

theorem toList_filter_of_none (h : t[k]? = none) :
    t.toList.filter (fun e => ¬ (k == e.1) = true) = t.toList := by
  rw [List.filter_eq_self]
  rintro ⟨key, value⟩ hmem
  have hget : t[key]? = some value := Std.TreeMap.mem_toList_iff_getElem?_eq_some.mp hmem
  refine decide_eq_true ?_
  intro hkey
  have heq : k = key :=
    @Std.LawfulEqCmp.eq_of_compare α cmp _ k key (Std.LawfulBEqCmp.compare_eq_iff_beq.mpr hkey)
  rw [← heq, h] at hget
  cases hget

theorem weight_insert (h : t[k]? = none) : weight f (t.insert k v) = weight f t + f v := by
  have hperm := Std.TreeMap.toList_insert_perm (t := t) (k := k) (v := v)
  rw [toList_filter_of_none h] at hperm
  unfold weight
  rw [(hperm.map fun e => f e.2).sum_eq, List.map_cons, List.sum_cons, Nat.add_comm]

theorem weight_erase (h : t[k]? = some v) : weight f t = weight f (t.erase k) + f v := by
  have hnone : (t.erase k)[k]? = none := by simp
  rw [← weight_insert hnone]
  apply weight_congr
  intro key
  rw [Std.TreeMap.getElem?_insert, Std.TreeMap.getElem?_erase]
  split
  · rename_i hkey
    rw [← Std.LawfulEqCmp.eq_of_compare hkey, h]
  · rfl

theorem weight_erase_le : weight f (t.erase k) ≤ weight f t := by
  cases hget : t[k]? with
  | none => exact Nat.le_of_eq (weight_erase_of_none hget)
  | some value =>
    rw [weight_erase hget]
    exact Nat.le_add_right ..

theorem weight_insert_le : weight f (t.insert k v) ≤ weight f t + f v := by
  have hnone : (t.erase k)[k]? = none := by simp
  have hsame : weight f (t.insert k v) = weight f ((t.erase k).insert k v) := by
    apply weight_congr
    intro key
    rw [Std.TreeMap.getElem?_insert, Std.TreeMap.getElem?_insert, Std.TreeMap.getElem?_erase]
    split
    · rfl
    · rfl
  rw [hsame, weight_insert hnone]
  exact Nat.add_le_add_right weight_erase_le (f v)

theorem le_weight (h : t[k]? = some v) : f v ≤ weight f t := by
  rw [weight_erase h]
  exact Nat.le_add_left ..

end TuxStack.Maps
