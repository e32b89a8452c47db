import Mathlib.Data.List.Nodup

/-!
# Maps that can be rebuilt from their values

A map whose values carry their own keys can be stored as the list of its values. `putNew`
puts such a value back and refuses a key that is taken; over all the values of a keyed map
it never refuses, and what it builds is the map itself (`foldlM_putNew_values`).
-/

namespace TuxStack.KeyedMaps

open Std

variable {ε α β : Type} {cmp : α → α → Ordering} [TransCmp cmp] [LawfulEqCmp cmp]

/-- Every value lies under the key it carries. -/
def Keyed (key : β → α) (map : TreeMap α β cmp) : Prop :=
  ∀ k v, map[k]? = some v → key v = k

def putNew (key : β → α) (duplicate : ε) (map : TreeMap α β cmp) (value : β) :
    Except ε (TreeMap α β cmp) :=
  if map.contains (key value) then .error duplicate else .ok (map.insert (key value) value)

variable {key : β → α} {map : TreeMap α β cmp}

omit [LawfulEqCmp cmp] in
theorem putNew_of_none {duplicate : ε} {value : β} (h : map[key value]? = none) :
    putNew key duplicate map value = .ok (map.insert (key value) value) := by
  unfold putNew
  rw [TreeMap.contains_eq_isSome_getElem?, h]
  exact if_neg Bool.false_ne_true

/-- Values with different keys, none of them taken: all are put, and nothing else. -/
theorem foldlM_putNew (duplicate : ε) : ∀ {values : List β}
    {map : TreeMap α β cmp}, (values.map key).Nodup → (∀ v ∈ values, map[key v]? = none) →
      ∃ map', values.foldlM (putNew key duplicate) map = .ok map' ∧
        ∀ k v, map'[k]? = some v ↔ (v ∈ values ∧ key v = k) ∨ map[k]? = some v
  | [], map, _, _ => ⟨map, rfl, by simp⟩
  | value :: values, map, hnodup, hfree => by
      obtain ⟨hnew, hnodup⟩ := List.nodup_cons.mp hnodup
      have hvalue : map[key value]? = none := hfree value (by simp)
      have hother : ∀ v ∈ values, key value ≠ key v := fun v hv heq =>
        hnew (heq ▸ List.mem_map_of_mem hv)
      have hrest : ∀ v ∈ values, (map.insert (key value) value)[key v]? = none := by
        intro v hv
        rw [TreeMap.getElem?_insert, if_neg]
        · exact hfree v (List.mem_cons_of_mem _ hv)
        · exact fun heq => hother v hv (LawfulEqCmp.eq_of_compare heq)
      obtain ⟨map', hfold, hget⟩ := foldlM_putNew duplicate hnodup hrest
      refine ⟨map', ?_, fun k v => ?_⟩
      · rw [List.foldlM_cons, putNew_of_none hvalue]
        exact hfold
      · rw [hget, TreeMap.getElem?_insert, List.mem_cons]
        by_cases hk : key value = k
        · subst hk
          rw [if_pos (ReflCmp.compare_self), hvalue]
          constructor
          · rintro (⟨hv, heq⟩ | hv)
            · exact absurd heq.symm (hother v hv)
            · exact .inl ⟨.inl (Option.some.inj hv).symm, by rw [Option.some.inj hv]⟩
          · rintro (⟨rfl | hv, heq⟩ | hv)
            · exact .inr rfl
            · exact absurd heq.symm (hother v hv)
            · cases hv
        · rw [if_neg fun heq => hk (LawfulEqCmp.eq_of_compare heq)]
          refine or_congr (and_congr_left fun heq => ?_) Iff.rfl
          constructor
          · exact .inr
          · rintro (rfl | hv)
            · exact absurd heq hk
            · exact hv

theorem nodup_keys_of_values (h : Keyed key map) : ((map.toList.map Prod.snd).map key).Nodup := by
  have hkeys : (map.toList.map Prod.snd).map key = map.toList.map Prod.fst := by
    rw [List.map_map]
    refine List.map_congr_left fun x hx => ?_
    exact h x.1 x.2 (TreeMap.mem_toList_iff_getElem?_eq_some.mp hx)
  rw [hkeys, TreeMap.map_fst_toList_eq_keys]
  exact TreeMap.nodup_keys

theorem mem_values (h : Keyed key map) {v : β} :
    v ∈ map.toList.map Prod.snd ↔ map[key v]? = some v := by
  rw [List.mem_map]
  constructor
  · rintro ⟨⟨k, v'⟩, hmem, rfl⟩
    have hget : map[k]? = some v' := TreeMap.mem_toList_iff_getElem?_eq_some.mp hmem
    rwa [h k v' hget]
  · exact fun hget => ⟨(key v, v), TreeMap.mem_toList_iff_getElem?_eq_some.mpr hget, rfl⟩

/-- **A keyed map is rebuilt from its values.** -/
theorem foldlM_putNew_values (map : TreeMap α β cmp) (h : Keyed key map) (duplicate : ε) :
    ∃ map', (map.toList.map Prod.snd).foldlM (putNew key duplicate)
        (∅ : TreeMap α β cmp) = .ok map' ∧ map'.toList = map.toList := by
  have hempty : ∀ v ∈ map.toList.map Prod.snd, (∅ : TreeMap α β cmp)[key v]? = none := by simp
  obtain ⟨map', hfold, hget⟩ := foldlM_putNew duplicate (nodup_keys_of_values h) hempty
  refine ⟨map', hfold, TreeMap.Equiv.toList_eq (.of_forall_constGet?_eq fun k => ?_)⟩
  refine Option.ext fun v => ?_
  rw [hget, mem_values h]
  constructor
  · rintro (⟨hv, rfl⟩ | hv)
    · exact hv
    · simp at hv
  · intro hv
    have hkey := h k v hv
    exact .inl ⟨hkey ▸ hv, hkey⟩

end TuxStack.KeyedMaps
