import Mathlib.Algebra.BigOperators.Group.List.Basic
import Mathlib.Algebra.Ring.Nat
import Mathlib.Data.List.AList

/-!
# Values of association lists

What an insertion at a vacant key and an erasure do to the values of an association list
without repeated keys, up to order. A list that is kept beside such a map, longer by
every value inserted and shorter by every value erased, stays the list of its values, and
a counter that is kept beside it stays the sum of their weights.
-/

namespace TuxStack.Assoc

variable {α β : Type} [DecidableEq α] {m : AList fun _ : α => β} {k : α} {v old : β}

def values {α β : Type} (m : AList fun _ : α => β) : List β := m.entries.map (·.2)

theorem values_insert (h : m.lookup k = none) : values (m.insert k v) = v :: values m := by
  have hentries := AList.entries_insert_of_notMem (b := v) (AList.lookup_eq_none.mp h)
  unfold values
  rw [hentries, List.map_cons]

theorem perm_entries_erase (h : m.lookup k = some v) :
    m.entries.Perm (⟨k, v⟩ :: (m.erase k).entries) := by
  have hkey : k ∈ m.entries.keys := AList.lookup_isSome.mp (by rw [h]; rfl)
  obtain ⟨v', before, after, -, hentries, herase⟩ := List.exists_of_kerase hkey
  have hmem : (⟨k, v'⟩ : Sigma fun _ : α => β) ∈ m.entries := by
    rw [hentries]
    exact List.mem_append_right _ List.mem_cons_self
  have hv : v' = v := by
    rw [← AList.mem_lookup_iff, h] at hmem
    exact (Option.some.inj hmem).symm
  subst hv
  show m.entries.Perm (⟨k, v'⟩ :: m.entries.kerase k)
  rw [herase, hentries]
  exact List.perm_middle

/-- **An erasure takes one value away.** -/
theorem perm_values_erase (h : m.lookup k = some v) :
    (values m).Perm (v :: values (m.erase k)) :=
  (perm_entries_erase h).map fun e : Sigma fun _ : α => β => e.2

theorem perm_keys_erase (h : m.lookup k = some v) : m.keys.Perm (k :: (m.erase k).keys) :=
  (perm_entries_erase h).map Sigma.fst

theorem length_insert (h : m.lookup k = none) :
    (values (m.insert k v)).length = (values m).length + 1 := by
  rw [values_insert h, List.length_cons]

theorem length_erase (h : m.lookup k = some v) :
    (values (m.erase k)).length + 1 = (values m).length :=
  (perm_values_erase h).length_eq.symm

theorem length_overwrite (h : m.lookup k = some old) :
    (values (m.insert k v)).length = (values m).length :=
  (perm_values_erase h).length_eq.symm

theorem mem_values (h : m.lookup k = some v) : v ∈ values m :=
  (perm_values_erase h).symm.subset List.mem_cons_self

theorem exists_lookup_of_mem_values (h : v ∈ values m) : ∃ k, m.lookup k = some v := by
  obtain ⟨⟨k, v'⟩, hmem, rfl⟩ := List.mem_map.mp h
  exact ⟨k, AList.mem_lookup_iff.mpr hmem⟩

/-! ## Sums -/

variable {f : β → Nat}

def total {α β : Type} (f : β → Nat) (m : AList fun _ : α => β) : Nat := ((values m).map f).sum

theorem total_insert (h : m.lookup k = none) : total f (m.insert k v) = total f m + f v := by
  unfold total
  rw [values_insert h, List.map_cons, List.sum_cons, Nat.add_comm]

theorem total_erase (h : m.lookup k = some v) : total f (m.erase k) + f v = total f m := by
  have hsum := ((perm_values_erase h).map f).sum_eq
  rw [List.map_cons, List.sum_cons] at hsum
  unfold total
  rw [hsum, Nat.add_comm]

theorem total_overwrite (h : m.lookup k = some old) :
    total f (m.insert k v) + f old = total f m + f v := by
  have hvalues : total f (m.insert k v) = f v + total f (m.erase k) := rfl
  rw [hvalues, ← total_erase h]
  omega

theorem le_total (h : m.lookup k = some v) : f v ≤ total f m := by
  rw [← total_erase h]
  exact Nat.le_add_left ..

/-! ## The same keys with other values -/

def mapValues {α β γ : Type} (f : β → γ) (m : AList fun _ : α => β) : AList fun _ : α => γ where
  entries := m.entries.map fun e => ⟨e.1, f e.2⟩
  nodupKeys := by
    have h := m.nodupKeys
    rw [List.NodupKeys, List.keys] at h ⊢
    rwa [List.map_map]

theorem lookup_mapValues {γ : Type} (f : β → γ) (m : AList fun _ : α => β) (k : α) :
    (mapValues f m).lookup k = (m.lookup k).map f :=
  List.dlookup_map₂ (γ := fun _ => β) (δ := fun _ => γ) (f := fun _ => f) k

theorem values_eq_filterMap (m : AList fun _ : α => β) :
    values m = m.keys.filterMap fun k => m.lookup k := by
  have hlookup : ∀ e ∈ m.entries, m.lookup e.1 = some e.2 :=
    fun _ he => AList.mem_lookup_iff.mpr he
  show m.entries.map (·.2) = (m.entries.map Sigma.fst).filterMap fun k => m.lookup k
  rw [List.filterMap_map, ← List.filterMap_eq_map]
  exact List.filterMap_congr fun e he => (hlookup e he).symm

end TuxStack.Assoc
