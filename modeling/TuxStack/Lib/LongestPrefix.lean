import Mathlib.Data.List.Infix
import Mathlib.Data.List.MinMax
import Mathlib.Data.List.Nodup
import Mathlib.Data.List.Perm.Basic

/-!
# The entry with the longest prefix

A table whose entries have keys that are lists, and the entry whose key is the
longest prefix of a given list. `Longest` says which entry that is, without an
order of the table. Two ways to find it are right: the first match in a table
sorted by length, longest keys first (`longest_of_find`), and a maximum over the
matches in any order (`longest_of_argmax`).
-/

namespace TuxStack.LongestPrefix

variable {α β : Type*} {key : β → List α} {table other : List β} {path : List α} {e e' : β}

/-- `e` has the longest key among the entries whose key is a prefix of `path`. -/
structure Longest (key : β → List α) (table : List β) (path : List α) (e : β) : Prop where
  mem : e ∈ table
  covers : key e <+: path
  longest : ∀ entry ∈ table, key entry <+: path → (key entry).length ≤ (key e).length

/-- Prefixes of one list of the same length are equal, so there is one longest entry. -/
theorem Longest.unique (hkeys : (table.map key).Nodup) (h : Longest key table path e)
    (h' : Longest key table path e') : e' = e := by
  have hlen : (key e').length = (key e).length :=
    le_antisymm (h.longest e' h'.mem h'.covers) (h'.longest e h.mem h.covers)
  have heq : key e' = key e :=
    (List.prefix_of_prefix_length_le h'.covers h.covers hlen.le).eq_of_length hlen
  exact List.inj_on_of_nodup_map hkeys h'.mem h.mem heq

theorem longest_perm (hperm : table.Perm other) :
    Longest key table path e ↔ Longest key other path e := by
  constructor
  · intro h
    exact ⟨hperm.mem_iff.mp h.mem, h.covers,
      fun entry hentry => h.longest entry (hperm.mem_iff.mpr hentry)⟩
  · intro h
    exact ⟨hperm.mem_iff.mpr h.mem, h.covers,
      fun entry hentry => h.longest entry (hperm.mem_iff.mp hentry)⟩

/-! ## Finding it -/

/-- **First match**: in a table with the longest keys first. -/
theorem longest_of_find {covers : β → Bool} (hcovers : ∀ e, covers e = true ↔ key e <+: path)
    (hsorted : table.Pairwise fun a b => (key b).length ≤ (key a).length)
    (h : table.find? covers = some e) : Longest key table path e := by
  obtain ⟨hcover, before, after, rfl, hbefore⟩ := List.find?_eq_some_iff_append.mp h
  refine ⟨by simp, (hcovers e).mp hcover, fun entry hentry hentryCovers => ?_⟩
  rw [List.pairwise_append, List.pairwise_cons] at hsorted
  rcases List.mem_append.mp hentry with hmem | hmem
  · have hnot := hbefore entry hmem
    rw [(hcovers entry).mpr hentryCovers] at hnot
    cases hnot
  · rcases List.mem_cons.mp hmem with rfl | hmem
    · exact le_rfl
    · exact hsorted.2.1.1 entry hmem

/-- **Maximum over the matches**: in a table in any order. -/
theorem longest_of_argmax {covers : β → Bool} (hcovers : ∀ e, covers e = true ↔ key e <+: path)
    (h : (table.filter covers).argmax (fun e => (key e).length) = some e) :
    Longest key table path e := by
  obtain ⟨hmem, hcover⟩ := List.mem_filter.mp (List.argmax_mem h)
  refine ⟨hmem, (hcovers e).mp hcover, fun entry hentry hentryCovers => ?_⟩
  have hmatch : entry ∈ table.filter covers :=
    List.mem_filter.mpr ⟨hentry, (hcovers entry).mpr hentryCovers⟩
  exact List.le_of_mem_argmax (f := fun e => (key e).length) hmatch h

end TuxStack.LongestPrefix
