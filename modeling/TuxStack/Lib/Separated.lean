import Mathlib.Data.List.Induction

/-!
# Lists of pieces between separators

How a list is split where one of its elements is the separator, when it was put together from
pieces that do not have it, and when it goes on in the middle of a piece.
-/

namespace TuxStack.Separated

variable {α : Type*} [BEq α] [LawfulBEq α] {separator : α}

/-- **Pieces that were each put behind a separator** are found again behind an empty one. -/
theorem splitOn_flatMap {pieces : List (List α)} (h : ∀ piece ∈ pieces, separator ∉ piece) :
    (pieces.flatMap fun piece => separator :: piece).splitOn separator = [] :: pieces := by
  induction pieces using List.reverseRecOn with
  | nil => rfl
  | append_singleton pieces piece ih =>
    have hpiece : piece.splitOn separator = [piece] :=
      List.splitOn_eq_singleton (h piece (by simp))
    rw [List.flatMap_append, List.flatMap_singleton, List.splitOn_append_cons_self,
      ih fun other hother => h other (by simp [hother]), hpiece, List.cons_append]

theorem splitOn_append {front : List α} (h : separator ∉ front) (rest : List α) :
    (front ++ rest).splitOn separator = (rest.splitOn separator).modifyHead (front ++ ·) := by
  induction front with
  | nil =>
    obtain ⟨first, pieces, hpieces⟩ :=
      List.exists_cons_of_ne_nil (List.splitOn_ne_nil separator rest)
    rw [List.nil_append, hpieces]
    rfl
  | cons a front ih =>
    have ha : ¬ (a == separator) = true := by
      intro heq
      exact h (by simp [eq_of_beq heq])
    rw [List.cons_append, List.splitOn_cons_eq_if_modifyHead, if_neg ha,
      ih fun hmem => h (List.mem_cons_of_mem _ hmem), List.modifyHead_modifyHead]
    rfl

theorem not_mem_of_mem_splitOn : ∀ {l piece : List α}, piece ∈ l.splitOn separator →
    separator ∉ piece := by
  intro l
  induction l with
  | nil =>
    intro piece hpiece
    simp [List.splitOn_nil] at hpiece
    simp [hpiece]
  | cons a l ih =>
    intro piece hpiece
    obtain ⟨first, pieces, hpieces⟩ :=
      List.exists_cons_of_ne_nil (List.splitOn_ne_nil separator l)
    rw [hpieces] at ih
    rw [List.splitOn_cons_eq_if_modifyHead, hpieces] at hpiece
    split at hpiece
    · rcases List.mem_cons.mp hpiece with rfl | hpiece
      · exact List.not_mem_nil
      · exact ih hpiece
    · next ha =>
      rcases List.mem_cons.mp hpiece with rfl | hpiece
      · have hother : separator ≠ a := fun heq => ha (by simp [heq])
        exact List.not_mem_cons_of_ne_of_not_mem hother (ih List.mem_cons_self)
      · exact ih (List.mem_cons_of_mem _ hpiece)

/-! ## Pieces with separators between them -/

section Intercalate

variable {α : Type*} {separator x : α} {pieces : List (List α)}

theorem intercalate_cons (first : List α) (pieces : List (List α)) :
    [separator].intercalate (first :: pieces) =
      first ++ pieces.flatMap fun piece => separator :: piece := by
  induction pieces generalizing first with
  | nil => simp
  | cons piece pieces ih =>
    rw [List.intercalate_cons_cons, ih, List.flatMap_cons, List.append_assoc]
    rfl

/-- **One more piece** at the end. -/
theorem intercalate_snoc (piece : List α) (h : pieces ≠ []) :
    [separator].intercalate (pieces ++ [piece]) =
      [separator].intercalate pieces ++ separator :: piece := by
  obtain ⟨first, pieces, rfl⟩ := List.exists_cons_of_ne_nil h
  rw [List.cons_append, intercalate_cons, intercalate_cons, List.flatMap_append,
    List.flatMap_singleton, List.append_assoc]

theorem mem_intercalate (h : pieces ≠ []) : x ∈ [separator].intercalate pieces ↔
    (x = separator ∧ pieces.tail ≠ []) ∨ ∃ piece ∈ pieces, x ∈ piece := by
  obtain ⟨first, pieces, rfl⟩ := List.exists_cons_of_ne_nil h
  rw [intercalate_cons, List.mem_append, List.mem_flatMap, List.tail_cons]
  constructor
  · rintro (hx | ⟨piece, hpiece, hx⟩)
    · exact .inr ⟨first, List.mem_cons_self, hx⟩
    · rcases List.mem_cons.mp hx with rfl | hx
      · exact .inl ⟨rfl, List.ne_nil_of_mem hpiece⟩
      · exact .inr ⟨piece, List.mem_cons_of_mem _ hpiece, hx⟩
  · rintro (⟨rfl, hne⟩ | ⟨piece, hpiece, hx⟩)
    · obtain ⟨piece, pieces, rfl⟩ := List.exists_cons_of_ne_nil hne
      exact .inr ⟨piece, List.mem_cons_self, List.mem_cons_self⟩
    · rcases List.mem_cons.mp hpiece with rfl | hpiece
      · exact .inl hx
      · exact .inr ⟨piece, hpiece, List.mem_cons_of_mem _ hx⟩

end Intercalate

end TuxStack.Separated
