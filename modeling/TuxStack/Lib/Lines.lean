import Mathlib.Data.List.DropRight
import TuxStack.Lib.Separated

/-!
# The lines of a text

`str::lines` of Rust: a line ends with a newline, which may have a carriage return in front,
and the last one may have no end. What the lines are of a text that was put together from
lines, and of a text without the white space at its end.
-/

namespace TuxStack.Lines

open Separated

variable {text front rest line : List Char} {lines' : List (List Char)}

/-- The carriage return of a newline is not part of the line. -/
def dropReturn (line : List Char) : List Char :=
  if line.getLast? = some '\r' then line.dropLast else line

/-- `str::lines`. -/
def lines (text : List Char) : List (List Char) :=
  let pieces := text.splitOn '\n'
  let last := pieces.getLastD []
  pieces.dropLast.map dropReturn ++ if last = [] then [] else [last]

def terminated (lines : List (List Char)) : List Char := lines.flatMap fun line => line ++ ['\n']

theorem lines_append_newline (front rest : List Char) :
    lines (front ++ '\n' :: rest) = (front.splitOn '\n').map dropReturn ++ lines rest := by
  have hne : rest.splitOn '\n' ≠ [] := List.splitOn_ne_nil _ _
  unfold lines
  rw [List.splitOn_append_cons_self]
  simp only [List.dropLast_append_of_ne_nil hne, List.getLastD_eq_getLast?,
    List.getLast?_append_of_ne_nil _ hne, List.map_append, List.append_assoc]

theorem lines_of_notMem (h : '\n' ∉ text) : lines text = if text = [] then [] else [text] := by
  unfold lines
  rw [List.splitOn_eq_singleton h]
  rfl

theorem lines_line (h : '\n' ∉ line) (rest : List Char) :
    lines (line ++ '\n' :: rest) = dropReturn line :: lines rest := by
  rw [lines_append_newline, List.splitOn_eq_singleton h]
  rfl

/-- **The lines of a text that was put together from lines.** -/
theorem lines_terminated (h : ∀ line ∈ lines', '\n' ∉ line) (rest : List Char) :
    lines (terminated lines' ++ rest) = lines'.map dropReturn ++ lines rest := by
  induction lines' with
  | nil => rfl
  | cons line lines' ih =>
    rw [List.forall_mem_cons] at h
    have hcons : terminated (line :: lines') ++ rest =
        line ++ '\n' :: (terminated lines' ++ rest) := by
      simp [terminated]
    rw [hcons, lines_line h.1, ih h.2]
    rfl

theorem intercalate_newline (hne : lines' ≠ []) :
    List.intercalate ['\n'] lines' ++ ['\n'] = terminated lines' := by
  induction lines' with
  | nil => exact absurd rfl hne
  | cons line lines' ih =>
    cases lines' with
    | nil => simp [List.intercalate, terminated]
    | cons next lines' =>
      have htail := ih (List.cons_ne_nil _ _)
      have hcons : List.intercalate ['\n'] (line :: next :: lines') =
          line ++ '\n' :: List.intercalate ['\n'] (next :: lines') := by
        simp [List.intercalate, List.intersperse]
      rw [hcons, List.append_assoc, List.cons_append, htail]
      simp [terminated]

theorem dropReturn_prefix (line : List Char) : dropReturn line <+: line := by
  unfold dropReturn
  split
  · exact List.dropLast_prefix line
  · exact List.prefix_rfl

theorem mem_of_mem_splitOn : ∀ {l piece : List Char} {c : Char},
    piece ∈ l.splitOn '\n' → c ∈ piece → c ∈ l := by
  intro l
  induction l with
  | nil =>
    intro piece c hpiece hc
    rw [List.splitOn_nil, List.mem_singleton] at hpiece
    rw [hpiece] at hc
    cases hc
  | cons a l ih =>
    intro piece c hpiece hc
    obtain ⟨first, pieces, hpieces⟩ := List.exists_cons_of_ne_nil (List.splitOn_ne_nil '\n' l)
    rw [List.splitOn_cons_eq_if_modifyHead, hpieces] at hpiece
    rw [hpieces] at ih
    split at hpiece
    · rcases List.mem_cons.mp hpiece with rfl | hpiece
      · cases hc
      · exact List.mem_cons_of_mem _ (ih hpiece hc)
    · rcases List.mem_cons.mp hpiece with rfl | hpiece
      · rcases List.mem_cons.mp hc with rfl | hc
        · exact List.mem_cons_self
        · exact List.mem_cons_of_mem _ (ih List.mem_cons_self hc)
      · exact List.mem_cons_of_mem _ (ih (List.mem_cons_of_mem _ hpiece) hc)

theorem exists_piece (h : line ∈ lines text) : ∃ piece ∈ text.splitOn '\n', line <+: piece := by
  unfold lines at h
  rcases List.mem_append.mp h with h | h
  · obtain ⟨piece, hpiece, rfl⟩ := List.mem_map.mp h
    exact ⟨piece, List.dropLast_subset _ hpiece, dropReturn_prefix piece⟩
  · split at h
    · cases h
    · next hlast =>
      rw [List.mem_singleton.mp h]
      rw [List.getLastD_eq_getLast?] at hlast ⊢
      cases hget : (text.splitOn '\n').getLast? with
      | none => simp [hget] at hlast
      | some piece => exact ⟨piece, List.mem_of_getLast? hget, List.prefix_rfl⟩

theorem mem_of_mem_lines {c : Char} (hline : line ∈ lines text) (hc : c ∈ line) : c ∈ text := by
  obtain ⟨piece, hpiece, hfront⟩ := exists_piece hline
  exact mem_of_mem_splitOn hpiece (hfront.subset hc)

theorem newline_notMem (h : line ∈ lines text) : '\n' ∉ line := by
  obtain ⟨piece, hpiece, hfront⟩ := exists_piece h
  exact fun hmem => not_mem_of_mem_splitOn hpiece (hfront.subset hmem)

/-! ## What a line says -/

/-- A line without the carriage returns at its end. -/
def content (line : List Char) : List Char := line.rdropWhile (· = '\r')

theorem content_append_return (line : List Char) : content (line ++ ['\r']) = content line := by
  unfold content
  rw [List.rdropWhile_concat_pos]
  rfl

theorem content_dropReturn (line : List Char) : content (dropReturn line) = content line := by
  unfold dropReturn
  split
  · next hlast =>
    obtain ⟨front, rfl⟩ : ∃ front, line = front ++ ['\r'] :=
      ⟨line.dropLast, (List.dropLast_append_getLast? _ hlast).symm⟩
    rw [List.dropLast_concat, content_append_return]
  · rfl

/-- A function that does not look at what is dropped at the end. -/
theorem eq_of_rdropWhile {β : Type*} {p : Char → Bool} {f : List Char → β}
    (h : ∀ c line, p c = true → f (line ++ [c]) = f line) (line : List Char) :
    f (line.rdropWhile p) = f line := by
  induction line using List.reverseRecOn with
  | nil => rfl
  | append_singleton line c ih =>
    by_cases hc : p c = true
    · rw [List.rdropWhile_concat_pos _ _ _ hc, ih, h c line hc]
    · rw [List.rdropWhile_concat_neg _ _ _ hc]

/-! ## White space at the end -/

section Blank

variable {ws : Char → Bool}

theorem rdropWhile_append_of_all {x w : List Char} (h : ∀ c ∈ w, ws c = true) :
    (x ++ w).rdropWhile ws = x.rdropWhile ws := by
  unfold List.rdropWhile
  rw [List.reverse_append, List.dropWhile_append_of_pos]
  intro c hc
  exact h c (List.mem_reverse.mp hc)

theorem rdropWhile_eq_nil {line : List Char} :
    line.rdropWhile ws = [] ↔ ∀ c ∈ line, ws c = true := List.rdropWhile_eq_nil_iff

/-- The line that a text goes on with, when it stops within the line and white space follows. -/
theorem lines_append_white {x w : List Char} (hreturn : ws '\r' = true) (hx : x.rdropWhile ws = x)
    (hne : x ≠ []) (hline : '\n' ∉ x) (hw : ∀ c ∈ w, ws c = true) :
    ∃ z blanks, lines (x ++ w) = z :: blanks ∧ z.rdropWhile ws = x ∧
      ∀ line ∈ blanks, line.rdropWhile ws = [] := by
  by_cases hmem : '\n' ∈ w
  · obtain ⟨first, others, rfl, hfirst⟩ := List.eq_append_cons_of_mem hmem
    have hwhite : ∀ c ∈ first, ws c = true := fun c hc => hw c (List.mem_append_left _ hc)
    refine ⟨dropReturn (x ++ first), lines others, ?_, ?_, ?_⟩
    · rw [← List.append_assoc, lines_line]
      rw [List.mem_append, not_or]
      exact ⟨hline, hfirst⟩
    · obtain ⟨tail, htail⟩ := dropReturn_prefix (x ++ first)
      have htailWhite : ∀ c ∈ tail, ws c = true := by
        intro c hc
        unfold dropReturn at htail
        split at htail
        · next hlast =>
          have hsplit := List.dropLast_append_getLast? _ hlast
          rw [← hsplit] at htail
          simp only [List.dropLast_concat] at htail
          rw [List.append_cancel_left htail, List.mem_singleton] at hc
          exact hc ▸ hreturn
        · rw [List.append_right_eq_self.mp htail] at hc
          cases hc
      rw [← rdropWhile_append_of_all htailWhite, htail, rdropWhile_append_of_all hwhite, hx]
    · intro line hmem
      rw [rdropWhile_eq_nil]
      intro c hc
      exact hw c (List.mem_append_right _ (List.mem_cons_of_mem _ (mem_of_mem_lines hmem hc)))
  · refine ⟨x ++ w, [], ?_, ?_, by simp⟩
    · rw [lines_of_notMem (by simp [hline, hmem]), if_neg (by simp [hne])]
    · rw [rdropWhile_append_of_all hw, hx]

theorem dropReturn_of_rdropWhile {x : List Char} (hreturn : ws '\r' = true)
    (hx : x.rdropWhile ws = x) : dropReturn x = x := by
  unfold dropReturn
  split
  · next hlast =>
    obtain ⟨front, rfl⟩ : ∃ front, x = front ++ ['\r'] :=
      ⟨x.dropLast, (List.dropLast_append_getLast? _ hlast).symm⟩
    rw [List.rdropWhile_concat_pos _ _ _ hreturn] at hx
    have hlength := congrArg List.length hx
    have hle := (List.rdropWhile_prefix ws front).length_le
    simp only [List.length_append, List.length_singleton] at hlength
    omega
  · rfl

/-- **The last line that is not blank**: a text without the white space at its end ends with
that line, which has lost its own. -/
theorem exists_last_line (ws : Char → Bool) (hnewline : ws '\n' = true) (hreturn : ws '\r' = true)
    (h : text.rdropWhile ws ≠ []) : ∃ front z blanks,
      lines text = front ++ z :: blanks ∧ (∀ line ∈ blanks, line.rdropWhile ws = []) ∧
      z.rdropWhile ws ≠ [] ∧
      ∀ rest, lines (text.rdropWhile ws ++ '\n' :: rest) =
        front ++ z.rdropWhile ws :: lines rest := by
  have htext : text.rdropWhile ws ++ text.rtakeWhile ws = text :=
    List.rdropWhile_append_rtakeWhile ..
  have hw : ∀ c ∈ text.rtakeWhile ws, ws c = true := fun c => List.mem_rtakeWhile_imp
  have ht : (text.rdropWhile ws).rdropWhile ws = text.rdropWhile ws :=
    List.rdropWhile_idempotent ..
  generalize text.rtakeWhile ws = w at htext hw
  generalize text.rdropWhile ws = t at h htext ht
  subst htext
  by_cases hmem : '\n' ∈ t
  · obtain ⟨before, x, rfl, hx⟩ : ∃ before x, t = before ++ '\n' :: x ∧ '\n' ∉ x := by
      obtain ⟨x, before, hsplit, hx⟩ := List.eq_append_cons_of_mem (List.mem_reverse.mpr hmem)
      refine ⟨before.reverse, x.reverse, ?_, by simpa using hx⟩
      rw [← List.reverse_reverse t, hsplit]
      simp
    have hxs : x.rdropWhile ws = x ∧ x ≠ [] := by
      have hlast := List.rdropWhile_eq_self_iff.mp ht h
      cases x using List.reverseRecOn with
      | nil => simp [hnewline] at hlast
      | append_singleton x c =>
        refine ⟨?_, by simp⟩
        rw [List.rdropWhile_eq_self_iff]
        intro _
        simpa [List.getLast_append] using hlast
    obtain ⟨z, blanks, hlines, hz, hblanks⟩ :=
      lines_append_white hreturn hxs.1 hxs.2 hx hw
    refine ⟨(before.splitOn '\n').map dropReturn, z, blanks, ?_, hblanks, hz ▸ hxs.2, ?_⟩
    · rw [List.append_assoc, List.cons_append, lines_append_newline, hlines]
    · intro rest
      rw [List.append_assoc, List.cons_append, lines_append_newline, lines_line hx,
        dropReturn_of_rdropWhile hreturn hxs.1, hz]
  · obtain ⟨z, blanks, hlines, hz, hblanks⟩ := lines_append_white hreturn ht h hmem hw
    refine ⟨[], z, blanks, hlines, hblanks, hz ▸ h, fun rest => ?_⟩
    rw [lines_line hmem, dropReturn_of_rdropWhile hreturn ht, hz]
    rfl

end Blank

end TuxStack.Lines
