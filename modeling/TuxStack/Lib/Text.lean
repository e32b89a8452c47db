import Mathlib.Algebra.Ring.Nat
import Mathlib.Data.List.DropRight

/-!
# Trimmed text and digits

`str::trim` on characters and on strings, what it keeps, and the digits that `str::parse`
reads.
-/

namespace TuxStack

/-- `char::is_whitespace`. -/
def isWhitespace (c : Char) : Bool :=
  let n := c.toNat
  (9 ≤ n && n ≤ 13) || n = 0x20 || n = 0x85 || n = 0xA0 || n = 0x1680 ||
    (0x2000 ≤ n && n ≤ 0x200A) || n = 0x2028 || n = 0x2029 || n = 0x202F || n = 0x205F ||
    n = 0x3000

/-- `str::trim_start`. -/
def trimStart (text : List Char) : List Char := text.dropWhile isWhitespace

/-- `str::trim_end`. -/
def trimEnd (text : List Char) : List Char := text.rdropWhile isWhitespace

/-- `str::trim`. -/
def trimBoth (text : List Char) : List Char := trimEnd (trimStart text)

def trim (text : String) : String := String.ofList (trimBoth text.toList)

theorem trimStart_trimStart (text : List Char) : trimStart (trimStart text) = trimStart text :=
  List.dropWhile_idempotent ..

theorem trimStart_trimBoth (text : List Char) : trimStart (trimBoth text) = trimBoth text := by
  unfold trimStart
  rw [List.dropWhile_eq_self_iff]
  intro hpos
  obtain ⟨rest, hrest⟩ := List.rdropWhile_prefix isWhitespace (trimStart text)
  change trimBoth text ++ rest = trimStart text at hrest
  have hlt : 0 < (trimStart text).length := by
    rw [← hrest, List.length_append]
    exact Nat.lt_add_right _ hpos
  have hhead := List.dropWhile_eq_self_iff.mp (trimStart_trimStart text) hlt
  have hsame : (trimStart text)[0] = (trimBoth text)[0] := by
    conv_lhs => rw [List.getElem_of_eq hrest.symm]
    exact List.getElem_append_left hpos
  rwa [hsame] at hhead

theorem trim_trim (text : String) : trim (trim text) = trim text := by
  have hends : trimBoth (trimBoth text.toList) = trimBoth text.toList := by
    rw [trimBoth, trimStart_trimBoth]
    exact List.rdropWhile_idempotent ..
  rw [trim, trim, String.toList_ofList, hends]

theorem trimBoth_append {c : Char} (hc : isWhitespace c = true) (text : List Char) :
    trimBoth (text ++ [c]) = trimBoth text := by
  unfold trimBoth trimStart trimEnd
  rw [List.dropWhile_append]
  split
  · next hempty =>
    rw [List.isEmpty_iff.mp hempty]
    simp [hc]
  · rw [List.rdropWhile_concat_pos _ _ _ hc]

theorem mem_trimBoth {text : List Char} {c : Char} (hc : isWhitespace c = false) (h : c ∈ text) :
    c ∈ trimBoth text := by
  unfold trimBoth trimEnd trimStart
  have hstart : c ∈ text.dropWhile isWhitespace := by
    rw [← List.takeWhile_append_dropWhile (p := isWhitespace) (l := text), List.mem_append] at h
    refine h.resolve_left fun hmem => ?_
    rw [List.mem_takeWhile_imp hmem] at hc
    cases hc
  rw [← List.rdropWhile_append_rtakeWhile (p := isWhitespace) (l := text.dropWhile isWhitespace),
    List.mem_append] at hstart
  refine hstart.resolve_right fun hmem => ?_
  rw [List.mem_rtakeWhile_imp hmem] at hc
  cases hc

theorem trim_sublist (text : String) : (trim text).toList.Sublist text.toList := by
  rw [trim, String.toList_ofList]
  exact (List.rdropWhile_prefix ..).sublist.trans (List.dropWhile_sublist ..)

theorem length_trim_le (text : String) : (trim text).length ≤ text.length := by
  rw [← String.length_toList, ← String.length_toList]
  exact (trim_sublist text).length_le

theorem trim_eq_of_length {text : String} (h : (trim text).length = text.length) :
    trim text = text := by
  rw [← String.length_toList, ← String.length_toList] at h
  exact String.toList_inj.mp ((trim_sublist text).eq_of_length h)

theorem trim_of_plain {text : String} (h : ∀ c ∈ text.toList, isWhitespace c = false) :
    trim text = text := by
  have hdrop : ∀ l : List Char, (∀ c ∈ l, isWhitespace c = false) →
      l.dropWhile isWhitespace = l := by
    intro l hl
    cases l with
    | nil => rfl
    | cons c l => rw [List.dropWhile_cons_of_neg (by simp [hl c])]
  unfold trim trimBoth trimEnd trimStart List.rdropWhile
  rw [hdrop _ h, hdrop _ fun c hc => h c (List.mem_reverse.mp hc), List.reverse_reverse,
    String.ofList_toList]

/-! ## Numbers -/

/-- The number that digits write; there must be one. -/
def parseDigits (digits : List Char) : Option Nat :=
  if digits = [] ∨ ¬ digits.all Char.isDigit then none
  else some (digits.foldl (fun n c => n * 10 + (c.toNat - 48)) 0)

/-- `from_str` of the unsigned type of a width. -/
def parseUnsigned (width : Nat) (text : String) : Option Nat :=
  (match text.toList with
    | '+' :: digits => parseDigits digits
    | digits => parseDigits digits).filter (· < 2 ^ width)

theorem parseDigits_spec {digits : List Char} {amount : Nat}
    (h : parseDigits digits = some amount) :
    digits ≠ [] ∧ ∀ c ∈ digits, c.isDigit = true := by
  unfold parseDigits at h
  split at h
  · cases h
  · next hnot =>
    rw [not_or, not_not, List.all_eq_true] at hnot
    exact hnot

end TuxStack
