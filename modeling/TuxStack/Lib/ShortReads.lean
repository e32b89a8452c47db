import Mathlib.Data.List.Basic

/-!
# Reading a range of a file in short reads

A positioned read may answer with fewer items than it was asked for. Reading a
range is then a loop that asks for the rest until it has everything or the file
answers with nothing.

`ShortReads` is any way a file may cut its answers, as long as it gives something
while there is something. The loop reads the same range for each of them
(`fillFrom_eq`).
-/

namespace TuxStack.FileReads

/-- How many items a read gives, by its position, the items it asks for and the
items the file still has there. -/
structure ShortReads where
  count : Nat → Nat → Nat → Nat
  le_wanted : ∀ position wanted available, count position wanted available ≤ wanted
  le_available : ∀ position wanted available, count position wanted available ≤ available
  pos : ∀ position {wanted available}, 0 < wanted → 0 < available →
    0 < count position wanted available

/-- Whole answers. -/
def ShortReads.whole : ShortReads where
  count _ wanted available := min wanted available
  le_wanted _ _ _ := Nat.min_le_left _ _
  le_available _ _ _ := Nat.min_le_right _ _
  pos _ _ _ hwanted havailable := Nat.lt_min.mpr ⟨hwanted, havailable⟩

/-- One item at a time. -/
def ShortReads.single : ShortReads where
  count _ wanted available := min 1 (min wanted available)
  le_wanted _ _ _ := by omega
  le_available _ _ _ := by omega
  pos _ _ _ _ _ := by omega

variable {α : Type}

def readOnce (file : List α) (reads : ShortReads) (position wanted : Nat) : List α :=
  (file.drop position).take (reads.count position wanted (file.length - position))

theorem length_readOnce (file : List α) (reads : ShortReads) (position wanted : Nat) :
    (readOnce file reads position wanted).length =
      reads.count position wanted (file.length - position) := by
  have hle := reads.le_available position wanted (file.length - position)
  rw [readOnce, List.length_take, List.length_drop]
  omega

theorem length_readOnce_le (file : List α) (reads : ShortReads) (position wanted : Nat) :
    (readOnce file reads position wanted).length ≤ wanted := by
  rw [length_readOnce]
  exact reads.le_wanted ..

theorem length_readOnce_pos {file : List α} (reads : ShortReads) {position wanted : Nat}
    (hwanted : 0 < wanted) (hposition : position < file.length) :
    0 < (readOnce file reads position wanted).length := by
  rw [length_readOnce]
  exact reads.pos position hwanted (Nat.sub_pos_of_lt hposition)

theorem readOnce_append {file : List α} {reads : ShortReads} {position wanted total : Nat}
    (h : (readOnce file reads position wanted).length ≤ total) :
    readOnce file reads position wanted ++
        (file.drop (position + (readOnce file reads position wanted).length)).take
          (total - (readOnce file reads position wanted).length) =
      (file.drop position).take total := by
  have hread : readOnce file reads position wanted =
      (file.drop position).take (readOnce file reads position wanted).length := by
    rw [length_readOnce]
    rfl
  calc readOnce file reads position wanted ++
          (file.drop (position + (readOnce file reads position wanted).length)).take
            (total - (readOnce file reads position wanted).length)
      = (file.drop position).take (readOnce file reads position wanted).length ++
          ((file.drop position).drop (readOnce file reads position wanted).length).take
            (total - (readOnce file reads position wanted).length) := by
        rw [← hread, List.drop_drop]
    _ = (file.drop position).take ((readOnce file reads position wanted).length +
          (total - (readOnce file reads position wanted).length)) := (List.take_add ..).symm
    _ = (file.drop position).take total := by rw [Nat.add_sub_cancel' h]

/-- Reads until `output` has `wanted` items or the file gives none; `position` is
where the file is read when so many items are there. -/
def fillFrom (file : List α) (reads : ShortReads) (position : Nat → Nat) (wanted : Nat)
    (output : List α) : List α :=
  if _hlt : output.length < wanted then
    let read := readOnce file reads (position output.length) (wanted - output.length)
    if _hnone : read.length = 0 then output
    else fillFrom file reads position wanted (output ++ read)
  else output
termination_by wanted - output.length
decreasing_by
  have hsome : 0 < read.length := Nat.pos_of_ne_zero ‹_›
  show wanted - (output ++ read).length < wanted - output.length
  rw [List.length_append]
  omega

/-- **The loop reads the whole range**, however the file cuts its answers. -/
theorem fillFrom_eq {file : List α} (reads : ShortReads) {position : Nat → Nat}
    {wanted offset : Nat} {output : List α}
    (hpos : ∀ filled, filled < wanted → position filled = offset + filled)
    (hle : output.length ≤ wanted) :
    fillFrom file reads position wanted output =
      output ++ (file.drop (offset + output.length)).take (wanted - output.length) := by
  fun_induction fillFrom file reads position wanted output with
  | case1 output hlt read hnone =>
    -- Nothing was given though something was asked for: the file ends here.
    have hread : read = readOnce file reads (offset + output.length)
        (wanted - output.length) := by
      rw [← hpos _ hlt]
    have hend : ¬ offset + output.length < file.length := by
      intro havailable
      have hsome := length_readOnce_pos reads (Nat.sub_pos_of_lt hlt) havailable
      rw [← hread] at hsome
      omega
    rw [List.drop_eq_nil_of_le (by omega)]
    simp
  | case2 output hlt read hsome ih =>
    have hread : read = readOnce file reads (offset + output.length)
        (wanted - output.length) := by
      rw [← hpos _ hlt]
    have hcount : read.length ≤ wanted - output.length := hread ▸ length_readOnce_le ..
    rw [ih (by rw [List.length_append]; omega), List.append_assoc, List.length_append]
    congr 1
    calc read ++ (file.drop (offset + (output.length + read.length))).take
            (wanted - (output.length + read.length))
        = read ++ (file.drop (offset + output.length + read.length)).take
            (wanted - output.length - read.length) := by
          rw [Nat.add_assoc, Nat.sub_sub]
      _ = (file.drop (offset + output.length)).take (wanted - output.length) := by
          rw [hread] at hcount ⊢
          exact readOnce_append hcount
  | case3 output hge =>
    rw [show wanted - output.length = 0 by omega]
    simp

end TuxStack.FileReads
