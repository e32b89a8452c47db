import Mathlib.Data.List.Basic

/-!
# Streams that are taken in blocks

A state that takes a stream block by block, when the stream comes in pieces: the whole blocks
of what is there are taken, and what is left waits for the next piece. Where the stream is cut
makes no difference (`absorb_append`).
-/

namespace TuxStack.Blocks

variable {σ α : Type*} (step : σ → List α → σ) (n : Nat)

/-- All whole blocks of a stream from a state on, and what is left of it. -/
def absorb (s : σ) (data : List α) : σ × List α :=
  if _h : 0 < n ∧ n ≤ data.length then absorb (step s (data.take n)) (data.drop n)
  else (s, data)
termination_by data.length
decreasing_by
  rw [List.length_drop]
  omega

variable {step n} {s : σ} {data : List α}

theorem absorb_of_lt (h : data.length < n) : absorb step n s data = (s, data) := by
  rw [absorb, dif_neg (by omega)]

theorem absorb_of_le (hn : 0 < n) (h : n ≤ data.length) :
    absorb step n s data = absorb step n (step s (data.take n)) (data.drop n) := by
  rw [absorb, dif_pos ⟨hn, h⟩]

theorem absorb_block {block : List α} (hn : 0 < n) (h : block.length = n) :
    absorb step n s (block ++ data) = absorb step n (step s block) data := by
  rw [absorb_of_le hn (by rw [List.length_append]; omega), List.take_left' h, List.drop_left' h]

theorem length_rest (hn : 0 < n) : (absorb step n s data).2.length < n := by
  fun_induction absorb step n s data with
  | case1 s data h ih => exact ih
  | case2 s data h => exact Nat.lt_of_not_le fun hle => h ⟨hn, hle⟩

theorem length_rest_eq (hn : 0 < n) : (absorb step n s data).2.length = data.length % n := by
  fun_induction absorb step n s data with
  | case1 s data h ih => rw [ih, List.length_drop, ← Nat.mod_eq_sub_mod h.2]
  | case2 s data h => exact (Nat.mod_eq_of_lt (Nat.lt_of_not_le fun hle => h ⟨hn, hle⟩)).symm

/-- **Where a stream is cut makes no difference.** -/
theorem absorb_append (hn : 0 < n) (more : List α) :
    absorb step n s (data ++ more) =
      absorb step n (absorb step n s data).1 ((absorb step n s data).2 ++ more) := by
  fun_induction absorb step n s data with
  | case1 s data h ih =>
    have hlength : n ≤ (data ++ more).length := by
      rw [List.length_append]
      omega
    rw [absorb_of_le hn hlength, List.take_append_of_le_length h.2,
      List.drop_append_of_le_length h.2]
    exact ih
  | case2 s data h => rfl

/-- **A stream of whole blocks** is taken block by block, and nothing is left of it. -/
theorem absorb_blocks (hn : 0 < n) : ∀ {k : Nat} {s : σ} {data : List α}, data.length = n * k →
    absorb step n s data =
      ((List.range k).foldl (fun s i => step s ((data.drop (n * i)).take n)) s, []) := by
  intro k
  induction k with
  | zero =>
    intro s data h
    have hnil : data = [] := List.length_eq_zero_iff.mp h
    rw [hnil, absorb_of_lt hn]
    rfl
  | succ k ih =>
    intro s data h
    rw [Nat.mul_succ] at h
    have hrest : (data.drop n).length = n * k := by
      rw [List.length_drop]
      omega
    rw [absorb_of_le hn (by omega), ih hrest, List.range_succ_eq_map, List.foldl_cons,
      List.foldl_map]
    simp only [Nat.mul_zero, List.drop_zero, List.drop_drop, Nat.mul_succ, Nat.add_comm]

end TuxStack.Blocks
