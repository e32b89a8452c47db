import Mathlib.Tactic.Common

/-!
# The receiver of a broadcast channel

A broadcast channel keeps the values that were sent last, as many as its capacity. A
receiver that has not read the oldest one when it is dropped is told so once, the next time
it asks, and goes on with the oldest one that is left.
-/

namespace TuxStack.Broadcast

/-- What a receiver has not read, and whether something was dropped since it last asked. -/
structure Receiver (α : Type*) where
  unread : List α := []
  lagged : Bool := false
deriving DecidableEq

inductive Received (α : Type*) where
  | lagged
  | value (x : α)

namespace Receiver

variable {α : Type*} {capacity : ℕ} {r : Receiver α} {x y : α}

/-- The value that the next one pushes out. -/
def dropped (capacity : ℕ) (r : Receiver α) : Option α :=
  if capacity ≤ r.unread.length then r.unread.head? else none

def send (capacity : ℕ) (r : Receiver α) (x : α) : Receiver α :=
  if capacity ≤ r.unread.length then ⟨r.unread.tail ++ [x], true⟩
  else { r with unread := r.unread ++ [x] }

/-- The receiver asks; it waits when there is nothing. -/
def recv (r : Receiver α) : Option (Received α × Receiver α) :=
  if r.lagged then some (.lagged, { r with lagged := false })
  else
    match r.unread with
    | [] => none
    | x :: rest => some (.value x, { r with unread := rest })

theorem send_suffix : (r.send capacity x).unread <:+ r.unread ++ [x] := by
  unfold send
  split
  · exact (List.suffix_append_self_iff).mpr (List.tail_suffix r.unread)
  · exact List.suffix_refl _

theorem mem_send : x ∈ (r.send capacity x).unread := by
  unfold send
  split
  · exact List.mem_append_right _ List.mem_cons_self
  · exact List.mem_append_right _ List.mem_cons_self

theorem send_of_room (h : r.unread.length < capacity) :
    r.send capacity x = { r with unread := r.unread ++ [x] } := if_neg (Nat.not_le_of_lt h)

theorem send_of_dropped (h : r.dropped capacity = some y) :
    ∃ rest, r.unread = y :: rest ∧ (r.send capacity x).unread = rest ++ [x] := by
  unfold dropped at h
  split at h
  · next hfull =>
    obtain ⟨rest, hrest⟩ := List.head?_eq_some_iff.mp h
    refine ⟨rest, hrest, ?_⟩
    unfold send
    rw [if_pos hfull, hrest]
    rfl
  · cases h

theorem mem_send_or_dropped (h : y ∈ r.unread) :
    y ∈ (r.send capacity x).unread ∨ r.dropped capacity = some y := by
  unfold send dropped
  by_cases hfull : capacity ≤ r.unread.length
  · rw [if_pos hfull, if_pos hfull]
    cases hunread : r.unread with
    | nil =>
      rw [hunread] at h
      cases h
    | cons z rest =>
      rw [hunread] at h
      rcases List.mem_cons.mp h with rfl | hrest
      · exact .inr rfl
      · exact .inl (List.mem_append_left _ hrest)
  · rw [if_neg hfull]
    exact .inl (List.mem_append_left _ h)

end Receiver

end TuxStack.Broadcast
