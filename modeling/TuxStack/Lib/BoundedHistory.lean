import Mathlib.Data.List.Induction

/-!
# Bounded histories

A ring of the last entries of a history, in which an entry takes the place of the one before
it when both are of the same instant. As long as no entry is older than the one before it,
the instants in the ring increase.
-/

namespace TuxStack.History

variable {α : Type*} {instant : α → Int} {capacity : Nat} {history : List α} {point : α}

/-- Entries are dropped from the front until there is room for one more. -/
def pushRing (capacity : Nat) (history : List α) (point : α) : List α :=
  history.drop (history.length + 1 - capacity) ++ [point]

/-- The entries that stay beside a new one: not the last one, when it is of that instant. -/
def retained (instant : α → Int) (history : List α) (point : α) : List α :=
  if history.getLast?.any fun last => instant last = instant point then history.dropLast
  else history

def record (instant : α → Int) (capacity : Nat) (history : List α) (point : α) : List α :=
  pushRing capacity (retained instant history point) point

theorem length_record (hcapacity : 0 < capacity) (history : List α) (point : α) :
    (record instant capacity history point).length ≤ capacity := by
  unfold record pushRing
  rw [List.length_append, List.length_drop, List.length_singleton]
  omega

theorem getLast_record (instant : α → Int) (capacity : Nat) (history : List α) (point : α) :
    (record instant capacity history point).getLast? = some point := List.getLast?_concat ..

theorem record_ne_nil : record instant capacity history point ≠ [] := by
  unfold record pushRing
  exact List.append_ne_nil_of_right_ne_nil _ (List.cons_ne_nil _ _)

def Increasing (instant : α → Int) (history : List α) : Prop :=
  history.Pairwise fun a b => instant a < instant b

/-- What stays is older than the new entry, when the last entry is not newer. -/
theorem retained_lt (h : Increasing instant history)
    (hlast : ∀ last ∈ history.getLast?, instant last ≤ instant point) :
    ∀ old ∈ retained instant history point, instant old < instant point := by
  cases history using List.reverseRecOn with
  | nil =>
    intro old hold
    cases hold
  | append_singleton front last =>
    have hbound : instant last ≤ instant point := hlast last List.getLast?_concat
    have hfront : ∀ old ∈ front, instant old < instant last := by
      intro old hold
      exact (List.pairwise_append.mp h).2.2 old hold last List.mem_cons_self
    unfold retained
    rw [List.getLast?_concat, Option.any_some, List.dropLast_concat]
    split
    · intro old hold
      exact Int.lt_of_lt_of_le (hfront old hold) hbound
    · next hne =>
      have hlt : instant last < instant point :=
        Int.lt_iff_le_and_ne.mpr ⟨hbound, fun heq => hne (decide_eq_true heq)⟩
      intro old hold
      rcases List.mem_append.mp hold with hold | hold
      · exact Int.lt_trans (hfront old hold) hlt
      · rwa [List.mem_singleton.mp hold]

theorem retained_sublist (instant : α → Int) (history : List α) (point : α) :
    (retained instant history point).Sublist history := by
  unfold retained
  split
  · exact List.dropLast_sublist history
  · exact List.Sublist.refl history

/-- **The instants keep increasing** when an entry that is not older is recorded. -/
theorem Increasing.record (h : Increasing instant history)
    (hlast : ∀ last ∈ history.getLast?, instant last ≤ instant point) :
    Increasing instant (History.record instant capacity history point) := by
  unfold History.record pushRing Increasing
  rw [List.pairwise_append]
  refine ⟨?_, List.pairwise_singleton _ _, ?_⟩
  · exact h.sublist ((List.drop_sublist _ _).trans (retained_sublist ..))
  · intro old hold new hnew
    rw [List.mem_singleton.mp hnew]
    exact retained_lt h hlast old (List.drop_subset _ _ hold)

end TuxStack.History
