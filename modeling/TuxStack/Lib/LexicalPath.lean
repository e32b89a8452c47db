import Mathlib.Data.List.Induction

/-!
# Lexical path walks

A relative path is a list of segments, each going down to a named child or up
to the parent. Walking it from a stack of names either leaves the stack at the
bottom (`none`) or ends on another stack. Every walk has a normal form: a
number of ups followed by a list of names. `walk_eq_normal` reads the result of
a walk off the normal form, and `prefix_walk_iff` says when the result is still
below a given ancestor of the starting point.
-/

namespace TuxStack.Lexical

variable {α : Type*}

inductive Seg (α : Type*) where
  | up
  | down (name : α)

/-- One move of a walk; the stack's last name is the current directory. -/
def move (stack : List α) : Seg α → Option (List α)
  | .up => if stack = [] then none else some stack.dropLast
  | .down name => some (stack ++ [name])

def walk (stack : List α) (segs : List (Seg α)) : Option (List α) :=
  segs.foldlM move stack

/-- One step of normalisation: an up cancels the last name, or counts as a
climb when there is none. -/
def normalStep : Nat × List α → Seg α → Nat × List α
  | (k, names), .up => if names = [] then (k + 1, []) else (k, names.dropLast)
  | (k, names), .down name => (k, names ++ [name])

/-- The normal form: how far the walk climbs above its start, and the names it
descends into from there. -/
def normal (segs : List (Seg α)) : Nat × List α :=
  segs.foldl normalStep (0, [])

@[simp] theorem walk_nil (stack : List α) : walk stack [] = some stack := rfl

theorem walk_append (stack : List α) (xs ys : List (Seg α)) :
    walk stack (xs ++ ys) = (walk stack xs).bind fun s => walk s ys := by
  simp only [walk, List.foldlM_append]
  rfl

theorem normal_snoc (xs : List (Seg α)) (x : Seg α) :
    normal (xs ++ [x]) = normalStep (normal xs) x := by
  simp [normal]

/-- The stack a normal form leads to from `stack`. -/
def land (stack : List α) (n : Nat × List α) : Option (List α) :=
  if n.1 ≤ stack.length then some (stack.take (stack.length - n.1) ++ n.2)
  else none

theorem land_normalStep (stack : List α) (n : Nat × List α) (x : Seg α) :
    land stack (normalStep n x) = (land stack n).bind fun s => move s x := by
  obtain ⟨k, names⟩ := n
  cases x with
  | down name =>
    by_cases hk : k ≤ stack.length <;> simp [land, normalStep, move, hk]
  | up =>
    by_cases hn : names = []
    · subst hn
      by_cases hk : k ≤ stack.length
      · by_cases hlt : k + 1 ≤ stack.length
        · have hne : stack.take (stack.length - k) ≠ [] := by
            rw [Ne, List.take_eq_nil_iff]
            rintro (h | h)
            · omega
            · simp [h] at hlt
          have hd : (stack.take (stack.length - k)).dropLast
              = stack.take (stack.length - (k + 1)) := by
            rw [List.dropLast_eq_take, List.take_take, List.length_take]
            congr 1
            omega
          simp only [land, normalStep, move, if_pos hk, if_pos hlt, if_true,
            Option.bind_some, List.append_nil, if_neg hne, hd]
        · have hkl : stack.length - k = 0 := by omega
          simp [land, normalStep, move, hk, hlt, hkl]
      · have hlt : ¬ k + 1 ≤ stack.length := by omega
        simp [land, normalStep, hk, hlt]
    · by_cases hk : k ≤ stack.length
      · simp [land, normalStep, move, hk, hn, List.dropLast_append_of_ne_nil]
      · simp [land, normalStep, hn, hk]

/-- **Normal form**: a walk succeeds exactly when it does not climb further
than the stack is deep, and then lands on the names of its normal form. -/
theorem walk_eq_normal (stack : List α) (segs : List (Seg α)) :
    walk stack segs = land stack (normal segs) := by
  induction segs using List.reverseRecOn with
  | nil => simp [land, normal]
  | append_singleton xs x ih =>
    rw [walk_append, ih, normal_snoc, land_normalStep]
    congr 1
    funext s
    simp [walk]

/-- **Confinement of a walk**: from `stack`, a walk that succeeds ends below
`root` exactly when its names start by re-entering whatever part of `root` its
climb left. A climb that stays below `root` leaves nothing to re-enter. -/
theorem prefix_walk_iff {stack root out : List α} {segs : List (Seg α)}
    (hroot : root <+: stack ∨ ∃ x, root = stack ++ [x])
    (hw : walk stack segs = some out) :
    root <+: out ↔
      root.drop (stack.length - (normal segs).1) <+: (normal segs).2 := by
  rw [walk_eq_normal, land] at hw
  split at hw
  · rename_i hk
    cases hw
    generalize (normal segs).1 = k at *
    generalize (normal segs).2 = names at *
    -- both sides compare `root` with `stack.take _ ++ names`, split at the climb
    have hcommon : root.take (stack.length - k) <+: stack.take (stack.length - k) := by
      rcases hroot with ⟨t, rfl⟩ | ⟨x, rfl⟩
      · rw [List.take_append]
        exact List.prefix_append _ _
      · have hsame : (stack ++ [x]).take (stack.length - k) = stack.take (stack.length - k) :=
          List.take_append_of_le_length (Nat.sub_le _ _)
        exact ⟨[], by rw [List.append_nil, hsame]⟩
    constructor
    · rintro ⟨t, ht⟩
      have := congrArg (List.drop (stack.length - k)) ht
      rw [List.drop_append, List.drop_append] at this
      refine ⟨t.drop (stack.length - k - root.length), ?_⟩
      rw [this]
      simp
    · intro h
      by_cases hlen : stack.length - k ≤ root.length
      · have hlt : root.take (stack.length - k) = stack.take (stack.length - k) := by
          refine hcommon.eq_of_length ?_
          simp
          omega
        rw [← List.take_append_drop (stack.length - k) root, hlt]
        exact (List.prefix_append_right_inj _).mpr h
      · rw [List.take_of_length_le (by omega)] at hcommon
        exact hcommon.trans (List.prefix_append _ _)
  · cases hw

end TuxStack.Lexical
