import Mathlib.Data.List.Nodup

/-!
# Blocks of a list

A list that was put together from blocks, each with a marked element in front and unmarked
ones behind it: what stands around an element of the list is its block. And a list that is
taken apart by a key has the same elements, block by block.
-/

namespace TuxStack.Blocks

variable {α κ : Type*}

/-- Blocks one behind the other. -/
def rows (blocks : List (α × List α)) : List α := blocks.flatMap fun block => block.1 :: block.2

/-- The elements in front are marked, and no others. -/
structure Marked (mark : α → Bool) (blocks : List (α × List α)) : Prop where
  front : ∀ block ∈ blocks, mark block.1 = true
  rest : ∀ block ∈ blocks, ∀ x ∈ block.2, mark x = false

variable {mark : α → Bool} {blocks : List (α × List α)} {front back : List α} {x : α}

theorem Marked.tail {block : α × List α} (h : Marked mark (block :: blocks)) :
    Marked mark blocks :=
  ⟨fun b hb => h.front b (List.mem_cons_of_mem _ hb),
    fun b hb => h.rest b (List.mem_cons_of_mem _ hb)⟩

theorem Marked.takeWhile_rows (h : Marked mark blocks) :
    (rows blocks).takeWhile (fun y => !mark y) = [] := by
  cases blocks with
  | nil => rfl
  | cons block blocks =>
    have hfront := h.front block List.mem_cons_self
    exact List.takeWhile_cons_of_neg (by simp [hfront])

/-- **A marked element** is in front of its block, which goes on to the next mark. -/
theorem Marked.exists_block (h : Marked mark blocks) (hsplit : rows blocks = front ++ x :: back)
    (hx : mark x = true) :
    ∃ rest, (x, rest) ∈ blocks ∧ back.takeWhile (fun y => !mark y) = rest := by
  induction blocks generalizing front with
  | nil =>
    have hnil : front ++ x :: back = [] := hsplit.symm
    simp at hnil
  | cons block blocks ih =>
    obtain ⟨first, rest⟩ := block
    have hrest : ∀ y ∈ rest, (!mark y) = true := by
      intro y hy
      simp [h.rest (first, rest) List.mem_cons_self y hy]
    have hcons : first :: (rest ++ rows blocks) = front ++ x :: back := hsplit
    cases front with
    | nil =>
      obtain ⟨rfl, rfl⟩ := List.cons.inj hcons
      refine ⟨rest, List.mem_cons_self, ?_⟩
      rw [List.takeWhile_append_of_pos hrest, h.tail.takeWhile_rows, List.append_nil]
    | cons y front =>
      obtain ⟨-, htail⟩ := List.cons.inj hcons
      rcases List.append_eq_append_iff.mp htail with ⟨cut, rfl, hcut⟩ | ⟨cut, rfl, hcut⟩
      · obtain ⟨others, hmem, hback⟩ := ih h.tail hcut
        exact ⟨others, List.mem_cons_of_mem _ hmem, hback⟩
      · cases cut with
        | nil =>
          have hstart : rows blocks = [] ++ x :: back := hcut.symm
          obtain ⟨others, hmem, hback⟩ := ih h.tail hstart
          exact ⟨others, List.mem_cons_of_mem _ hmem, hback⟩
        | cons z cut =>
          obtain ⟨rfl, -⟩ := List.cons.inj hcut
          have hnot := h.rest (first, front ++ x :: cut) List.mem_cons_self x (by simp)
          rw [hx] at hnot
          cases hnot

/-- **An unmarked element** stands in a block, behind its mark and other unmarked ones. -/
theorem Marked.exists_mark (h : Marked mark blocks) (hsplit : rows blocks = front ++ x :: back)
    (hx : mark x = false) : ∃ block ∈ blocks, ∃ before between after,
      front = before ++ block.1 :: between ∧ block.2 = between ++ x :: after := by
  induction blocks generalizing front with
  | nil =>
    have hnil : front ++ x :: back = [] := hsplit.symm
    simp at hnil
  | cons block blocks ih =>
    obtain ⟨first, rest⟩ := block
    have hcons : first :: (rest ++ rows blocks) = front ++ x :: back := hsplit
    cases front with
    | nil =>
      obtain ⟨rfl, -⟩ := List.cons.inj hcons
      have hmark := h.front (first, rest) List.mem_cons_self
      rw [hx] at hmark
      cases hmark
    | cons y front =>
      obtain ⟨rfl, htail⟩ := List.cons.inj hcons
      rcases List.append_eq_append_iff.mp htail with ⟨cut, rfl, hcut⟩ | ⟨cut, rfl, hcut⟩
      · obtain ⟨block, hmem, before, between, after, rfl, hblock⟩ := ih h.tail hcut
        exact ⟨block, List.mem_cons_of_mem _ hmem, first :: (rest ++ before), between, after,
          by simp, hblock⟩
      · cases cut with
        | nil =>
          have hstart : rows blocks = [] ++ x :: back := hcut.symm
          obtain ⟨block, hmem, before, between, after, hfront, hblock⟩ := ih h.tail hstart
          simp at hfront
        | cons z cut =>
          obtain ⟨rfl, -⟩ := List.cons.inj hcut
          exact ⟨(first, front ++ x :: cut), List.mem_cons_self, [], front, cut, rfl, rfl⟩

/-! ## Taking a list apart -/

/-- **A list that is taken apart by a key** has the same elements, when every key that occurs
is listed once. -/
theorem perm_flatMap_filter [DecidableEq κ] (key : α → κ) {keys : List κ} (hnodup : keys.Nodup)
    {l : List α} (hkeys : ∀ x ∈ l, key x ∈ keys) :
    (keys.flatMap fun k => l.filter fun x => key x = k).Perm l := by
  induction l with
  | nil => simp
  | cons x l ih =>
    have hl := ih fun y hy => hkeys y (List.mem_cons_of_mem _ hy)
    obtain ⟨before, after, rfl⟩ := List.append_of_mem (hkeys x List.mem_cons_self)
    have hother : ∀ k ∈ before ++ after, key x ≠ k := by
      rintro k hk rfl
      exact (List.nodup_cons.mp (List.perm_middle.nodup_iff.mp hnodup)).1 hk
    have hsame : ∀ ks : List κ, (∀ k ∈ ks, key x ≠ k) →
        (ks.flatMap fun k => (x :: l).filter fun y => key y = k) =
          ks.flatMap fun k => l.filter fun y => key y = k := by
      intro ks hks
      refine List.flatMap_congr fun k hk => ?_
      rw [List.filter_cons_of_neg (by simpa using hks k hk)]
    rw [List.flatMap_append, List.flatMap_cons,
      hsame before fun k hk => hother k (List.mem_append_left _ hk),
      hsame after fun k hk => hother k (List.mem_append_right _ hk),
      List.filter_cons_of_pos (by simp), List.cons_append]
    rw [List.flatMap_append, List.flatMap_cons] at hl
    exact List.perm_middle.trans (hl.cons x)

/-! ## Counting in blocks -/

section Counting

variable {β γ : Type*}

theorem countP_flatMap_congr {f : α → List β} {g : α → List γ} {p : β → Bool} {q : γ → Bool}
    {l : List α} (h : ∀ a ∈ l, (f a).countP p = (g a).countP q) :
    (l.flatMap f).countP p = (l.flatMap g).countP q := by
  rw [List.countP_flatMap, List.countP_flatMap]
  exact congrArg List.sum (List.map_congr_left h)

/-- **In lists that are disjoint** an element is in one of them at most. -/
theorem countP_mem_of_nodup [DecidableEq κ] {f : α → List κ} {l : List α}
    (hnodup : (l.flatMap f).Nodup) (k : κ) :
    l.countP (fun a => (f a).contains k) = if k ∈ l.flatMap f then 1 else 0 := by
  have hone : ∀ a ∈ l, [a].countP (fun a => (f a).contains k) = (f a).count k := by
    intro a ha
    rw [((List.nodup_flatMap.mp hnodup).1 a ha).count]
    simp [List.countP_singleton]
  calc l.countP (fun a => (f a).contains k)
      = (l.flatMap fun a => [a]).countP fun a => (f a).contains k := by
        rw [List.flatMap_singleton']
    _ = (l.flatMap f).count k := countP_flatMap_congr hone
    _ = if k ∈ l.flatMap f then 1 else 0 := hnodup.count

end Counting

end TuxStack.Blocks
