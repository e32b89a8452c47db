import Mathlib

/-!
# Two queues with one budget

What arrives goes to the first queue, or to the second one while this is held back, and the
oldest elements are dropped when both together hold too many elements or too many bytes. The
bytes are counted by additions that stop at the largest number of a counter.

* `BoundedQueues`: the queues and their counters, `push`, `resume`.
* `Sound`: the counters are exact, the budget is kept, and the elements are the last ones of
  all that arrived.
-/

namespace TuxStack.Queues

/-- The budget: a number of elements, a number of bytes, and the largest number that a
counter can be. -/
structure Budget where
  lines : ℕ
  bytes : ℕ
  counter : ℕ
  bytes_lt : 2 * bytes < counter

structure BoundedQueues (α : Type*) where
  entries : List α := []
  pending : List α := []
  viewportBytes : ℕ := 0
  pendingBytes : ℕ := 0
  discarded : Bool := false

/-- An addition that stops at the largest number. -/
def Budget.add (budget : Budget) (a b : ℕ) : ℕ := min (a + b) budget.counter

namespace BoundedQueues

section

variable {α : Type*} (budget : Budget) (size : α → ℕ)

def items (q : BoundedQueues α) : List α := q.entries ++ q.pending

def total (xs : List α) : ℕ := (xs.map size).sum

def overfull (q : BoundedQueues α) : Prop :=
  budget.lines < budget.add q.entries.length q.pending.length ∨
    budget.bytes < budget.add q.viewportBytes q.pendingBytes

instance (q : BoundedQueues α) : Decidable (overfull budget q) :=
  inferInstanceAs (Decidable (_ ∨ _))

/-- Elements of the second queue are dropped, the first one being empty. -/
def dropPending (viewportBytes : ℕ) : List α → ℕ → Bool → BoundedQueues α
  | [], pendingBytes, discarded => ⟨[], [], viewportBytes, pendingBytes, discarded⟩
  | x :: rest, pendingBytes, discarded =>
    if overfull budget ⟨[], x :: rest, viewportBytes, pendingBytes, discarded⟩ then
      dropPending viewportBytes rest (pendingBytes - size x) true
    else ⟨[], x :: rest, viewportBytes, pendingBytes, discarded⟩

/-- Elements are dropped from both queues, the oldest first. -/
def dropBoth (pending : List α) (pendingBytes : ℕ) : List α → ℕ → Bool → BoundedQueues α
  | [], viewportBytes, discarded =>
    dropPending budget size viewportBytes pending pendingBytes discarded
  | x :: rest, viewportBytes, discarded =>
    if overfull budget ⟨x :: rest, pending, viewportBytes, pendingBytes, discarded⟩ then
      dropBoth pending pendingBytes rest (viewportBytes - size x) true
    else ⟨x :: rest, pending, viewportBytes, pendingBytes, discarded⟩

def enforceCombined (q : BoundedQueues α) : BoundedQueues α :=
  dropBoth budget size q.pending q.pendingBytes q.entries q.viewportBytes q.discarded

/-- Elements are dropped from the first queue only. -/
def dropEntries (q : BoundedQueues α) : List α → ℕ → Bool → BoundedQueues α
  | [], viewportBytes, discarded => { q with entries := [], viewportBytes, discarded }
  | x :: rest, viewportBytes, discarded =>
    if budget.lines < (x :: rest).length ∨ budget.bytes < viewportBytes then
      dropEntries q rest (viewportBytes - size x) true
    else { q with entries := x :: rest, viewportBytes, discarded }

def enforceEntries (q : BoundedQueues α) : BoundedQueues α :=
  dropEntries budget size q q.entries q.viewportBytes q.discarded

def append (heldBack : Bool) (q : BoundedQueues α) (x : α) : BoundedQueues α :=
  if heldBack then
    { q with
      pending := q.pending ++ [x]
      pendingBytes := budget.add q.pendingBytes (size x) }
  else
    { q with
      entries := q.entries ++ [x]
      viewportBytes := budget.add q.viewportBytes (size x) }

def push (heldBack : Bool) (q : BoundedQueues α) (x : α) : BoundedQueues α :=
  enforceCombined budget size (append budget size heldBack q x)

/-- The elements that were held back move to the first queue, one by one. -/
def resumeFrom (q : BoundedQueues α) : List α → BoundedQueues α
  | [] => { q with pending := [] }
  | x :: rest =>
    resumeFrom (enforceEntries budget size
      { q with
        pending := rest
        pendingBytes := q.pendingBytes - size x
        viewportBytes := budget.add q.viewportBytes (size x)
        entries := q.entries ++ [x] }) rest

def resume (q : BoundedQueues α) : BoundedQueues α := resumeFrom budget size q q.pending

/-! ## Counters -/

/-- A counter is exact, or has stopped at its largest number, and then it exceeds the budget
until the last element is gone. -/
def Counts (xs : List α) (bytes : ℕ) : Prop :=
  bytes = total size xs ∨
    ∃ front last, xs = front ++ [last] ∧ total size front + budget.bytes < bytes ∧
      bytes ≤ total size xs

variable {budget size} {q r : BoundedQueues α} {x : α} {xs arrived : List α} {bytes : ℕ}

theorem total_append (xs ys : List α) : total size (xs ++ ys) = total size xs + total size ys := by
  unfold total
  rw [List.map_append, List.sum_append]

theorem total_cons : total size (x :: xs) = size x + total size xs := rfl

theorem total_singleton : total size [x] = size x := rfl

theorem Counts.exact_of_le (h : Counts budget size xs bytes) (hle : bytes ≤ budget.bytes) :
    bytes = total size xs := by
  rcases h with hexact | ⟨front, last, -, hlarge, -⟩
  · exact hexact
  · omega

theorem Counts.exact_of_nil (h : Counts budget size ([] : List α) bytes) : bytes = 0 := by
  rcases h with hexact | ⟨front, last, hnil, -, -⟩
  · exact hexact
  · exact absurd hnil.symm (List.append_ne_nil_of_right_ne_nil _ (List.cons_ne_nil _ _))

theorem counts_push (h : total size xs ≤ budget.bytes) :
    Counts budget size (xs ++ [x]) (budget.add (total size xs) (size x)) := by
  have hsmall := budget.bytes_lt
  unfold Budget.add
  by_cases hfits : total size xs + size x ≤ budget.counter
  · refine .inl ?_
    rw [Nat.min_eq_left hfits, total_append, total_singleton]
  · refine .inr ⟨xs, x, rfl, ?_, ?_⟩
    · rw [Nat.min_eq_right (by omega)]
      omega
    · rw [total_append, total_singleton]
      exact Nat.min_le_left _ _

theorem Counts.tail (h : Counts budget size (x :: xs) bytes) :
    Counts budget size xs (bytes - size x) := by
  rcases h with hexact | ⟨front, last, hxs, hlarge, hle⟩
  · refine .inl ?_
    rw [hexact, total_cons, Nat.add_sub_cancel_left]
  · rw [total_cons] at hle
    cases front with
    | nil =>
      obtain ⟨rfl, rfl⟩ := List.cons.inj hxs
      refine .inl ?_
      have hempty : total size ([] : List α) = 0 := rfl
      omega
    | cons first front =>
      obtain ⟨rfl, rfl⟩ := List.cons.inj hxs
      refine .inr ⟨front, last, rfl, ?_, by omega⟩
      rw [total_cons] at hlarge
      omega

/-! ## Dropping -/

/-- What dropping leaves of `q`: the last elements, with counters, and nothing that is over
the budget. -/
structure Dropped (budget : Budget) (size : α → ℕ) (q r : BoundedQueues α) : Prop where
  suffix : r.items <:+ q.items
  pending_suffix : r.pending <:+ q.pending
  viewport : Counts budget size r.entries r.viewportBytes
  pending : Counts budget size r.pending r.pendingBytes
  discarded : r.discarded = true ↔ q.discarded = true ∨ r.items ≠ q.items
  fits : ¬ overfull budget r ∨ r.items = []

theorem dropped_refl (hviewport : Counts budget size q.entries q.viewportBytes)
    (hpending : Counts budget size q.pending q.pendingBytes)
    (hfits : ¬ overfull budget q ∨ q.items = []) : Dropped budget size q q where
  suffix := List.suffix_refl _
  pending_suffix := List.suffix_refl _
  viewport := hviewport
  pending := hpending
  discarded := ⟨.inl, fun h => h.resolve_right (not_not_intro rfl)⟩
  fits := hfits

theorem Dropped.cons {q' : BoundedQueues α} (h : Dropped budget size q' r)
    (hitems : q.items = x :: q'.items) (hpending : q'.pending <:+ q.pending)
    (hdiscarded : q'.discarded = true) : Dropped budget size q r where
  suffix := by
    rw [hitems]
    exact h.suffix.trans (List.suffix_cons x _)
  pending_suffix := h.pending_suffix.trans hpending
  viewport := h.viewport
  pending := h.pending
  discarded := by
    constructor
    · rintro -
      refine .inr fun heq => ?_
      have hle := h.suffix.length_le
      rw [heq, hitems, List.length_cons] at hle
      omega
    · rintro -
      exact h.discarded.mpr (.inl hdiscarded)
  fits := h.fits

theorem dropped_dropPending (xs : List α) {pendingBytes : ℕ} (discarded : Bool)
    (hpending : Counts budget size xs pendingBytes) :
    Dropped budget size ⟨[], xs, 0, pendingBytes, discarded⟩
      (dropPending budget size 0 xs pendingBytes discarded) := by
  induction xs generalizing pendingBytes discarded with
  | nil => exact dropped_refl (.inl rfl) hpending (.inr rfl)
  | cons x rest ih =>
    unfold dropPending
    split
    · exact (ih true hpending.tail).cons rfl (List.suffix_cons x rest) rfl
    · next hfits => exact dropped_refl (.inl rfl) hpending (.inl hfits)

theorem dropped_dropBoth {pending : List α} {pendingBytes : ℕ}
    (hpending : Counts budget size pending pendingBytes) (xs : List α) {viewportBytes : ℕ}
    (discarded : Bool) (hviewport : Counts budget size xs viewportBytes) :
    Dropped budget size ⟨xs, pending, viewportBytes, pendingBytes, discarded⟩
      (dropBoth budget size pending pendingBytes xs viewportBytes discarded) := by
  induction xs generalizing viewportBytes discarded with
  | nil =>
    rw [hviewport.exact_of_nil]
    exact dropped_dropPending pending discarded hpending
  | cons x rest ih =>
    unfold dropBoth
    split
    · exact (ih true hviewport.tail).cons rfl (List.suffix_refl _) rfl
    · next hfits => exact dropped_refl hviewport hpending (.inl hfits)

theorem dropped_enforceCombined (hviewport : Counts budget size q.entries q.viewportBytes)
    (hpending : Counts budget size q.pending q.pendingBytes) :
    Dropped budget size q (enforceCombined budget size q) :=
  dropped_dropBoth hpending q.entries q.discarded hviewport

theorem enforceEntries_of_fits (hlines : q.entries.length ≤ budget.lines)
    (hbytes : q.viewportBytes ≤ budget.bytes) : enforceEntries budget size q = q := by
  have hfits : ∀ xs : List α, xs.length ≤ budget.lines → dropEntries budget size q xs
      q.viewportBytes q.discarded = { q with entries := xs } := by
    intro xs hxs
    cases xs with
    | nil => rfl
    | cons x rest => exact if_neg (by omega)
  exact hfits q.entries hlines

/-! ## What holds of the queues -/

/-- The counters are exact, the budget is kept, what is held are the last elements of all
that `arrived`, and `discarded` says whether there were others. -/
structure Sound (budget : Budget) (size : α → ℕ) (arrived : List α) (q : BoundedQueues α) :
    Prop where
  viewportBytes : q.viewportBytes = total size q.entries
  pendingBytes : q.pendingBytes = total size q.pending
  lines : q.entries.length + q.pending.length ≤ budget.lines
  bytes : q.viewportBytes + q.pendingBytes ≤ budget.bytes
  suffix : q.items <:+ arrived
  discarded : q.discarded = true ↔ q.items ≠ arrived

theorem sound_empty : Sound budget size [] ({} : BoundedQueues α) where
  viewportBytes := rfl
  pendingBytes := rfl
  lines := Nat.zero_le _
  bytes := Nat.zero_le _
  suffix := List.suffix_refl _
  discarded := ⟨fun h => (by cases h), fun h => absurd rfl h⟩

theorem Dropped.within (h : Dropped budget size q r) (hlines : budget.lines < budget.counter) :
    r.viewportBytes = total size r.entries ∧ r.pendingBytes = total size r.pending ∧
      r.entries.length + r.pending.length ≤ budget.lines ∧
      r.viewportBytes + r.pendingBytes ≤ budget.bytes := by
  have hsmall := budget.bytes_lt
  rcases h.fits with hfits | hempty
  · unfold overfull Budget.add at hfits
    rw [not_or] at hfits
    have hcount : r.entries.length + r.pending.length ≤ budget.lines := by omega
    have hbytes : r.viewportBytes + r.pendingBytes ≤ budget.bytes := by omega
    exact ⟨h.viewport.exact_of_le (by omega), h.pending.exact_of_le (by omega), hcount, hbytes⟩
  · obtain ⟨hentries, hpending⟩ := List.append_eq_nil_iff.mp hempty
    have hviewport := h.viewport
    have hsecond := h.pending
    rw [hentries] at hviewport
    rw [hpending] at hsecond
    rw [hentries, hpending, hviewport.exact_of_nil, hsecond.exact_of_nil]
    exact ⟨rfl, rfl, Nat.zero_le _, Nat.zero_le _⟩

theorem items_append (heldBack : Bool) (x : α) (hback : heldBack = false → q.pending = []) :
    (append budget size heldBack q x).items = q.items ++ [x] := by
  cases heldBack with
  | false =>
    show (q.entries ++ [x]) ++ q.pending = (q.entries ++ q.pending) ++ [x]
    rw [hback rfl, List.append_nil, List.append_nil]
  | true => exact (List.append_assoc q.entries q.pending [x]).symm

theorem discarded_append (heldBack : Bool) (x : α) :
    (append budget size heldBack q x).discarded = q.discarded := by
  cases heldBack with
  | false => rfl
  | true => rfl

theorem Sound.dropped_push (h : Sound budget size arrived q) (heldBack : Bool) (x : α) :
    Dropped budget size (append budget size heldBack q x) (push budget size heldBack q x) := by
  have hle := h.bytes
  cases heldBack with
  | false =>
    refine dropped_enforceCombined ?_ (.inl h.pendingBytes)
    show Counts budget size (q.entries ++ [x]) (budget.add q.viewportBytes (size x))
    rw [h.viewportBytes] at hle ⊢
    exact counts_push (by omega)
  | true =>
    refine dropped_enforceCombined (.inl h.viewportBytes) ?_
    show Counts budget size (q.pending ++ [x]) (budget.add q.pendingBytes (size x))
    rw [h.pendingBytes] at hle ⊢
    exact counts_push (by omega)

theorem Sound.push_suffix (h : Sound budget size arrived q) (heldBack : Bool) (x : α)
    (hback : heldBack = false → q.pending = []) :
    (push budget size heldBack q x).items <:+ q.items ++ [x] := by
  rw [← items_append heldBack x hback]
  exact (h.dropped_push heldBack x).suffix

theorem Sound.push_pending (h : Sound budget size arrived q) (x : α) (hback : q.pending = []) :
    (push budget size false q x).pending = [] := by
  have hsuffix : (push budget size false q x).pending <:+ q.pending :=
    (h.dropped_push false x).pending_suffix
  rw [hback] at hsuffix
  exact List.suffix_nil.mp hsuffix

/-- **An element arrives.** -/
theorem Sound.push (h : Sound budget size arrived q) (hlines : budget.lines < budget.counter)
    (heldBack : Bool) (x : α) (hback : heldBack = false → q.pending = []) :
    Sound budget size (arrived ++ [x]) (push budget size heldBack q x) := by
  have hdropped := h.dropped_push heldBack x
  obtain ⟨hviewport, hpending, hcount, hbytes⟩ := hdropped.within hlines
  have hsuffix := h.push_suffix heldBack x hback
  obtain ⟨dropped, hdrop⟩ := h.suffix
  have harrived : q.items ++ [x] <:+ arrived ++ [x] := ⟨dropped, by
    rw [← List.append_assoc, hdrop]⟩
  refine ⟨hviewport, hpending, hcount, hbytes, hsuffix.trans harrived, ?_⟩
  rw [hdropped.discarded, discarded_append, items_append heldBack x hback, h.discarded]
  constructor
  · rintro (hne | hne) heq
    · have hle := hsuffix.length_le
      rw [heq, List.length_append, List.length_append] at hle
      exact hne (h.suffix.eq_of_length_le (by omega))
    · exact hne (hsuffix.eq_of_length_le (by rw [heq]; exact harrived.length_le))
  · intro hne
    by_cases heq : q.items = arrived
    · exact .inr (by rwa [heq])
    · exact .inl heq

/-- What is held does not change when nothing is held back any more. -/
theorem Sound.resumeFrom (rest : List α) {q : BoundedQueues α}
    (h : Sound budget size arrived q) (hrest : q.pending = rest) :
    Sound budget size arrived (BoundedQueues.resumeFrom budget size q rest) ∧
      (BoundedQueues.resumeFrom budget size q rest).items = q.items ∧
      (BoundedQueues.resumeFrom budget size q rest).pending = [] := by
  induction rest generalizing q with
  | nil =>
    have hsame : BoundedQueues.resumeFrom budget size q [] = q := by
      show { q with pending := [] } = q
      rw [← hrest]
    rw [hsame]
    exact ⟨h, rfl, hrest⟩
  | cons x rest ih =>
    have hsmall := budget.bytes_lt
    have hcount := h.lines
    have hbytes := h.bytes
    have hviewport := h.viewportBytes
    have hpending := h.pendingBytes
    rw [hrest, List.length_cons] at hcount
    rw [hrest, total_cons] at hpending
    -- both queues share one budget, so moving an item never saturates nor evicts
    have hadd : budget.add q.viewportBytes (size x) = q.viewportBytes + size x :=
      Nat.min_eq_left (by omega)
    unfold BoundedQueues.resumeFrom
    rw [hadd, enforceEntries_of_fits
      (by rw [List.length_append, List.length_singleton]; omega) (by dsimp only; omega)]
    have hitems : (q.entries ++ [x]) ++ rest = q.items := by
      unfold items
      rw [hrest, List.append_assoc, List.singleton_append]
    have hmoved : Sound budget size arrived
        { q with
          pending := rest
          pendingBytes := q.pendingBytes - size x
          viewportBytes := q.viewportBytes + size x
          entries := q.entries ++ [x] } := by
      refine ⟨?_, ?_, ?_, ?_, ?_, ?_⟩
      · show q.viewportBytes + size x = total size (q.entries ++ [x])
        rw [total_append, total_singleton, hviewport]
      · show q.pendingBytes - size x = total size rest
        omega
      · show (q.entries ++ [x]).length + rest.length ≤ budget.lines
        rw [List.length_append, List.length_singleton]
        omega
      · show q.viewportBytes + size x + (q.pendingBytes - size x) ≤ budget.bytes
        omega
      · show (q.entries ++ [x]) ++ rest <:+ arrived
        rw [hitems]
        exact h.suffix
      · show q.discarded = true ↔ (q.entries ++ [x]) ++ rest ≠ arrived
        rw [hitems]
        exact h.discarded
    obtain ⟨hsound, hsame, hnone⟩ := ih hmoved rfl
    exact ⟨hsound, hsame.trans hitems, hnone⟩

/-- **Nothing is held back any more.** -/
theorem Sound.resume (h : Sound budget size arrived q) :
    Sound budget size arrived (resume budget size q) ∧
      (BoundedQueues.resume budget size q).items = q.items ∧
      (BoundedQueues.resume budget size q).pending = [] :=
  Sound.resumeFrom q.pending h rfl

end

end BoundedQueues

end TuxStack.Queues
