import Mathlib.Logic.Relation
import Mathlib.Tactic.Common

/-!
# Following links

`follow` goes from one link to the next until there is an end, at most so many rounds and
never to a place it has been. `Leads` says where a chain ends and after how many hops. A
chain that ends never comes back to itself, so a limit on the rounds is all that keeps
`follow` from an end (`follow_iff`). A chain that runs into a circle has no end, and `follow`
says so, however many rounds it has (`follow_of_circles`).
-/

namespace TuxStack.Following

variable {ε α β : Type} {next : α → Except ε (β ⊕ α)} {loop : ε}

/-- The chain from a place ends, after so many hops. -/
inductive Leads (next : α → Except ε (β ⊕ α)) : Nat → α → β → Prop where
  | stop {a : α} {b : β} (h : next a = .ok (.inl b)) : Leads next 0 a b
  | hop {hops : Nat} {a target : α} {b : β} (h : next a = .ok (.inr target))
      (rest : Leads next hops target b) : Leads next (hops + 1) a b

theorem Leads.unique {hops hops' : Nat} {a : α} {b b' : β} (h : Leads next hops a b)
    (h' : Leads next hops' a b') : hops = hops' ∧ b = b' := by
  induction h generalizing hops' with
  | stop hstop =>
    cases h' with
    | stop hstop' =>
      rw [hstop] at hstop'
      cases hstop'
      exact ⟨rfl, rfl⟩
    | hop hhop' _ =>
      rw [hstop] at hhop'
      cases hhop'
  | hop hhop _ ih =>
    cases h' with
    | stop hstop' =>
      rw [hhop] at hstop'
      cases hstop'
    | hop hhop' hrest' =>
      rw [hhop] at hhop'
      cases hhop'
      obtain ⟨rfl, rfl⟩ := ih hrest'
      exact ⟨rfl, rfl⟩

/-- One link. -/
def Points (next : α → Except ε (β ⊕ α)) (a target : α) : Prop := next a = .ok (.inr target)

/-- The chain from a place runs into a circle. -/
def Circles (next : α → Except ε (β ⊕ α)) (a : α) : Prop :=
  ∃ b, Relation.ReflTransGen (Points next) a b ∧ Relation.TransGen (Points next) b b

theorem Circles.points {a : α} (h : Circles next a) :
    ∃ target, Points next a target ∧ Circles next target := by
  obtain ⟨b, hreach, hcircle⟩ := h
  rcases Relation.ReflTransGen.cases_head hreach with rfl | ⟨target, hpoints, hrest⟩
  · obtain ⟨target, hpoints, hrest⟩ := Relation.TransGen.head'_iff.mp hcircle
    exact ⟨target, hpoints, a, hrest, hcircle⟩
  · exact ⟨target, hpoints, b, hrest, hcircle⟩

variable [DecidableEq α]

/-- `next` says of a place that it fails, that it is the end, or where it points to. -/
def follow (next : α → Except ε (β ⊕ α)) (loop : ε) : Nat → List α → α → Except ε β
  | 0, _, _ => .error loop
  | rounds + 1, visited, current =>
    if current ∈ visited then .error loop
    else
      match next current with
      | .error e => .error e
      | .ok (.inl result) => .ok result
      | .ok (.inr target) => follow next loop rounds (current :: visited) target

theorem leads_of_follow : ∀ {rounds : Nat} {visited : List α} {a : α} {b : β},
    follow next loop rounds visited a = .ok b → ∃ hops < rounds, Leads next hops a b
  | 0, _, _, _, h => by cases h
  | rounds + 1, visited, a, b, h => by
      rw [follow] at h
      split at h
      · cases h
      · cases hnext : next a with
        | error e =>
          rw [hnext] at h
          cases h
        | ok out =>
          rw [hnext] at h
          cases out with
          | inl result =>
            cases h
            exact ⟨0, Nat.succ_pos _, .stop hnext⟩
          | inr target =>
            obtain ⟨hops, hlt, hrest⟩ := leads_of_follow h
            exact ⟨hops + 1, Nat.succ_lt_succ hlt, .hop hnext hrest⟩

/-- What has been visited is farther from the end, so the chain never meets it. -/
theorem follow_of_leads {hops : Nat} {a : α} {b : β} (h : Leads next hops a b) :
    ∀ {rounds : Nat} {visited : List α}, hops < rounds →
      (∀ v ∈ visited, ∃ more > hops, Leads next more v b) →
      follow next loop rounds visited a = .ok b := by
  induction h with
  | stop hstop =>
    intro rounds visited hlt hvisited
    obtain ⟨rounds, rfl⟩ := Nat.exists_eq_succ_of_ne_zero (Nat.ne_of_gt hlt)
    rw [follow, if_neg, hstop]
    intro hmem
    obtain ⟨more, hmore, hleads⟩ := hvisited _ hmem
    exact absurd (hleads.unique (.stop hstop)).1 (Nat.ne_of_gt hmore)
  | @hop hops a target b hhop hrest ih =>
    intro rounds visited hlt hvisited
    obtain ⟨rounds, rfl⟩ := Nat.exists_eq_succ_of_ne_zero (by omega : rounds ≠ 0)
    have hnew : a ∉ visited := by
      intro hmem
      obtain ⟨more, hmore, hleads⟩ := hvisited _ hmem
      exact absurd (hleads.unique (.hop hhop hrest)).1 (Nat.ne_of_gt hmore)
    rw [follow, if_neg hnew, hhop]
    refine ih (Nat.lt_of_succ_lt_succ hlt) fun v hv => ?_
    rcases List.mem_cons.mp hv with rfl | hv
    · exact ⟨hops + 1, Nat.lt_succ_self _, .hop hhop hrest⟩
    · obtain ⟨more, hmore, hleads⟩ := hvisited v hv
      exact ⟨more, by omega, hleads⟩

/-- **Following finds every end within its rounds.** -/
theorem follow_iff {rounds : Nat} {a : α} {b : β} :
    follow next loop rounds [] a = .ok b ↔ ∃ hops < rounds, Leads next hops a b :=
  ⟨leads_of_follow, fun ⟨_, hlt, h⟩ => follow_of_leads h hlt (by simp)⟩

/-- **A circle is told**, after any number of rounds. -/
theorem follow_of_circles : ∀ (rounds : Nat) (visited : List α) {a : α}, Circles next a →
    follow next loop rounds visited a = .error loop
  | 0, _, _, _ => rfl
  | rounds + 1, visited, a, h => by
      obtain ⟨target, hpoints, hrest⟩ := h.points
      rw [follow]
      split
      · rfl
      · rw [show next a = .ok (.inr target) from hpoints]
        exact follow_of_circles rounds (a :: visited) hrest

end TuxStack.Following
