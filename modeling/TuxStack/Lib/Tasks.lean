import TuxStack.Lib.Runs

/-!
# Concurrent tasks over a shared state

A program has calls and steps: a call makes a task, a step takes one task on and may change
the shared state. Any number of tasks run at once, and any of them may take the next step.

`reach_invariant` is the rule of rely and guarantee: a statement about the shared state and
one task is kept when the task's own steps keep it and the steps of the others do.
-/

namespace TuxStack.Tasks

open Runs

/-- `advance s i t a` is the step of the task `t`, which has the number `i`, when it is
answered `a`; it is `none` when there is no such step. -/
structure Program (σ τ κ α : Type*) where
  spawn : σ → κ → τ
  advance : σ → Nat → τ → α → Option (σ × τ)

structure Pool (σ τ : Type*) where
  core : σ
  tasks : Nat → Option τ

inductive Action (κ α : Type*) where
  | call (i : Nat) (call : κ)
  | advance (i : Nat) (answer : α)

variable {σ τ κ α : Type*}

namespace Pool

def put (s : Pool σ τ) (i : Nat) (core : σ) (task : τ) : Pool σ τ where
  core := core
  tasks := Function.update s.tasks i (some task)

theorem tasks_put (s : Pool σ τ) (i j : Nat) (core : σ) (task : τ) :
    (s.put i core task).tasks j = if j = i then some task else s.tasks j := by
  show Function.update s.tasks i (some task) j = _
  rw [Function.update_apply]

theorem tasks_put_self (s : Pool σ τ) (i : Nat) (core : σ) (task : τ) :
    (s.put i core task).tasks i = some task :=
  Function.update_self ..

/-- **What holds of every task**, when a step of one task keeps it for the others. -/
theorem forall_put {s : Pool σ τ} {i : Nat} {core : σ} {task : τ} {P : Nat → τ → Prop}
    (hothers : ∀ j t, j ≠ i → s.tasks j = some t → P j t) (hself : P i task) :
    ∀ j t, (s.put i core task).tasks j = some t → P j t := by
  intro j t h
  rw [tasks_put] at h
  split at h
  · next hj =>
    cases h
    exact hj ▸ hself
  · next hj => exact hothers j t hj h

end Pool

namespace Program

variable (P : Program σ τ κ α)

def step (s : Pool σ τ) : Action κ α → Option (Pool σ τ)
  | .call i call =>
    match s.tasks i with
    | some _ => none
    | none => some (s.put i s.core (P.spawn s.core call))
  | .advance i answer =>
    (s.tasks i).bind fun task =>
      (P.advance s.core i task answer).map fun out => s.put i out.1 out.2

def machine (init : σ → Prop) : Machine (Pool σ τ) (Action κ α) where
  init s := init s.core ∧ s.tasks = fun _ => none
  step := P.step

variable {P} {s s' : Pool σ τ} {i : Nat}

theorem step_call {call : κ} (h : P.step s (.call i call) = some s') :
    s.tasks i = none ∧ s' = s.put i s.core (P.spawn s.core call) := by
  unfold step at h
  dsimp only at h
  split at h
  · cases h
  · next hfree =>
    cases h
    exact ⟨hfree, rfl⟩

theorem step_advance {answer : α} (h : P.step s (.advance i answer) = some s') :
    ∃ task core task', s.tasks i = some task ∧
      P.advance s.core i task answer = some (core, task') ∧ s' = s.put i core task' := by
  obtain ⟨task, htask, h⟩ := Option.bind_eq_some_iff.mp h
  obtain ⟨⟨core, task'⟩, hadvance, rfl⟩ := Option.map_eq_some_iff.mp h
  exact ⟨task, core, task', htask, hadvance, rfl⟩

theorem step_of_advance {answer : α} {task task' : τ} {core : σ} (htask : s.tasks i = some task)
    (hadvance : P.advance s.core i task answer = some (core, task')) :
    P.step s (.advance i answer) = some (s.put i core task') := by
  show ((s.tasks i).bind fun task =>
    (P.advance s.core i task answer).map fun out => s.put i out.1 out.2) = _
  rw [htask, Option.bind_some, hadvance]
  rfl

theorem step_of_call {call : κ} (hfree : s.tasks i = none) :
    P.step s (.call i call) = some (s.put i s.core (P.spawn s.core call)) := by
  show (match s.tasks i with
    | some _ => none
    | none => some (s.put i s.core (P.spawn s.core call))) = _
  rw [hfree]

theorem present_kept {a : Action κ α} (hstep : P.step s a = some s') (h : s.tasks i ≠ none) :
    s'.tasks i ≠ none := by
  have hput : ∀ k core task, (s.put k core task).tasks i ≠ none := by
    intro k core task
    rw [Pool.tasks_put]
    split
    · exact Option.some_ne_none task
    · exact h
  cases a with
  | call k call =>
    obtain ⟨-, rfl⟩ := step_call hstep
    exact hput _ _ _
  | advance k answer =>
    obtain ⟨-, core, task, -, -, rfl⟩ := step_advance hstep
    exact hput _ _ _

theorem free_of_exec {init : σ → Prop} {as : List (Action κ α)}
    (hexec : (P.machine init).exec s as = some s') (h : s'.tasks i = none) :
    s.tasks i = none := by
  by_contra hpresent
  refine Machine.exec_invariant (I := fun s : Pool σ τ => s.tasks i ≠ none)
    (fun s a s' hs (_ : True) hstep => present_kept hstep hs) (fun _ _ => trivial) hexec hpresent h

section Reach

variable {init : σ → Prop} {ok : Pool σ τ → Action κ α → Prop}

theorem reach_call (h : (P.machine init).Reach ok s) (i : Nat) (call : κ)
    (hok : ok s (.call i call)) (hfree : s.tasks i = none) :
    (P.machine init).Reach ok (s.put i s.core (P.spawn s.core call)) :=
  h.step hok (step_of_call hfree)

theorem reach_advance (h : (P.machine init).Reach ok s) (i : Nat) (answer : α)
    (hok : ok s (.advance i answer)) {task task' : τ} {core : σ}
    (htask : s.tasks i = some task) (hstep : P.advance s.core i task answer = some (core, task')) :
    (P.machine init).Reach ok (s.put i core task') :=
  h.step hok (step_of_advance htask hstep)

/-- **Rely and guarantee.** `C` holds of the shared state and `T` of every task in it, when
both hold in the beginning, the step of a task keeps both for itself, and keeps `T` for the
other tasks. -/
theorem reach_invariant {C : σ → Prop} {T : σ → Nat → τ → Prop} (hinit : ∀ s, init s → C s)
    (hcall : ∀ s i call, C s → T s i (P.spawn s call))
    (hself : ∀ s s' i t t' a, C s → T s i t → P.advance s i t a = some (s', t') →
      C s' ∧ T s' i t')
    (hother : ∀ s s' i t t' a j u, C s → T s i t → T s j u → j ≠ i →
      P.advance s i t a = some (s', t') → T s' j u)
    (h : (P.machine init).Reach ok s) :
    C s.core ∧ ∀ i t, s.tasks i = some t → T s.core i t := by
  refine h.invariant (I := fun s => C s.core ∧ ∀ i t, s.tasks i = some t → T s.core i t) ?_ ?_
  · rintro s ⟨hs, htasks⟩
    refine ⟨hinit _ hs, fun i t ht => ?_⟩
    rw [htasks] at ht
    cases ht
  · rintro s a s' ⟨hC, hT⟩ - hstep
    cases a with
    | call i call =>
      obtain ⟨-, rfl⟩ := step_call hstep
      exact ⟨hC, Pool.forall_put (fun j t _ hj => hT j t hj) (hcall _ _ _ hC)⟩
    | advance i answer =>
      obtain ⟨task, core, task', htask, hadvance, rfl⟩ := step_advance hstep
      obtain ⟨hC', hT'⟩ := hself _ _ _ _ _ _ hC (hT i task htask) hadvance
      refine ⟨hC', Pool.forall_put (fun j t hne hj => ?_) hT'⟩
      exact hother _ _ _ _ _ _ _ _ hC (hT i task htask) (hT j t hj) hne hadvance

end Reach

end Program

end TuxStack.Tasks
