import Mathlib.Logic.Relation
import Mathlib.Tactic.Common

/-!
# Machines, runs and guarded runs

A machine is a set of initial states and a partial step function: `step s a`
is `none` when the action `a` is not enabled in `s`. Safety statements here
come in one of two shapes.

* `Reach ok s`: `s` is the last state of a run in which every step met the
  guard `ok`. The guard `fun _ _ => True` gives plain reachability.
* `AllStates P s as` / `AllSteps ok s as`: along the one run that the actions
  `as` give from `s`, every state satisfies `P` / every step meets `ok`.

`Reach.invariant` is the induction rule for the first, `allStates_iff_allSteps`
compares the two for a guard that is exactly what keeps an invariant alive.

`Guards` is about operations behind a guard: they leave the state alone or take their step.
-/

namespace TuxStack.Runs

structure Machine (σ α : Type*) where
  init : σ → Prop
  step : σ → α → Option σ

namespace Machine

variable {σ α : Type*} (M : Machine σ α)

/-- States reached by runs whose every step meets `ok`. -/
inductive Reach (ok : σ → α → Prop) : σ → Prop where
  | init {s : σ} (h : M.init s) : Reach ok s
  | step {s s' : σ} {a : α} (hr : Reach ok s) (hok : ok s a)
      (hs : M.step s a = some s') : Reach ok s'

variable {M}

/-- **The invariant rule**: what holds initially and survives every guarded
step holds in every state a guarded run reaches. -/
theorem Reach.invariant {ok : σ → α → Prop} {I : σ → Prop}
    (hinit : ∀ s, M.init s → I s)
    (hstep : ∀ s a s', I s → ok s a → M.step s a = some s' → I s')
    {s : σ} (h : M.Reach ok s) : I s := by
  induction h with
  | init h => exact hinit _ h
  | step _ hok hs ih => exact hstep _ _ _ ih hok hs

variable (M)

/-- Execute a list of actions; `none` when one of them is not enabled. -/
def exec : σ → List α → Option σ
  | s, [] => some s
  | s, a :: as => (M.step s a).bind fun s' => exec s' as

/-- Every state along the run of `as` from `s` satisfies `P`. -/
def AllStates (P : σ → Prop) : σ → List α → Prop
  | s, [] => P s
  | s, a :: as => P s ∧ ∀ s', M.step s a = some s' → AllStates P s' as

/-- Every step along the run of `as` from `s` meets `ok`. -/
def AllSteps (ok : σ → α → Prop) : σ → List α → Prop
  | _, [] => True
  | s, a :: as => ok s a ∧ ∀ s', M.step s a = some s' → AllSteps ok s' as

/-- A run can be checked step by step. -/
instance decidableAllSteps (ok : σ → α → Prop) [∀ s a, Decidable (ok s a)] :
    ∀ (s : σ) (as : List α), Decidable (M.AllSteps ok s as)
  | _, [] => inferInstanceAs (Decidable True)
  | s, a :: as =>
    have := fun s' => decidableAllSteps ok s' as
    inferInstanceAs (Decidable (ok s a ∧ ∀ s' ∈ M.step s a, M.AllSteps ok s' as))

variable {M}

theorem reach_of_exec {ok : σ → α → Prop} :
    ∀ {as : List α} {s s' : σ}, M.Reach ok s → M.AllSteps ok s as →
      M.exec s as = some s' → M.Reach ok s'
  | [], _, _, hr, _, he => by
      cases he
      exact hr
  | a :: as, s, s', hr, hok, he => by
      obtain ⟨s₁, hs, he⟩ := Option.bind_eq_some_iff.mp he
      exact reach_of_exec (.step hr hok.1 hs) (hok.2 s₁ hs) he

variable (M) in
/-- A guarded step leads from one state to the other. -/
def Steps (ok : σ → α → Prop) (s s' : σ) : Prop := ∃ a, ok s a ∧ M.step s a = some s'

/-- **The simulation rule**: where guarded steps of another machine match every guarded step,
they match every guarded run. -/
theorem Reach.simulated {τ β : Type*} {N : Machine τ β} {ok : σ → α → Prop}
    {ok' : τ → β → Prop} {R : σ → τ → Prop} (hinit : ∀ s, M.init s → ∃ t, N.init t ∧ R s t)
    (hstep : ∀ s a s' t, R s t → ok s a → M.step s a = some s' →
      ∃ t', Relation.ReflTransGen (N.Steps ok') t t' ∧ R s' t')
    {s : σ} (h : M.Reach ok s) : ∃ t, N.Reach ok' t ∧ R s t := by
  induction h with
  | init h =>
    obtain ⟨t, ht, hrel⟩ := hinit _ h
    exact ⟨t, .init ht, hrel⟩
  | step _ hok hs ih =>
    obtain ⟨t, ht, hrel⟩ := ih
    obtain ⟨t', hsteps, hrel'⟩ := hstep _ _ _ t hrel hok hs
    refine ⟨t', ?_, hrel'⟩
    clear hrel'
    induction hsteps with
    | refl => exact ht
    | tail _ hlast ih =>
      obtain ⟨a, hok, hs⟩ := hlast
      exact .step ih hok hs

theorem exec_cons {s s' : σ} {a : α} (h : M.step s a = some s') (as : List α) :
    M.exec s (a :: as) = M.exec s' as := by
  rw [exec, h, Option.bind_some]

theorem exec_append : ∀ (as bs : List α) (s : σ),
    M.exec s (as ++ bs) = (M.exec s as).bind fun s' => M.exec s' bs
  | [], _, _ => rfl
  | a :: as, bs, s => by
      show (M.step s a).bind (fun s' => M.exec s' (as ++ bs)) = _
      rw [exec, Option.bind_assoc]
      congr 1
      funext s'
      exact exec_append as bs s'

/-- **The invariant rule for one execution**: what the allowed actions keep, an execution
of allowed actions keeps. -/
theorem exec_invariant {ok : α → Prop} {I : σ → Prop}
    (hstep : ∀ s a s', I s → ok a → M.step s a = some s' → I s') :
    ∀ {as : List α} {s s' : σ}, (∀ a ∈ as, ok a) → M.exec s as = some s' → I s → I s'
  | [], _, _, _, he, hi => by
      cases he
      exact hi
  | a :: as, s, s', hok, he, hi => by
      obtain ⟨s₁, hs, he⟩ := Option.bind_eq_some_iff.mp he
      have hi₁ := hstep s a s₁ hi (hok a List.mem_cons_self) hs
      exact exec_invariant hstep (fun b hb => hok b (List.mem_cons_of_mem _ hb)) he hi₁

theorem allSteps_of_forall {ok : σ → α → Prop} (h : ∀ s a, ok s a) :
    ∀ (as : List α) (s : σ), M.AllSteps ok s as
  | [], _ => trivial
  | a :: as, s => ⟨h s a, fun s' _ => allSteps_of_forall h as s'⟩

theorem reach_of_run {as : List α} {s s' : σ} (hinit : M.init s) (he : M.exec s as = some s') :
    M.Reach (fun _ _ => True) s' :=
  reach_of_exec (.init hinit) (allSteps_of_forall (fun _ _ => trivial) as s) he

theorem AllSteps.imp {ok ok' : σ → α → Prop} (h : ∀ s a, ok s a → ok' s a) :
    ∀ {as : List α} {s : σ}, M.AllSteps ok s as → M.AllSteps ok' s as
  | [], _, _ => trivial
  | a :: _, s, hs => ⟨h s a hs.1, fun s' hstep => (hs.2 s' hstep).imp h⟩

/-- What every guarded step keeps allows another guard all along a run. -/
theorem AllSteps.of_invariant {ok ok' : σ → α → Prop} {P : σ → Prop}
    (himp : ∀ s a, P s → ok s a → ok' s a)
    (hkeep : ∀ s a s', P s → ok s a → M.step s a = some s' → P s') :
    ∀ {as : List α} {s : σ}, M.AllSteps ok s as → P s → M.AllSteps ok' s as
  | [], _, _, _ => trivial
  | a :: _, s, hs, hP => ⟨himp s a hP hs.1, fun s' hstep =>
      (hs.2 s' hstep).of_invariant himp hkeep (hkeep s a s' hP hs.1 hstep)⟩

/-- Two step properties that agree in `P`-states agree along whole runs, when
steps with the property stay in `P`. -/
theorem allSteps_iff_allSteps {ok ok' : σ → α → Prop} {P : σ → Prop}
    (hiff : ∀ s a, P s → (ok s a ↔ ok' s a))
    (hkeep : ∀ s a s', P s → ok' s a → M.step s a = some s' → P s')
    {as : List α} {s : σ} (hP : P s) : M.AllSteps ok s as ↔ M.AllSteps ok' s as := by
  constructor
  · intro hs
    refine hs.of_invariant (fun s a hP => (hiff s a hP).mp) (fun s a s' hP hok => ?_) hP
    exact hkeep s a s' hP ((hiff s a hP).mp hok)
  · intro hs
    exact hs.of_invariant (fun s a hP => (hiff s a hP).mpr) hkeep hP

/-- **Exact guards**: let `J` be kept by every step. When, in `J`-states, a
guarded step keeps `P` and an unguarded one destroys it, a run from a `P`-state
stays in `P` exactly when all its steps meet the guard. The last hypothesis
excludes guards that only fail on disabled actions. -/
theorem allStates_iff_allSteps {ok : σ → α → Prop} {J P : σ → Prop}
    (hJ : ∀ s a s', J s → M.step s a = some s' → J s')
    (hkeep : ∀ s a s', J s → P s → ok s a → M.step s a = some s' → P s')
    (hbreak : ∀ s a s', J s → P s → ¬ ok s a → M.step s a = some s' → ¬ P s')
    (henabled : ∀ s a, ¬ ok s a → ∃ s', M.step s a = some s') :
    ∀ {as : List α} {s : σ}, J s → P s → (M.AllStates P s as ↔ M.AllSteps ok s as)
  | [], s, _, hP => ⟨fun _ => trivial, fun _ => hP⟩
  | a :: as, s, hj, hP => by
      have head : ∀ s', M.AllStates P s' as → P s' := by
        intro s' h
        cases as with
        | nil => exact h
        | cons b bs => exact h.1
      constructor
      · rintro ⟨-, hrest⟩
        have hok : ok s a := by
          by_contra hno
          obtain ⟨s', hs⟩ := henabled s a hno
          exact hbreak s a s' hj hP hno hs (head s' (hrest s' hs))
        refine ⟨hok, fun s' hs => ?_⟩
        exact (allStates_iff_allSteps hJ hkeep hbreak henabled (hJ s a s' hj hs)
          (hkeep s a s' hj hP hok hs)).mp (hrest s' hs)
      · rintro ⟨hok, hrest⟩
        refine ⟨hP, fun s' hs => ?_⟩
        exact (allStates_iff_allSteps hJ hkeep hbreak henabled (hJ s a s' hj hs)
          (hkeep s a s' hj hP hok hs)).mpr (hrest s' hs)

end Machine

/-! ## Logs -/

section Logs

variable {α : Type*} {log : List α} {entry found : α} {i : Nat}

theorem getElem?_concat (h : (log ++ [entry])[i]? = some found) :
    log[i]? = some found ∨ (i = log.length ∧ found = entry) := by
  rcases Nat.lt_trichotomy i log.length with hlt | heq | hgt
  · rw [List.getElem?_append_left hlt] at h
    exact .inl h
  · rw [heq, List.getElem?_concat_length, Option.some.injEq] at h
    exact .inr ⟨heq, h.symm⟩
  · rw [List.getElem?_eq_none (by simp; omega)] at h
    cases h

theorem getElem?_of_concat (h : log[i]? = some found) : (log ++ [entry])[i]? = some found := by
  rw [List.getElem?_append_left (List.getElem?_eq_some_iff.mp h).1, h]

end Logs

end TuxStack.Runs

namespace TuxStack.Guards

variable {σ α β : Type} {c : Prop} [Decidable c] {x y : α × σ}

theorem guarded {P : σ → Prop} (hrefused : P x.2) (htaken : ¬ c → P y.2) :
    P (if c then x else y).2 := by
  split
  · exact hrefused
  · next hfree => exact htaken hfree

/-- A part of the state that neither end touches. -/
theorem same {f : σ → β} {b : β} (hrefused : f x.2 = b) (htaken : f y.2 = b) :
    f (if c then x else y).2 = b :=
  guarded (P := fun t => f t = b) hrefused fun _ => htaken

/-- An operation that answers `false` when it refuses, and only then. -/
theorem refused {s t : σ} (h : (if c then (false, s) else (true, t)).1 = false) :
    (if c then (false, s) else (true, t)).2 = s := by
  split at h
  · next hrefused => rw [if_pos hrefused]
  · cases h

end TuxStack.Guards
