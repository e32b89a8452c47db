import Mathlib.Data.List.Pairwise
import Mathlib.Data.List.ReduceOption
import TuxStack.Lib.Result

/-!
# Distinct keys along a list

A pass over a list that looks at one element after the other: an element is refused, or has a
key, or has none, and a key that was met before is refused as well. What the pass accepts is
said without its set of keys (`pass_eq_ok`): every element is accepted, and the keys are
pairwise different.
-/

namespace TuxStack.DistinctKeys

open Result

variable {α κ ε : Type} [DecidableEq κ]

/-- The pass, with the keys that were met before. -/
def passFrom (look : α → Except ε (Option κ)) (duplicate : α → ε) :
    List κ → List α → Except ε Unit
  | _, [] => .ok ()
  | seen, a :: as => do
      match ← look a with
      | none => passFrom look duplicate seen as
      | some key =>
        if key ∈ seen then throw (duplicate a)
        passFrom look duplicate (key :: seen) as

def pass (look : α → Except ε (Option κ)) (duplicate : α → ε) (as : List α) : Except ε Unit :=
  passFrom look duplicate [] as

variable {look : α → Except ε (Option κ)} {duplicate : α → ε}

variable {as : List α} {a : α}

theorem passFrom_none (seen : List κ) (as : List α) (h : look a = .ok none) :
    passFrom look duplicate seen (a :: as) = passFrom look duplicate seen as := by
  rw [passFrom, h]
  rfl

theorem passFrom_some {key : κ} (seen : List κ) (as : List α) (h : look a = .ok (some key)) :
    passFrom look duplicate seen (a :: as) =
      if key ∈ seen then .error (duplicate a) else passFrom look duplicate (key :: seen) as := by
  rw [passFrom, h]
  show (if key ∈ seen then _ else _) = _
  split
  · rfl
  · rfl

theorem passFrom_error {e : ε} (seen : List κ) (as : List α) (h : look a = .error e) :
    passFrom look duplicate seen (a :: as) = .error e := by
  rw [passFrom, h]
  rfl

/-- What the pass accepts after the keys that it has met. -/
theorem passFrom_eq_ok : ∀ {seen : List κ},
    passFrom look duplicate seen as = .ok () ↔
      ∃ keys, List.Forall₂ (fun a key => look a = .ok key) as keys ∧ keys.reduceOption.Nodup ∧
        ∀ key ∈ keys.reduceOption, key ∉ seen := by
  induction as with
  | nil =>
    intro seen
    refine iff_of_true rfl ⟨[], .nil, ?_, ?_⟩
    · exact List.nodup_nil
    · simp
  | cons a as ih =>
    intro seen
    cases hlook : look a with
    | error e =>
      rw [passFrom_error seen as hlook]
      constructor
      · intro h
        cases h
      · rintro ⟨keys, hkeys, -⟩
        cases hkeys with
        | cons ha _ => rw [hlook] at ha; cases ha
    | ok found =>
      cases found with
      | none =>
        rw [passFrom_none seen as hlook, ih]
        constructor
        · rintro ⟨keys, hkeys, hnodup, hseen⟩
          exact ⟨none :: keys, .cons hlook hkeys, hnodup, hseen⟩
        · rintro ⟨keys, hkeys, hnodup, hseen⟩
          cases hkeys with
          | cons ha hkeys =>
            rw [hlook] at ha
            cases ha
            exact ⟨_, hkeys, hnodup, hseen⟩
      | some key =>
        rw [passFrom_some seen as hlook]
        constructor
        · intro h
          split at h
          · cases h
          · next hnew =>
            obtain ⟨keys, hkeys, hnodup, hseen⟩ := ih.mp h
            refine ⟨some key :: keys, .cons hlook hkeys, ?_, ?_⟩
            · rw [List.reduceOption_cons_of_some, List.nodup_cons]
              exact ⟨fun hmem => hseen key hmem List.mem_cons_self, hnodup⟩
            · rw [List.reduceOption_cons_of_some, List.forall_mem_cons]
              exact ⟨hnew, fun other hmem hold =>
                hseen other hmem (List.mem_cons_of_mem _ hold)⟩
        · rintro ⟨keys, hkeys, hnodup, hseen⟩
          cases hkeys with
          | cons ha hkeys =>
            rw [hlook] at ha
            cases ha
            rw [List.reduceOption_cons_of_some] at hnodup hseen
            rw [List.nodup_cons] at hnodup
            rw [List.forall_mem_cons] at hseen
            rw [if_neg hseen.1, ih]
            refine ⟨_, hkeys, hnodup.2, fun other hmem => ?_⟩
            rw [List.mem_cons, not_or]
            exact ⟨fun heq => hnodup.1 (heq ▸ hmem), hseen.2 other hmem⟩

/-- **What a pass accepts**: elements that are all accepted, with keys of their own. -/
theorem pass_eq_ok : pass look duplicate as = .ok () ↔
    ∃ keys, List.Forall₂ (fun a key => look a = .ok key) as keys ∧ keys.reduceOption.Nodup := by
  rw [pass, passFrom_eq_ok]
  simp

theorem ok_of_pass (h : pass look duplicate as = .ok ()) : ∀ a ∈ as, ∃ key, look a = .ok key := by
  obtain ⟨keys, hkeys, -⟩ := pass_eq_ok.mp h
  clear h
  induction hkeys with
  | nil => simp
  | cons ha _ ih => exact List.forall_mem_cons.mpr ⟨⟨_, ha⟩, ih⟩

/-- **The keys of what a pass accepts are pairwise different.** -/
theorem nodup_of_pass (key : α → Option κ) (hkey : ∀ a found, look a = .ok found → found = key a)
    (h : pass look duplicate as = .ok ()) : (as.filterMap key).Nodup := by
  obtain ⟨keys, hkeys, hnodup⟩ := pass_eq_ok.mp h
  have hsame : keys = as.map key := by
    clear h hnodup
    induction hkeys with
    | nil => rfl
    | cons ha _ ih => rw [List.map_cons, ← hkey _ _ ha, ← ih]
  rwa [hsame, List.reduceOption, List.filterMap_map] at hnodup

end TuxStack.DistinctKeys
