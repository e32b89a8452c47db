import Mathlib.Tactic.Common

/-!
# Programs that fail and keep their state

`Effects ε σ` is the monad of a function that changes a state through a reference
and may return an error: what was changed before the error stays changed. A run
gives the outcome and the state.

`Keeps v x` says that no run of `x`, good or bad, changes the part `v` of the
state, `Yields P x` that what a good run returns satisfies `P`, `Total x` that
every run is good.
-/

namespace TuxStack.Effect

variable {ε σ α β γ : Type}

/-- Early return with an error, over a state that survives it. -/
abbrev Effects (ε σ : Type) : Type → Type := ExceptT ε (StateM σ)

def exec (x : Effects ε σ α) (s : σ) : Except ε α × σ := x.run.run s

@[simp] theorem exec_pure (a : α) (s : σ) : exec (pure a : Effects ε σ α) s = (.ok a, s) := rfl

@[simp] theorem exec_throw (e : ε) (s : σ) :
    exec (throw e : Effects ε σ α) s = (.error e, s) := rfl

@[simp] theorem exec_modify (f : σ → σ) (s : σ) :
    exec (modify f : Effects ε σ Unit) s = (.ok (), f s) := rfl

@[simp] theorem exec_get (s : σ) : exec (get : Effects ε σ σ) s = (.ok s, s) := rfl

theorem exec_bind (x : Effects ε σ α) (f : α → Effects ε σ β) (s : σ) :
    exec (x >>= f) s =
      match exec x s with
      | (.ok a, s₁) => exec (f a) s₁
      | (.error e, s₁) => (.error e, s₁) := by
  change (ExceptT.bindCont f (x.run.run s).1 : StateM σ (Except ε β)).run (x.run.run s).2 = _
  unfold exec
  rcases x.run.run s with ⟨_ | a, s₁⟩
  · rfl
  · rfl

variable {x : Effects ε σ α} {f : α → Effects ε σ β}

theorem exec_bind_ok {s s₁ : σ} {a : α} (h : exec x s = (.ok a, s₁)) :
    exec (x >>= f) s = exec (f a) s₁ := by
  rw [exec_bind, h]

theorem exec_bind_error {s s₁ : σ} {e : ε} (h : exec x s = (.error e, s₁)) :
    exec (x >>= f) s = (.error e, s₁) := by
  rw [exec_bind, h]

theorem exec_ofExcept_bind (r : Except ε α) (f : α → Effects ε σ β) (s : σ) :
    exec (MonadExcept.ofExcept r >>= f) s =
      match r with
      | .ok a => exec (f a) s
      | .error e => (.error e, s) := by
  cases r with
  | ok a => rfl
  | error e => rfl

theorem exec_tryCatch (x : Effects ε σ α) (f : ε → Effects ε σ α) (s : σ) :
    exec (tryCatch x f) s =
      match exec x s with
      | (.ok a, s₁) => (.ok a, s₁)
      | (.error e, s₁) => exec (f e) s₁ := by
  simp only [exec, tryCatch, tryCatchThe, MonadExceptOf.tryCatch, ExceptT.tryCatch, ExceptT.run,
    ExceptT.mk, bind, StateT.bind, StateT.run]
  rcases x s with ⟨_ | a, s₁⟩
  · rfl
  · rfl

/-! ## What a program leaves alone -/

/-- No run changes `v` of the state. -/
def Keeps (v : σ → γ) (x : Effects ε σ α) : Prop := ∀ s, v (exec x s).2 = v s

variable {v : σ → γ}

theorem Keeps.pure (a : α) : Keeps v (pure a : Effects ε σ α) := fun _ => rfl

theorem Keeps.throw (e : ε) : Keeps v (throw e : Effects ε σ α) := fun _ => rfl

theorem Keeps.modify {f : σ → σ} (h : ∀ s, v (f s) = v s) :
    Keeps v (modify f : Effects ε σ Unit) := h

theorem Keeps.bind (hx : Keeps v x) (hf : ∀ a, Keeps v (f a)) : Keeps v (x >>= f) := by
  intro s
  have hs := hx s
  rw [exec_bind]
  rcases hrun : exec x s with ⟨_ | a, s₁⟩
  · rw [hrun] at hs
    exact hs
  · rw [hrun] at hs
    exact (hf a s₁).trans hs

theorem Keeps.tryCatch {f : ε → Effects ε σ α} (hx : Keeps v x) (hf : ∀ e, Keeps v (f e)) :
    Keeps v (tryCatch x f) := by
  intro s
  have hs := hx s
  rw [exec_tryCatch]
  rcases hrun : exec x s with ⟨e | a, s₁⟩
  · rw [hrun] at hs
    exact (hf e s₁).trans hs
  · rw [hrun] at hs
    exact hs

theorem Keeps.foldlM {f : β → α → Effects ε σ β} (hf : ∀ b a, Keeps v (f b a)) :
    ∀ (as : List α) (b : β), Keeps v (as.foldlM f b)
  | [], b => Keeps.pure b
  | a :: as, b => by
      rw [List.foldlM_cons]
      exact (hf b a).bind fun b' => Keeps.foldlM hf as b'

/-! ## What a program returns -/

/-- Good runs return a value with `P`. -/
def Yields (P : α → Prop) (x : Effects ε σ α) : Prop :=
  ∀ s a s₁, exec x s = (.ok a, s₁) → P a

variable {P : α → Prop} {Q : β → Prop}

theorem Yields.pure {a : α} (h : P a) : Yields P (pure a : Effects ε σ α) := by
  intro s a' s₁ hrun
  cases hrun
  exact h

theorem Yields.throw (e : ε) : Yields P (throw e : Effects ε σ α) := by
  intro s a s₁ hrun
  cases hrun

theorem Yields.bind (hx : Yields P x) (hf : ∀ a, P a → Yields Q (f a)) : Yields Q (x >>= f) := by
  intro s b s₂ hrun
  rw [exec_bind] at hrun
  rcases hfirst : exec x s with ⟨e | a, s₁⟩
  · rw [hfirst] at hrun
    cases hrun
  · rw [hfirst] at hrun
    exact hf a (hx s a s₁ hfirst) s₁ b s₂ hrun

theorem Yields.andThen (x : Effects ε σ α) (hf : ∀ a, Yields Q (f a)) : Yields Q (x >>= f) :=
  Yields.bind (P := fun _ => True) (fun _ _ _ _ => trivial) fun a _ => hf a

theorem Yields.tryCatch {f : ε → Effects ε σ α} (hx : Yields P x) (hf : ∀ e, Yields P (f e)) :
    Yields P (tryCatch x f) := by
  intro s a s₂ hrun
  rw [exec_tryCatch] at hrun
  rcases hfirst : exec x s with ⟨e | a', s₁⟩
  · rw [hfirst] at hrun
    exact hf e s₁ a s₂ hrun
  · rw [hfirst] at hrun
    cases hrun
    exact hx s a s₂ hfirst

theorem Yields.foldlM {f : β → α → Effects ε σ β} : ∀ (as : List α),
    (∀ b, ∀ a ∈ as, Q b → Yields Q (f b a)) → ∀ b, Q b → Yields Q (as.foldlM f b)
  | [], _, _, hb => Yields.pure hb
  | a :: as, hf, b, hb => by
      rw [List.foldlM_cons]
      exact (hf b a (by simp) hb).bind fun b' hb' =>
        Yields.foldlM as (fun b x hx => hf b x (List.mem_cons_of_mem a hx)) b' hb'

/-! ## Programs that do not fail -/

def Total (x : Effects ε σ α) : Prop := ∀ s, ∃ a s₁, exec x s = (.ok a, s₁)

theorem Total.pure (a : α) : Total (pure a : Effects ε σ α) := fun s => ⟨a, s, rfl⟩

theorem Total.bind (hx : Total x) (hf : ∀ a, Total (f a)) : Total (x >>= f) := by
  intro s
  obtain ⟨a, s₁, hrun⟩ := hx s
  rw [exec_bind_ok hrun]
  exact hf a s₁

theorem Total.tryCatch (x : Effects ε σ α) {f : ε → Effects ε σ α} (hf : ∀ e, Total (f e)) :
    Total (tryCatch x f) := by
  intro s
  rw [exec_tryCatch]
  rcases exec x s with ⟨e | a, s₁⟩
  · exact hf e s₁
  · exact ⟨a, s₁, rfl⟩

theorem Total.foldlM {f : β → α → Effects ε σ β} (hf : ∀ b a, Total (f b a)) :
    ∀ (as : List α) (b : β), Total (as.foldlM f b)
  | [], b => Total.pure b
  | a :: as, b => by
      rw [List.foldlM_cons]
      exact (hf b a).bind fun b' => Total.foldlM hf as b'

end TuxStack.Effect
