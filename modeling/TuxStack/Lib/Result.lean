import Mathlib.Data.List.Forall2

/-!
# Fallible and stateful computations

Inversion and relational rules for `Except`-valued do blocks, plain and with a
state.

* `bind_eq_ok`, `run_bind_eq_ok`: a bind that ends well is a first part that
  ended well and a rest that did.
* `Sim R x y`: run in states related by `R`, the computations `x` and `y` give
  the same value and related states, or the same error. `Sim` is closed under
  sequencing, so a program simulates itself as soon as its primitives do.
-/

namespace TuxStack.Result

universe u v

variable {ε : Type u} {α β : Type v}

theorem bind_eq_ok {first : Except ε α} {rest : α → Except ε β} {b : β} :
    first >>= rest = .ok b ↔ ∃ a, first = .ok a ∧ rest a = .ok b := by
  cases hfirst : first with
  | error e => exact ⟨fun h => (by cases h), fun ⟨_, h, _⟩ => (by cases h)⟩
  | ok a =>
    refine ⟨fun h => ⟨a, rfl, h⟩, ?_⟩
    rintro ⟨a', ha, h⟩
    cases ha
    exact h

theorem exists_ok_of_isOk {x : Except ε α} (h : x.isOk = true) : ∃ a, x = .ok a := by
  cases x with
  | error e => cases h
  | ok a => exact ⟨a, rfl⟩

theorem toOption_eq_some {x : Except ε α} {a : α} : x.toOption = some a ↔ x = .ok a := by
  cases x <;> simp [Except.toOption]

theorem forM_eq_ok {f : α → Except ε PUnit} : ∀ {as : List α},
    as.forM f = .ok ⟨⟩ ↔ ∀ a ∈ as, f a = .ok ⟨⟩
  | [] => iff_of_true rfl (by simp)
  | a :: as => by
      rw [List.forM_eq_forM, List.forM_cons, bind_eq_ok, List.forall_mem_cons]
      constructor
      · rintro ⟨⟨⟩, ha, has⟩
        exact ⟨ha, forM_eq_ok.mp has⟩
      · rintro ⟨ha, has⟩
        exact ⟨⟨⟩, ha, forM_eq_ok.mpr has⟩

theorem mapM_eq_ok {f : α → Except ε β} : ∀ {as : List α} {bs : List β},
    as.mapM f = .ok bs ↔ List.Forall₂ (fun a b => f a = .ok b) as bs
  | [], bs => by
      constructor
      · intro h
        cases h
        exact .nil
      · intro h
        cases h
        rfl
  | a :: as, bs => by
      rw [List.mapM_cons]
      constructor
      · intro h
        obtain ⟨b, hb, hrest⟩ := bind_eq_ok.mp h
        obtain ⟨bs', hbs, hend⟩ := bind_eq_ok.mp hrest
        cases hend
        exact .cons hb (mapM_eq_ok.mp hbs)
      · intro h
        cases h with
        | cons hb hbs =>
          exact bind_eq_ok.mpr ⟨_, hb, bind_eq_ok.mpr ⟨_, mapM_eq_ok.mpr hbs, rfl⟩⟩

theorem exists_mapM_ok {f : α → Except ε β} : ∀ {as : List α},
    (∀ a ∈ as, ∃ b, f a = .ok b) → ∃ bs, as.mapM f = .ok bs
  | [], _ => ⟨[], rfl⟩
  | a :: as, h => by
      obtain ⟨b, hb⟩ := h a (by simp)
      obtain ⟨bs, hbs⟩ := @exists_mapM_ok f as fun x hx =>
        h x (List.mem_cons_of_mem a hx)
      exact ⟨b :: bs, mapM_eq_ok.mpr (.cons hb (mapM_eq_ok.mp hbs))⟩

theorem foldlM_invariant {f : β → α → Except ε β} (P : β → Prop) : ∀ {as : List α} {b b' : β},
    (∀ a ∈ as, ∀ b b', P b → f b a = .ok b' → P b') → P b → as.foldlM f b = .ok b' → P b'
  | [], b, b', _, hb, h => by
      cases h
      exact hb
  | a :: as, b, b', hstep, hb, h => by
      rw [List.foldlM_cons] at h
      obtain ⟨mid, hmid, hrest⟩ := bind_eq_ok.mp h
      exact foldlM_invariant P (fun x hx => hstep x (List.mem_cons_of_mem a hx))
        (hstep a (by simp) b mid hb hmid) hrest

/-- A fold whose every step succeeds, keeps what the accumulator has and adds
the step's own, collects what all steps add. -/
theorem foldlM_collects {γ : Type*} {f : β → α → Except ε β} (has : β → γ → Prop)
    {adds : α → γ → Prop} : ∀ {as : List α},
    (∀ a ∈ as, ∀ b, ∃ b', f b a = .ok b' ∧ ∀ x, has b x ∨ adds a x → has b' x) →
    ∀ b, ∃ b', as.foldlM f b = .ok b' ∧ ∀ x, (has b x ∨ ∃ a ∈ as, adds a x) → has b' x
  | [], _, b => ⟨b, rfl, by simp⟩
  | a :: as, h, b => by
      obtain ⟨b₁, hb₁, hkeep⟩ := h a (by simp) b
      obtain ⟨b₂, hb₂, hrest⟩ := foldlM_collects has
        (fun x hx => h x (List.mem_cons_of_mem a hx)) b₁
      refine ⟨b₂, ?_, ?_⟩
      · rw [List.foldlM_cons, hb₁]
        exact hb₂
      · rintro x (hx | ⟨a', ha', hx⟩)
        · exact hrest x (.inl (hkeep x (.inl hx)))
        · rcases List.mem_cons.mp ha' with rfl | ha'
          · exact hrest x (.inl (hkeep x (.inr hx)))
          · exact hrest x (.inr ⟨a', ha', hx⟩)

theorem exists_of_mem_left {R : α → β → Prop} {as : List α} {bs : List β}
    (h : List.Forall₂ R as bs) {a : α} (ha : a ∈ as) : ∃ b ∈ bs, R a b := by
  induction h with
  | nil => cases ha
  | cons hab _ ih =>
    rcases List.mem_cons.mp ha with rfl | ha
    · exact ⟨_, by simp, hab⟩
    · obtain ⟨b, hmem, hb⟩ := ih ha
      exact ⟨b, by simp [hmem], hb⟩

theorem mem_of_mapM_ok {f : α → Except ε β} {as : List α} {bs : List β}
    (h : as.mapM f = .ok bs) {a : α} (ha : a ∈ as) : ∃ b ∈ bs, f a = .ok b :=
  exists_of_mem_left (mapM_eq_ok.mp h) ha

theorem exists_of_mem_mapM_ok {f : α → Except ε β} {as : List α} {bs : List β}
    (h : as.mapM f = .ok bs) {b : β} (hb : b ∈ bs) : ∃ a ∈ as, f a = .ok b :=
  exists_of_mem_left (mapM_eq_ok.mp h).flip hb

/-- What a result shows of its argument, all results show of all arguments. -/
theorem map_eq_of_mapM_ok {γ : Type*} {f : α → Except ε β} {g : α → γ} {k : β → γ}
    {as : List α} {bs : List β} (hf : ∀ a b, a ∈ as → f a = .ok b → g a = k b)
    (h : as.mapM f = .ok bs) : as.map g = bs.map k := by
  induction mapM_eq_ok.mp h with
  | nil => rfl
  | cons ha has ih =>
    rw [List.map_cons, List.map_cons, hf _ _ (by simp) ha,
      ih (fun a b hmem => hf a b (List.mem_cons_of_mem _ hmem)) (mapM_eq_ok.mpr has)]

theorem mapM_eq_some_filterMap {f : α → Option β} : ∀ {as : List α},
    (∀ a ∈ as, (f a).isSome = true) → as.mapM f = some (as.filterMap f)
  | [], _ => rfl
  | a :: as, h => by
      obtain ⟨b, hb⟩ := Option.isSome_iff_exists.mp (h a (by simp))
      have hrest := mapM_eq_some_filterMap fun a' ha' => h a' (List.mem_cons_of_mem _ ha')
      rw [List.mapM_cons, hb, hrest, List.filterMap_cons_some hb]
      rfl

variable {σ τ : Type v}

theorem run_bind_eq_ok {x : StateT σ (Except ε) α} {f : α → StateT σ (Except ε) β} {s : σ}
    {b : β} {s' : σ} :
    (x >>= f) s = .ok (b, s') ↔ ∃ a s₁, x s = .ok (a, s₁) ∧ f a s₁ = .ok (b, s') := by
  change (x s >>= fun r => f r.1 r.2) = .ok (b, s') ↔ _
  rw [bind_eq_ok]
  constructor
  · rintro ⟨⟨a, s₁⟩, hx, hf⟩
    exact ⟨a, s₁, hx, hf⟩
  · rintro ⟨a, s₁, hx, hf⟩
    exact ⟨(a, s₁), hx, hf⟩

theorem run_bind_of_ok {x : StateT σ (Except ε) α} {f : α → StateT σ (Except ε) β} {s s₁ : σ}
    {a : α} (h : x s = .ok (a, s₁)) : (x >>= f) s = f a s₁ := by
  change (x s >>= fun r => f r.1 r.2) = _
  rw [h]
  rfl

theorem run_bind_congr {x : StateT σ (Except ε) α} {f g : α → StateT σ (Except ε) β} {s : σ}
    (h : ∀ a s₁, x s = .ok (a, s₁) → f a s₁ = g a s₁) : (x >>= f) s = (x >>= g) s := by
  change (x s >>= fun r => f r.1 r.2) = (x s >>= fun r => g r.1 r.2)
  cases hx : x s with
  | error e => rfl
  | ok r => exact h r.1 r.2 hx

/-! ## Simulation -/

/-- Outcomes that agree: equal values with related states, or equal errors. -/
def Agree (R : σ → τ → Prop) : Except ε (α × σ) → Except ε (α × τ) → Prop
  | .ok (a, s), .ok (b, t) => a = b ∧ R s t
  | .error e, .error e' => e = e'
  | _, _ => False

/-- `x` and `y` agree on related states. -/
def Sim (R : σ → τ → Prop) (x : StateT σ (Except ε) α) (y : StateT τ (Except ε) α) : Prop :=
  ∀ s t, R s t → Agree R (x s) (y t)

variable {R : σ → τ → Prop}

theorem Sim.pure (a : α) : Sim (ε := ε) R (pure a) (pure a) :=
  fun _ _ h => ⟨rfl, h⟩

theorem Sim.throw (e : ε) : Sim (α := α) R (throw e) (throw e) :=
  fun _ _ _ => rfl

theorem Sim.lift (x : Except ε α) :
    Sim R (liftM x : StateT σ (Except ε) α) (liftM x : StateT τ (Except ε) α) := by
  intro s t h
  cases x with
  | error e => exact rfl
  | ok a => exact ⟨rfl, h⟩

theorem Sim.bind {x : StateT σ (Except ε) α} {y : StateT τ (Except ε) α}
    {f : α → StateT σ (Except ε) β} {g : α → StateT τ (Except ε) β}
    (hxy : Sim R x y) (hfg : ∀ a, Sim R (f a) (g a)) : Sim R (x >>= f) (y >>= g) := by
  intro s t h
  have hagree := hxy s t h
  change Agree R (x s >>= fun r => f r.1 r.2) (y t >>= fun r => g r.1 r.2)
  cases hx : x s with
  | error e =>
    cases hy : y t with
    | error e' =>
      rw [hx, hy] at hagree
      exact hagree
    | ok b => simp [hx, hy, Agree] at hagree
  | ok a =>
    cases hy : y t with
    | error e' => simp [hx, hy, Agree] at hagree
    | ok b =>
      rw [hx, hy] at hagree
      obtain ⟨hab, hst⟩ := hagree
      change Agree R (f a.1 a.2) (g b.1 b.2)
      rw [← hab]
      exact hfg a.1 a.2 b.2 hst

theorem Sim.modify {f : σ → σ} {g : τ → τ} (h : ∀ s t, R s t → R (f s) (g t)) :
    Sim (ε := ε) R (modify f) (modify g) :=
  fun s t hst => ⟨rfl, h s t hst⟩

theorem Agree.value_eq {x : Except ε (α × σ)} {y : Except ε (α × τ)} (h : Agree R x y) :
    x.map Prod.fst = y.map Prod.fst := by
  cases x with
  | error e =>
    cases y with
    | error e' => exact congrArg _ h
    | ok b => exact absurd h (by simp [Agree])
  | ok a =>
    cases y with
    | error e' => exact absurd h (by simp [Agree])
    | ok b => exact congrArg _ h.1

end TuxStack.Result
