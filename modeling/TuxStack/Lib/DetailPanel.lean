import TuxStack.Lib.Runs

/-!
# Details of a selection

A page shows details of the resource that is selected. It starts inspects, each with a
generation, and their results come back late and in any order: a detail, which names its
resource, or an error, which does not. The page may refuse a result.

* `DetailPanel`: the page; `DetailPanel.Lawful`: what its operations must keep.
* `DetailPanel.Viewed`: a page whose details are a part of its state.
* `InspectedPage`: the page with the inspects that were started, and the result that it
  took last.
* `belongs_iff`: what is shown belongs to the selection all along a run exactly when no
  error is taken of an inspect of another resource.
-/

namespace TuxStack.Runs

/-- A page with details. `κ` are its operations, `γ` the generations, `ρ` the resources,
`δ` the details and `ε` the errors. -/
structure DetailPanel (σ κ γ ρ δ ε : Type) where
  call : σ → κ → σ
  starts : σ → κ → Option γ
  applyDetail : σ → γ → δ → Bool × σ
  applyError : σ → γ → ε → Bool × σ
  selected : σ → ρ
  resource : δ → ρ
  /-- A result is shown, whichever. -/
  showing : σ → Prop
  /-- This result is shown. -/
  shows : σ → δ ⊕ ε → Prop
  /-- An error with this generation is taken. -/
  takesError : σ → γ → Prop

/-- A page, the inspects that were started on it, with what was selected then, and the
result that it took last. -/
structure InspectedPage (σ γ ρ δ ε : Type) where
  page : σ
  started : List (γ × ρ) := []
  last : Option (ρ × (δ ⊕ ε)) := none

/-- An operation of the page, or a result of the inspect at a place of `started`. -/
inductive PanelAction (κ δ ε : Type) where
  | call (operation : κ)
  | detail (place : ℕ) (detail : δ)
  | error (place : ℕ) (error : ε)

def InspectedPage.afterResult {σ γ ρ δ ε : Type} (x : InspectedPage σ γ ρ δ ε) (r : ρ)
    (result : δ ⊕ ε) (taken : Bool × σ) : InspectedPage σ γ ρ δ ε :=
  { x with page := taken.2, last := if taken.1 then some (r, result) else x.last }

namespace DetailPanel

variable {σ κ γ ρ δ ε : Type} (P : DetailPanel σ κ γ ρ δ ε)

def afterCall (x : InspectedPage σ γ ρ δ ε) (operation : κ) : InspectedPage σ γ ρ δ ε :=
  { x with
    page := P.call x.page operation
    started := x.started ++ ((P.starts x.page operation).map
      (·, P.selected (P.call x.page operation))).toList }

/-- A detail is one of the resource that was inspected. -/
def machine [DecidableEq ρ] (start : σ) :
    Machine (InspectedPage σ γ ρ δ ε) (PanelAction κ δ ε) where
  init x := x = { page := start }
  step x
    | .call operation => some (P.afterCall x operation)
    | .detail place d =>
      x.started[place]?.bind fun inspect =>
        if P.resource d = inspect.2 then
          some (x.afterResult inspect.2 (.inl d) (P.applyDetail x.page inspect.1 d))
        else none
    | .error place e =>
      x.started[place]?.map fun inspect =>
        x.afterResult inspect.2 (.inr e) (P.applyError x.page inspect.1 e)

/-- What is shown is the result of an inspect that was started for the selected resource. -/
def Belongs (x : InspectedPage σ γ ρ δ ε) : Prop :=
  P.showing x.page → ∃ result, x.last = some (P.selected x.page, result) ∧
    P.shows x.page result ∧ ∃ generation, (generation, P.selected x.page) ∈ x.started

/-- An error that is taken is one of the selected resource. -/
def ErrorOfSelection (x : InspectedPage σ γ ρ δ ε) (action : PanelAction κ δ ε) : Prop :=
  ∀ place e inspect, action = .error place e → x.started[place]? = some inspect →
    P.takesError x.page inspect.1 → inspect.2 = P.selected x.page

/-- What an operation makes of `s`: the selection is one that can be, and what is shown is
shown for the same selection. -/
def Follows (named : σ → Prop) (s t : σ) : Prop :=
  named t ∧ (P.showing t → P.showing s ∧ P.selected t = P.selected s ∧
    ∀ result, P.shows s result → P.shows t result)

/-- What the operations of a page keep: `named` says that the selection is one that can be. -/
structure Lawful (named : σ → Prop) : Prop where
  call_follows : ∀ {s} operation, named s → P.Follows named s (P.call s operation)
  detail_refused : ∀ {s generation d}, (P.applyDetail s generation d).1 = false →
    (P.applyDetail s generation d).2 = s
  detail_taken : ∀ {s generation d}, named s → (P.applyDetail s generation d).1 = true →
    named (P.applyDetail s generation d).2 ∧ P.resource d = P.selected s ∧
      P.selected (P.applyDetail s generation d).2 = P.selected s ∧
      P.shows (P.applyDetail s generation d).2 (.inl d)
  error_refused : ∀ {s generation} e, ¬ P.takesError s generation →
    P.applyError s generation e = (false, s)
  error_taken : ∀ {s generation} e, named s → P.takesError s generation →
    (P.applyError s generation e).1 = true ∧ named (P.applyError s generation e).2 ∧
      P.selected (P.applyError s generation e).2 = P.selected s ∧
      P.showing (P.applyError s generation e).2 ∧
      P.shows (P.applyError s generation e).2 (.inr e)

variable {P} {named : σ → Prop} {x x' : InspectedPage σ γ ρ δ ε}
  {s t u start : σ}

theorem follows_refl (h : named s) : P.Follows named s s :=
  ⟨h, fun hshowing => ⟨hshowing, rfl, fun _ hshows => hshows⟩⟩

theorem follows_of_not_showing (h : named t) (hnone : ¬ P.showing t) : P.Follows named s t :=
  ⟨h, fun hshowing => absurd hshowing hnone⟩

theorem Follows.trans (h : P.Follows named s t) (h' : P.Follows named t u) :
    P.Follows named s u := by
  refine ⟨h'.1, fun hshowing => ?_⟩
  obtain ⟨hmiddle, hselected, hshows⟩ := h'.2 hshowing
  obtain ⟨hbefore, hselected', hshows'⟩ := h.2 hmiddle
  exact ⟨hbefore, hselected.trans hselected', fun result hresult =>
    hshows result (hshows' result hresult)⟩

/-! ## What a page shows beside its list -/

/-- The selection, the state of its details, and the detail or the kind and the message of
an error. -/
@[ext]
structure Details (ρ ω ν : Type) where
  selected : ρ
  status : ω
  detail : Option ν
  error : String × String

/-- A page that shows what is in `details`, and selects nothing or one of the first of its
`rows`; the second are a part of them. -/
structure Viewed (P : DetailPanel σ κ γ ρ δ ε) (named : σ → Prop) (ω ν : Type) where
  rows : σ → List ρ × List ρ
  details : σ → Details ρ ω ν
  unselected : ρ
  ready : ω
  failed : ω
  ofDetail : δ → ν
  ofError : ε → String × String
  named_iff : ∀ s, named s ↔
    ((details s).selected = unselected ∨ (details s).selected ∈ (rows s).1) ∧
      ∀ r ∈ (rows s).2, r ∈ (rows s).1
  showing_iff : ∀ s, P.showing s ↔ (details s).status = ready ∨ (details s).status = failed
  selected_eq : ∀ s, P.selected s = (details s).selected
  shows_detail : ∀ s d, P.shows s (.inl d) ↔
    (details s).status = ready ∧ (details s).detail = some (ofDetail d)
  shows_error : ∀ s e, P.shows s (.inr e) ↔
    (details s).status = failed ∧ (details s).detail = none ∧ (details s).error = ofError e

namespace Viewed

variable {ω ν : Type} (V : Viewed P named ω ν)

theorem hidden [DecidableEq ω] (h : named t)
    (hhidden : decide ((V.details t).status = V.ready ∨ (V.details t).status = V.failed) = false) :
    P.Follows named s t :=
  follows_of_not_showing h fun hshowing =>
    of_decide_eq_false hhidden ((V.showing_iff t).mp hshowing)

theorem follows (h : named t) (hsame : V.details t = V.details s) : P.Follows named s t := by
  refine ⟨h, fun hshowing => ⟨?_, ?_, fun result hresult => ?_⟩⟩
  · rw [V.showing_iff, ← hsame]
    exact (V.showing_iff t).mp hshowing
  · rw [V.selected_eq, V.selected_eq, hsame]
  · cases result with
    | inl d =>
      rw [V.shows_detail, hsame]
      exact (V.shows_detail s d).mp hresult
    | inr e =>
      rw [V.shows_error, hsame]
      exact (V.shows_error s e).mp hresult

theorem follows_of_same (h : named s) (hrows : V.rows t = V.rows s)
    (hsame : V.details t = V.details s) : P.Follows named s t := by
  refine V.follows ?_ hsame
  rw [V.named_iff, hrows, hsame]
  exact (V.named_iff s).mp h

theorem then_same (hfollows : P.Follows named s t) (hrows : V.rows u = V.rows t)
    (hsame : V.details u = V.details t) : P.Follows named s u :=
  hfollows.trans (V.follows_of_same hfollows.1 hrows hsame)

/-- An error of a list is refused, or the selection is given up before other fields change. -/
theorem follows_listError {c : Prop} [Decidable c] (h : named s) (hcleared : P.Follows named s t)
    (hrows : V.rows u = V.rows t) (hsame : V.details u = V.details t) :
    P.Follows named s (if c then (false, s) else (true, u)).2 := by
  split
  · exact follows_refl h
  · exact V.then_same hcleared hrows hsame

/-- An error is shown in the place of a detail. -/
theorem error_taken (h : named s) {e : ε} {after : Bool × σ} (heq : after = (true, t))
    (hrows : V.rows t = V.rows s)
    (hdetails : V.details t = ⟨(V.details s).selected, V.failed, none, V.ofError e⟩) :
    after.1 = true ∧ named after.2 ∧ P.selected after.2 = P.selected s ∧
      P.showing after.2 ∧ P.shows after.2 (.inr e) := by
  subst heq
  simp only [V.named_iff, V.selected_eq, V.showing_iff, V.shows_error, hrows, hdetails]
  exact ⟨trivial, (V.named_iff s).mp h, trivial, .inr trivial, trivial, trivial, trivial⟩

end Viewed

/-! ## Runs -/

theorem named_step [DecidableEq ρ] (h : P.Lawful named) {action : PanelAction κ δ ε}
    (hnamed : named x.page) (hstep : (P.machine start).step x action = some x') :
      named x'.page := by
  cases action with
  | call operation =>
    cases hstep
    exact (h.call_follows operation hnamed).1
  | detail place d =>
    obtain ⟨inspect, -, hstep⟩ := Option.bind_eq_some_iff.mp hstep
    split at hstep
    · cases hstep
      show named (P.applyDetail x.page inspect.1 d).2
      cases htaken : (P.applyDetail x.page inspect.1 d).1 with
      | false =>
        rw [h.detail_refused htaken]
        exact hnamed
      | true => exact (h.detail_taken hnamed htaken).1
    · cases hstep
  | error place e =>
    obtain ⟨inspect, -, rfl⟩ := Option.map_eq_some_iff.mp hstep
    show named (P.applyError x.page inspect.1 e).2
    by_cases htakes : P.takesError x.page inspect.1
    · exact (h.error_taken e hnamed htakes).2.1
    · rw [h.error_refused e htakes]
      exact hnamed

theorem belongs_call (h : P.Lawful named) (hnamed : named x.page) (hbelongs : P.Belongs x)
    (operation : κ) : P.Belongs (P.afterCall x operation) := by
  intro hshowing
  obtain ⟨hbefore, hselected, hshows⟩ := (h.call_follows operation hnamed).2 hshowing
  obtain ⟨result, hlast, hshown, generation, hmem⟩ := hbelongs hbefore
  have hsame : P.selected (P.afterCall x operation).page = P.selected x.page := hselected
  rw [hsame]
  exact ⟨result, hlast, hshows result hshown, generation, List.mem_append_left _ hmem⟩

theorem belongs_detail (h : P.Lawful named) (hnamed : named x.page) (hbelongs : P.Belongs x)
    {inspect : γ × ρ} (hstarted : inspect ∈ x.started) {d : δ} (hd : P.resource d = inspect.2) :
    P.Belongs (x.afterResult inspect.2 (.inl d) (P.applyDetail x.page inspect.1 d)) := by
  obtain ⟨generation, r⟩ := inspect
  cases htaken : (P.applyDetail x.page generation d).1 with
  | false =>
    have hsame : x.afterResult r (.inl d) (P.applyDetail x.page generation d) = x := by
      unfold InspectedPage.afterResult
      rw [htaken, h.detail_refused htaken]
      rfl
    rw [hsame]
    exact hbelongs
  | true =>
    obtain ⟨-, hresource, hselected, hshows⟩ := h.detail_taken hnamed htaken
    intro _
    have hr : P.selected (P.applyDetail x.page generation d).2 = r :=
      hselected.trans (hresource.symm.trans hd)
    refine ⟨.inl d, ?_, hshows, generation, ?_⟩
    · show (if (P.applyDetail x.page generation d).1 = true then some (r, Sum.inl d)
        else x.last) = some (P.selected (P.applyDetail x.page generation d).2, _)
      rw [htaken, if_pos rfl, hr]
    · show (generation, P.selected (P.applyDetail x.page generation d).2) ∈ x.started
      rw [hr]
      exact hstarted

theorem belongs_error_iff (h : P.Lawful named) (hnamed : named x.page) (hbelongs : P.Belongs x)
    {inspect : γ × ρ} (hstarted : inspect ∈ x.started) (e : ε) :
    P.Belongs (x.afterResult inspect.2 (.inr e) (P.applyError x.page inspect.1 e)) ↔
      (P.takesError x.page inspect.1 → inspect.2 = P.selected x.page) := by
  obtain ⟨generation, r⟩ := inspect
  by_cases htakes : P.takesError x.page generation
  · obtain ⟨htaken, -, hselected, hshowing, hshows⟩ := h.error_taken e hnamed htakes
    have hlast : (x.afterResult r (.inr e) (P.applyError x.page generation e)).last =
        some (r, .inr e) := by
      unfold InspectedPage.afterResult
      rw [htaken, if_pos rfl]
    constructor
    · intro hafter htakes
      obtain ⟨result, hresult, -⟩ := hafter hshowing
      have hpair := Option.some.inj (hlast.symm.trans hresult)
      exact (congrArg Prod.fst hpair).trans hselected
    · intro hright _
      have hr : P.selected (P.applyError x.page generation e).2 = r :=
        hselected.trans (hright htakes).symm
      refine ⟨.inr e, ?_, hshows, generation, ?_⟩
      · rw [hlast]
        exact congrArg (fun r => some (r, Sum.inr e)) hr.symm
      · show (generation, P.selected (P.applyError x.page generation e).2) ∈ x.started
        rw [hr]
        exact hstarted
  · have hsame : x.afterResult r (.inr e) (P.applyError x.page generation e) = x := by
      unfold InspectedPage.afterResult
      rw [h.error_refused e htakes]
      rfl
    rw [hsame]
    exact ⟨fun _ htakes' => absurd htakes' htakes, fun _ => hbelongs⟩

/-- **The runs on which the details belong to the selection**: those on which no error is
taken of an inspect of another resource. What `named` implies holds in any case. -/
theorem belongs_iff [DecidableEq ρ] (h : P.Lawful named) {known : σ → Prop}
    (hknown : ∀ s, named s → known s) (hstart : named start) (hnone : ¬ P.showing start)
    (actions : List (PanelAction κ δ ε)) :
    (P.machine start).AllStates (fun x => known x.page ∧ P.Belongs x) { page := start } actions ↔
      (P.machine start).AllSteps P.ErrorOfSelection { page := start } actions := by
  refine Machine.allStates_iff_allSteps (J := fun x => named x.page) ?_ ?_ ?_ ?_ hstart
    ⟨hknown _ hstart, fun hshowing => absurd hshowing hnone⟩
  · intro x action x' hnamed hstep
    exact named_step h hnamed hstep
  · intro x action x' hnamed hbelongs hright hstep
    refine ⟨hknown _ (named_step h hnamed hstep), ?_⟩
    cases action with
    | call operation =>
      cases hstep
      exact belongs_call h hnamed hbelongs.2 operation
    | detail place d =>
      obtain ⟨inspect, hplace, hstep⟩ := Option.bind_eq_some_iff.mp hstep
      split at hstep
      · next hd =>
        cases hstep
        exact belongs_detail h hnamed hbelongs.2 (List.mem_of_getElem? hplace) hd
      · cases hstep
    | error place e =>
      obtain ⟨inspect, hplace, rfl⟩ := Option.map_eq_some_iff.mp hstep
      exact (belongs_error_iff h hnamed hbelongs.2 (List.mem_of_getElem? hplace) e).mpr
        (hright place e inspect rfl hplace)
  · intro x action x' hnamed hbelongs hwrong hstep hafter
    unfold ErrorOfSelection at hwrong
    push Not at hwrong
    obtain ⟨place, e, inspect, rfl, hplace, htakes, hne⟩ := hwrong
    obtain ⟨inspect', hplace', rfl⟩ := Option.map_eq_some_iff.mp hstep
    cases hplace.symm.trans hplace'
    exact hne ((belongs_error_iff h hnamed hbelongs.2 (List.mem_of_getElem? hplace) e).mp
      hafter.2 htakes)
  · intro x action hwrong
    unfold ErrorOfSelection at hwrong
    push Not at hwrong
    obtain ⟨place, e, inspect, rfl, hplace, -⟩ := hwrong
    exact ⟨_, Option.map_eq_some_iff.mpr ⟨inspect, hplace, rfl⟩⟩

end DetailPanel

end TuxStack.Runs
