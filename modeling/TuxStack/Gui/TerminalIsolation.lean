import TuxStack.Gui.TerminalTab

/-!
# Isolation of the terminal tab

A generation is a number modulo `2 ^ 64`; what is unique is the count of its changes. Three
facts carry the tab through a run. `Placed`: the generations are those counts, and a connect
that began in the present generation is one of the selected container. `Painted`: the same
of the generation in which the renderer was reset. `Stored`: the session that is stored is
one of the selected container, and there is none while a connect is awaited. While the
selection changes only the first of them holds.
-/

namespace TuxStack.Gui

open Docker (ContainerTerminalState ContainerTerminalError)
open Runs

/-- Counts that agree modulo `2 ^ 64` and are near are the same. -/
theorem eq_of_ofNat_eq {m n : Nat} (h : UInt64.ofNat m = UInt64.ofNat n) (hle : m ≤ n)
    (hnear : n < m + 2 ^ 64) : m = n := by
  have hmod := congrArg UInt64.toNat h
  rw [UInt64.toNat_ofNat', UInt64.toNat_ofNat'] at hmod
  omega

namespace TerminalTab

open ContainerTerminalControllerState

/-- The generations count, and connects are where their counts say. -/
structure Placed (x : TerminalTab) : Prop where
  generation : x.state.generation = UInt64.ofNat x.bumps
  drawn : x.drawn ≤ x.bumps
  connects : ∀ c ∈ x.connects, c.generation = UInt64.ofNat c.began ∧ c.began ≤ x.drawn ∧
    (c.began = x.bumps → c.container = x.state.containerId)
  trimmed : trim x.state.containerId = x.state.containerId
  input : x.inputTx = x.session
  passed : x.InputIsolated
  opened : ∀ k ∈ x.opened, ∃ c, x.connects[k]? = some c ∧ c.phase ≠ .running
  kept : x.SessionsKept

structure Painted (x : TerminalTab) : Prop where
  generation : x.renderer.generation = UInt64.ofNat x.drawn
  connects : ∀ c ∈ x.connects, c.began = x.drawn → c.container = x.state.containerId
  isolated : x.OutputIsolated

structure Stored (x : TerminalTab) : Prop where
  session : ∀ k, x.session = some k → x.containerOf k = some x.state.containerId
  connecting : x.state.state = .connecting → x.session = none

structure Isolated (x : TerminalTab) : Prop where
  placed : x.Placed
  painted : x.Painted
  stored : x.Stored

variable {x : TerminalTab}

/-! ## The controller changes -/

variable {c : TerminalConnect} {k : Nat} {t : ContainerTerminalControllerState}
  {connects : List TerminalConnect}

theorem placed_withState (h : x.Placed)
    (hcontainer : t.containerId ≠ x.state.containerId → t.generation ≠ x.state.generation)
    (htrim : trim t.containerId = t.containerId) : (x.withState t).Placed where
  generation := by
    show t.generation = UInt64.ofNat (x.bumps + (t.generation - x.state.generation).toNat)
    rw [UInt64.ofNat_add, UInt64.ofNat_toNat, ← h.generation, UInt64.add_comm,
      UInt64.sub_add_cancel]
  drawn := Nat.le_add_right_of_le h.drawn
  connects c hc := by
    obtain ⟨hgeneration, hbegan, hplace⟩ := h.connects c hc
    refine ⟨hgeneration, hbegan, fun hnow => ?_⟩
    have hbound := h.drawn
    change c.began = x.bumps + (t.generation - x.state.generation).toNat at hnow
    have hzero : (t.generation - x.state.generation).toNat = 0 := by omega
    have hsub : t.generation - x.state.generation = 0 := UInt64.toNat_inj.mp hzero
    have hsame : t.generation = x.state.generation := by
      rw [← UInt64.sub_add_cancel t.generation x.state.generation, hsub, UInt64.zero_add]
    have hold : t.containerId = x.state.containerId := by
      by_contra hne
      exact hcontainer hne hsame
    show c.container = t.containerId
    rw [hold]
    exact hplace (by omega)
  trimmed := htrim
  input := h.input
  passed := h.passed
  opened := h.opened
  kept := h.kept

theorem painted_withState (h : x.Painted) (hcontainer : t.containerId = x.state.containerId) :
    (x.withState t).Painted where
  generation := h.generation
  connects c hc hbegan := (h.connects c hc hbegan).trans hcontainer.symm
  isolated := ⟨h.isolated.1, fun p hp =>
    (h.isolated.2 p hp).trans (congrArg some hcontainer.symm)⟩

theorem stored_withState (h : x.Stored) (hcontainer : t.containerId = x.state.containerId)
    (hconnecting : t.state = .connecting → x.state.state = .connecting) :
    (x.withState t).Stored where
  session k hk := (h.session k hk).trans (congrArg some hcontainer.symm)
  connecting ht := h.connecting (hconnecting ht)

theorem isolated_withState (h : x.Isolated) (hcontainer : t.containerId = x.state.containerId)
    (hconnecting : t.state = .connecting → x.state.state = .connecting) :
    (x.withState t).Isolated where
  placed := placed_withState h.placed (fun hne => absurd hcontainer hne)
    (by rw [hcontainer]; exact h.placed.trimmed)
  painted := painted_withState h.painted hcontainer
  stored := stored_withState h.stored hcontainer hconnecting

theorem isolated_keeps (h : x.Isolated) (hkeeps : x.state.Keeps t) : (x.withState t).Isolated :=
  isolated_withState h hkeeps.container hkeeps.connecting

/-! ## Resources are closed, the renderer is reset, a connect starts -/

/-- Connects change only in whether they are cancelled, or in their phase. -/
theorem containerOf_modify {f : TerminalConnect → TerminalConnect}
    (hf : ∀ c, (f c).container = c.container) (k j : Nat) :
    ((connects.modify k f)[j]?).map (·.container) = (connects[j]?).map (·.container) := by
  rw [List.getElem?_modify]
  cases connects[j]? with
  | none => simp
  | some c =>
    by_cases hk : k = j
    · simp [hk, hf]
    · simp [hk]

theorem mem_modify {f : TerminalConnect → TerminalConnect} (hc : c ∈ connects.modify k f) :
    c ∈ connects ∨ ∃ d ∈ connects, c = f d := by
  obtain ⟨j, hj⟩ := List.mem_iff_getElem?.mp hc
  rw [List.getElem?_modify] at hj
  cases hget : connects[j]? with
  | none => simp [hget] at hj
  | some d =>
    have hd : d ∈ connects := List.mem_of_getElem? hget
    rw [hget] at hj
    by_cases hk : k = j
    · rw [Option.map_eq_map, Option.map_some, if_pos hk, Option.some.injEq] at hj
      exact .inr ⟨d, hd, hj.symm⟩
    · rw [Option.map_eq_map, Option.map_some, if_neg hk, Option.some.injEq] at hj
      exact .inl (hj ▸ hd)

def cancelConnection (x : TerminalTab) : List TerminalConnect :=
  match x.connectionCancel with
  | none => x.connects
  | some k => x.connects.modify k fun c => { c with cancelled := true }

theorem getElem?_cancelConnection (j : Nat) : x.cancelConnection[j]? = x.connects[j]? ∨
    x.cancelConnection[j]? = (x.connects[j]?).map fun c => { c with cancelled := true } := by
  unfold cancelConnection
  cases x.connectionCancel with
  | none => exact .inl rfl
  | some k =>
    rw [List.getElem?_modify]
    by_cases hk : k = j
    · simp [hk]
    · simp [hk]

theorem mem_cancelConnection (hc : c ∈ x.cancelConnection) :
    ∃ d ∈ x.connects, d.container = c.container ∧ d.generation = c.generation ∧
      d.began = c.began := by
  unfold cancelConnection at hc
  cases hcancel : x.connectionCancel with
  | none =>
    rw [hcancel] at hc
    exact ⟨c, hc, rfl, rfl, rfl⟩
  | some k =>
    rw [hcancel] at hc
    obtain hc | ⟨d, hd, rfl⟩ := mem_modify hc
    · exact ⟨c, hc, rfl, rfl, rfl⟩
    · exact ⟨d, hd, rfl, rfl, rfl⟩

@[simp] theorem containerOf_closeResources (k : Nat) :
    x.closeResources.containerOf k = x.containerOf k := by
  show (x.cancelConnection[k]?).map _ = _
  unfold cancelConnection
  cases x.connectionCancel with
  | none => rfl
  | some j =>
    exact containerOf_modify (f := fun c => { c with cancelled := true }) (fun _ => rfl) j k

/-- The session that was stored is handed to `close`. -/
theorem placed_closeResources (h : x.Placed) : x.closeResources.Placed where
  generation := h.generation
  drawn := h.drawn
  connects c hc := by
    obtain ⟨d, hd, hcontainer, hgeneration, hbegan⟩ := mem_cancelConnection hc
    obtain ⟨hd₁, hd₂, hd₃⟩ := h.connects d hd
    rw [← hgeneration, ← hbegan, ← hcontainer]
    exact ⟨hd₁, hd₂, hd₃⟩
  trimmed := h.trimmed
  input := rfl
  passed p hp := (containerOf_closeResources p.session).trans (h.passed p hp)
  opened k hk := by
    obtain ⟨c, hc, hphase⟩ := h.opened k hk
    show ∃ c, x.cancelConnection[k]? = some c ∧ _
    rcases getElem?_cancelConnection (x := x) k with hsame | hcancelled
    · exact ⟨c, hsame.trans hc, hphase⟩
    · exact ⟨{ c with cancelled := true }, by rw [hcancelled, hc]; rfl, hphase⟩
  kept k hk := by
    rcases h.kept k hk with hstored | hclosed | ⟨c, hc, hphase⟩
    · refine .inr (.inl ?_)
      show k ∈ x.closed ++ x.session.toList
      rw [hstored]
      exact List.mem_append_right _ List.mem_cons_self
    · exact .inr (.inl (List.mem_append_left _ hclosed))
    · refine .inr (.inr ?_)
      show ∃ c, x.cancelConnection[k]? = some c ∧ _
      rcases getElem?_cancelConnection (x := x) k with hsame | hcancelled
      · exact ⟨c, hsame.trans hc, hphase⟩
      · exact ⟨{ c with cancelled := true }, by rw [hcancelled, hc]; rfl, hphase⟩

theorem painted_closeResources (h : x.Painted) : x.closeResources.Painted where
  generation := h.generation
  connects c hc hbegan := by
    obtain ⟨d, hd, hcontainer, -, hd'⟩ := mem_cancelConnection hc
    rw [← hcontainer]
    exact h.connects d hd (hd'.trans hbegan)
  isolated := ⟨h.isolated.1, fun p hp =>
    (containerOf_closeResources p.1).trans (h.isolated.2 p hp)⟩

theorem stored_closeResources : x.closeResources.Stored where
  session k hk := by cases hk
  connecting _ := rfl

theorem placed_resetRenderer (generation : UInt64) (h : x.Placed) :
    (x.resetRenderer generation).Placed where
  generation := h.generation
  drawn := le_rfl
  connects c hc := by
    obtain ⟨hgeneration, hbegan, hplace⟩ := h.connects c hc
    exact ⟨hgeneration, hbegan.trans h.drawn, hplace⟩
  trimmed := h.trimmed
  input := h.input
  passed := h.passed
  opened := h.opened
  kept := h.kept

theorem painted_resetRenderer (h : x.Placed) :
    (x.resetRenderer x.state.generation).Painted where
  generation := h.generation
  connects c hc := (h.connects c hc).2.2
  isolated := ⟨rfl, fun p hp => (by cases hp)⟩

theorem isolated_reset (h : x.Placed) :
    (x.closeResources.resetRenderer x.state.generation).Isolated where
  placed := placed_resetRenderer _ (placed_closeResources h)
  painted := painted_resetRenderer (placed_closeResources h)
  stored := ⟨fun k hk => (by cases hk), fun _ => rfl⟩

theorem isolated_closeResources (hplaced : x.Placed) (hpainted : x.Painted) :
    x.closeResources.Isolated :=
  ⟨placed_closeResources hplaced, painted_closeResources hpainted, stored_closeResources⟩

theorem containerOf_concat {container : String}
    (h : (connects[k]?).map (·.container) = some container) :
    ((connects ++ [c])[k]?).map (·.container) = some container := by
  obtain ⟨d, hd, hcontainer⟩ := Option.map_eq_some_iff.mp h
  rw [List.getElem?_append_left (List.getElem?_eq_some_iff.mp hd).1, hd, Option.map_some,
    hcontainer]

/-- A connect of the selected container in the generation that the renderer has. -/
theorem isolated_concat (h : x.Isolated) (hnone : x.session = none)
    (hc : c.container = x.state.containerId ∧ c.generation = UInt64.ofNat c.began ∧
      c.began = x.drawn) (cancel : Option Nat) :
    TerminalTab.Isolated
      { x with connects := x.connects ++ [c], connectionCancel := cancel } where
  placed :=
    { generation := h.placed.generation
      drawn := h.placed.drawn
      connects := by
        intro d hd
        rcases List.mem_append.mp hd with hd | hd
        · exact h.placed.connects d hd
        · obtain rfl := List.mem_singleton.mp hd
          exact ⟨hc.2.1, hc.2.2.le, fun _ => hc.1⟩
      trimmed := h.placed.trimmed
      input := h.placed.input
      passed := fun p hp => containerOf_concat (h.placed.passed p hp)
      opened := by
        intro k hk
        obtain ⟨d, hd, hphase⟩ := h.placed.opened k hk
        exact ⟨d, by
          rw [List.getElem?_append_left (List.getElem?_eq_some_iff.mp hd).1]
          exact hd, hphase⟩
      kept := by
        intro k hk
        rcases h.placed.kept k hk with hstored | hclosed | ⟨d, hd, hphase⟩
        · exact .inl hstored
        · exact .inr (.inl hclosed)
        · exact .inr (.inr ⟨d, by
            rw [List.getElem?_append_left (List.getElem?_eq_some_iff.mp hd).1]
            exact hd, hphase⟩) }
  painted :=
    { generation := h.painted.generation
      connects := by
        intro d hd hbegan
        rcases List.mem_append.mp hd with hd | hd
        · exact h.painted.connects d hd hbegan
        · obtain rfl := List.mem_singleton.mp hd
          exact hc.1
      isolated := ⟨h.painted.isolated.1, fun p hp =>
        containerOf_concat (h.painted.isolated.2 p hp)⟩ }
  stored :=
    { session := fun k hk => (by rw [show x.session = some k from hk] at hnone; cases hnone)
      connecting := fun _ => hnone }

theorem isolated_startConnect (h : x.Placed) (services : Bool) :
    (x.startConnect x.state.generation services).Isolated := by
  have hreset := isolated_reset h
  unfold startConnect
  dsimp only
  split
  · exact isolated_keeps hreset (keeps_applyConnectError _ _).1
  · exact isolated_concat hreset rfl ⟨rfl, h.generation, rfl⟩ _

/-- What the controller asks for is done, for an action that leaves the container. -/
theorem isolated_applyAction {result : TerminalSelectionAction × ContainerTerminalControllerState}
    (h : x.Isolated) (hacts : x.state.Acts result) (services : Bool)
    (hcontainer : result.2.containerId = x.state.containerId) :
    ((x.withState result.2).applyAction services result.1).Isolated := by
  have hplaced : (x.withState result.2).Placed :=
    placed_withState h.placed hacts.container (by rw [hcontainer]; exact h.placed.trimmed)
  have hpainted : (x.withState result.2).Painted := painted_withState h.painted hcontainer
  match hresult : result.1 with
  | .connect generation =>
    have hgeneration := hacts.connect generation hresult
    show ((x.withState result.2).startConnect generation services).Isolated
    rw [hgeneration]
    exact isolated_startConnect hplaced services
  | .close _ => exact isolated_closeResources hplaced hpainted
  | .none =>
    exact ⟨hplaced, hpainted, stored_withState h.stored hcontainer
      (hacts.connecting fun _ hconnect => by rw [hresult] at hconnect; cases hconnect)⟩

/-! ## The calls -/

theorem isolated_setSelection (h : x.Isolated) (containerId : String) (running services : Bool) :
    (x.setSelection containerId running services).Isolated := by
  have hacts := acts_selectContainer (s := x.state) containerId running
  have hcontainer := selectContainer_container (s := x.state) containerId running
  have hplaced : (x.withState (x.state.selectContainer containerId running).2).Placed :=
    placed_withState h.placed hacts.container (by rw [hcontainer, trim_trim])
  unfold setSelection
  dsimp only
  match haction : (x.state.selectContainer containerId running).1 with
  | .connect generation =>
    have hgeneration := hacts.connect generation haction
    simp only [connects?, Bool.not_true, Bool.and_false, Bool.false_eq_true, if_false]
    show (startConnect _ generation services).Isolated
    rw [hgeneration]
    exact isolated_startConnect hplaced services
  | .close _ =>
    simp only [connects?, Bool.not_false, Bool.and_true, decide_eq_true_eq]
    split
    · have hreset := isolated_reset hplaced
      exact isolated_closeResources hreset.placed hreset.painted
    · next hsame =>
      have hkept := isolated_applyAction h hacts services (by
        rw [hcontainer, ← not_not.mp hsame]
        exact h.placed.trimmed)
      rwa [haction] at hkept
  | .none =>
    simp only [connects?, Bool.not_false, Bool.and_true, decide_eq_true_eq]
    split
    · exact isolated_reset hplaced
    · next hsame =>
      have hkept := isolated_applyAction h hacts services (by
        rw [hcontainer, ← not_not.mp hsame]
        exact h.placed.trimmed)
      rwa [haction] at hkept

theorem isolated_clearSelection (h : x.Isolated) : x.clearSelection.Isolated :=
  isolated_reset <| placed_withState h.placed (acts_selectContainer "" false).container
    (by rw [ContainerTerminalControllerState.clearSelection, selectContainer_container, trim_trim])

theorem isolated_updateActive (h : x.Isolated) (active services : Bool) :
    (x.updateActive active services).Isolated :=
  isolated_applyAction h (acts_setActive active) services (setActive_container active)

theorem isolated_retry (h : x.Isolated) (services : Bool) : (x.retry services).Isolated :=
  isolated_applyAction (isolated_closeResources h.placed h.painted) acts_beginConnect services
    beginConnect_selection.1

theorem isolated_invalidateContainer (h : x.Isolated) (containerId : String) :
    (x.invalidateContainer containerId).Isolated := by
  have hacts := acts_containerEventInvalidated (s := x.state) containerId
  unfold invalidateContainer
  dsimp only
  by_cases hother : x.state.containerId ≠ containerId
  · rw [containerEventInvalidated, if_pos hother]
    exact isolated_keeps h keeps_refl
  · rw [containerEventInvalidated, if_neg hother] at hacts ⊢
    exact isolated_closeResources
      (placed_withState h.placed hacts.container h.placed.trimmed)
      (painted_withState h.painted rfl)

theorem isolated_shutdown (h : x.Isolated) : x.shutdown.Isolated :=
  isolated_closeResources (placed_withState h.placed acts_close.container h.placed.trimmed)
    (painted_withState h.painted rfl)

/-- The size of the renderer, the resizes under way and the token of the connect say nothing
about where anything comes from. -/
theorem isolated_frame {renderer : ContainerTerminalRenderer} (h : x.Isolated)
    (hgeneration : renderer.generation = x.renderer.generation)
    (hprocessed : renderer.processed = x.renderer.processed) (resizes : List UInt64)
    (connectionCancel : Option Nat) :
    ({ x with renderer, resizes, connectionCancel } : TerminalTab).Isolated where
  placed := { h.placed with }
  painted := ⟨hgeneration.trans h.painted.generation, h.painted.connects,
    hprocessed.trans h.painted.isolated.1, h.painted.isolated.2⟩
  stored := { h.stored with }

theorem resize_renderer (r : ContainerTerminalRenderer) (generation : UInt64)
    (rows columns : UInt16) :
    (r.resize generation rows columns).2.generation = r.generation ∧
      (r.resize generation rows columns).2.processed = r.processed := by
  unfold ContainerTerminalRenderer.resize
  split
  · exact ⟨rfl, rfl⟩
  · split
    · exact ⟨rfl, rfl⟩
    · exact ⟨rfl, rfl⟩

theorem isolated_resize (h : x.Isolated) (rows columns : Int) :
    (x.resize rows columns).Isolated := by
  unfold resize
  split
  · exact h
  · generalize UInt16.ofNat rows.toNat = r
    generalize UInt16.ofNat columns.toNat = c
    have hrenderer := resize_renderer x.renderer x.state.generation r c
    have hframe := isolated_frame h hrenderer.1 hrenderer.2 x.resizes x.connectionCancel
    have hrequest := keeps_requestResize (s := x.state) r c
    dsimp only
    cases (x.state.requestResize r c).1 with
    | none =>
      dsimp only
      split
      · exact isolated_frame (isolated_keeps hframe hrequest) rfl rfl _ _
      · exact isolated_keeps hframe hrequest
    | some resizeGeneration =>
      have htake := hrequest.trans (keeps_takePendingResize resizeGeneration)
      dsimp only
      split
      · exact isolated_frame (isolated_keeps hframe htake) rfl rfl _ _
      · exact isolated_keeps hframe htake

theorem isolated_queueInput (h : x.Isolated) (bytes : TerminalBytes) (sent : Bool) :
    (x.queueInput bytes sent).Isolated := by
  unfold queueInput
  split
  · exact h
  · have hkept := isolated_keeps h (keeps_acceptInput (s := x.state))
    dsimp only
    split
    · next session _ hinput =>
      split
      · have hfailed := isolated_keeps hkept
          (keeps_applyStreamError x.state.acceptInput.2.generation .disconnected)
        exact isolated_closeResources hfailed.placed hfailed.painted
      · have hsession : x.session = some session := h.placed.input.symm.trans hinput
        refine ⟨⟨hkept.placed.generation, hkept.placed.drawn, hkept.placed.connects,
          hkept.placed.trimmed, hkept.placed.input, fun p hp => ?_, hkept.placed.opened,
          hkept.placed.kept⟩, { hkept.painted with }, { hkept.stored with }⟩
        rcases List.mem_append.mp hp with hp | hp
        · exact hkept.placed.passed p hp
        · obtain rfl := List.mem_singleton.mp hp
          exact hkept.stored.session session hsession
    · exact hkept

/-! ## What comes back -/

theorem isolated_phase (obtained unused : List Nat) {phase : ConnectPhase} (h : x.Isolated)
    (hc : x.connects[k]? = some c) (hphase : phase ≠ .running) (hobtained : ∀ j ∈ obtained, j = k)
    (hkept : k ∈ x.opened ++ obtained →
      x.session = some k ∨ k ∈ x.closed ++ unused ∨ phase.hasSession = true) :
    ({ x with opened := x.opened ++ obtained, closed := x.closed ++ unused }.setPhase k
      phase : TerminalTab).Isolated := by
  -- only connect `k` changes, and only in its phase
  have hget : ∀ j, (x.connects.modify k fun c => { c with phase })[j]? =
      if k = j then some { c with phase } else x.connects[j]? := by
    intro j
    rw [List.getElem?_modify]
    by_cases hj : k = j
    · rw [← hj, hc]
      simp
    · simp [hj]
  have hmem : ∀ d ∈ x.connects.modify k fun c => { c with phase }, ∃ e ∈ x.connects,
      e.container = d.container ∧ e.generation = d.generation ∧ e.began = d.began := by
    intro d hd
    obtain hd | ⟨e, he, rfl⟩ := mem_modify hd
    · exact ⟨d, hd, rfl, rfl, rfl⟩
    · exact ⟨e, he, rfl, rfl, rfl⟩
  have hof : ∀ j, ((x.connects.modify k fun c => { c with phase })[j]?).map (·.container) =
      x.containerOf j :=
    containerOf_modify (f := fun c => { c with phase }) (fun _ => rfl) k
  exact
    { placed :=
        { generation := h.placed.generation
          drawn := h.placed.drawn
          connects := by
            intro d hd
            obtain ⟨e, he, hcontainer, hgeneration, hbegan⟩ := hmem d hd
            rw [← hcontainer, ← hgeneration, ← hbegan]
            exact h.placed.connects e he
          trimmed := h.placed.trimmed
          input := h.placed.input
          passed := fun p hp => (hof p.session).trans (h.placed.passed p hp)
          opened := by
            intro j hj
            show ∃ d, (x.connects.modify k fun c => { c with phase })[j]? = some d ∧ _
            rw [hget]
            by_cases hkj : k = j
            · exact ⟨{ c with phase }, if_pos hkj, hphase⟩
            · rcases List.mem_append.mp hj with hj | hj
              · rw [if_neg hkj]
                exact h.placed.opened j hj
              · exact absurd (hobtained j hj).symm hkj
          kept := by
            intro j hj
            by_cases hkj : k = j
            · subst hkj
              rcases hkept hj with hstored | hclosed | hhas
              · exact .inl hstored
              · exact .inr (.inl hclosed)
              · exact .inr (.inr ⟨{ c with phase }, (hget k).trans (if_pos rfl), hhas⟩)
            · rcases List.mem_append.mp hj with hj | hj
              · rcases h.placed.kept j hj with hstored | hclosed | ⟨d, hd, hhas⟩
                · exact .inl hstored
                · exact .inr (.inl (List.mem_append_left _ hclosed))
                · exact .inr (.inr ⟨d, (hget j).trans (by rw [if_neg hkj, hd]), hhas⟩)
              · exact absurd (hobtained j hj).symm hkj }
      painted :=
        { generation := h.painted.generation
          connects := by
            intro d hd hdrawn
            obtain ⟨e, he, hcontainer, -, hbegan⟩ := hmem d hd
            rw [← hcontainer]
            exact h.painted.connects e he (hbegan.trans hdrawn)
          isolated := ⟨h.painted.isolated.1, fun p hp =>
            (hof p.1).trans (h.painted.isolated.2 p hp)⟩ }
      stored :=
        { session := fun j hj => (hof j).trans (h.stored.session j hj)
          connecting := h.stored.connecting } }

/-- A task that waits for `connect` has no session yet. -/
theorem notMem_opened (h : x.Isolated) (hc : x.connects[k]? = some c)
    (hrunning : c.phase = .running) : k ∉ x.opened := by
  intro hk
  obtain ⟨d, hd, hphase⟩ := h.placed.opened k hk
  rw [hc, Option.some.injEq] at hd
  exact hphase (hd ▸ hrunning)

/-- The session that `connect` returns is held by its task. -/
theorem isolated_connectOpens (h : x.Isolated) (hc : x.connects[k]? = some c) :
    (x.connectOpens k).Isolated := by
  have hhas : ConnectPhase.holding.hasSession = true := rfl
  have hnot : ConnectPhase.holding ≠ .running := by simp
  have hheld := isolated_phase [k] [] h hc hnot
    (fun j hj => List.mem_singleton.mp hj) fun _ => .inr (.inr hhas)
  simpa only [List.append_nil, connectOpens] using hheld

theorem isolated_connectEnds (h : x.Isolated) (hc : x.connects[k]? = some c)
    (result : ConnectResult) (hbefore : c.phase = result.before) :
    (x.connectEnds k c result).Isolated := by
  have hended : ∀ (phase : ConnectPhase) (unused : List Nat), phase ≠ .running →
      (k ∈ x.opened → k ∈ x.closed ++ unused ∨ phase.hasSession = true) →
      ({ x with closed := x.closed ++ unused }.setPhase k phase : TerminalTab).Isolated := by
    intro phase unused hphase hkept
    have hends := isolated_phase [] unused h hc hphase
      (fun j hj => absurd hj List.not_mem_nil) fun hk => .inr (hkept (by simpa using hk))
    simpa only [List.append_nil] using hends
  have hclosed : k ∈ x.closed ++ [k] := List.mem_append_right _ List.mem_cons_self
  unfold connectEnds
  cases hcancelled : c.cancelled with
  | true =>
    cases result with
    | session shell | lost error => exact hended .over [k] (by simp) fun _ => .inl hclosed
    | failed error =>
      exact hended .over [] (by simp) fun hk => absurd hk (notMem_opened h hc hbefore)
  | false =>
    cases result with
    | session shell => exact hended (.queued (.ok shell)) [] (by simp) fun _ => .inr rfl
    | lost error => exact hended (.queued (.error error)) [k] (by simp) fun _ => .inl hclosed
    | failed error =>
      exact hended (.queued (.error error)) [] (by simp) fun hk =>
        absurd hk (notMem_opened h hc hbefore)

theorem isolated_startIo (h : x.Isolated) (hcontainer : x.containerOf k = some x.state.containerId)
    (hnone : x.session = none) (hstate : x.state.state ≠ .connecting) : (x.startIo k).Isolated where
  placed :=
    { generation := h.placed.generation
      drawn := h.placed.drawn
      connects := h.placed.connects
      trimmed := h.placed.trimmed
      input := rfl
      passed := h.placed.passed
      opened := h.placed.opened
      kept := by
        intro j hj
        rcases h.placed.kept j hj with hstored | hrest
        · rw [hnone] at hstored
          cases hstored
        · exact .inr hrest }
  painted := { h.painted with }
  stored :=
    { session := by
        intro j hj
        obtain rfl := Option.some.inj hj
        exact hcontainer
      connecting := fun hconnecting => absurd hconnecting hstate }

theorem isolated_completion {result : Except ContainerTerminalError String} (h : x.Isolated)
    (hc : x.connects[k]? = some c) (hqueued : c.phase = .queued result)
    (htimely : c.generation = x.state.generation → x.bumps < c.began + 2 ^ 64) :
    (x.completion k c result).Isolated := by
  have hmem := List.mem_of_getElem? hc
  obtain ⟨hgeneration, hbegan, hplace⟩ := h.placed.connects c hmem
  -- a connect that failed holds no session
  have hlost : ∀ error, result = .error error → k ∈ x.opened →
      x.session = some k ∨ k ∈ x.closed := by
    intro error herror hk
    rcases h.placed.kept k hk with hstored | hclosed | ⟨d, hd, hhas⟩
    · exact .inl hstored
    · exact .inr hclosed
    · rw [hc, Option.some.injEq] at hd
      rw [← hd, hqueued, herror] at hhas
      cases hhas
  have hover : ∀ unused, (k ∈ x.opened → x.session = some k ∨ k ∈ x.closed ++ unused) →
      ({ x with closed := x.closed ++ unused }.setPhase k .over : TerminalTab).Isolated := by
    intro unused hkept
    have hphase : ({ x with opened := x.opened ++ [], closed := x.closed ++ unused }.setPhase k
        .over : TerminalTab).Isolated :=
      isolated_phase _ _ h hc (by simp) (fun j hj => absurd hj List.not_mem_nil) fun hk =>
        (hkept (by simpa using hk)).imp_right .inl
    simpa only [List.append_nil] using hphase
  have hforgotten : ∀ error, result = .error error → (x.setPhase k .over).Isolated := by
    intro error herror
    have hover' := hover [] (by simpa only [List.append_nil] using hlost error herror)
    simpa only [List.append_nil] using hover'
  unfold completion
  dsimp only
  split
  · cases result with
    | ok shell =>
      exact hover [k] fun _ => .inr (List.mem_append_right _ List.mem_cons_self)
    | error error => exact hforgotten error rfl
  · next hmeets =>
    obtain ⟨hsame, hstate⟩ := not_or.mp hmeets
    replace hsame : c.generation = x.state.generation := not_not.mp hsame
    replace hstate : x.state.state = .connecting := not_not.mp hstate
    -- equal generations are equal counts, as the counter has not wrapped meanwhile
    have hnow : c.began = x.bumps := eq_of_ofNat_eq
      (hgeneration.symm.trans (hsame.trans h.placed.generation))
      (hbegan.trans h.placed.drawn) (htimely hsame)
    cases result with
    | ok shell =>
      have happlied : (x.state.applyConnected c.generation shell).1 = true ∧
          (x.state.applyConnected c.generation shell).2.state = .ready :=
        applyConnected_ready hsame hstate
      obtain ⟨hconnected, hready⟩ := happlied
      have hkeeps := keeps_applyConnected (s := x.state) c.generation shell
      have hstarted := isolated_startIo (k := k) (isolated_keeps h hkeeps)
        (by
          show x.containerOf k = some (x.state.applyConnected c.generation shell).2.containerId
          rw [containerOf, hc, Option.map_some, hplace hnow, hkeeps.container])
        (h.stored.connecting hstate) (by
          show (x.state.applyConnected c.generation shell).2.state ≠ .connecting
          rw [hready]
          decide)
      have hnothing : ∀ j ∈ ([] : List Nat), j = k := fun j hj => absurd hj List.not_mem_nil
      have hover : ConnectPhase.over ≠ .running := by simp
      have hdone := isolated_phase _ _ hstarted hc hover hnothing
        fun _ => (.inl rfl : _ ∨ k ∈ _ ++ ([] : List Nat) ∨ _)
      simp only [List.append_nil] at hdone
      dsimp only
      split
      · exact isolated_frame hdone rfl rfl x.resizes none
      · next hrefused => exact absurd hconnected hrefused
    | error error =>
      exact isolated_keeps (isolated_frame (hforgotten error rfl) rfl rfl _ _)
        (keeps_applyConnectError c.generation error).1

/-- Output that meets the generation of the renderer comes from a session of the selected
container. -/
theorem isolated_output {bytes : TerminalBytes} (h : x.Isolated) (hc : x.connects[k]? = some c)
    (htimely : c.generation = x.renderer.generation → x.bumps < c.began + 2 ^ 64) :
    (x.output k c bytes).Isolated := by
  unfold output ContainerTerminalRenderer.process
  by_cases hrefused : c.generation ≠ x.renderer.generation ∨ bytes = []
  · rw [if_pos hrefused]
    exact isolated_frame h rfl rfl _ _
  · rw [if_neg hrefused]
    obtain ⟨hgeneration, hbegan, -⟩ := h.placed.connects c (List.mem_of_getElem? hc)
    have hsame : c.generation = x.renderer.generation := not_not.mp (not_or.mp hrefused).1
    have hnear := htimely hsame
    have hdrawn := h.placed.drawn
    have hnow : c.began = x.drawn := eq_of_ofNat_eq
      (hgeneration.symm.trans (hsame.trans h.painted.generation)) hbegan (by omega)
    have hcontainer := h.painted.connects c (List.mem_of_getElem? hc) hnow
    refine ⟨{ h.placed with },
      ⟨h.painted.generation, h.painted.connects, ?_, fun p hp => ?_⟩,
      { h.stored with }⟩
    · show x.renderer.processed ++ bytes = (x.painted ++ [(k, bytes)]).flatMap (·.2)
      rw [h.painted.isolated.1, List.flatMap_append, List.flatMap_singleton]
    · rcases List.mem_append.mp hp with hp | hp
      · exact h.painted.isolated.2 p hp
      · obtain rfl := List.mem_singleton.mp hp
        show x.containerOf k = _
        rw [containerOf, hc, Option.map_some, hcontainer]

theorem isolated_ended (h : x.Isolated) (c : TerminalConnect)
    (outcome : Except ContainerTerminalError (Option Int)) : (x.ended c outcome).Isolated := by
  unfold ended
  split
  · exact h
  · cases outcome with
    | ok exitCode =>
      have hkept := isolated_keeps h (keeps_applyExited c.generation exitCode)
      exact isolated_closeResources hkept.placed hkept.painted
    | error error =>
      have hkept := isolated_keeps h (keeps_applyStreamError c.generation error)
      exact isolated_closeResources hkept.placed hkept.painted

theorem isolated_resizeFailed (h : x.Isolated) (generation : UInt64)
    (error : ContainerTerminalError) : (x.resizeFailed generation error).Isolated := by
  unfold resizeFailed
  split
  · have hkept := isolated_keeps h (keeps_applyStreamError generation error)
    exact isolated_closeResources hkept.placed hkept.painted
  · exact h

/-! ## Runs -/

theorem isolated_init : ({} : TerminalTab).Isolated where
  placed :=
    { generation := rfl
      drawn := le_rfl
      connects := fun c hc => absurd hc List.not_mem_nil
      trimmed := by decide +kernel
      input := rfl
      passed := fun p hp => absurd hp List.not_mem_nil
      opened := fun k hk => absurd hk List.not_mem_nil
      kept := fun k hk => absurd hk List.not_mem_nil }
  painted := ⟨rfl, fun c hc => absurd hc List.not_mem_nil, rfl,
    fun p hp => absurd hp List.not_mem_nil⟩
  stored := ⟨fun k hk => (by cases hk), fun _ => rfl⟩

theorem isolated_step {y : TerminalTab} {action : TerminalAction} (h : x.Isolated)
    (htimely : x.Timely action) (hstep : terminalTab.step x action = some y) : y.Isolated := by
  cases action with
  | setSelection containerId running services =>
    obtain rfl := Option.some.inj hstep
    exact isolated_setSelection h containerId running services
  | clearSelection =>
    obtain rfl := Option.some.inj hstep
    exact isolated_clearSelection h
  | updateActive active services =>
    obtain rfl := Option.some.inj hstep
    exact isolated_updateActive h active services
  | retry services =>
    obtain rfl := Option.some.inj hstep
    exact isolated_retry h services
  | invalidateContainer containerId =>
    obtain rfl := Option.some.inj hstep
    exact isolated_invalidateContainer h containerId
  | shutdown =>
    obtain rfl := Option.some.inj hstep
    exact isolated_shutdown h
  | resize rows columns =>
    obtain rfl := Option.some.inj hstep
    exact isolated_resize h rows columns
  | queueInput bytes sent =>
    obtain rfl := Option.some.inj hstep
    exact isolated_queueInput h bytes sent
  | connectOpens k =>
    obtain ⟨c, hc, hstep⟩ := Option.bind_eq_some_iff.mp hstep
    obtain ⟨_, hstep⟩ := Option.ite_none_right_eq_some.mp hstep
    obtain rfl := Option.some.inj hstep
    exact isolated_connectOpens h hc
  | connectEnds k result =>
    obtain ⟨c, hc, hstep⟩ := Option.bind_eq_some_iff.mp hstep
    obtain ⟨hbefore, hstep⟩ := Option.ite_none_right_eq_some.mp hstep
    obtain rfl := Option.some.inj hstep
    exact isolated_connectEnds h hc result hbefore
  | completion k =>
    obtain ⟨c, hc, hstep⟩ := Option.bind_eq_some_iff.mp hstep
    match hphase : c.phase with
    | .running | .holding | .over => simp [hphase] at hstep
    | .queued result =>
      rw [hphase] at hstep
      obtain rfl := Option.some.inj hstep
      exact isolated_completion h hc hphase (htimely c hc)
  | output k bytes =>
    obtain ⟨c, hc, hstep⟩ := Option.bind_eq_some_iff.mp hstep
    obtain ⟨_, hstep⟩ := Option.ite_none_right_eq_some.mp hstep
    obtain rfl := Option.some.inj hstep
    exact isolated_output h hc (htimely c hc)
  | ended k outcome =>
    obtain ⟨c, _, hstep⟩ := Option.bind_eq_some_iff.mp hstep
    obtain ⟨_, hstep⟩ := Option.ite_none_right_eq_some.mp hstep
    obtain rfl := Option.some.inj hstep
    exact isolated_ended h c outcome
  | resizeFailed place error =>
    obtain ⟨generation, _, rfl⟩ := Option.map_eq_some_iff.mp hstep
    exact isolated_resizeFailed h generation error

theorem isolated_of_reach (h : terminalTab.Reach Timely x) : x.Isolated :=
  h.invariant (fun _ hinit => hinit ▸ isolated_init) fun _ _ _ hi hok hs => isolated_step hi hok hs

/-- **The terminal tab keeps containers apart.** Input goes to sessions of the container that
is selected, the renderer shows the output of such sessions, and every session that was
obtained is stored, handed to `close`, or still held by its connect: in every run in which
what meets its generation comes before the generations have wrapped around to it. -/
theorem tab_isolated (h : terminalTab.Reach Timely x) :
    x.InputIsolated ∧ x.OutputIsolated ∧ x.SessionsKept :=
  have hi := isolated_of_reach h
  ⟨hi.placed.passed, hi.painted.isolated, hi.placed.kept⟩

instance decidableTimely (x : TerminalTab) : ∀ action, Decidable (x.Timely action)
  | .completion k => inferInstanceAs (Decidable (∀ c ∈ x.connects[k]?,
      c.generation = x.state.generation → x.bumps < c.began + 2 ^ 64))
  | .output k _ => inferInstanceAs (Decidable (∀ c ∈ x.connects[k]?,
      c.generation = x.renderer.generation → x.bumps < c.began + 2 ^ 64))
  | .setSelection .. | .clearSelection | .updateActive .. | .retry .. | .invalidateContainer ..
  | .shutdown | .resize .. | .queueInput .. | .connectOpens .. | .connectEnds .. | .ended ..
  | .resizeFailed .. => inferInstanceAs (Decidable True)

/-- A session of one container, and the session of the next. -/
theorem tab_isolated_of_two : ∃ x : TerminalTab,
    (x.passed = [⟨"A", 0, [0x6C]⟩] ∧ x.painted = [(1, [0x42])] ∧ x.closed = [0]) ∧
      x.InputIsolated ∧ x.OutputIsolated ∧ x.SessionsKept := by
  let start : TerminalTab := {}
  let run : List TerminalAction := [.updateActive true true, .setSelection "A" true true,
    .connectOpens 0, .connectEnds 0 (.session "sh"), .completion 0, .queueInput [0x6C] true,
    .output 0 [0x41], .setSelection "B" true true, .output 0 [0x43], .connectOpens 1,
    .resize 30 100, .connectEnds 1 (.session "sh"), .completion 1, .output 1 [0x42]]
  have hrun : (terminalTab.exec start run).map (fun x => (x.passed, x.painted, x.closed)) =
      some ([⟨"A", 0, [0x6C]⟩], [(1, [0x42])], [0]) := by decide +kernel
  have htimely : terminalTab.AllSteps Timely start run := by decide +kernel
  obtain ⟨x, hx, hend⟩ := Option.map_eq_some_iff.mp hrun
  have hreach : terminalTab.Reach Timely x := Machine.reach_of_exec (.init rfl) htimely hx
  exact ⟨x, by simpa only [Prod.mk.injEq] using hend, tab_isolated hreach⟩

/-! ## When the generations wrap around -/

/-- The tab in generation `n`: B is selected and not running, and a session for A that was
asked for in generation 2 is queued. -/
def idleAt (n : Nat) : TerminalTab where
  state :=
    { state := .exited
      containerId := "B"
      active := true
      generation := UInt64.ofNat n
      inputGeneration := UInt64.ofNat n
      resizeGeneration := UInt64.ofNat n }
  renderer := .new 3 24 80
  connects := [
    { container := "A"
      generation := 2
      began := 2
      cancelled := true
      phase := .queued (.ok "sh") }]
  opened := [0]
  bumps := n
  drawn := 3

theorem step_idleAt (n : Nat) :
    terminalTab.step (idleAt n) (.invalidateContainer "B") = some (idleAt (n + 1)) := by
  have hnext : UInt64.ofNat n + 1 = UInt64.ofNat (n + 1) := by
    rw [UInt64.ofNat_add]
    rfl
  have hevent : (idleAt n).state.containerEventInvalidated "B" =
      (.close (UInt64.ofNat n + 1), { (idleAt n).state with
        generation := UInt64.ofNat n + 1
        inputGeneration := UInt64.ofNat n + 1
        resizeGeneration := UInt64.ofNat n + 1 }) := rfl
  have hbumps : (UInt64.ofNat (n + 1) - (idleAt n).state.generation).toNat = 1 := by
    rw [← hnext]
    show (UInt64.ofNat n + 1 - UInt64.ofNat n).toNat = 1
    rw [UInt64.add_comm, UInt64.add_sub_cancel]
    rfl
  show some ((idleAt n).invalidateContainer "B") = _
  rw [invalidateContainer, hevent, hnext]
  dsimp only [withState]
  rw [hbumps]
  rfl

theorem exec_idleAt : ∀ m n : Nat, terminalTab.exec (idleAt n)
    (List.replicate m (.invalidateContainer "B")) = some (idleAt (n + m))
  | 0, _ => rfl
  | m + 1, n => by
      rw [List.replicate_succ, Machine.exec_cons (step_idleAt n), exec_idleAt m (n + 1),
        Nat.add_right_comm, Nat.add_assoc]

/-- After `2 ^ 64` changes of the generation a session of A is stored while C is selected:
input goes to it, and its output is shown. And a session can wait for the tab: in the task of
its connect, or in the queue. -/
theorem other_container_after_wrap :
    (∃ x, terminalTab.Reach (fun _ _ => True) x ∧ ¬ x.InputIsolated ∧ ¬ x.OutputIsolated) ∧
    ∀ phase ∈ [ConnectPhase.holding, .queued (.ok "sh")],
      ∃ x, terminalTab.Reach (fun _ _ => True) x ∧
        ∃ k ∈ x.opened, x.session ≠ some k ∧ k ∉ x.closed ∧
          x.connects[k]?.map (·.phase) = some phase := by
  let begins : List TerminalAction := [.updateActive true true, .setSelection "A" true true,
    .connectOpens 0, .connectEnds 0 (.session "sh"), .setSelection "B" false true,
    .invalidateContainer "B"]
  let events : List TerminalAction := List.replicate (2 ^ 64 - 4) (.invalidateContainer "B")
  let ends : List TerminalAction := [.setSelection "C" true true, .completion 0,
    .queueInput [0x6C] true, .output 0 [0x41]]
  have hinit : terminalTab.init {} := rfl
  have hbegin : terminalTab.exec {} begins = some (idleAt 4) := by decide +kernel
  have hend : (terminalTab.exec (idleAt (2 ^ 64)) ends).map
      (fun x => (x.passed, x.painted, x.containerOf 0, x.state.containerId)) =
      some ([⟨"C", 0, [0x6C]⟩], [(0, [0x41])], some "A", "C") := by decide +kernel
  constructor
  swap
  · intro phase hphase
    rcases List.mem_pair.mp hphase with rfl | rfl
    · have hheld : (terminalTab.exec {} (begins.take 3)).map (fun x =>
          decide (0 ∈ x.opened ∧ x.session ≠ some 0 ∧ 0 ∉ x.closed ∧
            x.connects[0]?.map (·.phase) = some .holding)) = some true := by decide +kernel
      obtain ⟨x, hx, hheld⟩ := Option.map_eq_some_iff.mp hheld
      exact ⟨x, Machine.reach_of_run hinit hx, 0, of_decide_eq_true hheld⟩
    · exact ⟨idleAt 4, Machine.reach_of_run hinit hbegin, 0, List.mem_cons_self, by decide,
        by decide, rfl⟩
  obtain ⟨x, hx, hend⟩ := Option.map_eq_some_iff.mp hend
  obtain ⟨hpassed, hpainted, hA, hC⟩ : x.passed = [⟨"C", 0, [0x6C]⟩] ∧
      x.painted = [(0, [0x41])] ∧ x.containerOf 0 = some "A" ∧ x.state.containerId = "C" := by
    simpa only [Prod.mk.injEq] using hend
  have hrun : terminalTab.exec {} ((begins ++ events) ++ ends) = some x := by
    rw [Machine.exec_append, Machine.exec_append, hbegin, Option.bind_some, exec_idleAt]
    exact hx
  refine ⟨x, Machine.reach_of_run hinit hrun, fun hinput => ?_, fun houtput => ?_⟩
  · have hcontainer := hinput ⟨"C", 0, [0x6C]⟩ (hpassed ▸ List.mem_cons_self)
    rw [hA] at hcontainer
    exact absurd (Option.some.inj hcontainer) (by decide)
  · have hcontainer := houtput.2 (0, [0x41]) (hpainted ▸ List.mem_cons_self)
    rw [hA, hC] at hcontainer
    exact absurd (Option.some.inj hcontainer) (by decide)

end TerminalTab

end TuxStack.Gui
