import TuxStack.Gui.VolumeDetails
import TuxStack.Gui.Images
import TuxStack.Gui.Networks

/-!
# Results of inspects

The pages of volumes, images and networks as they take the results of inspects. A list that
a refresh receives moves the selection without a new generation of details, and an error
names no resource: an inspect that was started while the list was being read may fail for
the resource that has taken the place of the one it was started for.
-/

namespace TuxStack.Gui

open Runs

/-- **Details belong to the selection** on each of the three pages exactly in the runs in
which no error is taken of an inspect of another resource than the selected one. -/
theorem inspect_results_iff [PageText] :
    (∀ actions, (VolumesState.panel.machine {}).AllStates
        (fun x => x.page.SelectionKnown ∧ VolumesState.panel.Belongs x) { page := {} } actions ↔
      (VolumesState.panel.machine {}).AllSteps VolumesState.panel.ErrorOfSelection
        { page := {} } actions) ∧
    (∀ actions, (ImagesState.panel.machine {}).AllStates
        (fun x => x.page.SelectionKnown ∧ ImagesState.panel.Belongs x) { page := {} } actions ↔
      (ImagesState.panel.machine {}).AllSteps ImagesState.panel.ErrorOfSelection
        { page := {} } actions) ∧
    ∀ actions, (NetworksState.panel.machine {}).AllStates
        (fun x => x.page.SelectionKnown ∧ NetworksState.panel.Belongs x) { page := {} } actions ↔
      (NetworksState.panel.machine {}).AllSteps NetworksState.panel.ErrorOfSelection
        { page := {} } actions := by
  refine ⟨fun actions => ?_, fun actions => ?_, fun actions => ?_⟩
  · exact DetailPanel.belongs_iff VolumesState.lawful_panel (fun _ h => h.selected)
      ⟨.inl rfl, fun _ h => (by cases h)⟩ (by rintro (h | h) <;> cases h) actions
  · exact DetailPanel.belongs_iff ImagesState.lawful_panel (fun _ h => h.selected)
      ⟨.inl rfl, fun _ h => (by cases h)⟩ (by rintro (h | h) <;> cases h) actions
  · exact DetailPanel.belongs_iff NetworksState.lawful_panel (fun _ h => h.selected)
      ⟨.inl rfl, fun _ h => (by cases h)⟩ (by rintro (h | h) <;> cases h) actions

/-- A network is inspected while the list is read again, and is no longer in that list: the
first network is selected instead, and shows the error of the inspect. -/
theorem NetworksState.error_of_another_network :
    letI := asciiTexts
    ¬ (panel.machine {}).AllStates (fun x => x.page.SelectionKnown ∧ panel.Belongs x)
      { page := {} }
      [.call .beginRefresh,
        .call (.applyList 1 [⟨"a1", "a1", "front", "bridge", none, none, none, []⟩]),
        .call .beginRefresh, .call .beginSelectedInspect,
        .call (.applyList 2 [⟨"b2", "b2", "back", "bridge", none, none, none, []⟩]),
        .error 0 (.networkNotFound "a1")] := by
  let texts := asciiTexts
  intro hstates
  have hlist := ((((hstates.2 _ rfl).2 _ rfl).2 _ rfl).2 _ rfl).2 _ rfl
  have hbelongs := (hlist.2 _ (Option.map_eq_some_iff.mpr
    ⟨(3, "a1"), by decide +kernel, rfl⟩)).2
  obtain ⟨result, hlast, -⟩ := hbelongs (Or.inr (by decide +kernel))
  have hselected : Option.map Prod.fst _ = some (panel.selected _) :=
    congrArg (Option.map Prod.fst) hlast
  revert hselected
  decide +kernel

end TuxStack.Gui
