import Mathlib
import TuxStack.Docker.Events

/-!
# Batches of events

What `run_monitor` publishes of a whole stream. A batch can be flushed by a late event, a broken
stream, the timer or the end of the loop, and the event that closes a batch opens the next one.
So the batches are a partition of the accepted events in their order (`batches_conserved`), and
a notification says of its batch how many events and which kinds there were, and the first
container changes (`Describes`).
-/

namespace TuxStack.Docker

/-- An event that the classifier has accepted. -/
abbrev AcceptedEvent := ChangeKind × DockerEvent

def changesOf (events : List AcceptedEvent) : List ContainerChange :=
  events.filterMap fun e =>
    if e.1 = .containers then some ⟨e.2.actorId.getD "", e.2.action⟩ else none

/-- **What a notification says of a batch**: how many events, which kinds in the fixed order, and
the first 256 of the different container changes in the order in which they were seen first. -/
structure Describes (batch : List AcceptedEvent) (notification : ChangeNotification) : Prop where
  burst : notification.burst = batch.length
  kinds : notification.kinds = kindOrder.filter fun kind => ∃ e ∈ batch, e.1 = kind
  changes : notification.containerChanges = (changesOf batch).eraseDups.take maxContainerChanges
  truncated : notification.containerChangesTruncated = true ↔
    maxContainerChanges < (changesOf batch).eraseDups.length

/-! ## A batch that is collected -/

structure Collected (batch : PendingBatch) (events : List AcceptedEvent) : Prop where
  burst : batch.burst = events.length
  kinds : ∀ kind, kind ∈ batch.kinds ↔ ∃ e ∈ events, e.1 = kind
  changes : batch.containerChanges = (changesOf events).eraseDups.take maxContainerChanges
  truncated : batch.containerChangesTruncated = true ↔
    maxContainerChanges < (changesOf events).eraseDups.length

theorem changesOf_concat (events : List AcceptedEvent) (kind : ChangeKind) (event : DockerEvent) :
    changesOf (events ++ [(kind, event)]) =
      changesOf events ++
        if kind = .containers then [⟨event.actorId.getD "", event.action⟩] else [] := by
  unfold changesOf
  rw [List.filterMap_append]
  split
  · next hkind => simp [hkind]
  · next hkind => simp [hkind]

theorem eraseDups_concat {α : Type} [DecidableEq α] (as : List α) (a : α) :
    (as ++ [a]).eraseDups = as.eraseDups ++ if a ∈ as then [] else [a] := by
  rw [List.eraseDups_append]
  congr 1
  by_cases hmem : a ∈ as
  · simp [List.removeAll, hmem]
  · simp [List.removeAll, hmem, List.eraseDups_cons]

theorem collected_empty : Collected ⟨∅, [], false, 0⟩ [] where
  burst := rfl
  kinds _ := by simp
  changes := rfl
  truncated := by simp [changesOf]

variable {events : List AcceptedEvent} {batch : PendingBatch}

theorem Collected.add (h : Collected batch events) (kind : ChangeKind) (event : DockerEvent) :
    Collected (batch.add kind event) (events ++ [(kind, event)]) := by
  have hburst : (batch.add kind event).burst = batch.burst + 1 := by
    unfold PendingBatch.add
    dsimp only
    split
    · rfl
    · split
      · rfl
      · split <;> rfl
  have hkinds : (batch.add kind event).kinds = insert kind batch.kinds := by
    unfold PendingBatch.add
    dsimp only
    split
    · rfl
    · split
      · rfl
      · split <;> rfl
  have hchanges : (batch.add kind event).containerChanges =
        (changesOf (events ++ [(kind, event)])).eraseDups.take maxContainerChanges ∧
      ((batch.add kind event).containerChangesTruncated = true ↔
        maxContainerChanges < (changesOf (events ++ [(kind, event)])).eraseDups.length) := by
    rw [changesOf_concat]
    by_cases hkind : kind = .containers
    · rw [if_pos hkind, eraseDups_concat]
      unfold PendingBatch.add
      simp only [hkind, ne_eq, not_true_eq_false, if_false]
      have hmem : ∀ change, change ∈ (changesOf events).eraseDups ↔ change ∈ changesOf events :=
        fun change => List.mem_eraseDups
      have htruncated := h.truncated
      rw [h.changes]
      generalize (changesOf events).eraseDups = seen at *
      by_cases hseen : (⟨event.actorId.getD "", event.action⟩ : ContainerChange) ∈ changesOf events
      · -- a change that is known; if it is behind the cap, the cap was passed before
        rw [if_pos hseen, List.append_nil]
        split
        · exact ⟨rfl, htruncated⟩
        · next hout =>
          -- known and not among the changes kept, so the cap was passed before
          have hpast : maxContainerChanges < seen.length := by
            by_contra hle
            rw [List.take_of_length_le (Nat.le_of_not_lt hle)] at hout
            exact hout ((hmem _).mpr hseen)
          rw [if_pos (by rw [List.length_take]; omega)]
          exact ⟨rfl, fun _ => hpast, fun _ => rfl⟩
      · rw [if_neg hseen, if_neg fun hin => hseen ((hmem _).mp (List.mem_of_mem_take hin))]
        split
        · next hfull =>
          rw [List.length_take] at hfull
          rw [List.take_append_of_le_length (by omega), List.length_append, List.length_singleton]
          exact ⟨rfl, fun _ => by omega, fun _ => rfl⟩
        · next hroom =>
          rw [List.length_take] at hroom
          have hlength : seen.length < maxContainerChanges := by omega
          rw [List.take_of_length_le hlength.le, List.take_of_length_le
            (by rw [List.length_append, List.length_singleton]; omega),
            List.length_append, List.length_singleton]
          refine ⟨rfl, htruncated.trans ?_⟩
          omega
    · rw [if_neg hkind, List.append_nil]
      unfold PendingBatch.add
      simp only [ne_eq, hkind, not_false_eq_true, if_true]
      exact ⟨h.changes, h.truncated⟩
  constructor
  · rw [hburst, h.burst, List.length_append, List.length_singleton]
  · intro other
    rw [hkinds, Finset.mem_insert, h.kinds]
    simp only [List.mem_append, List.mem_singleton]
    constructor
    · rintro (rfl | ⟨e, he, rfl⟩)
      · exact ⟨_, .inr rfl, rfl⟩
      · exact ⟨e, .inl he, rfl⟩
    · rintro ⟨e, he | rfl, rfl⟩
      · exact .inr ⟨e, he, rfl⟩
      · exact .inl rfl
  · exact hchanges.1
  · exact hchanges.2

theorem collected_new (kind : ChangeKind) (event : DockerEvent) :
    Collected (.new kind event) [(kind, event)] :=
  collected_empty.add kind event

theorem Collected.describes (h : Collected batch events) (reconnected : Bool) :
    Describes events (batch.notification reconnected) where
  burst := h.burst
  kinds := by
    refine List.filter_congr fun kind _ => ?_
    exact decide_eq_decide.mpr (h.kinds kind)
  changes := h.changes
  truncated := h.truncated

/-! ## A whole run -/

variable {classify : DockerEvent → Option ChangeKind} {m m' : Monitor}

def accepted (classify : DockerEvent → Option ChangeKind) (inputs : List MonitorInput) :
    List AcceptedEvent :=
  inputs.filterMap fun input =>
    match input with
    | .event event _ => (classify event).map fun kind => (kind, event)
    | _ => none

/-- The loop of `run_monitor` over its inputs, with all that it publishes. -/
def Monitor.run (classify : DockerEvent → Option ChangeKind) :
    Monitor → List MonitorInput → Option (Monitor × List ChangeNotification)
  | m, [] => some (m, [])
  | m, input :: inputs => do
      let (m, published) ← m.step classify input
      let (m, more) ← run classify m inputs
      some (m, published.toList ++ more)

/-- These accepted events are in the batch that is not published. -/
def Waiting (m : Monitor) (events : List AcceptedEvent) : Prop :=
  match m.pending with
  | none => events = []
  | some batch => Collected batch events

theorem waiting_none (h : m.pending = none) : Waiting m events ↔ events = [] := by
  unfold Waiting
  rw [h]

theorem waiting_some (h : m.pending = some batch) : Waiting m events ↔ Collected batch events := by
  unfold Waiting
  rw [h]

theorem Waiting.flush (h : Waiting m events) :
    (m.pending.map fun batch => batch.notification m.reconnected) = none ∧ events = [] ∨
      ∃ notification, (m.pending.map fun batch => batch.notification m.reconnected) =
        some notification ∧ Describes events notification := by
  cases hpending : m.pending with
  | none => exact .inl ⟨rfl, (waiting_none hpending).mp h⟩
  | some batch => exact .inr ⟨_, rfl, ((waiting_some hpending).mp h).describes _⟩

variable {input : MonitorInput} {published : Option ChangeNotification}

/-- **One round** either keeps what waits and adds what it has accepted, or publishes what waits
as one batch. -/
theorem Waiting.step (h : Waiting m events) (hstep : m.step classify input = some (m', published)) :
    (published = none ∧ Waiting m' (events ++ accepted classify [input])) ∨
      ∃ notification, published = some notification ∧ Describes events notification ∧
        Waiting m' (accepted classify [input]) := by
  obtain ⟨pending, reconnected, phase⟩ := m
  cases input with
  | event event elapsed =>
    cases phase with
    | backingOff | stopped => cases hstep
    | watching =>
      cases hkind : classify event with
      | none =>
        simp only [Monitor.step, hkind] at hstep
        cases hstep
        have hnone : accepted classify [.event event elapsed] = [] := by
          simp [accepted, hkind]
        rw [hnone, List.append_nil]
        exact .inl ⟨rfl, h⟩
      | some kind =>
        have hone : accepted classify [.event event elapsed] = [(kind, event)] := by
          simp [accepted, hkind]
        rw [hone]
        cases pending with
        | none =>
          simp only [Monitor.step, hkind] at hstep
          cases hstep
          have hnil : events = [] := h
          rw [hnil]
          exact .inl ⟨rfl, collected_new kind event⟩
        | some batch =>
          simp only [Monitor.step, hkind] at hstep
          -- a full batch is published, and the event begins the next one
          split at hstep
          · cases hstep
            exact .inr ⟨_, rfl, Collected.describes h _, collected_new kind event⟩
          · cases hstep
            exact .inl ⟨rfl, Collected.add h kind event⟩
  | broken =>
    cases phase with
    | watching =>
      cases hstep
      rcases h.flush with ⟨hnone, hnil⟩ | ⟨notification, hsome, hdescribes⟩
      · exact .inl ⟨hnone, by rw [hnil]; rfl⟩
      · exact .inr ⟨notification, hsome, hdescribes, rfl⟩
    | backingOff | stopped => cases hstep
  | resume client =>
    cases phase with
    | backingOff =>
      cases hstep
      exact .inl ⟨rfl, by rw [show accepted classify [.resume client] = [] from rfl,
        List.append_nil]; exact h⟩
    | watching | stopped => cases hstep
  | tick =>
    cases phase with
    | watching =>
      cases pending with
      | none =>
        cases hstep
        have hnil : events = [] := h
        rw [hnil]
        exact .inl ⟨rfl, rfl⟩
      | some batch =>
        cases hstep
        exact .inr ⟨_, rfl, Collected.describes h _, rfl⟩
    | backingOff | stopped => cases hstep
  | cancel =>
    have hflushed : m'.pending = none ∧ published =
        (pending.map fun batch => batch.notification reconnected) := by
      cases phase with
      | watching | backingOff =>
        cases hstep
        exact ⟨rfl, rfl⟩
      | stopped => cases hstep
    obtain ⟨hpending, hpublished⟩ := hflushed
    rcases h.flush with ⟨hnone, hnil⟩ | ⟨notification, hsome, hdescribes⟩
    · refine .inl ⟨hpublished.trans hnone, (waiting_none hpending).mpr ?_⟩
      rw [hnil]
      rfl
    · exact .inr ⟨notification, hpublished.trans hsome, hdescribes, (waiting_none hpending).mpr rfl⟩

theorem accepted_cons (input : MonitorInput) (inputs : List MonitorInput) :
    accepted classify (input :: inputs) =
      accepted classify [input] ++ accepted classify inputs := by
  rw [← List.singleton_append]
  exact List.filterMap_append

/-- **A run cuts the accepted events into batches**, and the last one waits. -/
theorem Waiting.run : ∀ {inputs : List MonitorInput}
    {m m' : Monitor} {events : List AcceptedEvent} {notifications : List ChangeNotification},
    Waiting m events → m.run classify inputs = some (m', notifications) →
      ∃ batches rest, (batches ++ [rest]).flatten = events ++ accepted classify inputs ∧
        List.Forall₂ Describes batches notifications ∧ Waiting m' rest := by
  intro inputs
  induction inputs with
  | nil =>
    intro m m' events notifications h hrun
    cases hrun
    exact ⟨[], events, rfl, .nil, h⟩
  | cons input inputs ih =>
    intro m m' events notifications h hrun
    obtain ⟨⟨m₁, published⟩, hstep, hrun⟩ := Option.bind_eq_some_iff.mp hrun
    obtain ⟨⟨m₂, more⟩, hmore, hrun⟩ := Option.bind_eq_some_iff.mp hrun
    cases hrun
    rcases h.step hstep with ⟨rfl, hwaiting⟩ | ⟨notification, rfl, hdescribes, hwaiting⟩
    · obtain ⟨batches, rest, hflatten, hall, hrest⟩ := ih hwaiting hmore
      refine ⟨batches, rest, ?_, hall, hrest⟩
      rw [hflatten, accepted_cons input inputs, List.append_assoc]
    · obtain ⟨batches, rest, hflatten, hall, hrest⟩ := ih hwaiting hmore
      refine ⟨events :: batches, rest, ?_, .cons hdescribes hall, hrest⟩
      rw [List.cons_append, List.flatten_cons, hflatten, accepted_cons input inputs]

theorem idle_step (h : m.phase ≠ .watching → m.pending = none)
    (hstep : m.step classify input = some (m', published)) :
    m'.phase ≠ .watching → m'.pending = none := by
  obtain ⟨pending, reconnected, phase⟩ := m
  cases phase with
  | watching =>
    cases input with
    | event event elapsed =>
      simp only [Monitor.step] at hstep
      split at hstep
      · cases hstep
        exact h
      · split at hstep
        · cases hstep
          exact fun hphase => absurd rfl hphase
        · split at hstep <;> cases hstep <;> exact fun hphase => absurd rfl hphase
      · cases hstep
    | broken | cancel =>
      cases hstep
      exact fun _ => rfl
    | resume client => cases hstep
    | tick =>
      cases pending <;> cases hstep <;> exact fun hphase => absurd rfl hphase
  | backingOff =>
    have hnone : pending = none := h fun hphase => nomatch hphase
    cases input with
    | event event elapsed | broken | tick => cases hstep
    | resume client =>
      cases hstep
      exact fun _ => hnone
    | cancel =>
      cases hstep
      exact fun _ => rfl
  | stopped => cases input <;> cases hstep

theorem idle_run : ∀ {inputs : List MonitorInput} {m m' : Monitor}
    {notifications : List ChangeNotification}, (m.phase ≠ .watching → m.pending = none) →
    m.run classify inputs = some (m', notifications) →
    m'.phase ≠ .watching → m'.pending = none := by
  intro inputs
  induction inputs with
  | nil =>
    intro m m' notifications h hrun
    cases hrun
    exact h
  | cons input inputs ih =>
    intro m m' notifications h hrun
    obtain ⟨⟨m₁, published⟩, hstep, hrun⟩ := Option.bind_eq_some_iff.mp hrun
    obtain ⟨⟨m₂, more⟩, hmore, hrun⟩ := Option.bind_eq_some_iff.mp hrun
    cases hrun
    exact ih (idle_step h hstep) hmore

/-- **Batches conserve events.** When the loop of the monitor has ended, the accepted events are
cut into batches, each described by one notification, and the bursts sum up to their number. -/
theorem batches_conserved (classify : DockerEvent → Option ChangeKind) (inputs : List MonitorInput)
    (m : Monitor) (notifications : List ChangeNotification)
    (hrun : Monitor.initial.run classify inputs = some (m, notifications))
    (hstopped : m.phase = .stopped) :
    (∃ batches, batches.flatten = accepted classify inputs ∧
      List.Forall₂ Describes batches notifications) ∧
      (notifications.map fun notification => notification.burst).sum =
        (accepted classify inputs).length := by
  have hstart : Waiting Monitor.initial [] := rfl
  obtain ⟨batches, rest, hflatten, hall, hrest⟩ := hstart.run hrun
  have hpending : m.pending = none :=
    idle_run (fun _ => rfl) hrun (by rw [hstopped]; exact fun hphase => nomatch hphase)
  rw [(waiting_none hpending).mp hrest, List.flatten_append, List.nil_append,
    List.flatten_singleton, List.append_nil] at hflatten
  refine ⟨⟨batches, hflatten, hall⟩, ?_⟩
  rw [← hflatten, List.length_flatten]
  clear hflatten hrun
  induction hall with
  | nil => rfl
  | cons hdescribes _ ih => rw [List.map_cons, List.map_cons, List.sum_cons, List.sum_cons, ih,
      hdescribes.burst]

/-- An image event, a pause of the stream, two equal container events and the end. -/
def sampleInputs : List MonitorInput :=
  [.event ⟨"image", "pull", some "a", []⟩ false, .broken, .resume true,
    .event ⟨"container", "start", some "b", []⟩ false,
    .event ⟨"container", "start", some "b", []⟩ false, .cancel]

/-- Three accepted events in two notifications. -/
theorem sample_conserved : ∃ m notifications,
    Monitor.initial.run defaultClassify sampleInputs = some (m, notifications) ∧
    (∃ batches, batches.flatten = accepted defaultClassify sampleInputs ∧
      List.Forall₂ Describes batches notifications) ∧
      (notifications.map fun notification => notification.burst).sum =
        (accepted defaultClassify sampleInputs).length :=
  ⟨_, _, rfl, batches_conserved defaultClassify sampleInputs _ _ rfl rfl⟩

end TuxStack.Docker
