import TuxStack.Docker.Events
import TuxStack.Lib.Runs

/-!
# From the monitor to the namespace

`start_events`, `handle_change` and `publish_change` of
`crates/tuxstack-daemon/src/state.rs`. The monitor sends its notifications into a
watch channel, which keeps the last one only; the consumer notices that there is
something new, takes what the channel holds by then and is busy with it for as long as
the rebuild takes.

A notification that has not been taken is gone with the next one, and with it the
kinds that the next one does not have (`change_overwritten`). `no_change_lost` says
that nothing else loses a change.
-/

namespace TuxStack.Daemon

open Docker Runs

/-! ## The consumer -/

/-- `starting` is before `subscribe`, `noticed` is between `changed` and
`borrow_and_update`. -/
inductive Consumer where
  | starting
  | waiting
  | noticed
  | handling (notification : ChangeNotification)
deriving DecidableEq

/-- A change of a container, an image or a volume. -/
def isNamespaceKind : ChangeKind → Bool
  | .containers | .images | .volumes => true
  | .networks | .daemon => false

/-- The test at the head of `handle_change`. -/
def rebuilds (notification : ChangeNotification) : Bool := notification.kinds.any isNamespaceKind

inductive ResourceKind where
  | container
  | image
  | volume
deriving DecidableEq

/-- The events of `publish_change`; networks and the daemon have none. -/
def publishChange (notification : ChangeNotification) : List ResourceKind :=
  notification.kinds.filterMap fun
    | .containers => some .container
    | .images => some .image
    | .volumes => some .volume
    | .networks | .daemon => none

/-- What happened, oldest first. `handled` ends `handle_change` and says whether it has
run `rebuild_namespace` and which resources it has declared stale. -/
inductive Entry where
  | published (notification : ChangeNotification)
  | taken (notification : ChangeNotification)
  | handled (notification : ChangeNotification) (rebuilt : Bool) (stale : List ResourceKind)
deriving DecidableEq

/-- The monitor, the channel and the consumer. `unseen` compares the versions of the
sender and the receiver. -/
structure Pipeline where
  monitor : Monitor
  slot : Option ChangeNotification
  unseen : Bool
  consumer : Consumer
  log : List Entry

/-- `watch::Sender::send`: without a receiver the value is not stored. -/
def Pipeline.send (s : Pipeline) (notification : ChangeNotification) : Pipeline :=
  if s.consumer = .starting then { s with log := s.log ++ [.published notification] }
  else
    { s with
      slot := some notification
      unseen := true
      log := s.log ++ [.published notification] }

inductive Move where
  | monitor (input : MonitorInput)
  | subscribe
  | notice
  | take
  | finish

def Move.byConsumer : Move → Bool
  | .monitor _ => false
  | _ => true

def Pipeline.fresh : Pipeline := ⟨.initial, none, false, .starting, []⟩

def changes (classify : DockerEvent → Option ChangeKind) : Machine Pipeline Move where
  init s := s = .fresh
  step s
    | .monitor input =>
      match s.monitor.step classify input with
      | some (m, none) => some { s with monitor := m }
      | some (m, some notification) => some (Pipeline.send { s with monitor := m } notification)
      | none => none
    | .subscribe =>
      if s.consumer = .starting then some { s with consumer := .waiting, unseen := false } else none
    | .notice =>
      if s.consumer = .waiting ∧ s.unseen = true then
        some { s with consumer := .noticed, unseen := false }
      else none
    | .take =>
      if s.consumer = .noticed then
        match s.slot with
        | none => some { s with consumer := .waiting, unseen := false }
        | some notification =>
          some
            { s with
              consumer := .handling notification
              unseen := false
              log := s.log ++ [.taken notification] }
      else none
    | .finish =>
      match s.consumer with
      | .handling notification =>
        some
          { s with
            consumer := .waiting
            log := s.log ++
              [.handled notification (rebuilds notification) (publishChange notification)] }
      | _ => none

/-! ## Nothing is lost -/

variable {classify : DockerEvent → Option ChangeKind}

/-- The channel holds a notification that the consumer has not taken. -/
def Pipeline.Unread (s : Pipeline) : Prop := s.unseen = true ∨ s.consumer = .noticed

instance (s : Pipeline) : Decidable s.Unread :=
  inferInstanceAs (Decidable (s.unseen = true ∨ s.consumer = .noticed))

/-- What the monitor publishes on an input. -/
def Pipeline.publishes (classify : DockerEvent → Option ChangeKind) (s : Pipeline)
    (input : MonitorInput) : Option ChangeNotification :=
  (s.monitor.step classify input).bind fun next => next.2

/-- The monitor publishes to a consumer, and what it overwrites unread has no kind
that the new notification does not have. -/
def KeepsUnread (classify : DockerEvent → Option ChangeKind) (s : Pipeline) : Move → Prop
  | .monitor input =>
    ∀ notification ∈ s.publishes classify input, s.consumer ≠ .starting ∧
      (s.Unread → ∀ old ∈ s.slot, old.kinds ⊆ notification.kinds)
  | _ => True

instance (s : Pipeline) : ∀ a, Decidable (KeepsUnread classify s a)
  | .monitor input =>
    inferInstanceAs (Decidable (∀ notification ∈ s.publishes classify input,
      s.consumer ≠ .starting ∧ (s.Unread → ∀ old ∈ s.slot, old.kinds ⊆ notification.kinds)))
  | .subscribe | .notice | .take | .finish => inferInstanceAs (Decidable True)

/-- After the `i`th entry the consumer has taken a notification with the kind. -/
def TakenAfter (log : List Entry) (i : Nat) (kind : ChangeKind) : Prop :=
  ∃ j notification, i < j ∧ log[j]? = some (.taken notification) ∧ kind ∈ notification.kinds

/-- After the `j`th entry the consumer has handled the notification. -/
def HandledAfter (log : List Entry) (j : Nat) (notification : ChangeNotification) : Prop :=
  ∃ l, j < l ∧
    log[l]? = some (.handled notification (rebuilds notification) (publishChange notification))

variable {s : Pipeline} {notification : ChangeNotification} {i : Nat} {kind : ChangeKind}
  {log : List Entry}

theorem TakenAfter.append (h : TakenAfter log i kind) (more : List Entry) :
    TakenAfter (log ++ more) i kind := by
  obtain ⟨j, m, hij, hj, hk⟩ := h
  refine ⟨j, m, hij, ?_, hk⟩
  rw [List.getElem?_append_left (List.getElem?_eq_some_iff.mp hj).1]
  exact hj

theorem HandledAfter.append {j : Nat} (h : HandledAfter log j notification) (more : List Entry) :
    HandledAfter (log ++ more) j notification := by
  obtain ⟨l, hjl, hl⟩ := h
  refine ⟨l, hjl, ?_⟩
  rw [List.getElem?_append_left (List.getElem?_eq_some_iff.mp hl).1]
  exact hl

structure Pipeline.Inv (s : Pipeline) : Prop where
  stored : s.Unread → ∃ notification, s.slot = some notification
  quiet : s.consumer = .starting → ∀ notification, .published notification ∉ s.log
  owed : ∀ i notification kind, s.log[i]? = some (.published notification) →
    kind ∈ notification.kinds → TakenAfter s.log i kind ∨
      (s.Unread ∧ ∃ unread, s.slot = some unread ∧ kind ∈ unread.kinds)
  handled : ∀ j notification, s.log[j]? = some (.taken notification) →
    HandledAfter s.log j notification ∨ s.consumer = .handling notification

theorem Pipeline.Inv.fresh : Pipeline.fresh.Inv :=
  ⟨by simp [Pipeline.fresh, Pipeline.Unread], by simp [Pipeline.fresh],
    by simp [Pipeline.fresh], by simp [Pipeline.fresh]⟩

theorem Pipeline.Inv.send (h : s.Inv) (hconsumer : s.consumer ≠ .starting)
    (hkeeps : s.Unread → ∀ old ∈ s.slot, old.kinds ⊆ notification.kinds) :
    (s.send notification).Inv := by
  rw [Pipeline.send, if_neg hconsumer]
  refine ⟨fun _ => ⟨notification, rfl⟩, fun hstarting => absurd hstarting hconsumer, ?_, ?_⟩
  · intro i n kind hi hkind
    rcases getElem?_concat hi with hi | ⟨-, hn⟩
    · rcases h.owed i n kind hi hkind with htaken | ⟨hunread, old, hold, hin⟩
      · exact .inl (htaken.append _)
      · exact .inr ⟨.inl rfl, notification, rfl, hkeeps hunread old hold hin⟩
    · cases hn
      exact .inr ⟨.inl rfl, notification, rfl, hkind⟩
  · intro j n hj
    rcases getElem?_concat hj with hj | ⟨-, hn⟩
    · exact (h.handled j n hj).imp_left fun hdone => hdone.append _
    · cases hn

theorem Pipeline.Inv.subscribe (h : s.Inv) (hconsumer : s.consumer = .starting) :
    Pipeline.Inv { s with consumer := .waiting, unseen := false } := by
  refine ⟨by simp [Pipeline.Unread], by simp, ?_, ?_⟩
  · intro i n kind hi _
    exact absurd (List.mem_of_getElem? hi) (h.quiet hconsumer n)
  · intro j n hj
    rcases h.handled j n hj with hdone | hbusy
    · exact .inl hdone
    · rw [hconsumer] at hbusy
      cases hbusy

theorem Pipeline.Inv.notice (h : s.Inv) (hconsumer : s.consumer = .waiting)
    (hunseen : s.unseen = true) :
    Pipeline.Inv { s with consumer := .noticed, unseen := false } := by
  refine ⟨fun _ => h.stored (.inl hunseen), by simp, ?_, ?_⟩
  · intro i n kind hi hkind
    exact (h.owed i n kind hi hkind).imp_right fun hunread => ⟨.inr rfl, hunread.2⟩
  · intro j n hj
    rcases h.handled j n hj with hdone | hbusy
    · exact .inl hdone
    · rw [hconsumer] at hbusy
      cases hbusy

theorem Pipeline.Inv.take (h : s.Inv) (hconsumer : s.consumer = .noticed)
    (hslot : s.slot = some notification) : Pipeline.Inv
      { s with
        consumer := .handling notification
        unseen := false
        log := s.log ++ [.taken notification] } := by
  refine ⟨by simp [Pipeline.Unread], by simp, ?_, ?_⟩
  · intro i n kind hi hkind
    rcases getElem?_concat hi with hi | ⟨-, hn⟩
    · rcases h.owed i n kind hi hkind with htaken | ⟨-, unread, hunread, hin⟩
      · exact .inl (htaken.append _)
      · rw [hslot] at hunread
        cases hunread
        have hlt : i < s.log.length := (List.getElem?_eq_some_iff.mp hi).1
        exact .inl ⟨s.log.length, notification, hlt, List.getElem?_concat_length, hin⟩
    · cases hn
  · intro j n hj
    rcases getElem?_concat hj with hj | ⟨-, hn⟩
    · rcases h.handled j n hj with hdone | hbusy
      · exact .inl (hdone.append _)
      · rw [hconsumer] at hbusy
        cases hbusy
    · cases hn
      exact .inr rfl

theorem Pipeline.Inv.finish (h : s.Inv) (hconsumer : s.consumer = .handling notification) :
    Pipeline.Inv
      { s with
        consumer := .waiting
        log := s.log ++
          [.handled notification (rebuilds notification) (publishChange notification)] } := by
  have hread : ¬ s.consumer = .noticed := by simp [hconsumer]
  refine ⟨?_, by simp, ?_, ?_⟩
  · rintro (hunseen | hnoticed)
    · exact h.stored (.inl hunseen)
    · cases hnoticed
  · intro i n kind hi hkind
    rcases getElem?_concat hi with hi | ⟨-, hn⟩
    · rcases h.owed i n kind hi hkind with htaken | ⟨hunread, hslot⟩
      · exact .inl (htaken.append _)
      · exact .inr ⟨.inl (hunread.resolve_right hread), hslot⟩
    · cases hn
  · intro j n hj
    rcases getElem?_concat hj with hj | ⟨-, hn⟩
    · rcases h.handled j n hj with hdone | hbusy
      · exact .inl (hdone.append _)
      · rw [hconsumer] at hbusy
        cases hbusy
        have hlt : j < s.log.length := (List.getElem?_eq_some_iff.mp hj).1
        exact .inl ⟨s.log.length, hlt, List.getElem?_concat_length⟩
    · cases hn

theorem Pipeline.Inv.step {s' : Pipeline} {a : Move} (h : s.Inv) (hok : KeepsUnread classify s a)
    (hstep : (changes classify).step s a = some s') : s'.Inv := by
  cases a with
  | monitor input =>
    simp only [changes] at hstep
    split at hstep
    · cases hstep
      exact { h with }
    · rename_i m notification hmonitor
      cases hstep
      obtain ⟨hconsumer, hkeeps⟩ := hok notification (by simp [Pipeline.publishes, hmonitor])
      have hsame : Pipeline.Inv { s with monitor := m } := { h with }
      exact hsame.send hconsumer hkeeps
    · cases hstep
  | subscribe =>
    simp only [changes] at hstep
    split at hstep
    · rename_i hconsumer
      cases hstep
      exact h.subscribe hconsumer
    · cases hstep
  | notice =>
    simp only [changes] at hstep
    split at hstep
    · rename_i hready
      cases hstep
      exact h.notice hready.1 hready.2
    · cases hstep
  | take =>
    simp only [changes] at hstep
    split at hstep
    · rename_i hconsumer
      obtain ⟨notification, hslot⟩ := h.stored (.inr hconsumer)
      have htaken := h.take hconsumer hslot
      rw [hslot] at hstep htaken
      cases hstep
      exact htaken
    · cases hstep
  | finish =>
    simp only [changes] at hstep
    split at hstep
    · rename_i notification hconsumer
      cases hstep
      exact h.finish hconsumer
    · cases hstep

/-! ## The consumer gets there -/

/-- The consumer has nothing left to do. -/
def Pipeline.Settled (s : Pipeline) : Prop :=
  s.consumer = .starting ∨ (s.consumer = .waiting ∧ s.unseen = false)

/-- The steps of the consumer alone lead to a state in which it has nothing left to
do; they only add to the log. -/
theorem Pipeline.Inv.settles (h : s.Inv) :
    ∃ as s', (∀ a ∈ as, a.byConsumer = true) ∧ (changes classify).exec s as = some s' ∧
      s'.Inv ∧ s'.Settled ∧ s.log <+: s'.log := by
  -- one round after the consumer has noticed something
  have hnoticed : ∀ {s : Pipeline}, s.Inv → s.consumer = .noticed →
      ∃ s', (changes classify).exec s [.take, .finish] = some s' ∧ s'.Inv ∧ s'.Settled ∧
        s.log <+: s'.log := by
    intro s h hconsumer
    obtain ⟨n, hslot⟩ := h.stored (.inr hconsumer)
    have hdone := (h.take hconsumer hslot).finish rfl
    refine ⟨_, ?_, hdone, .inr ⟨rfl, rfl⟩, ?_⟩
    · simp [Machine.exec, changes, hconsumer, hslot]
    · exact (List.prefix_append _ _).trans (List.prefix_append _ _)
  have hwaiting : ∀ {s : Pipeline}, s.Inv → s.consumer = .waiting →
      ∃ as s', (∀ a ∈ as, a.byConsumer = true) ∧ (changes classify).exec s as = some s' ∧
        s'.Inv ∧ s'.Settled ∧ s.log <+: s'.log := by
    intro s h hconsumer
    cases hunseen : s.unseen with
    | false =>
      exact ⟨[], s, by simp, rfl, h, .inr ⟨hconsumer, hunseen⟩, List.prefix_refl _⟩
    | true =>
      obtain ⟨s', hrun, hinv, hsettled, hlog⟩ := hnoticed (h.notice hconsumer hunseen) rfl
      refine ⟨[.notice, .take, .finish], s', by simp [Move.byConsumer], ?_, hinv, hsettled, hlog⟩
      have hfirst : (changes classify).step s .notice =
          some { s with consumer := .noticed, unseen := false } := by
        simp [changes, hconsumer, hunseen]
      rw [Machine.exec, hfirst]
      exact hrun
  cases hconsumer : s.consumer with
  | starting => exact ⟨[], s, by simp, rfl, h, .inl hconsumer, List.prefix_refl _⟩
  | waiting => exact hwaiting h hconsumer
  | noticed =>
    obtain ⟨s', hrun, hrest⟩ := hnoticed h hconsumer
    exact ⟨[.take, .finish], s', by simp [Move.byConsumer], hrun, hrest⟩
  | handling n =>
    obtain ⟨as, s', hconsumers, hrun, hinv, hsettled, hlog⟩ := hwaiting (h.finish hconsumer) rfl
    refine ⟨.finish :: as, s', by simpa [Move.byConsumer] using hconsumers, ?_, hinv, hsettled,
      (List.prefix_append _ _).trans hlog⟩
    have hfirst : (changes classify).step s .finish = some
        { s with
          consumer := .waiting
          log := s.log ++ [.handled n (rebuilds n) (publishChange n)] } := by
      simp [changes, hconsumer]
    rw [Machine.exec, hfirst]
    exact hrun

/-- When the consumer has nothing left to do, every published kind has been taken
later and the notification with it handled. -/
theorem Pipeline.Inv.all_handled (h : s.Inv) (hsettled : s.Settled)
    (hi : s.log[i]? = some (.published notification)) (hkind : kind ∈ notification.kinds) :
    ∃ j taken, i < j ∧ s.log[j]? = some (.taken taken) ∧ kind ∈ taken.kinds ∧
      HandledAfter s.log j taken := by
  rcases hsettled with hstarting | ⟨hwaiting, hseen⟩
  · exact absurd (List.mem_of_getElem? hi) (h.quiet hstarting notification)
  · rcases h.owed i notification kind hi hkind with ⟨j, taken, hij, hj, hin⟩ | ⟨hunread, -⟩
    · refine ⟨j, taken, hij, hj, hin, ?_⟩
      rcases h.handled j taken hj with hdone | hbusy
      · exact hdone
      · rw [hwaiting] at hbusy
        cases hbusy
    · rcases hunread with hunseen | hnoticed
      · rw [hseen] at hunseen
        cases hunseen
      · rw [hwaiting] at hnoticed
        cases hnoticed

/-- A notification with a container, an image or a volume is followed by a rebuild. -/
theorem rebuilds_of_mem (hkind : kind ∈ notification.kinds)
    (hnamespace : isNamespaceKind kind = true) : rebuilds notification = true :=
  List.any_eq_true.mpr ⟨kind, hkind, hnamespace⟩

/-- **No change is lost.** As long as the monitor publishes to a consumer and overwrites
unread only what the new notification covers, every published kind has been taken at a
later time or is in the notification that waits in the channel, and the steps of the
consumer alone lead to a state in which it has been taken and handled after it was
published, with a rebuild if it is a container, an image or a volume. -/
theorem no_change_lost {s : Pipeline} (h : (changes classify).Reach (KeepsUnread classify) s) :
    (∀ i notification kind, s.log[i]? = some (.published notification) →
      kind ∈ notification.kinds → TakenAfter s.log i kind ∨
        (s.Unread ∧ ∃ unread, s.slot = some unread ∧ kind ∈ unread.kinds)) ∧
    ∃ as s', (∀ a ∈ as, a.byConsumer = true) ∧ (changes classify).exec s as = some s' ∧
      ∀ (i : Nat) (notification : ChangeNotification) (kind : ChangeKind),
        s.log[i]? = some (.published notification) →
        kind ∈ notification.kinds → ∃ (j l : Nat) (taken : ChangeNotification), i < j ∧ j < l ∧
          s'.log[j]? = some (.taken taken) ∧ kind ∈ taken.kinds ∧
          s'.log[l]? = some (.handled taken (rebuilds taken) (publishChange taken)) ∧
          (isNamespaceKind kind = true → rebuilds taken = true) := by
  have hinv : s.Inv := by
    refine Machine.Reach.invariant ?_ (fun s a s' hinv hok hstep => hinv.step hok hstep) h
    rintro s rfl
    exact Pipeline.Inv.fresh
  refine ⟨hinv.owed, ?_⟩
  obtain ⟨as, s', hconsumers, hrun, hinv', hsettled, hlog⟩ := hinv.settles
  refine ⟨as, s', hconsumers, hrun, ?_⟩
  intro i notification kind hi hkind
  have hlater : s'.log[i]? = some (.published notification) := by
    obtain ⟨more, hmore⟩ := hlog
    rw [← hmore, List.getElem?_append_left (List.getElem?_eq_some_iff.mp hi).1]
    exact hi
  obtain ⟨j, taken, hij, hj, hin, l, hjl, hl⟩ := hinv'.all_handled hsettled hlater hkind
  exact ⟨j, l, taken, hij, hjl, hj, hin, hl, rebuilds_of_mem hin⟩

/-! ## What is lost otherwise -/

def containerEvent : DockerEvent := ⟨"container", "start", some "a", []⟩

def networkEvent : DockerEvent := ⟨"network", "create", some "b", []⟩

/-- Two batches with containers, the second one over the first. -/
def coveredBatches : List Move :=
  [.subscribe, .monitor (.event containerEvent false), .monitor .tick,
    .monitor (.event networkEvent false), .monitor (.event containerEvent false), .monitor .tick]

theorem coveredBatches_handled :
    ∃ s, (changes defaultClassify).exec .fresh coveredBatches = some s ∧
    (∃ first, s.log[0]? = some (.published first) ∧ ChangeKind.containers ∈ first.kinds) ∧
    ∃ as s', (∀ a ∈ as, a.byConsumer = true) ∧ (changes defaultClassify).exec s as = some s' ∧
      ∃ taken, .handled taken true (publishChange taken) ∈ s'.log := by
  have hok : (changes defaultClassify).AllSteps (KeepsUnread defaultClassify) .fresh
      coveredBatches := by
    decide +kernel
  have hrun : ∃ s ∈ (changes defaultClassify).exec .fresh coveredBatches,
      s.log[0]? = some (.published ⟨[.containers], [⟨"a", "start"⟩], false, 1, false⟩) := by
    decide +kernel
  obtain ⟨s, hmem, hfirst⟩ := hrun
  have hrun := Option.mem_def.mp hmem
  obtain ⟨-, as, s', hconsumers, hexec, hhandled⟩ :=
    no_change_lost (Machine.reach_of_exec (.init rfl) hok hrun)
  obtain ⟨j, l, taken, -, -, -, -, hl, hrebuilds⟩ := hhandled 0 _ .containers hfirst (by simp)
  rw [hrebuilds rfl] at hl
  exact ⟨s, hrun, ⟨_, hfirst, by simp⟩, as, s', hconsumers, hexec, taken, List.mem_of_getElem? hl⟩

/-- A batch with a container, and one with a network before the consumer looks. -/
def overwrittenBatch : List Move :=
  [.subscribe, .monitor (.event containerEvent false), .monitor .tick,
    .monitor (.event networkEvent false), .monitor .tick, .notice, .take, .finish]

/-- The container of the first batch is in nothing that the consumer takes, nothing is
left in the channel, and there is no rebuild. -/
theorem change_overwritten : ∃ s, (changes defaultClassify).Reach (fun _ _ => True) s ∧
    s.consumer = .waiting ∧ s.unseen = false ∧
    (∃ first, s.log[0]? = some (.published first) ∧ ChangeKind.containers ∈ first.kinds) ∧
    (∀ taken, .taken taken ∈ s.log → .containers ∉ taken.kinds) ∧
    ∀ handled stale, .handled handled true stale ∉ s.log := by
  have hrun : ∃ s ∈ (changes defaultClassify).exec .fresh overwrittenBatch,
      s.consumer = .waiting ∧ s.unseen = false ∧
        s.log = [.published ⟨[.containers], [⟨"a", "start"⟩], false, 1, false⟩,
          .published ⟨[.networks], [], false, 1, false⟩, .taken ⟨[.networks], [], false, 1, false⟩,
          .handled ⟨[.networks], [], false, 1, false⟩ false []] := by
    decide +kernel
  obtain ⟨s, hmem, hconsumer, hseen, hlog⟩ := hrun
  refine ⟨s, ?_, hconsumer, hseen, ⟨_, by rw [hlog]; rfl, by simp⟩, ?_, ?_⟩
  · exact Machine.reach_of_exec (.init rfl) (Machine.allSteps_of_forall (fun _ _ => trivial) _ _)
      (Option.mem_def.mp hmem)
  · simp [hlog]
  · simp [hlog]

end TuxStack.Daemon
