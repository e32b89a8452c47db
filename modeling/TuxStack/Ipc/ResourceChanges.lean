import TuxStack.Daemon.Changes
import TuxStack.Lib.Broadcast
import TuxStack.Vfs.Path

/-!
# Subscriptions to changes

`run_daemon_subscription` (`crates/tuxstack-daemon/src/ipc.rs`) forwards what the daemon
broadcasts on `DaemonState::events` to one client. All kinds of events share the channel, and
a task that is held up by its client reads late: what was pushed out of the channel by then it
does not see, and `Lagged` makes it only ask again.

The log counts what was broadcast and what was handed to the client; an unread event has
the place of its broadcast there. The task keeps the sender alive, so that the channel is
not closed while it runs.
-/

namespace TuxStack.Ipc

open Vfs Runs Broadcast

/-! ## Events -/

inductive ResourceKind where
  | container
  | image
  | network
  | volume
deriving DecidableEq

inductive ResourceChange where
  | created
  | updated
  | removed
  | renamed
  | invalidated
deriving DecidableEq

/-- `DaemonEvent`, with what a resource event says; a status and the name of a
resource are not looked into. -/
inductive DaemonResourceEvent where
  | resource (kind : ResourceKind) (resource : Option Bytes) (change : ResourceChange)
  | mount (status : Bytes)
  | status (status : Bytes)
deriving DecidableEq

def DaemonResourceEvent.kind? : DaemonResourceEvent → Option ResourceKind
  | .resource kind _ _ => some kind
  | _ => none

def resourceKind : Daemon.ResourceKind → ResourceKind
  | .container => .container
  | .image => .image
  | .volume => .volume

def publishChange (notification : Docker.ChangeNotification) : List DaemonResourceEvent :=
  (Daemon.publishChange notification).map fun kind =>
    .resource (resourceKind kind) none .invalidated

inductive DaemonSubscription where
  | daemonStatus
  | mountStatus
  | resourceChanges (kinds : List ResourceKind)
  | providerStatus
deriving DecidableEq

inductive DaemonUpdate where
  | daemonStatus (status : Bytes)
  | mountStatus (status : Bytes)
  | resourceChanged (kind : ResourceKind) (resource : Option Bytes) (change : ResourceChange)
deriving DecidableEq

def DaemonUpdate.kind? : DaemonUpdate → Option ResourceKind
  | .resourceChanged kind _ _ => some kind
  | _ => none

def updateFor : DaemonSubscription → DaemonResourceEvent → Option DaemonUpdate
  | .daemonStatus, .status status => some (.daemonStatus status)
  | .mountStatus, .mount status => some (.mountStatus status)
  | .resourceChanges kinds, .resource kind resource change =>
    if kind ∈ kinds then some (.resourceChanged kind resource change) else none
  | _, _ => none

/-! ## The task -/

/-- `starting` is before `state.subscribe()`. -/
inductive SubscriberPhase where
  | starting
  | waiting
  | sending (update : DaemonUpdate)
  | ended
deriving DecidableEq

inductive BroadcastEntry where
  | published (event : DaemonResourceEvent)
  | delivered (update : DaemonUpdate)
deriving DecidableEq

structure Subscriber where
  phase : SubscriberPhase := .starting
  receiver : Receiver (Nat × DaemonResourceEvent) := {}
  cancelled : Bool := false
  log : List BroadcastEntry := []
deriving DecidableEq

/-- `broadcast::channel(512)`. -/
def eventCapacity : Nat := 512

namespace Subscriber

variable (s : Subscriber)

def listening : Bool := s.phase ≠ .starting && s.phase ≠ .ended

/-- `events.send(event)`. -/
def publish (event : DaemonResourceEvent) : Subscriber :=
  { s with
    receiver :=
      if s.listening then s.receiver.send eventCapacity (s.log.length, event) else s.receiver
    log := s.log ++ [.published event] }

/-- The task returns, and its receiver goes. -/
def finish : Subscriber := { s with phase := .ended, receiver := {} }

end Subscriber

inductive SubscriberAction where
  | publish (event : DaemonResourceEvent)
  | cancel
  | subscribe
  | cancelled
  | recv
  | send (sent : Bool)
deriving DecidableEq

open Subscriber in
/-- Runs of one subscription, with broadcasts and the cancellation of its token in between. -/
def daemonSubscription (subscription : DaemonSubscription) :
    Machine Subscriber SubscriberAction where
  init s := s = {}
  step s
    | .publish event => some (s.publish event)
    | .cancel => some { s with cancelled := true }
    | .subscribe => if s.phase = .starting then some { s with phase := .waiting } else none
    | .cancelled => if s.phase = .waiting ∧ s.cancelled = true then some s.finish else none
    | .recv =>
      if s.phase = .waiting then
        s.receiver.recv.map fun
          | (.lagged, receiver) => { s with receiver }
          | (.value event, receiver) =>
            match updateFor subscription event.2 with
            | some update => { s with receiver, phase := .sending update }
            | none => { s with receiver }
      else none
    | .send sent =>
      match s.phase with
      | .sending update =>
        some (if sent && !s.cancelled then
          { s with phase := .waiting, log := s.log ++ [.delivered update] }
        else s.finish)
      | _ => none

/-- The steps that the task takes by itself when its client takes what it is sent. -/
def SubscriberAction.byTask : SubscriberAction → Bool
  | .subscribe | .cancelled | .recv | .send true => true
  | _ => false

namespace Subscriber

variable (s : Subscriber)

/-- A change of this kind was handed to the client after the entry `i`. -/
def DeliveredAfter (i : Nat) (kind : ResourceKind) : Prop :=
  ∃ j update, i < j ∧ s.log[j]? = some (.delivered update) ∧ update.kind? = some kind

/-- A change of this kind is being handed to the client. -/
def Sending (kind : ResourceKind) : Prop :=
  ∃ update, s.phase = .sending update ∧ update.kind? = some kind

/-- Every event of a requested kind is followed: the task gets to where a change of that
kind was handed to the client after the broadcast, or to its end. -/
def Followed (kinds : List ResourceKind) : Prop :=
  ∀ i event kind, s.log[i]? = some (.published event) → event.kind? = some kind → kind ∈ kinds →
    ∃ actions t, (∀ a ∈ actions, a.byTask = true) ∧
      (daemonSubscription (.resourceChanges kinds)).exec s actions = some t ∧
        (t.DeliveredAfter i kind ∨ t.phase = .ended)

/-- Nothing of a requested kind is broadcast before the task has its receiver, and what is
pushed out of the channel unread is of no requested kind, or a change of its kind is still
unread, being sent, or was sent in the meantime. -/
def KeepsKinds (kinds : List ResourceKind) : SubscriberAction → Prop
  | .publish event =>
    s.cancelled = true ∨ s.phase = .ended ∨ ∀ kind ∈ kinds,
      (event.kind? = some kind → s.phase ≠ .starting) ∧
      ∀ lost ∈ s.receiver.dropped eventCapacity, lost.2.kind? = some kind →
        event.kind? = some kind ∨ s.Sending kind ∨ s.DeliveredAfter lost.1 kind ∨
          ∃ other ∈ s.receiver.unread.tail, other.2.kind? = some kind
  | _ => True

/-! ## The log -/

/-- What is unread is in the log where it says, in the order of the log, and nothing that was
broadcast after it was read. -/
structure Placed : Prop where
  starting : s.phase = .starting → s.receiver.unread = []
  ended : s.phase = .ended → s.receiver.unread = []
  unread : ∀ e ∈ s.receiver.unread, s.log[e.1]? = some (.published e.2)
  sorted : s.receiver.unread.Pairwise (·.1 < ·.1)
  later : ∀ e ∈ s.receiver.unread, ∀ i event, e.1 ≤ i →
    s.log[i]? = some (.published event) → (i, event) ∈ s.receiver.unread

variable {s} {t : Subscriber} {kinds : List ResourceKind} {kind : ResourceKind} {i : Nat}

variable {a : SubscriberAction} {event : DaemonResourceEvent} {subscription : DaemonSubscription}
  {e : Nat × DaemonResourceEvent} {entry : BroadcastEntry}

theorem DeliveredAfter.mono (h : s.DeliveredAfter i kind) (hlog : t.log = s.log ++ [entry]) :
    t.DeliveredAfter i kind := by
  obtain ⟨j, update, hij, hj, hkind⟩ := h
  exact ⟨j, update, hij, hlog ▸ getElem?_of_concat hj, hkind⟩

theorem listening_iff : s.listening = true ↔ s.phase ≠ .starting ∧ s.phase ≠ .ended := by
  unfold listening
  rw [Bool.and_eq_true, decide_eq_true_eq, decide_eq_true_eq]

theorem placed_publish (h : s.Placed) (event : DaemonResourceEvent) : (s.publish event).Placed := by
  by_cases hlistening : s.listening = true
  · obtain ⟨hstarting, hended⟩ := listening_iff.mp hlistening
    have hreceiver : (s.publish event).receiver =
        s.receiver.send eventCapacity (s.log.length, event) := if_pos hlistening
    have hsuffix : (s.publish event).receiver.unread <:+
        s.receiver.unread ++ [(s.log.length, event)] := hreceiver ▸ Receiver.send_suffix
    have hlt : ∀ e ∈ s.receiver.unread, e.1 < s.log.length := fun e he =>
      (List.getElem?_eq_some_iff.mp (h.unread e he)).1
    have hsorted : (s.receiver.unread ++ [(s.log.length, event)]).Pairwise (·.1 < ·.1) :=
      List.pairwise_append.mpr ⟨h.sorted, List.pairwise_singleton _ _,
        fun e he e' he' => List.mem_singleton.mp he' ▸ hlt e he⟩
    refine ⟨fun hs => absurd hs hstarting, fun he => absurd he hended, fun e he => ?_,
      hsorted.sublist hsuffix.sublist, fun e he i found hle hi => ?_⟩
    · rcases List.mem_append.mp (hsuffix.subset he) with hold | hnew
      · exact getElem?_of_concat (h.unread e hold)
      · rw [List.mem_singleton.mp hnew]
        exact List.getElem?_concat_length
    · rcases getElem?_concat hi with hold | ⟨rfl, hnew⟩
      · -- an entry of the old log; were it pushed out, `e` would come after it
        have hiold : i < s.log.length := (List.getElem?_eq_some_iff.mp hold).1
        have heold : e ∈ s.receiver.unread := by
          rcases List.mem_append.mp (hsuffix.subset he) with heold | henew
          · exact heold
          · rw [List.mem_singleton.mp henew] at hle
            exact absurd hiold (Nat.not_lt_of_le hle)
        have hmem := h.later e heold i found hle hold
        rw [hreceiver] at he ⊢
        rcases Receiver.mem_send_or_dropped hmem with hkept | hdropped
        · exact hkept
        · obtain ⟨rest, hunread, hsend⟩ :=
            Receiver.send_of_dropped (x := (s.log.length, event)) hdropped
          have hpairs := h.sorted
          rw [hunread] at hpairs
          rw [hsend] at he
          rcases List.mem_append.mp he with hrest | hlast
          · have hlater := (List.pairwise_cons.mp hpairs).1 e hrest
            exact absurd hlater (Nat.not_lt_of_le hle)
          · rw [List.mem_singleton.mp hlast] at hle
            exact absurd hiold (Nat.not_lt_of_le hle)
      · cases hnew
        rw [hreceiver]
        exact Receiver.mem_send
  · have hreceiver : (s.publish event).receiver = s.receiver := if_neg hlistening
    have hempty : s.receiver.unread = [] := by
      by_cases hstarting : s.phase = .starting
      · exact h.starting hstarting
      · refine h.ended (by_contra fun hended => hlistening (listening_iff.mpr ⟨hstarting, hended⟩))
    rw [← hreceiver] at hempty
    refine ⟨fun _ => hempty, fun _ => hempty, fun e he => ?_, ?_, fun e he => ?_⟩
    · rw [hempty] at he
      cases he
    · rw [hempty]
      exact List.Pairwise.nil
    · rw [hempty] at he
      cases he

theorem placed_finish : s.finish.Placed where
  starting _ := rfl
  ended _ := rfl
  unread _ he := absurd he List.not_mem_nil
  sorted := List.Pairwise.nil
  later _ he := absurd he List.not_mem_nil

theorem placed_read {receiver : Receiver (Nat × DaemonResourceEvent)} {phase : SubscriberPhase}
    (h : s.Placed) (hsuffix : receiver.unread <:+ s.receiver.unread)
    (hstarting : phase ≠ .starting) (hended : phase ≠ .ended) :
    ({ s with receiver, phase } : Subscriber).Placed where
  starting hs := absurd hs hstarting
  ended he := absurd he hended
  unread e he := h.unread e (hsuffix.subset he)
  sorted := h.sorted.sublist hsuffix.sublist
  later e he i event hle hi := by
    have hmem := h.later e (hsuffix.subset he) i event hle hi
    obtain ⟨front, hfront⟩ := hsuffix
    rw [← hfront] at hmem
    rcases List.mem_append.mp hmem with hread | hrest
    · have hpairs := h.sorted
      rw [← hfront] at hpairs
      exact absurd ((List.pairwise_append.mp hpairs).2.2 _ hread e he) (Nat.not_lt_of_le hle)
    · exact hrest

theorem placed_delivered (h : s.Placed) (update : DaemonUpdate) :
    ({ s with phase := .waiting, log := s.log ++ [.delivered update] } : Subscriber).Placed where
  starting hs := by cases hs
  ended he := by cases he
  unread e he := getElem?_of_concat (h.unread e he)
  sorted := h.sorted
  later e he i event hle hi := by
    rcases getElem?_concat hi with hold | ⟨-, hnew⟩
    · exact h.later e he i event hle hold
    · cases hnew

/-! ## What is due -/

/-- A change of this kind is on its way to the client. -/
def Pending (s : Subscriber) (kind : ResourceKind) : Prop :=
  s.Sending kind ∨ ∃ e ∈ s.receiver.unread, e.2.kind? = some kind

/-- An event has been followed, is going to be, or the subscription is over. -/
def Due (s : Subscriber) (i : Nat) (kind : ResourceKind) : Prop :=
  s.phase = .ended ∨ s.cancelled = true ∨ s.DeliveredAfter i kind ∨ s.Pending kind

theorem step_cases (h : (daemonSubscription subscription).step s a = some t) :
    (∃ event, a = .publish event ∧ t = s.publish event) ∨
    (a = .cancel ∧ t = { s with cancelled := true }) ∨
    (a = .subscribe ∧ s.phase = .starting ∧ t = { s with phase := .waiting }) ∨
    (s.cancelled = true ∧ t = s.finish) ∨
    (a = .recv ∧ s.phase = .waiting ∧ t = { s with receiver := ⟨s.receiver.unread, false⟩ }) ∨
    (∃ event rest, a = .recv ∧ s.phase = .waiting ∧ s.receiver.unread = event :: rest ∧
      t = { s with
        receiver := { s.receiver with unread := rest }
        phase := match updateFor subscription event.2 with
          | some update => .sending update
          | none => .waiting }) ∨
    (∃ update, a = .send true ∧ s.phase = .sending update ∧
      t = { s with phase := .waiting, log := s.log ++ [.delivered update] }) ∨
    (a = .send false ∧ t = s.finish) := by
  cases a with
  | publish event => exact .inl ⟨event, rfl, (Option.some.inj h).symm⟩
  | cancel => exact .inr (.inl ⟨rfl, (Option.some.inj h).symm⟩)
  | subscribe =>
    obtain ⟨hphase, h⟩ := Option.ite_none_right_eq_some.mp h
    exact .inr (.inr (.inl ⟨rfl, hphase, (Option.some.inj h).symm⟩))
  | cancelled =>
    obtain ⟨⟨-, hcancelled⟩, h⟩ := Option.ite_none_right_eq_some.mp h
    exact .inr (.inr (.inr (.inl ⟨hcancelled, (Option.some.inj h).symm⟩)))
  | recv =>
    obtain ⟨hphase, h⟩ := Option.ite_none_right_eq_some.mp h
    obtain ⟨⟨received, receiver⟩, hrecv, rfl⟩ := Option.map_eq_some_iff.mp h
    unfold Receiver.recv at hrecv
    split at hrecv
    · cases hrecv
      exact .inr (.inr (.inr (.inr (.inl ⟨rfl, hphase, rfl⟩))))
    · split at hrecv
      · cases hrecv
      · next event rest hunread =>
        cases hrecv
        refine .inr (.inr (.inr (.inr (.inr (.inl
          ⟨event, rest, rfl, hphase, hunread, ?_⟩)))))
        dsimp only
        cases updateFor subscription event.2 with
        | none =>
          dsimp only
          rw [← hphase]
        | some update => rfl
  | send sent =>
    simp only [daemonSubscription] at h
    split at h
    · next update hphase =>
      obtain rfl := Option.some.inj h
      cases sent with
      | false => exact .inr (.inr (.inr (.inr (.inr (.inr (.inr ⟨rfl, rfl⟩))))))
      | true =>
        cases hcancelled : s.cancelled with
        | true => exact .inr (.inr (.inr (.inl ⟨rfl, rfl⟩)))
        | false =>
          exact .inr (.inr (.inr (.inr (.inr (.inr (.inl
            ⟨update, rfl, hphase, rfl⟩))))))
    · cases h

theorem placed_step (h : s.Placed) (hstep : (daemonSubscription subscription).step s a = some t) :
    t.Placed := by
  rcases step_cases hstep with ⟨event, -, rfl⟩ | ⟨-, rfl⟩ | ⟨-, hphase, rfl⟩ | ⟨-, rfl⟩ |
    ⟨-, hphase, rfl⟩ | ⟨event, rest, -, hphase, hunread, rfl⟩ | ⟨update, -, -, rfl⟩ | ⟨-, rfl⟩
  · exact placed_publish h event
  · exact { h with }
  · exact placed_read h (List.suffix_refl _) (by simp) (by simp)
  · exact placed_finish
  · have hread : ({ s with receiver := ⟨s.receiver.unread, false⟩, phase := .waiting } :
        Subscriber).Placed :=
      placed_read h (List.suffix_refl _) (by simp) (by simp)
    rw [← hphase] at hread
    exact hread
  · refine placed_read h (hunread ▸ List.suffix_cons event rest) ?_ ?_
    · split
      · simp
      · simp
    · split
      · simp
      · simp
  · exact placed_delivered h update
  · exact placed_finish

theorem updateFor_kind (hkind : event.kind? = some kind) (hmem : kind ∈ kinds) : ∃ update,
      updateFor (.resourceChanges kinds) event = some update ∧ update.kind? = some kind := by
  cases event with
  | resource found resource change =>
    obtain rfl := Option.some.inj hkind
    exact ⟨.resourceChanged found resource change, if_pos hmem, rfl⟩
  | mount status => cases hkind
  | status status => cases hkind

theorem kind_of_updateFor {update : DaemonUpdate}
    (h : updateFor (.resourceChanges kinds) event = some update) : update.kind? = event.kind? := by
  cases event with
  | resource found resource change =>
    obtain ⟨-, h⟩ := Option.ite_none_right_eq_some.mp h
    obtain rfl := Option.some.inj h
    rfl
  | mount status => cases h
  | status status => cases h

/-- Whatever was due stays due, when the task takes a step or its token is cancelled. -/
theorem due_step (hmem : kind ∈ kinds) (hi : i < s.log.length) (hdue : s.Due i kind)
    (ha : ∀ event, a ≠ .publish event)
    (hstep : (daemonSubscription (.resourceChanges kinds)).step s a = some t) : t.Due i kind := by
  rcases step_cases hstep with ⟨event, rfl, -⟩ | ⟨-, rfl⟩ | ⟨-, hphase, rfl⟩ | ⟨-, rfl⟩ |
    ⟨-, hphase, rfl⟩ | ⟨event, rest, -, hphase, hunread, rfl⟩ | ⟨update, -, hphase, rfl⟩ | ⟨-, rfl⟩
  · exact absurd rfl (ha event)
  · exact .inr (.inl rfl)
  · rcases hdue with hended | hcancelled | hdelivered | ⟨update, hsending, -⟩ | hunread
    · rw [hphase] at hended
      cases hended
    · exact .inr (.inl hcancelled)
    · exact .inr (.inr (.inl hdelivered))
    · rw [hphase] at hsending
      cases hsending
    · exact .inr (.inr (.inr (.inr hunread)))
  · exact .inl rfl
  · exact hdue
  · rcases hdue with hended | hcancelled | hdelivered | ⟨update, hsending, -⟩ | ⟨e, he, hkind⟩
    · rw [hphase] at hended
      cases hended
    · exact .inr (.inl hcancelled)
    · exact .inr (.inr (.inl hdelivered))
    · rw [hphase] at hsending
      cases hsending
    · rw [hunread] at he
      rcases List.mem_cons.mp he with rfl | hrest
      · obtain ⟨update, hupdate, hkind'⟩ := updateFor_kind hkind hmem
        exact .inr (.inr (.inr (.inl ⟨update, by simp only [hupdate], hkind'⟩)))
      · exact .inr (.inr (.inr (.inr ⟨e, hrest, hkind⟩)))
  · rcases hdue with hended | hcancelled | hdelivered | ⟨found, hsending, hkind⟩ | hunread
    · rw [hphase] at hended
      cases hended
    · exact .inr (.inl hcancelled)
    · exact .inr (.inr (.inl (hdelivered.mono rfl)))
    · rw [hphase] at hsending
      cases hsending
      exact .inr (.inr (.inl ⟨s.log.length, update, hi, List.getElem?_concat_length, hkind⟩))
    · exact .inr (.inr (.inr (.inr hunread)))
  · exact .inl rfl

theorem not_due_step (hdue : ¬ s.Due i kind) (ha : a.byTask = true)
    (hstep : (daemonSubscription (.resourceChanges kinds)).step s a = some t) : ¬ t.Due i kind := by
  obtain ⟨hended, hcancelled, hdelivered, hpending⟩ := by
    simpa only [Due, not_or] using hdue
  have hnot : ∀ u : Subscriber, u.phase ≠ .ended → u.cancelled = s.cancelled →
      u.log = s.log → ¬ u.Pending kind → ¬ u.Due i kind := by
    intro u hphase hsame hlog hpending
    rintro (hu | hu | ⟨j, update, hij, hj, hkind⟩ | hu)
    · exact hphase hu
    · exact hcancelled (hsame ▸ hu)
    · exact hdelivered ⟨j, update, hij, hlog ▸ hj, hkind⟩
    · exact hpending hu
  rcases step_cases hstep with ⟨event, rfl, -⟩ | ⟨rfl, -⟩ | ⟨-, hphase, rfl⟩ | ⟨hc, rfl⟩ |
    ⟨-, hphase, rfl⟩ | ⟨event, rest, -, hphase, hunread, rfl⟩ | ⟨update, -, hphase, rfl⟩ | ⟨rfl, -⟩
  · cases ha
  · cases ha
  · refine hnot _ (by simp) rfl rfl ?_
    rintro (⟨update, hsending, -⟩ | hunread)
    · cases hsending
    · exact hpending (.inr hunread)
  · exact absurd hc hcancelled
  · exact hnot _ hended rfl rfl hpending
  · refine hnot _ ?_ rfl rfl ?_
    · dsimp only
      split
      · simp
      · simp
    · rintro (⟨update, hsending, hkind⟩ | ⟨e, he, hkind⟩)
      · dsimp only at hsending
        split at hsending
        · next found hupdate =>
          cases hsending
          refine hpending (.inr ⟨event, hunread ▸ List.mem_cons_self, ?_⟩)
          rw [← kind_of_updateFor hupdate, hkind]
        · cases hsending
      · exact hpending (.inr ⟨e, hunread ▸ List.mem_cons_of_mem _ he, hkind⟩)
  · rintro (hu | hu | ⟨j, found, hij, hj, hkind⟩ | ⟨found, hsending, -⟩ | hrest)
    · cases hu
    · exact hcancelled hu
    · rcases getElem?_concat hj with hold | ⟨-, hnew⟩
      · exact hdelivered ⟨j, found, hij, hold, hkind⟩
      · cases hnew
        exact hpending (.inl ⟨update, hphase, hkind⟩)
    · cases hsending
    · exact hpending (.inr hrest)
  · cases ha

/-! ## The task gets there -/

/-- What is still to be done before the receiver is empty. -/
def weight (s : Subscriber) : Nat :=
  3 * s.receiver.unread.length + (if s.receiver.lagged then 1 else 0) +
    match s.phase with
    | .starting => 2
    | .sending _ => 1
    | .waiting | .ended => 0

theorem log_step (hstep : (daemonSubscription subscription).step s a = some t) :
    s.log <+: t.log := by
  rcases step_cases hstep with ⟨event, -, rfl⟩ | ⟨-, rfl⟩ | ⟨-, -, rfl⟩ | ⟨-, rfl⟩ |
    ⟨-, -, rfl⟩ | ⟨event, rest, -, -, -, rfl⟩ | ⟨update, -, -, rfl⟩ | ⟨-, rfl⟩
  · exact List.prefix_append _ _
  · exact List.prefix_refl _
  · exact List.prefix_refl _
  · exact List.prefix_refl _
  · exact List.prefix_refl _
  · exact List.prefix_refl _
  · exact List.prefix_append _ _
  · exact List.prefix_refl _

/-- While something is pending, or the token is cancelled, the task has a step that leaves less
to do, or ends it. -/
theorem exists_step (hdue : s.cancelled = true ∨ s.Pending kind) (hended : s.phase ≠ .ended) :
    ∃ a t, a.byTask = true ∧ (daemonSubscription (.resourceChanges kinds)).step s a = some t ∧
      (t.weight < s.weight ∨ t.phase = .ended) := by
  match hphase : s.phase with
  | .starting =>
    refine ⟨.subscribe, { s with phase := .waiting }, rfl, if_pos hphase, .inl ?_⟩
    simp [weight, hphase]
  | .sending update =>
    refine ⟨.send true, _, rfl, by simp only [daemonSubscription, hphase]; rfl, ?_⟩
    cases hcancelled : s.cancelled with
    | true => exact .inr rfl
    | false => exact .inl (by simp [weight, hphase])
  | .waiting =>
    cases hcancelled : s.cancelled with
    | true => exact ⟨.cancelled, s.finish, rfl, if_pos ⟨hphase, hcancelled⟩, .inr rfl⟩
    | false =>
      rcases hdue with hdue | ⟨update, hsending, -⟩ | ⟨e, he, -⟩
      · rw [hcancelled] at hdue
        cases hdue
      · rw [hphase] at hsending
        cases hsending
      · refine ⟨.recv, ?_⟩
        cases hlagged : s.receiver.lagged with
        | true =>
          refine ⟨{ s with receiver := ⟨s.receiver.unread, false⟩ }, rfl, ?_, .inl ?_⟩
          · simp [daemonSubscription, hphase, Receiver.recv, hlagged]
          · simp [weight, hphase, hlagged]
        | false =>
          obtain ⟨event, rest, hunread⟩ := List.exists_cons_of_ne_nil (List.ne_nil_of_mem he)
          have hrecv : s.receiver.recv =
              some (.value event, { s.receiver with unread := rest }) := by
            simp [Receiver.recv, hlagged, hunread]
          refine ⟨_, rfl, by simp only [daemonSubscription, hphase, hrecv]; rfl, .inl ?_⟩
          cases hupdate : updateFor (.resourceChanges kinds) event.2 with
          | none =>
            simp [weight, hphase, hlagged, hunread, hupdate]
          | some update =>
            simp [weight, hphase, hlagged, hunread, hupdate]
            omega
  | .ended => exact absurd hphase hended

/-- **The task gets there**: what is due is handed to the client after it was broadcast, or the
subscription ends, by steps of the task alone. -/
theorem reaches_of_due (hmem : kind ∈ kinds) : ∀ (n : Nat) (s : Subscriber), s.weight = n →
    i < s.log.length → s.Due i kind → ∃ actions t, (∀ a ∈ actions, a.byTask = true) ∧
      (daemonSubscription (.resourceChanges kinds)).exec s actions = some t ∧
        (t.DeliveredAfter i kind ∨ t.phase = .ended) := by
  intro n
  induction n using Nat.strong_induction_on with
  | _ n ih =>
    intro s hweight hi hdue
    by_cases hended : s.phase = .ended
    · exact ⟨[], s, fun a ha => absurd ha List.not_mem_nil, rfl, .inr hended⟩
    · by_cases hdelivered : s.DeliveredAfter i kind
      · exact ⟨[], s, fun a ha => absurd ha List.not_mem_nil, rfl, .inl hdelivered⟩
      · have hrest : s.cancelled = true ∨ s.Pending kind := by
          rcases hdue with h | h | h | h
          · exact absurd h hended
          · exact .inl h
          · exact absurd h hdelivered
          · exact .inr h
        have hnext : ∃ a t, a.byTask = true ∧
            (daemonSubscription (.resourceChanges kinds)).step s a = some t ∧
              (t.weight < s.weight ∨ t.phase = .ended) :=
          exists_step hrest hended
        obtain ⟨a, s₁, htask, hstep, hless⟩ := hnext
        rcases hless with hless | hover
        · have hi₁ := hi.trans_le (log_step hstep).length_le
          have hdue₁ := due_step hmem hi hdue (fun event hevent => by
            rw [hevent] at htask
            cases htask) hstep
          obtain ⟨actions, t, htasks, hrun, hend⟩ :=
            ih s₁.weight (hweight ▸ hless) s₁ rfl hi₁ hdue₁
          refine ⟨a :: actions, t, fun b hb => ?_, ?_, hend⟩
          · rcases List.mem_cons.mp hb with rfl | hb
            · exact htask
            · exact htasks b hb
          · rw [Machine.exec_cons hstep, hrun]
        · refine ⟨[a], s₁, fun b hb => List.mem_singleton.mp hb ▸ htask, ?_, .inr hover⟩
          rw [Machine.exec_cons hstep]
          rfl

theorem due_of_reaches {actions : List SubscriberAction} (hi : i < s.log.length)
    (htask : ∀ a ∈ actions, a.byTask = true)
    (hrun : (daemonSubscription (.resourceChanges kinds)).exec s actions = some t)
    (hend : t.DeliveredAfter i kind ∨ t.phase = .ended) : s.Due i kind := by
  by_contra hdue
  have hkept := Machine.exec_invariant (I := fun s => i < s.log.length ∧ ¬ s.Due i kind)
    (fun s a s' h (ha : a.byTask = true) hs =>
      ⟨h.1.trans_le (log_step hs).length_le, not_due_step h.2 ha hs⟩)
    htask hrun ⟨hi, hdue⟩
  rcases hend with hdelivered | hended
  · exact hkept.2 (.inr (.inr (.inl hdelivered)))
  · exact hkept.2 (.inl hended)

/-- Every event of a requested kind is due. -/
def AllDue (kinds : List ResourceKind) (s : Subscriber) : Prop :=
  ∀ i event kind, s.log[i]? = some (.published event) → event.kind? = some kind → kind ∈ kinds →
    s.Due i kind

theorem followed_iff_allDue : s.Followed kinds ↔ s.AllDue kinds := by
  constructor
  · intro h i event kind hi hkind hmem
    obtain ⟨actions, t, htask, hrun, hend⟩ := h i event kind hi hkind hmem
    exact due_of_reaches (List.getElem?_eq_some_iff.mp hi).1 htask hrun hend
  · intro h i event kind hi hkind hmem
    exact reaches_of_due hmem s.weight s rfl (List.getElem?_eq_some_iff.mp hi).1
      (h i event kind hi hkind hmem)

/-! ## Broadcasts -/

theorem Placed.listening_of_unread (h : s.Placed) (he : e ∈ s.receiver.unread) :
    s.listening = true := by
  refine listening_iff.mpr ⟨fun hstarting => ?_, fun hended => ?_⟩
  · rw [h.starting hstarting] at he
    cases he
  · rw [h.ended hended] at he
    cases he

theorem receiver_publish (hlistening : s.listening = true) (event : DaemonResourceEvent) :
    (s.publish event).receiver = s.receiver.send eventCapacity (s.log.length, event) :=
  if_pos hlistening

theorem mem_of_dropped {r : Receiver (Nat × DaemonResourceEvent)}
    (h : r.dropped eventCapacity = some e) : e ∈ r.unread := by
  obtain ⟨rest, hunread, -⟩ := Receiver.send_of_dropped (x := e) h
  exact hunread ▸ List.mem_cons_self

/-- **A broadcast that meets the condition leaves everything due.** -/
theorem allDue_publish (hplaced : s.Placed) (hdue : s.AllDue kinds)
    (hok : s.KeepsKinds kinds (.publish event)) : (s.publish event).AllDue kinds := by
  intro i found kind hi hkind hmem
  rcases hok with hcancelled | hended | hok
  · exact .inr (.inl hcancelled)
  · exact .inl hended
  obtain ⟨hstarting, hdropped⟩ := hok kind hmem
  have hnew : s.listening = true →
      (s.log.length, event) ∈ (s.publish event).receiver.unread := by
    intro hlistening
    rw [receiver_publish hlistening]
    exact Receiver.mem_send
  rcases getElem?_concat hi with hold | ⟨-, hsame⟩
  · rcases hdue i found kind hold hkind hmem with h | h | h | h | ⟨e, he, hekind⟩
    · exact .inl h
    · exact .inr (.inl h)
    · exact .inr (.inr (.inl (h.mono rfl)))
    · exact .inr (.inr (.inr (.inl h)))
    · have hlistening := hplaced.listening_of_unread he
      have hpushed : e ∈ (s.receiver.send eventCapacity (s.log.length, event)).unread ∨
          s.receiver.dropped eventCapacity = some e :=
        Receiver.mem_send_or_dropped he
      rcases hpushed with hkept | hlost
      · rw [← receiver_publish hlistening] at hkept
        exact .inr (.inr (.inr (.inr ⟨e, hkept, hekind⟩)))
      · obtain ⟨rest, hunread, hsend⟩ :=
          Receiver.send_of_dropped (x := (s.log.length, event)) hlost
        have htail : ∀ other ∈ rest, other.2.kind? = some kind → (s.publish event).Due i kind := by
          intro other hother hok
          refine .inr (.inr (.inr (.inr ⟨other, ?_, hok⟩)))
          rw [receiver_publish hlistening, hsend]
          exact List.mem_append_left _ hother
        -- the event that made up for `i` is pushed out; the condition says what makes up for it
        rcases hdropped e hlost hekind with h | h | hdelivered | ⟨other, hother, hok⟩
        · exact .inr (.inr (.inr (.inr ⟨_, hnew hlistening, h⟩)))
        · exact .inr (.inr (.inr (.inl h)))
        · -- the event is the lost one, or came before it, or is itself still unread
          rcases Nat.lt_or_ge e.1 i with hlt | hge
          · have hmem := hplaced.later e he i found hlt.le hold
            rw [hunread] at hmem
            rcases List.mem_cons.mp hmem with heq | hrest
            · rw [← heq] at hlt
              exact absurd hlt (Nat.lt_irrefl _)
            · exact htail _ hrest hkind
          · obtain ⟨j, update, hij, hj, hjkind⟩ := hdelivered
            exact .inr (.inr (.inl ⟨j, update, hge.trans_lt hij, getElem?_of_concat hj,
              hjkind⟩))
        · rw [hunread] at hother
          exact htail other hother hok
  · cases hsame
    by_cases hended : s.phase = .ended
    · exact .inl hended
    · exact .inr (.inr (.inr (.inr
        ⟨_, hnew (listening_iff.mpr ⟨hstarting hkind, hended⟩), hkind⟩)))

theorem not_deliveredAfter_length : ¬ (s.publish event).DeliveredAfter s.log.length kind := by
  rintro ⟨j, update, hlt, hj, -⟩
  rcases getElem?_concat hj with hold | ⟨-, hnew⟩
  · exact absurd (List.getElem?_eq_some_iff.mp hold).1 (Nat.not_lt_of_lt hlt)
  · cases hnew

theorem not_allDue_publish (hplaced : s.Placed) (hok : ¬ s.KeepsKinds kinds (.publish event)) :
    ¬ (s.publish event).AllDue kinds := by
  intro hall
  obtain ⟨hcancelled, hended, hok⟩ := by simpa only [KeepsKinds, not_or] using hok
  apply hok
  intro kind hmem
  constructor
  · intro hkind hstarting
    have hempty : (s.publish event).receiver.unread = [] := by
      show (if s.listening then _ else s.receiver).unread = []
      rw [if_neg fun h => (listening_iff.mp h).1 hstarting]
      exact hplaced.starting hstarting
    rcases hall s.log.length event kind List.getElem?_concat_length hkind hmem with
      h | h | h | ⟨update, hsending, -⟩ | ⟨e, he, -⟩
    · exact hended h
    · exact hcancelled h
    · exact not_deliveredAfter_length h
    · cases hstarting.symm.trans hsending
    · rw [hempty] at he
      cases he
  · intro lost hlost hkind
    have hunread := mem_of_dropped hlost
    obtain ⟨rest, hrest, hsend⟩ := Receiver.send_of_dropped (x := (s.log.length, event)) hlost
    rcases hall lost.1 lost.2 kind (getElem?_of_concat (hplaced.unread lost hunread)) hkind hmem
      with h | h | ⟨j, update, hlt, hj, hjkind⟩ | h | ⟨e, he, hekind⟩
    · exact absurd h hended
    · exact absurd h hcancelled
    · rcases getElem?_concat hj with hold | ⟨-, hnew⟩
      · exact .inr (.inr (.inl ⟨j, update, hlt, hold, hjkind⟩))
      · cases hnew
    · exact .inr (.inl h)
    · rw [receiver_publish (hplaced.listening_of_unread hunread), hsend] at he
      rcases List.mem_append.mp he with he | he
      · exact .inr (.inr (.inr ⟨e, hrest ▸ he, hekind⟩))
      · rw [List.mem_singleton.mp he] at hekind
        exact .inl hekind

/-! ## Runs -/

theorem allDue_step (hplaced : s.Placed) (hdue : s.AllDue kinds) (hok : s.KeepsKinds kinds a)
    (hstep : (daemonSubscription (.resourceChanges kinds)).step s a = some t) : t.AllDue kinds := by
  by_cases ha : ∃ event, a = .publish event
  · obtain ⟨event, rfl⟩ := ha
    obtain rfl := Option.some.inj hstep
    exact allDue_publish hplaced hdue hok
  · have hnot : ∀ event, a ≠ .publish event := fun event h => ha ⟨event, h⟩
    have hsame : ∀ (i : Nat) (event : DaemonResourceEvent),
        t.log[i]? = some (BroadcastEntry.published event) →
        s.log[i]? = some (BroadcastEntry.published event) := by
      intro i event hi
      rcases step_cases hstep with ⟨event, h, -⟩ | ⟨-, rfl⟩ | ⟨-, -, rfl⟩ | ⟨-, rfl⟩ |
        ⟨-, -, rfl⟩ | ⟨event, rest, -, -, -, rfl⟩ | ⟨update, -, -, rfl⟩ | ⟨-, rfl⟩
      · exact absurd h (hnot event)
      · exact hi
      · exact hi
      · exact hi
      · exact hi
      · exact hi
      · rcases getElem?_concat hi with hold | ⟨-, hnew⟩
        · exact hold
        · cases hnew
      · exact hi
    intro i event kind hi hkind hmem
    have hi := hsame i event hi
    exact due_step hmem (List.getElem?_eq_some_iff.mp hi).1 (hdue i event kind hi hkind hmem) hnot
      hstep

theorem placed_init : ({} : Subscriber).Placed where
  starting _ := rfl
  ended _ := rfl
  unread _ he := absurd he List.not_mem_nil
  sorted := List.Pairwise.nil
  later _ he := absurd he List.not_mem_nil

/-- **Slow subscribers learn of a change as long as one of its kind is unread.** In every
state of a run each event of a requested kind is followed by a change of that kind to the
client or by the end of the subscription, exactly when every broadcast of the run finds the
task listening and pushes out nothing that is not covered. -/
theorem followed_iff_keepsKinds (kinds : List ResourceKind) (actions : List SubscriberAction) :
    (daemonSubscription (.resourceChanges kinds)).AllStates (fun s => s.Followed kinds) {} actions ↔
      (daemonSubscription (.resourceChanges kinds)).AllSteps (fun s a => s.KeepsKinds kinds a) {}
        actions := by
  refine Machine.allStates_iff_allSteps (J := Placed) (fun s a s' h hs => placed_step h hs)
    (fun s a s' hplaced hfollowed hok hs => ?_) (fun s a s' hplaced _ hok hs hfollowed => ?_)
    (fun s a hok => ?_) placed_init fun i event kind hi => ?_
  · exact followed_iff_allDue.mpr (allDue_step hplaced (followed_iff_allDue.mp hfollowed) hok hs)
  · cases a with
    | publish event =>
      obtain rfl := Option.some.inj hs
      exact not_allDue_publish hplaced hok (followed_iff_allDue.mp hfollowed)
    | _ => exact hok trivial
  · cases a with
    | publish event => exact ⟨s.publish event, rfl⟩
    | _ => exact absurd trivial hok
  · cases hi

/-! ## A change that is pushed out -/

def changeOf (kind : Docker.ChangeKind) : Docker.ChangeNotification :=
  { kinds := [kind]
    containerChanges := []
    containerChangesTruncated := false
    burst := 1
    reconnected := false }

/-- Events with their places in the log, from `n` on. -/
def tagged (n : Nat) : List DaemonResourceEvent → List (Nat × DaemonResourceEvent)
  | [] => []
  | event :: events => (n, event) :: tagged (n + 1) events

theorem length_tagged : ∀ (n : Nat) (events : List DaemonResourceEvent),
    (tagged n events).length = events.length
  | _, [] => rfl
  | n, _ :: events => congrArg Nat.succ (length_tagged (n + 1) events)

theorem snd_mem_of_mem_tagged : ∀ {n : Nat} {events : List DaemonResourceEvent},
    e ∈ tagged n events → e.2 ∈ events
  | _, [], he => absurd he List.not_mem_nil
  | _, event :: _, he => by
      rcases List.mem_cons.mp he with rfl | hrest
      · exact List.mem_cons_self
      · exact List.mem_cons_of_mem _ (snd_mem_of_mem_tagged hrest)

theorem exec_publish : ∀ (events : List DaemonResourceEvent) (s : Subscriber), s.listening = true →
      s.receiver.unread.length + events.length ≤ eventCapacity →
      (daemonSubscription subscription).exec s (events.map .publish) =
        some { s with
          receiver :=
            { s.receiver with unread := s.receiver.unread ++ tagged s.log.length events }
          log := s.log ++ events.map .published }
  | [], s, _, _ => by simp [Machine.exec, tagged]
  | event :: events, s, hlistening, hroom => by
      rw [List.length_cons] at hroom
      have hreceiver : (s.publish event).receiver =
          { s.receiver with unread := s.receiver.unread ++ [(s.log.length, event)] } := by
        rw [receiver_publish hlistening, Receiver.send_of_room (by omega)]
      have hlength : (s.publish event).log.length = s.log.length + 1 := by
        simp [publish]
      have hleft : (s.publish event).receiver.unread.length + events.length ≤ eventCapacity := by
        rw [hreceiver, List.length_append, List.length_singleton]
        omega
      have hstep : (daemonSubscription subscription).step s (.publish event) =
          some (s.publish event) := rfl
      rw [List.map_cons, Machine.exec_cons hstep,
        exec_publish events (s.publish event) hlistening hleft, hreceiver, hlength]
      simp [publish, tagged]

/-- All kinds are requested, and an image changes before the task is scheduled again; then
containers do, as often as the channel has places. The client is told of containers only, and
that is all it is ever told of. -/
theorem image_change_pushed_out :
    ∃ s, (daemonSubscription (.resourceChanges [.container, .image, .network, .volume])).Reach
        (fun _ _ => True) s ∧
      ¬ s.Followed [.container, .image, .network, .volume] := by
  let containers : List DaemonResourceEvent :=
    (List.replicate 511 (changeOf .containers)).flatMap publishChange
  let events : List DaemonResourceEvent := publishChange (changeOf .images) ++ containers
  let last : DaemonResourceEvent := .resource .container none .invalidated
  let listening : Subscriber := { phase := .waiting }
  let full : Subscriber :=
    { phase := .waiting
      receiver := ⟨tagged 0 events, false⟩
      log := events.map .published }
  -- the image change and 511 container changes fill the channel; one more pushes it out
  have hcount : (tagged 0 events).length = eventCapacity := by
    rw [length_tagged]
    decide +kernel
  have hcontainers : ∀ event ∈ containers, event.kind? = some .container := by
    intro event hevent
    obtain ⟨change, hchange, hmem⟩ := List.mem_flatMap.mp hevent
    obtain rfl := (List.mem_replicate.mp hchange).2
    obtain rfl := List.mem_singleton.mp hmem
    rfl
  have hfull : (daemonSubscription (.resourceChanges [.container, .image, .network, .volume])).exec
      listening (events.map .publish) = some full :=
    exec_publish events listening rfl (by
      rw [← length_tagged 0 events, hcount]
      exact le_rfl)
  have hreach : (daemonSubscription (.resourceChanges
      [.container, .image, .network, .volume])).Reach (fun _ _ => True) (full.publish last) := by
    have hlistening : (daemonSubscription (.resourceChanges
        [.container, .image, .network, .volume])).Reach (fun _ _ => True) listening :=
      .step (a := .subscribe) (.init rfl) trivial rfl
    have hreached := Machine.reach_of_exec hlistening
      (Machine.allSteps_of_forall (fun _ _ => trivial) _ _) hfull
    exact .step (a := .publish last) hreached trivial rfl
  have hunread : (full.publish last).receiver.unread =
      tagged 1 containers ++ [(full.log.length, last)] := by
    rw [receiver_publish rfl]
    show (if eventCapacity ≤ (tagged 0 events).length then _ else _ : Receiver _).unread = _
    rw [if_pos hcount.ge]
    rfl
  refine ⟨full.publish last, hreach, fun hfollowed => ?_⟩
  rcases followed_iff_allDue.mp hfollowed 0 (.resource .image none .invalidated) .image rfl rfl
    (by decide) with h | h | ⟨j, update, -, hj, -⟩ | ⟨update, hsending, -⟩ | ⟨e, he, hkind⟩
  · cases h
  · cases h
  · have hentry := List.mem_of_getElem? hj
    simp [publish, full] at hentry
  · cases hsending
  · rw [hunread] at he
    have hcontainer : e.2.kind? = some .container := by
      rcases List.mem_append.mp he with he | he
      · exact hcontainers e.2 (snd_mem_of_mem_tagged he)
      · rw [List.mem_singleton.mp he]
        rfl
    rw [hkind] at hcontainer
    cases hcontainer

end Subscriber

end TuxStack.Ipc
