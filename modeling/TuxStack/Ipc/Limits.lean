import Mathlib.Data.Finset.Card
import TuxStack.Lib.MapWeight
import TuxStack.Ipc.Numbering

/-!
# The limits of one connection

`serve_client` keeps two accounts: `subscription_tasks` beside the map of live
subscriptions, and the registry of terminal sessions, which subscription tasks fill and
empty on their own.

The first is exact (`subscriptions_accounted`). The second is checked too early: a task
asks `terminal_capacity_available` and registers its session much later, so that any
number of tasks may pass the check together. `terminals_within_capacity` is what the limit
needs: who passes the check while others are on their way to the registry leaves room.
-/

namespace TuxStack.Ipc

open Runs Maps

namespace Server

/-! ## Runs of one connection -/

/-- A frame arrives from the client, or the loop or a task takes a step. -/
inductive Move where
  | receive (e : ProtocolEnvelope)
  | act (a : Action)

def move (s : Server) : Move → Option Server
  | .receive e => some { s with inbound := s.inbound ++ [e] }
  | .act a => s.step a

/-- `serve_client` from the moment its loop is entered. -/
def machine : Machine Server Move where
  init s := s = new
  step := move

/-! ## What a step does to the accounts -/

inductive AccountStep (s s' : Server) : Prop where
  | keep (hsubscriptions : s'.subscriptions = s.subscriptions)
      (htasks : s'.subscriptionTasks = s.subscriptionTasks)
      (hnext : s'.nextSubscriptionId = s.nextSubscriptionId)
  | accept (taskCost : Nat) (hsize : s.subscriptions.size < maxClientSubscriptions)
      (hroom : s.subscriptionTasks + taskCost ≤ maxClientStreamTasks)
      (hsubscriptions : s'.subscriptions = s.subscriptions.insert s.freeId ⟨s.accepted, taskCost⟩)
      (htasks : s'.subscriptionTasks = s.subscriptionTasks + taskCost)
      (hnext : s'.nextSubscriptionId = succId s.freeId)
  | remove (id : SubscriptionId) (hsubscriptions : s'.subscriptions = s.subscriptions.erase id)
      (htasks : s'.subscriptionTasks =
        s.subscriptionTasks - ((s.subscriptions[id]?).map (·.taskCost)).getD 0)
      (hnext : s'.nextSubscriptionId = s.nextSubscriptionId)

variable {s' : Server} {a : Action} {n : Nat}

theorem account_serveFrame {s : Server} {key : Nat} {e : ProtocolEnvelope}
    (h : s.serveFrame key e = some s') : AccountStep s s' := by
  cases serveFrame_inv h with
  | accept taskCost hbody hcost hroom => exact .accept taskCost (by omega) (by omega) rfl rfl rfl
  | unsubscribe id =>
    unfold serveUnsubscribe
    split
    · next control hcontrol =>
      refine .remove _ rfl ?_ rfl
      rw [hcontrol]
      rfl
    · exact .keep rfl rfl rfl
  | _ => exact .keep rfl rfl rfl

theorem account_dispatchRequest (s : Server) (issuer : Option Nat) (request : Request)
    (outcome : Except ProtocolError Vfs.Bytes) :
    (s.dispatchRequest issuer request outcome).1.subscriptions = s.subscriptions ∧
      (s.dispatchRequest issuer request outcome).1.subscriptionTasks = s.subscriptionTasks ∧
      (s.dispatchRequest issuer request outcome).1.nextSubscriptionId = s.nextSubscriptionId := by
  obtain ⟨applied, terminals, -, -, heq⟩ := s.dispatchRequest_frame issuer request outcome
  rw [heq]
  exact ⟨rfl, rfl, rfl⟩

/-- **What a step does to the live subscriptions.** -/
theorem account_step {s : Server} (h : s.step a = some s') : AccountStep s s' := by
  cases step_inv h with
  | serve hloop hin hserve =>
    cases account_serveFrame hserve with
    | keep hsubscriptions htasks hnext => exact .keep hsubscriptions htasks hnext
    | accept taskCost hsize hroom hsubscriptions htasks hnext =>
      exact .accept taskCost hsize hroom hsubscriptions htasks hnext
    | remove id hsubscriptions htasks hnext => exact .remove id hsubscriptions htasks hnext
  | subscriptionDone => exact .remove _ rfl rfl rfl
  | @request key a task _ htask hrequest =>
    cases hrequest with
    | @dispatch outcome =>
      obtain ⟨hsubscriptions, htasks, hnext⟩ :=
        s.account_dispatchRequest task.issuer task.request outcome
      exact .keep hsubscriptions htasks hnext
    | _ => exact .keep rfl rfl rfl
  | task hstep =>
    obtain ⟨task, -, htask⟩ := stepTask_inv hstep
    cases htask with
    | _ => exact .keep rfl rfl rfl
  | _ => exact .keep rfl rfl rfl

/-! ## Free ids -/

/-- The `i`th id from `n` on: they go around from `2^64 - 1` to 1. -/
def idAfter (n i : Nat) : Nat := (n - 1 + i) % 18446744073709551615 + 1

theorem idAfter_zero (hpos : 0 < n) (hlt : n < 2 ^ 64) : idAfter n 0 = n := by
  unfold idAfter
  omega

theorem succId_pos (n : Nat) : 0 < succId n := Nat.le_max_right ..

theorem succId_lt (n : Nat) : succId n < 2 ^ 64 :=
  Nat.max_lt.mpr ⟨Nat.mod_lt _ (by decide), by decide⟩

theorem succId_eq (hpos : 0 < n) (hlt : n < 2 ^ 64) : succId n = n % 18446744073709551615 + 1 := by
  have hmax : max ((n + 1) % 18446744073709551616) 1 = n % 18446744073709551615 + 1 := by omega
  exact hmax

theorem idAfter_succ (hpos : 0 < n) (hlt : n < 2 ^ 64) (i : Nat) :
    idAfter (succId n) i = idAfter n (i + 1) := by
  unfold idAfter
  rw [succId_eq hpos hlt]
  omega

theorem idAfter_inj {i j : Nat} (hi : i < 2 ^ 64 - 1) (hj : j < 2 ^ 64 - 1)
    (h : idAfter n i = idAfter n j) : i = j := by
  unfold idAfter at h
  omega

theorem used_of_skipUsed {used : SubscriptionId → Bool} : ∀ {fuel n : Nat},
    0 < n → n < 2 ^ 64 → used (skipUsed used fuel n) = true →
      ∀ i ≤ fuel, used (idAfter n i) = true
  | 0, n, hpos, hlt, h, i, hi => by
      rw [Nat.le_zero.mp hi, idAfter_zero hpos hlt]
      exact h
  | fuel + 1, n, hpos, hlt, h, i, hi => by
      unfold skipUsed at h
      by_cases hused : used n = true
      · rw [if_pos hused] at h
        cases i with
        | zero =>
          rw [idAfter_zero hpos hlt]
          exact hused
        | succ i =>
          rw [← idAfter_succ hpos hlt]
          exact used_of_skipUsed (succId_pos n) (succId_lt n) h i (Nat.le_of_succ_le_succ hi)
      · rw [if_neg hused] at h
        exact absurd h hused

theorem exists_not_contains {β : Type} (t : Std.TreeMap Nat β) {key : Nat → Nat}
    (hkey : ∀ i ≤ t.size, ∀ j ≤ t.size, key i = key j → i = j) :
    ∃ i ≤ t.size, t.contains (key i) = false := by
  by_contra hall
  have hsub : (Finset.range (t.size + 1)).image key ⊆ t.keys.toFinset := by
    intro k hk
    obtain ⟨i, hi, rfl⟩ := Finset.mem_image.mp hk
    rw [List.mem_toFinset, Std.TreeMap.mem_keys, ← Std.TreeMap.contains_iff_mem]
    by_contra hno
    exact hall ⟨i, by simpa [Nat.lt_succ_iff] using hi, Bool.eq_false_iff.mpr hno⟩
  have hcard := Finset.card_le_card hsub
  have himage : ((Finset.range (t.size + 1)).image key).card = t.size + 1 := by
    rw [Finset.card_image_of_injOn, Finset.card_range]
    intro i hi j hj heq
    exact hkey i (by simpa [Nat.lt_succ_iff] using hi) j (by simpa [Nat.lt_succ_iff] using hj) heq
  have hkeys : t.keys.toFinset.card ≤ t.size := by
    refine (List.toFinset_card_le t.keys).trans ?_
    rw [Std.TreeMap.length_keys]
  omega

theorem freeId_free {s : Server} (hsize : s.subscriptions.size ≤ maxClientSubscriptions)
    (hpos : 0 < s.nextSubscriptionId) (hlt : s.nextSubscriptionId < 2 ^ 64) :
    s.subscriptions[s.freeId]? = none := by
  by_contra hused
  have hcontains : s.subscriptions.contains s.freeId = true := by
    rw [Std.TreeMap.contains_eq_isSome_getElem?]
    exact Option.isSome_iff_ne_none.mpr hused
  obtain ⟨i, hi, hfree⟩ := exists_not_contains s.subscriptions
    fun i hi j hj heq => idAfter_inj (n := s.nextSubscriptionId)
      (Nat.lt_of_le_of_lt (hi.trans hsize) (by decide))
      (Nat.lt_of_le_of_lt (hj.trans hsize) (by decide)) heq
  rw [used_of_skipUsed hpos hlt hcontains i hi] at hfree
  cases hfree

/-! ## The subscriptions -/

variable {s : Server}

/-- The counter is the sum of the costs, within its limit, and so is the map. -/
structure Accounted (s : Server) : Prop where
  total : s.subscriptionTasks = weight SubscriptionControl.taskCost s.subscriptions
  tasks : s.subscriptionTasks ≤ maxClientStreamTasks
  size : s.subscriptions.size ≤ maxClientSubscriptions
  nextPos : 0 < s.nextSubscriptionId
  nextLt : s.nextSubscriptionId < 2 ^ 64

theorem accounted_new : Accounted new where
  total := rfl
  tasks := Nat.zero_le _
  size := Nat.zero_le _
  nextPos := Nat.one_pos
  nextLt := by decide

theorem Accounted.freeId (h : Accounted s) : s.subscriptions[s.freeId]? = none :=
  freeId_free h.size h.nextPos h.nextLt

theorem Accounted.step (h : Accounted s) (hstep : s.step a = some s') : Accounted s' := by
  cases account_step hstep with
  | keep hsubscriptions htasks hnext =>
    refine ⟨?_, ?_, ?_, ?_, ?_⟩
    · rw [htasks, hsubscriptions]
      exact h.total
    · rw [htasks]
      exact h.tasks
    · rw [hsubscriptions]
      exact h.size
    · rw [hnext]
      exact h.nextPos
    · rw [hnext]
      exact h.nextLt
  | accept taskCost hsize hroom hsubscriptions htasks hnext =>
    refine ⟨?_, ?_, ?_, ?_, ?_⟩
    · rw [htasks, hsubscriptions, weight_insert h.freeId, h.total]
    · rw [htasks]
      exact hroom
    · rw [hsubscriptions]
      exact Std.TreeMap.size_insert_le.trans hsize
    · rw [hnext]
      exact succId_pos _
    · rw [hnext]
      exact succId_lt _
  | remove id hsubscriptions htasks hnext =>
    -- what is subtracted is the weight that leaves the map
    have htotal : s'.subscriptionTasks = weight SubscriptionControl.taskCost s'.subscriptions := by
      rw [htasks, hsubscriptions, h.total]
      cases hget : s.subscriptions[id]? with
      | none => exact (weight_erase_of_none hget).symm
      | some control =>
        rw [weight_erase hget]
        exact Nat.add_sub_cancel ..
    refine ⟨htotal, ?_, ?_, ?_, ?_⟩
    · rw [htasks]
      exact (Nat.sub_le ..).trans h.tasks
    · rw [hsubscriptions]
      exact Std.TreeMap.size_erase_le.trans h.size
    · rw [hnext]
      exact h.nextPos
    · rw [hnext]
      exact h.nextLt

theorem accounted_of_reach (h : machine.Reach (fun _ _ => True) s) : Accounted s := by
  refine h.invariant (I := Accounted) ?_ ?_
  · rintro _ rfl
    exact accounted_new
  · intro s m s' hs _ hstep
    cases m with
    | receive e =>
      cases hstep
      exact { hs with }
    | act a => exact hs.step hstep

/-- **Subscriptions are accounted for.** In every state of every run of a connection, the
counter is the sum of the costs of the live subscriptions and at most 32, there are at
most 32 of them, no removal can take the counter below zero, and an id that a step
announces is not the id of a live subscription. -/
theorem subscriptions_accounted (h : machine.Reach (fun _ _ => True) s) :
    s.subscriptionTasks = weight SubscriptionControl.taskCost s.subscriptions ∧
      s.subscriptionTasks ≤ maxClientStreamTasks ∧
      s.subscriptions.size ≤ maxClientSubscriptions ∧
      (∀ (id : SubscriptionId) control, s.subscriptions[id]? = some control →
        control.taskCost ≤ s.subscriptionTasks) ∧
      ∀ m s' frames, machine.step s m = some s' → s'.outbound = s.outbound ++ frames →
        ∀ e ∈ frames, ∀ id serial, e.body = .subscribed id serial →
          s.subscriptions[id]? = none := by
  have hs := accounted_of_reach h
  refine ⟨hs.total, hs.tasks, hs.size, ?_, ?_⟩
  · intro id control hget
    rw [hs.total]
    exact le_weight hget
  · intro m s' frames hstep hout e he id serial hbody
    cases m with
    | receive e' =>
      cases hstep
      have hnone : frames = [] := List.append_right_eq_self.mp hout.symm
      rw [hnone] at he
      cases he
    | act a =>
      cases emits_step hstep with
      | frames new hnew hsent hplain haccepted =>
        rw [hout] at hnew
        rw [List.append_cancel_left hnew] at he
        exact absurd hbody (hplain e he id serial)
      | accepted requestId hnew hsent haccepted =>
        rw [hout] at hnew
        rw [List.append_cancel_left hnew, List.mem_singleton] at he
        subst he
        cases hbody
        exact hs.freeId

/-- Statistics of two containers; the subscription is cancelled, then its task ends. -/
def subscribeAndCancel : List Move :=
  [.receive (.new 1 (.subscribe (.containerStats ["a", "b"]))), .act (.serve 0 true),
    .receive (.new 2 (.unsubscribe 1)), .act (.serve 0 true), .act (.serveClosing true),
    .act (.task 0 .cancelled), .act (.task 0 (.close false)), .act (.task 0 (.ended true)),
    .act (.task 0 .done), .receive (.new 3 (.subscribe (.containerLogs ["c"]))),
    .act (.serve 0 true), .act .takeSubscriptionDone]

/-- The result after such a run: only the subscription to one log counts. -/
theorem late_completion_accounted :
    ∃ s, machine.exec new subscribeAndCancel = some s ∧ s.subscriptionTasks = 1 ∧
      weight SubscriptionControl.taskCost s.subscriptions = 1 := by
  have hrun : ∃ s ∈ machine.exec new subscribeAndCancel, s.subscriptionTasks = 1 := by
    decide +kernel
  obtain ⟨s, hs, htasks⟩ := hrun
  have hreach : machine.Reach (fun _ _ => True) s :=
    Machine.reach_of_exec (.init rfl) (Machine.allSteps_of_forall (fun _ _ => trivial) _ _)
      (Option.mem_def.mp hs)
  exact ⟨s, Option.mem_def.mp hs, htasks, (subscriptions_accounted hreach).1 ▸ htasks⟩

/-! ## The terminals -/

/-- The sessions of the containers `p` in the registry. -/
def registered (s : Server) (p : String → Bool) : Nat :=
  (s.terminals.values.filter fun t => p t.containerId).length

/-- The container of a task that has passed its check and has not registered its session. -/
def starting (task : Option SubscriptionTask) : Option String :=
  task.bind fun task => match task.phase with
    | .admitted | .connected _ => terminalOf task.request
    | _ => none

/-- The tasks on their way to the registry, for the containers `p`. -/
def startingFor (s : Server) (p : String → Bool) : Finset Nat :=
  (Finset.range s.accepted).filter fun serial => (starting (s.tasks serial)).any p

theorem registered_eq (s : Server) (p : String → Bool) :
    s.registered p = weight (fun t : Terminal => if p t.containerId then 1 else 0) s.terminals :=
  length_filter_values _ _

theorem size_eq_registered (s : Server) : s.terminals.size = s.registered fun _ => true := by
  rw [registered, List.filter_true, values_eq_map, List.length_map, Std.TreeMap.length_toList]

theorem registered_erase_le {s : Server} {id : SubscriptionId}
    (h : s'.terminals = s.terminals.erase id) (p : String → Bool) :
    s'.registered p ≤ s.registered p := by
  rw [registered_eq, registered_eq, h]
  exact weight_erase_le

inductive CapacityStep (s : Server) (a : Action) (s' : Server) : Prop where
  | keep (haccepted : s.accepted ≤ s'.accepted)
      (hissued : ∀ serial, s.tasks serial = none → s'.accepted ≤ serial → s'.tasks serial = none)
      (hstarting : ∀ serial containerId, starting (s'.tasks serial) = some containerId →
        starting (s.tasks serial) = some containerId)
      (hregistered : ∀ p, s'.registered p ≤ s.registered p)
  | allow {serial : Nat} {task : SubscriptionTask} {containerId : String}
      (ha : a = .task serial .checkCapacity) (htask : s.tasks serial = some task)
      (hcontainer : terminalOf task.request = some containerId)
      (havailable : s.terminalCapacityAvailable containerId = true)
      (hs' : s' = s.setTaskPhase serial task .admitted)
  | register {serial : Nat} {task : SubscriptionTask} {containerId shell : String}
      (htask : s.tasks serial = some task) (hphase : task.phase = .connected shell)
      (hcontainer : terminalOf task.request = some containerId)
      (hs' : s' = { s with
        terminals := s.terminals.insert task.id ⟨serial, containerId⟩ }.setTaskPhase serial task
          (.registered shell))

theorem CapacityStep.same {s : Server} (htasks : s'.tasks = s.tasks)
    (haccepted : s'.accepted = s.accepted) (hregistered : ∀ p, s'.registered p ≤ s.registered p) :
    CapacityStep s a s' := by
  refine .keep (Nat.le_of_eq haccepted.symm) ?_ ?_ hregistered
  · intro serial hnone _
    rw [htasks, hnone]
  · intro serial containerId h
    rw [← htasks, h]

theorem CapacityStep.cancel {s : Server} (update : Nat → SubscriptionTask → SubscriptionTask)
    (htasks : ∀ serial, s'.tasks serial = (s.tasks serial).map (update serial))
    (hupdate : ∀ serial task, starting (some (update serial task)) = starting (some task))
    (haccepted : s'.accepted = s.accepted) (hregistered : ∀ p, s'.registered p ≤ s.registered p) :
    CapacityStep s a s' := by
  refine .keep (Nat.le_of_eq haccepted.symm) ?_ ?_ hregistered
  · intro serial hnone _
    rw [htasks, hnone, Option.map_none]
  · intro serial containerId h
    rw [htasks] at h
    cases htask : s.tasks serial with
    | none =>
      rw [htask] at h
      cases h
    | some task =>
      rw [htask, Option.map_some, hupdate] at h
      exact h

theorem CapacityStep.cancelTask {s : Server} (serial : Nat)
    (htasks : s'.tasks = (s.cancelTask serial).tasks) (haccepted : s'.accepted = s.accepted)
    (hregistered : ∀ p, s'.registered p ≤ s.registered p) : CapacityStep s a s' := by
  refine .cancel (fun other task =>
    if other = serial then { task with cancelled := true } else task) ?_ ?_ haccepted hregistered
  · intro other
    rw [htasks]
    show Function.update s.tasks serial _ other = _
    by_cases hsame : other = serial
    · rw [hsame, Function.update_self]
      simp
    · rw [Function.update_of_ne hsame]
      simp [hsame]
  · intro other task
    split <;> rfl

theorem CapacityStep.cancelAll {s₀ s : Server} (htasks : s₀.tasks = s.tasks)
    (haccepted : s₀.accepted = s.accepted) (hregistered : ∀ p, s₀.registered p ≤ s.registered p) :
    CapacityStep s a s₀.cancelAll := by
  refine .cancel (fun serial task =>
    if (s₀.subscriptions[task.id]?).map (·.serial) = some serial then
      { task with cancelled := true }
    else task) ?_ ?_ haccepted hregistered
  · intro serial
    rw [← htasks]
    rfl
  · intro serial task
    split <;> rfl

theorem CapacityStep.move {s₀ s : Server} {serial : Nat} {task : SubscriptionTask}
    {phase : TaskPhase} (htask : s.tasks serial = some task)
    (hphase : ∀ containerId, starting (some { task with phase }) = some containerId →
      starting (some task) = some containerId)
    (htasks : s₀.tasks = s.tasks) (haccepted : s₀.accepted = s.accepted)
    (hregistered : ∀ p, s₀.registered p ≤ s.registered p) :
    CapacityStep s a (s₀.setTaskPhase serial task phase) := by
  have hupdate : (s₀.setTaskPhase serial task phase).tasks =
      Function.update s.tasks serial (some { task with phase }) := by
    rw [← htasks]
    rfl
  refine .keep (Nat.le_of_eq haccepted.symm) ?_ ?_ hregistered
  · intro other hnone _
    have hne : other ≠ serial := by
      rintro rfl
      rw [htask] at hnone
      cases hnone
    rw [hupdate, Function.update_of_ne hne, hnone]
  · intro other containerId h
    rw [hupdate] at h
    by_cases hsame : other = serial
    · rw [hsame, Function.update_self] at h
      rw [hsame, htask]
      exact hphase containerId h
    · rw [Function.update_of_ne hsame] at h
      exact h

theorem starting_of_stopped {task : SubscriptionTask} {phase : TaskPhase}
    (h : isStopped phase = true) : starting (some { task with phase }) = none := by
  cases phase with
  | reporting | returned => rfl
  | _ => cases h

theorem starting_none {task : SubscriptionTask} {phase : TaskPhase}
    (h : starting (some { task with phase }) = none) (containerId : String)
    (hsome : starting (some { task with phase }) = some containerId) :
    starting (some task) = some containerId := by
  rw [h] at hsome
  cases hsome

theorem capacity_stepTask {s : Server} {serial : Nat} {b : TaskAction}
    (h : s.stepTask serial b = some s') : CapacityStep s (.task serial b) s' := by
  obtain ⟨task, htask, hstep⟩ := stepTask_inv h
  cases hstep with
  | move hmoves =>
    cases hmoves with
    | allow hphase hcontainer havailable => exact .allow rfl htask hcontainer havailable rfl
    | connected hphase hcontainer =>
      refine .move htask (fun other hother => ?_) rfl rfl fun _ => le_rfl
      have hsame : starting (some task) = terminalOf task.request := by
        simp [starting, hphase]
      exact hsame.trans hother
    | failed _ _ hstopped | stopped _ hstopped =>
      exact .move htask (starting_none (starting_of_stopped hstopped)) rfl rfl fun _ => le_rfl
    | refuse | unsent | unreported | unended =>
      exact .move htask (starting_none rfl) rfl rfl fun _ => le_rfl
  | send hsends =>
    refine .move htask (starting_none ?_) rfl rfl fun _ => le_rfl
    cases hsends <;> rfl
  | register hphase hcontainer => exact .register htask hphase hcontainer rfl
  | close => exact .move htask (starting_none rfl) rfl rfl (registered_erase_le rfl)
  | done => exact .move htask (starting_none rfl) rfl rfl fun _ => le_rfl

theorem registered_dispatchRequest (s : Server) (issuer : Option Nat) (request : Request)
    (outcome : Except ProtocolError Vfs.Bytes) :
    (∀ p, (s.dispatchRequest issuer request outcome).1.registered p ≤ s.registered p) ∧
      (s.dispatchRequest issuer request outcome).1.tasks = s.tasks ∧
      (s.dispatchRequest issuer request outcome).1.accepted = s.accepted := by
  obtain ⟨applied, terminals, -, -, heq⟩ := s.dispatchRequest_frame issuer request outcome
  refine ⟨fun p => ?_, by rw [heq], by rw [heq]⟩
  unfold dispatchRequest
  have happly : ∀ id outcome, (s.applyToTerminal issuer id outcome).1.registered p =
      s.registered p := by
    intro id outcome
    unfold applyToTerminal
    split <;> rfl
  split
  · split
    · exact le_rfl
    · exact (happly _ _).le
  · split
    · exact le_rfl
    · exact (happly _ _).le
  · exact registered_erase_le rfl p
  · split <;> exact le_rfl

theorem capacity_serveFrame {s₀ s : Server} {key : Nat} {e : ProtocolEnvelope}
    (h : s₀.serveFrame key e = some s') (htasks : s₀.tasks = s.tasks)
    (haccepted : s₀.accepted = s.accepted) (hterminals : s₀.terminals = s.terminals) :
    CapacityStep s a s' := by
  have hregistered : ∀ p, s₀.registered p ≤ s.registered p := by
    intro p
    rw [registered_eq, registered_eq, hterminals]
  cases serveFrame_inv h with
  | @accept request =>
    refine .keep ?_ ?_ ?_ hregistered
    · exact haccepted ▸ Nat.le_succ _
    · intro serial hnone hle
      have hne : serial ≠ s₀.accepted := Nat.ne_of_gt hle
      show Function.update s₀.tasks _ _ serial = none
      rw [Function.update_of_ne hne, htasks, hnone]
    · intro serial containerId hstarting
      change starting (Function.update s₀.tasks _ _ serial) = _ at hstarting
      by_cases hsame : serial = s₀.accepted
      · rw [hsame, Function.update_self] at hstarting
        cases request <;> cases hstarting
      · rw [Function.update_of_ne hsame, htasks] at hstarting
        exact hstarting
  | unsubscribe id =>
    unfold serveUnsubscribe
    split
    · rename_i control hcontrol
      refine CapacityStep.cancelTask control.serial ?_ haccepted hregistered
      simp only [Server.cancelTask, htasks]
    · exact .same htasks haccepted hregistered
  | unexpected => exact .cancelAll htasks haccepted hregistered
  | _ => exact .same htasks haccepted hregistered

/-- **What a step does to the registry** and to the tasks on their way there. -/
theorem capacity_step {s : Server} (h : s.step a = some s') : CapacityStep s a s' := by
  cases step_inv h with
  | serve hloop hin hserve => exact capacity_serveFrame hserve rfl rfl rfl
  | unserved => exact .cancelAll rfl rfl fun _ => le_rfl
  | acknowledge => exact .same rfl rfl (registered_erase_le rfl)
  | unacknowledged => exact .cancelAll rfl rfl (registered_erase_le rfl)
  | leave => exact .cancelAll rfl rfl fun _ => le_rfl
  | closeTerminals =>
    refine .same rfl rfl fun p => ?_
    rw [registered_eq, weight_empty]
    exact Nat.zero_le _
  | @request key a task _ htask hrequest =>
    cases hrequest with
    | @dispatch outcome =>
      obtain ⟨hregistered, htasks, haccepted⟩ :=
        s.registered_dispatchRequest task.issuer task.request outcome
      exact .same htasks haccepted hregistered
    | _ => exact .same rfl rfl fun _ => le_rfl
  | task hstep => exact capacity_stepTask hstep
  | _ => exact .same rfl rfl fun _ => le_rfl

/-- Nobody is on the way to the registry, or there is room beside them. -/
def roomBeside (s : Server) (p : String → Bool) (limit : Nat) : Bool :=
  (s.startingFor p).card = 0 || s.registered p + (s.startingFor p).card < limit

/-- A check is passed only while there is room beside those that have passed it before. -/
def leavesRoom (s : Server) : Move → Bool
  | .act (.task serial .checkCapacity) =>
    (s.tasks serial).all fun task => (terminalOf task.request).all fun containerId =>
      !s.terminalCapacityAvailable containerId ||
        s.roomBeside (fun _ => true) maxTerminalSessionsTotal &&
          s.roomBeside (· == containerId) maxTerminalSessionsPerContainer
  | _ => true

/-- **The invariant**: with those on their way there, the registry is within its limits. -/
structure WithinCapacity (s : Server) : Prop where
  issued : ∀ serial, s.accepted ≤ serial → s.tasks serial = none
  total : s.registered (fun _ => true) + (s.startingFor fun _ => true).card ≤
    maxTerminalSessionsTotal
  perContainer : ∀ containerId, s.registered (· == containerId) +
    (s.startingFor (· == containerId)).card ≤ maxTerminalSessionsPerContainer

variable {p : String → Bool} {limit serial : Nat}

theorem mem_startingFor (hissued : ∀ serial, s.accepted ≤ serial → s.tasks serial = none) :
    serial ∈ s.startingFor p ↔ ∃ containerId, starting (s.tasks serial) = some containerId ∧
      p containerId = true := by
  rw [startingFor, Finset.mem_filter, Finset.mem_range, Option.any_eq_true]
  constructor
  · exact fun h => h.2
  · intro h
    refine ⟨?_, h⟩
    by_contra hlt
    obtain ⟨containerId, hstarting, -⟩ := h
    rw [hissued serial (Nat.not_lt.mp hlt)] at hstarting
    cases hstarting

theorem CapacityStep.issued (hstep : CapacityStep s a s')
    (h : ∀ serial, s.accepted ≤ serial → s.tasks serial = none) :
    ∀ serial, s'.accepted ≤ serial → s'.tasks serial = none := by
  intro serial hle
  cases hstep with
  | keep haccepted hissued hstarting hregistered =>
    exact hissued serial (h serial (haccepted.trans hle)) hle
  | @allow k _ _ _ htask _ _ hs' | @register k _ _ _ htask _ _ hs' =>
    subst hs'
    have hnone := h serial hle
    have hne : serial ≠ k := by
      rintro rfl
      rw [htask] at hnone
      cases hnone
    show Function.update s.tasks k _ serial = none
    rw [Function.update_of_ne hne, hnone]

theorem startingFor_subset (hissued : ∀ serial, s.accepted ≤ serial → s.tasks serial = none)
    {held : Finset Nat} (h : ∀ serial containerId, starting (s.tasks serial) = some containerId →
      p containerId = true → serial ∈ held) : s.startingFor p ⊆ held := by
  intro serial hserial
  obtain ⟨containerId, hsome, hp⟩ := (mem_startingFor hissued).mp hserial
  exact h serial containerId hsome hp

/-- **One limit**: with room for the task that is admitted, it is kept. -/
theorem CapacityStep.held_le (hstep : CapacityStep s a s')
    (hissued : ∀ serial, s.accepted ≤ serial → s.tasks serial = none)
    (hheld : s.registered p + (s.startingFor p).card ≤ limit)
    (hroom : ∀ serial task containerId, a = .task serial .checkCapacity →
      s.tasks serial = some task → terminalOf task.request = some containerId →
      s.terminalCapacityAvailable containerId = true → p containerId = true →
      s.registered p + (s.startingFor p).card < limit) :
    s'.registered p + (s'.startingFor p).card ≤ limit := by
  have hissued' := hstep.issued hissued
  have hmem : ∀ {serial containerId}, starting (s.tasks serial) = some containerId →
      p containerId = true → serial ∈ s.startingFor p :=
    fun hsome hp => (mem_startingFor hissued).mpr ⟨_, hsome, hp⟩
  cases hstep with
  | keep haccepted _ hstarting hregistered =>
    have hsubset := startingFor_subset hissued' fun serial containerId hsome hp =>
      hmem (hstarting serial containerId hsome) hp
    have hcard := Finset.card_le_card hsubset
    have hless := hregistered p
    omega
  | @allow k task containerId ha htask hcontainer havailable hs' =>
    subst hs'
    have hregistered : (s.setTaskPhase k task .admitted).registered p = s.registered p := rfl
    have hother : ∀ serial, serial ≠ k → (s.setTaskPhase k task .admitted).tasks serial =
        s.tasks serial := fun serial hne => Function.update_of_ne hne ..
    have hself : starting ((s.setTaskPhase k task .admitted).tasks k) = some containerId := by
      show starting (Function.update s.tasks k _ k) = _
      rw [Function.update_self]
      exact hcontainer
    -- a task that passed its check now counts as starting
    by_cases hp : p containerId = true
    · have hsub : (s.setTaskPhase k task .admitted).startingFor p ⊆
          insert k (s.startingFor p) := by
        refine startingFor_subset hissued' fun serial other hsome hother' => ?_
        by_cases hsame : serial = k
        · exact Finset.mem_insert.mpr (.inl hsame)
        · rw [hother serial hsame] at hsome
          exact Finset.mem_insert_of_mem (hmem hsome hother')
      have hcard := (Finset.card_le_card hsub).trans (Finset.card_insert_le ..)
      have hless := hroom k task containerId ha htask hcontainer havailable hp
      omega
    · have hsub : (s.setTaskPhase k task .admitted).startingFor p ⊆ s.startingFor p := by
        refine startingFor_subset hissued' fun serial other hsome hother' => ?_
        by_cases hsame : serial = k
        · rw [hsame, hself] at hsome
          cases hsome
          exact absurd hother' hp
        · rw [hother serial hsame] at hsome
          exact hmem hsome hother'
      have hcard := Finset.card_le_card hsub
      omega
  | @register k task containerId shell htask hphase hcontainer hs' =>
    have hbefore : starting (s.tasks k) = some containerId := by
      rw [htask]
      simp [starting, hphase, hcontainer]
    -- registering moves the task from the starting ones to the registered ones
    have hsub : s'.startingFor p ⊆ (s.startingFor p).erase k := by
      refine startingFor_subset hissued' fun serial other hsome hp => ?_
      subst hs'
      change starting (Function.update s.tasks k _ serial) = _ at hsome
      by_cases hsame : serial = k
      · rw [hsame, Function.update_self] at hsome
        cases hsome
      · rw [Function.update_of_ne hsame] at hsome
        exact Finset.mem_erase.mpr ⟨hsame, hmem hsome hp⟩
    have hcard := Finset.card_le_card hsub
    have hregistered : s'.registered p ≤ s.registered p + if p containerId then 1 else 0 := by
      rw [registered_eq, registered_eq, hs']
      exact weight_insert_le
    by_cases hp : p containerId = true
    · have herase := Finset.card_erase_add_one (hmem hbefore hp)
      rw [if_pos hp] at hregistered
      omega
    · have herase := Finset.card_le_card (Finset.erase_subset k (s.startingFor p))
      rw [if_neg hp] at hregistered
      omega

theorem room_of_beside (hbeside : s.roomBeside p limit = true) (hroom : s.registered p < limit) :
    s.registered p + (s.startingFor p).card < limit := by
  simp only [roomBeside, Bool.or_eq_true, decide_eq_true_eq] at hbeside
  omega

theorem WithinCapacity.step (h : WithinCapacity s) (hroom : s.leavesRoom (.act a) = true)
    (hstep : s.step a = some s') : WithinCapacity s' := by
  have hcapacity := capacity_step hstep
  have hbeside : ∀ serial task containerId, a = .task serial .checkCapacity →
      s.tasks serial = some task → terminalOf task.request = some containerId →
      s.terminalCapacityAvailable containerId = true →
      s.roomBeside (fun _ => true) maxTerminalSessionsTotal = true ∧
        s.roomBeside (· == containerId) maxTerminalSessionsPerContainer = true := by
    rintro serial task containerId rfl htask hcontainer hyes
    simpa [leavesRoom, htask, hcontainer, hyes] using hroom
  have havailable : ∀ containerId, s.terminalCapacityAvailable containerId = true →
      s.registered (fun _ => true) < maxTerminalSessionsTotal ∧
        s.registered (· == containerId) < maxTerminalSessionsPerContainer := by
    intro containerId hyes
    obtain ⟨htotal, hcontainer⟩ : s.terminals.size < maxTerminalSessionsTotal ∧
        s.sessionsOf containerId < maxTerminalSessionsPerContainer := by
      simpa [terminalCapacityAvailable] using hyes
    exact ⟨size_eq_registered s ▸ htotal, hcontainer⟩
  refine ⟨hcapacity.issued h.issued, ?_, fun other => ?_⟩
  · refine hcapacity.held_le h.issued h.total ?_
    intro serial task containerId ha htask hcontainer hyes _
    exact room_of_beside (hbeside serial task containerId ha htask hcontainer hyes).1
      (havailable containerId hyes).1
  · refine hcapacity.held_le h.issued (h.perContainer other) ?_
    intro serial task containerId ha htask hcontainer hyes hsame
    cases beq_iff_eq.mp hsame
    exact room_of_beside (hbeside serial task other ha htask hcontainer hyes).2
      (havailable other hyes).2

/-- **The registry stays within capacity** in every run in which a task passes the check only
while there is room beside those that are between the check and the registry. -/
theorem terminals_within_capacity (h : machine.Reach (fun s m => s.leavesRoom m = true) s) :
    s.terminals.size ≤ maxTerminalSessionsTotal ∧
      ∀ containerId, s.sessionsOf containerId ≤ maxTerminalSessionsPerContainer := by
  have hs : WithinCapacity s := by
    refine h.invariant (I := WithinCapacity) ?_ ?_
    · rintro _ rfl
      exact ⟨fun _ _ => rfl, Nat.zero_le _, fun _ => Nat.zero_le _⟩
    · intro s m s' hs hroom hstep
      cases m with
      | receive e =>
        cases hstep
        exact { hs with }
      | act a => exact hs.step hroom hstep
  rw [size_eq_registered]
  exact ⟨(Nat.le_add_right ..).trans hs.total,
    fun containerId => (Nat.le_add_right ..).trans (hs.perContainer containerId)⟩

/-- A terminal for the container `web`, up to the capacity check. -/
def admitTerminal (serial : Nat) : List Move :=
  [.receive (.new (serial + 1) (.subscribe (.containerTerminal "web" 24 80 none none))),
    .act (.serve 0 true), .act (.task serial (.connecting true)),
    .act (.task serial .checkCapacity)]

/-- The rest of its start. -/
def openTerminal (serial : Nat) : List Move :=
  [.act (.task serial (.connect (.ok "/bin/sh"))), .act (.task serial .register)]

/-- The result after two terminals have been opened side by side. -/
theorem two_terminals_within_capacity :
    ∃ s, machine.exec new (admitTerminal 0 ++ admitTerminal 1 ++ openTerminal 0 ++ openTerminal 1) =
        some s ∧ s.sessionsOf "web" = 2 ∧
      ∀ containerId, s.sessionsOf containerId ≤ maxTerminalSessionsPerContainer := by
  have hrun : ∃ s ∈ machine.exec new
      (admitTerminal 0 ++ admitTerminal 1 ++ openTerminal 0 ++ openTerminal 1),
      s.sessionsOf "web" = 2 := by
    decide +kernel
  have hsteps : machine.AllSteps (fun s m => s.leavesRoom m = true) new
      (admitTerminal 0 ++ admitTerminal 1 ++ openTerminal 0 ++ openTerminal 1) := by
    decide +kernel
  obtain ⟨s, hs, hweb⟩ := hrun
  have hreach := Machine.reach_of_exec (.init rfl) hsteps (Option.mem_def.mp hs)
  exact ⟨s, Option.mem_def.mp hs, hweb, (terminals_within_capacity hreach).2⟩

/-- Nine terminals pass the check before the first is registered. -/
theorem nine_sessions_of_one_container :
    ∃ s, machine.Reach (fun _ _ => True) s ∧
      maxTerminalSessionsPerContainer < s.sessionsOf "web" := by
  have hrun : ∃ s ∈ machine.exec new
      ((List.range 9).flatMap admitTerminal ++ (List.range 9).flatMap openTerminal),
      maxTerminalSessionsPerContainer < s.sessionsOf "web" := by
    decide +kernel
  obtain ⟨s, hs, hweb⟩ := hrun
  exact ⟨s, Machine.reach_of_exec (.init rfl)
    (Machine.allSteps_of_forall (fun _ _ => trivial) _ _) (Option.mem_def.mp hs), hweb⟩

end Server

end TuxStack.Ipc
