import TuxStack.Ipc.Framing
import TuxStack.Ipc.Numbering

/-!
# Answers and the writer task

All frames of a connection leave the daemon through one writer task, which ends at
the first frame it cannot encode (`crates/tuxstack-daemon/src/ipc.rs`). A `Line` is
`serve_client` with this task: `Server.outbound` is the queue before it, `written`
what it has put on the socket. The peer keeps reading, so a send fails only when
the writer task is gone.

`Balanced` accounts for every frame the loop has taken. Every step keeps it as long as
the frames fit (`balanced_step`), and every step towards an answer leaves less to do
(`work_step`). How the loop comes by its frames is in `TuxStack.Ipc.Socket`.
-/

namespace TuxStack.Ipc

open Vfs

/-! ## State and steps -/

/-- A connection as the daemon sees it. `alive` says that the writer task runs.
`keys` (of the request tasks), `received` (the frames that the loop has taken) and
`written` are history variables. -/
structure Line where
  server : Server
  alive : Bool
  keys : List Nat
  received : List ProtocolEnvelope
  written : List ProtocolEnvelope

namespace Line

def new : Line := ⟨.new, true, [], [], []⟩

/-- Sends succeed exactly while the writer task runs, and the loop is left only
when it is gone. -/
def isHonest (alive : Bool) : Server.Action → Bool
  | .serve _ sent => sent == alive
  | .serveClosing sent => sent == alive
  | .request _ (.respond sent) => sent == alive
  | .task _ (.connecting sent) => sent == alive
  | .task _ (.running sent) => sent == alive
  | .task _ (.item _ sent) => sent == alive
  | .task _ (.report sent) => sent == alive
  | .task _ (.ended sent) => sent == alive
  | .leave => !alive
  | _ => true

def takes (server : Server) : Server.Action → List ProtocolEnvelope
  | .serve _ _ => server.inbound.head?.toList
  | _ => []

/-- The key of the request task that a step spawns. -/
def spawns (server server' : Server) : Server.Action → List Nat
  | .serve key _ =>
    if (server.requestTasks key).isNone && (server'.requestTasks key).isSome then [key] else []
  | _ => []

inductive Action where
  | server (a : Server.Action)
  | write

section

variable (encode : ProtocolEnvelope → Except String Bytes) (maximum : Nat)

/-- One turn of the writer task. When it fails, its end of the queue is dropped. -/
def write (l : Line) : Option Line :=
  match l.alive, l.server.outbound with
  | true, e :: rest =>
    match encodeFrameWithLimit encode e maximum with
    | .ok _ =>
      some { l with server := { l.server with outbound := rest }, written := l.written ++ [e] }
    | .error _ => some { l with server := { l.server with outbound := [] }, alive := false }
  | _, _ => none

def step (l : Line) : Action → Option Line
  | .server a =>
    if isHonest l.alive a then
      (l.server.step a).map fun server =>
        { l with
          server := server
          keys := l.keys ++ spawns l.server server a
          received := l.received ++ takes l.server a }
    else none
  | .write => l.write encode maximum

def fits (l : Line) : Action → Bool
  | .write => l.server.outbound.head?.all fun e =>
    (encodeFrameWithLimit encode e maximum).isOk
  | _ => true

end

/-! ## Accounts -/

def isRequest (r : RequestId) (e : ProtocolEnvelope) : Bool :=
  e.requestId == r && match e.body with
    | .request _ => true
    | _ => false

def isSubscribe (r : RequestId) (e : ProtocolEnvelope) : Bool :=
  e.requestId == r && match e.body with
    | .subscribe _ => true
    | _ => false

def isUnsubscribe (r : RequestId) (e : ProtocolEnvelope) : Bool :=
  e.requestId == r && match e.body with
    | .unsubscribe _ => true
    | _ => false

def isResponse (r : RequestId) (e : ProtocolEnvelope) : Bool :=
  e.requestId == r && match e.body with
    | .response _ => true
    | _ => false

def isSubscribed (r : RequestId) (e : ProtocolEnvelope) : Bool :=
  e.requestId == r && match e.body with
    | .subscribed _ _ => true
    | _ => false

def asks (r : RequestId) (frames : List ProtocolEnvelope) : Nat :=
  frames.countP (isRequest r) + frames.countP (isSubscribe r) + frames.countP (isUnsubscribe r)

def answers (r : RequestId) (frames : List ProtocolEnvelope) : Nat :=
  frames.countP (isResponse r) + frames.countP (isSubscribed r)

/-- A request task that has not handed in its answer. -/
def isDue (r : RequestId) (task : Option RequestTask) : Bool :=
  task.any fun task => task.requestId == r && match task.phase with
    | .running => true
    | .responding _ => true
    | _ => false

/-- The acknowledgement that the loop itself still owes. -/
def closingDue (r : RequestId) : LoopPhase → Nat
  | .closing requestId _ => if requestId = r then 1 else 0
  | _ => 0

/-- The answers with id `r` that are still due. -/
def due (l : Line) (r : RequestId) : Nat :=
  l.keys.countP (fun key => isDue r (l.server.requestTasks key)) + closingDue r l.server.loop

def stream (l : Line) : List ProtocolEnvelope := l.written ++ l.server.outbound

theorem asks_append (r : RequestId) (first second : List ProtocolEnvelope) :
    asks r (first ++ second) = asks r first + asks r second := by
  simp only [asks, List.countP_append]
  omega

theorem answers_append (r : RequestId) (first second : List ProtocolEnvelope) :
    answers r (first ++ second) = answers r first + answers r second := by
  simp only [answers, List.countP_append]
  omega

variable {key : Nat} {e : ProtocolEnvelope} {sent : List ProtocolEnvelope}

theorem countP_at {p q : Nat → Bool} : ∀ {keys : List Nat}, keys.Nodup → key ∈ keys →
    (∀ k, k ≠ key → q k = p k) →
      keys.countP q + (p key).toNat = keys.countP p + (q key).toNat
  | [], _, hmem, _ => by cases hmem
  | k :: keys, hnodup, hmem, hsame => by
      obtain ⟨hnot, hnodup'⟩ := List.nodup_cons.mp hnodup
      rw [List.countP_cons, List.countP_cons]
      rcases List.mem_cons.mp hmem with rfl | hrest
      · have hrest : keys.countP q = keys.countP p := by
          apply List.countP_congr
          intro x hx
          rw [hsame x (fun heq => hnot (heq ▸ hx))]
        rw [hrest]
        cases p key <;> cases q key <;> simp
      · have hne : k ≠ key := by
          rintro rfl
          exact hnot hrest
        have ih := countP_at hnodup' hrest hsame
        rw [hsame k hne]
        omega

def inLoop : LoopPhase → Bool
  | .serving => true
  | .closing _ _ => true
  | _ => false

/-- While the writer task runs, every frame that has been taken is answered or its
answer is due. -/
structure Balanced (l : Line) : Prop where
  alive : l.alive = true
  looping : inLoop l.server.loop = true
  inbound : ∀ e ∈ l.server.inbound, isClientFrame e = true
  nodup : l.keys.Nodup
  tracked : ∀ key, key ∈ l.keys ↔ (l.server.requestTasks key).isSome = true
  balance : ∀ r, asks r l.received = answers r l.stream + l.due r
  subscribed : ∀ r, l.stream.countP (isSubscribed r) ≤ l.received.countP (isSubscribe r)

theorem balanced_new : Balanced new where
  alive := rfl
  looping := rfl
  inbound e he := by cases he
  nodup := List.nodup_nil
  tracked key := by simp [new, Server.new]
  balance r := rfl
  subscribed r := Nat.le_refl _

/-! ## What one step does to the accounts -/

variable {l : Line} {server : Server}

/-- **The balance after a step** that sends `sent` and takes `taken`: what is due
changes by the difference. -/
theorem Balanced.after (hl : Balanced l) {taken : List ProtocolEnvelope} {keys : List Nat}
    (hout : server.outbound = l.server.outbound ++ sent) (hlooping : inLoop server.loop = true)
    (hinbound : ∀ e ∈ server.inbound, e ∈ l.server.inbound) (hnodup : (l.keys ++ keys).Nodup)
    (htracked : ∀ key, key ∈ l.keys ++ keys ↔ (server.requestTasks key).isSome = true)
    (hdue : ∀ r, asks r taken + l.due r = answers r sent +
      ((l.keys ++ keys).countP (fun key => isDue r (server.requestTasks key)) +
        closingDue r server.loop))
    (hsubscribed : ∀ r, sent.countP (isSubscribed r) ≤ taken.countP (isSubscribe r)) :
    Balanced { l with
      server := server, keys := l.keys ++ keys, received := l.received ++ taken } where
  alive := hl.alive
  looping := hlooping
  inbound e he := hl.inbound e (hinbound e he)
  nodup := hnodup
  tracked := htracked
  balance r := by
    have hbalance := hl.balance r
    have hdue' := hdue r
    show asks r (l.received ++ taken) = answers r (l.written ++ server.outbound) +
      ((l.keys ++ keys).countP (fun key => isDue r (server.requestTasks key)) +
        closingDue r server.loop)
    rw [hout, ← List.append_assoc, asks_append, answers_append]
    show _ = answers r l.stream + answers r sent + _
    omega
  subscribed r := by
    have hold := hl.subscribed r
    have hnew := hsubscribed r
    show (l.written ++ server.outbound).countP (isSubscribed r) ≤
      (l.received ++ taken).countP (isSubscribe r)
    rw [hout, ← List.append_assoc, List.countP_append, @List.countP_append _ _ l.received]
    exact Nat.add_le_add hold hnew

/-- The same request tasks, which owe the same answers. -/
def SameDue (s s' : Server) : Prop :=
  ∀ key, (s'.requestTasks key).isSome = (s.requestTasks key).isSome ∧
    ∀ r, isDue r (s'.requestTasks key) = isDue r (s.requestTasks key)

theorem Balanced.quiet (hl : Balanced l) {taken : List ProtocolEnvelope}
    (hout : server.outbound = l.server.outbound ++ sent) (hlooping : inLoop server.loop = true)
    (hinbound : ∀ e ∈ server.inbound, e ∈ l.server.inbound)
    (htasks : SameDue l.server server)
    (hdue : ∀ r, asks r taken + closingDue r l.server.loop =
      answers r sent + closingDue r server.loop)
    (hsubscribed : ∀ r, sent.countP (isSubscribed r) ≤ taken.countP (isSubscribe r)) :
    Balanced { l with
      server := server
      keys := l.keys ++ []
      received := l.received ++ taken } := by
  refine hl.after hout hlooping hinbound ?_ ?_ ?_ hsubscribed
  · rw [List.append_nil]
    exact hl.nodup
  · intro key
    rw [List.append_nil, (htasks key).1]
    exact hl.tracked key
  · intro r
    have hdue' := hdue r
    have hsame : (fun key => isDue r (server.requestTasks key)) =
        fun key => isDue r (l.server.requestTasks key) := by
      funext key
      exact (htasks key).2 r
    rw [List.append_nil, hsame]
    show _ + (_ + closingDue r l.server.loop) = _
    omega

/-- One answer under `id`, counted for `r`. -/
def one (r id : RequestId) : Nat := if id = r then 1 else 0

theorem asks_singleton (r : RequestId) : asks r [e] = match e.body with
      | .request _ => one r e.requestId
      | .subscribe _ => one r e.requestId
      | .unsubscribe _ => one r e.requestId
      | _ => 0 := by
  unfold asks isRequest isSubscribe isUnsubscribe one
  by_cases hr : e.requestId = r
  · cases hbody : e.body <;> simp [hr, hbody]
  · cases hbody : e.body <;> simp [hr]

theorem answers_singleton (r : RequestId) : answers r [e] = match e.body with
      | .response _ => one r e.requestId
      | .subscribed _ _ => one r e.requestId
      | _ => 0 := by
  unfold answers isResponse isSubscribed one
  by_cases hr : e.requestId = r
  · cases hbody : e.body <;> simp [hr, hbody]
  · cases hbody : e.body <;> simp [hr]

theorem closingDue_closing (r requestId : RequestId) (id : SubscriptionId) :
    closingDue r (.closing requestId id) = one r requestId := rfl

theorem isDue_cancel (r : RequestId) (task : Option RequestTask) :
    isDue r (task.map fun task => { task with cancelled := true }) = isDue r task := by
  cases task with
  | none => rfl
  | some task => rfl

theorem due_cancelRequestTask (s : Server) (target : Nat) :
    SameDue s (s.cancelRequestTask target) := by
  intro key
  unfold Server.cancelRequestTask
  dsimp only
  by_cases hkey : key = target
  · subst hkey
    rw [Function.update_self]
    refine ⟨Option.isSome_map, ?_⟩
    intro r
    exact isDue_cancel r _
  · rw [Function.update_of_ne hkey]
    exact ⟨rfl, fun r => rfl⟩

theorem requestTasks_serveUnsubscribe (s : Server) (requestId : RequestId) (id : SubscriptionId) :
    (s.serveUnsubscribe requestId id).requestTasks = s.requestTasks ∧
      (s.serveUnsubscribe requestId id).outbound = s.outbound ∧
      (s.serveUnsubscribe requestId id).inbound = s.inbound ∧
      (s.serveUnsubscribe requestId id).loop = .closing requestId id := by
  unfold Server.serveUnsubscribe
  split
  · exact ⟨rfl, rfl, rfl, rfl⟩
  · exact ⟨rfl, rfl, rfl, rfl⟩

theorem inLoop_serving (hloop : l.server.loop = .serving) : inLoop l.server.loop = true := by
  rw [hloop]
  rfl

theorem Balanced.spawn (hl : Balanced l) (hloop : l.server.loop = .serving)
    {rest : List ProtocolEnvelope} (hrest : ∀ e' ∈ rest, e' ∈ l.server.inbound)
    {request : Request} (hbody : e.body = .request request)
    (hkey : l.server.requestTasks key = none) : Balanced { l with
      server := { l.server with
        inbound := rest
        requests := l.server.requests.insert e.requestId key
        requestTasks := Function.update l.server.requestTasks key
          (some ⟨e.requestId, request, e.issuer, false, .running⟩) }
      keys := l.keys ++ [key]
      received := l.received ++ [e] } := by
  have hnew : key ∉ l.keys := by
    rw [hl.tracked, hkey]
    rintro ⟨⟩
  refine hl.after (List.append_nil _).symm (inLoop_serving hloop) hrest ?_ ?_ ?_ ?_
  · rw [List.nodup_append]
    refine ⟨hl.nodup, by simp, ?_⟩
    intro k hk k' hk' heq
    rw [List.mem_singleton] at hk'
    subst heq hk'
    exact hnew hk
  · intro k
    rw [List.mem_append, List.mem_singleton, hl.tracked]
    by_cases hk : k = key
    · subst hk
      simp
    · simp [hk]
  · intro r
    have hold : l.keys.countP (fun k => isDue r (Function.update l.server.requestTasks key
        (some ⟨e.requestId, request, e.issuer, false, .running⟩) k)) =
          l.keys.countP fun k => isDue r (l.server.requestTasks k) := by
      apply List.countP_congr
      intro k hk
      have hne : k ≠ key := by
        rintro rfl
        exact hnew hk
      rw [Function.update_of_ne hne]
    have hlast : [key].countP (fun k => isDue r (Function.update l.server.requestTasks key
        (some ⟨e.requestId, request, e.issuer, false, .running⟩) k)) = one r e.requestId := by
      by_cases hr : e.requestId = r
      · simp [isDue, one, hr]
      · simp [isDue, one, hr]
    dsimp only
    rw [asks_singleton, hbody, List.countP_append, hold, hlast]
    show one r e.requestId + (_ + closingDue r l.server.loop) = 0 + _
    omega
  · intro r
    exact Nat.zero_le _

theorem Balanced.taken (hl : Balanced l) {rest : List ProtocolEnvelope}
    (hrest : ∀ e' ∈ rest, e' ∈ l.server.inbound)
    (hout : server.outbound = l.server.outbound ++ sent)
    (hlooping : inLoop server.loop = true) (hinbound : server.inbound = rest)
    (htasks : SameDue l.server server)
    (hdue : ∀ r, asks r [e] + closingDue r l.server.loop =
      answers r sent + closingDue r server.loop)
    (hsubscribed : ∀ r, sent.countP (isSubscribed r) ≤ [e].countP (isSubscribe r)) :
    Balanced { l with
      server := server
      keys := l.keys ++ spawns l.server server (.serve key true)
      received := l.received ++ [e] } := by
  have hnone : spawns l.server server (.serve key true) = [] := by
    unfold spawns
    dsimp only
    rw [(htasks key).1]
    cases l.server.requestTasks key <;> rfl
  rw [hnone]
  refine hl.quiet hout hlooping ?_ htasks hdue hsubscribed
  rw [hinbound]
  exact hrest

theorem balanced_frame {rest : List ProtocolEnvelope} (hl : Balanced l)
    (hloop : l.server.loop = .serving) (hin : l.server.inbound = e :: rest)
    (hclient : isClientFrame e = true)
    (h : Server.ServeStep { l.server with inbound := rest } key e server) : Balanced { l with
      server := server
      keys := l.keys ++ spawns l.server server (.serve key true)
      received := l.received ++ [e] } := by
  have hrest : ∀ e' ∈ rest, e' ∈ l.server.inbound := by
    intro e' he'
    rw [hin]
    exact List.mem_cons_of_mem _ he'
  have hserving := inLoop_serving hloop
  cases h with
  -- answered on the spot: the frame asks once and its answer is queued
  | refuseRequest _ hbody | refuseSubscribe _ hbody | ping hbody =>
    refine hl.taken hrest rfl hserving rfl (fun key => ⟨rfl, fun r => rfl⟩) ?_ ?_
    · intro r
      rw [asks_singleton, hbody, answers_singleton]
      rfl
    · intro r
      simp [isSubscribed, ProtocolEnvelope.new]
  | @spawn request hbody hkey =>
    have hspawns : spawns l.server { { l.server with inbound := rest } with
        requests := l.server.requests.insert e.requestId key
        requestTasks := Function.update l.server.requestTasks key
          (some ⟨e.requestId, request, e.issuer, false, .running⟩) } (.serve key true) = [key] := by
      have hwas : l.server.requestTasks key = none := hkey
      simp [spawns, hwas]
    rw [hspawns]
    exact hl.spawn hloop hrest hbody hkey
  | cancel task hbody =>
    refine hl.taken hrest (List.append_nil _).symm hserving rfl
      (due_cancelRequestTask { l.server with inbound := rest } task) ?_ (fun r => Nat.zero_le _)
    intro r
    rw [asks_singleton, hbody]
    rfl
  | ignore hbody =>
    refine hl.taken hrest (List.append_nil _).symm hserving rfl (fun key => ⟨rfl, fun r => rfl⟩)
      ?_ (fun r => Nat.zero_le _)
    intro r
    rw [asks_singleton, hbody]
    rfl
  | accept taskCost hbody =>
    refine hl.taken hrest rfl hserving rfl (fun key => ⟨rfl, fun r => rfl⟩) ?_ ?_
    · intro r
      rw [asks_singleton, hbody, answers_singleton]
      rfl
    · intro r
      simp [isSubscribed, isSubscribe, ProtocolEnvelope.new, hbody, List.countP_cons]
  | unsubscribe id hbody =>
    obtain ⟨htasks, hout, hinbound, hclosed⟩ :=
      requestTasks_serveUnsubscribe { l.server with inbound := rest } e.requestId id
    rw [← List.append_nil l.server.outbound] at hout
    refine hl.taken hrest hout ?_ hinbound ?_ ?_ (fun r => Nat.zero_le _)
    · rw [hclosed]
      rfl
    · intro key
      rw [htasks]
      exact ⟨rfl, fun r => rfl⟩
    · intro r
      rw [asks_singleton, hbody, hloop, hclosed, closingDue_closing]
      exact (Nat.zero_add _).symm
  | unexpected hbody =>
    rw [hclient] at hbody
    cases hbody

theorem balanced_task {serial : Nat} {a : Server.TaskAction} (hl : Balanced l)
    (h : l.server.stepTask serial a = some server) :
    Balanced { l with server := server, keys := l.keys ++ [], received := l.received ++ [] } := by
  obtain ⟨task, -, hstep⟩ := Server.stepTask_inv h
  cases hstep with
  | send hsends =>
    refine hl.quiet rfl hl.looping (fun e he => he) (fun key => ⟨rfl, fun r => rfl⟩) ?_ ?_
    · intro r
      rw [answers_singleton]
      rfl
    · intro r
      simp [isSubscribed, ProtocolEnvelope.new]
  | _ =>
    exact hl.quiet (List.append_nil _).symm hl.looping (fun e he => he)
      (fun key => ⟨rfl, fun r => rfl⟩) (fun r => rfl) (fun r => Nat.le_refl _)

/-- The request tasks that pass a test, when one of them goes on to `phase`. -/
theorem Balanced.countP_tasks (hl : Balanced l) {task : RequestTask} {s : Server}
    (htask : l.server.requestTasks key = some task)
    (htasks : s.requestTasks = l.server.requestTasks) (phase : RequestPhase)
    (test : Option RequestTask → Bool) :
    l.keys.countP (fun k => test ((s.setRequestPhase key task phase).requestTasks k)) +
        (test (some task)).toNat =
      l.keys.countP (fun k => test (l.server.requestTasks k)) +
        (test (some { task with phase := phase })).toNat := by
  have hkey : key ∈ l.keys := by
    rw [hl.tracked, htask]
    rfl
  have hsame : ∀ k, k ≠ key →
      test (Function.update s.requestTasks key (some { task with phase := phase }) k) =
        test (l.server.requestTasks k) := by
    intro k hk
    rw [Function.update_of_ne hk, htasks]
  have hat := countP_at hl.nodup hkey hsame
  rw [Function.update_self, htask] at hat
  exact hat

/-- A request task goes on to `phase`. -/
theorem Balanced.setRequestPhase (hl : Balanced l) {task : RequestTask}
    (htask : l.server.requestTasks key = some task) {phase : RequestPhase} {s : Server}
    (hout : s.outbound = l.server.outbound ++ sent) (hloop : s.loop = l.server.loop)
    (hinbound : s.inbound = l.server.inbound) (htasks : s.requestTasks = l.server.requestTasks)
    (hdue : ∀ r, (isDue r (some task)).toNat =
      answers r sent + (isDue r (some { task with phase := phase })).toNat)
    (hsubscribed : ∀ r, sent.countP (isSubscribed r) = 0) : Balanced { l with
      server := s.setRequestPhase key task phase
      keys := l.keys ++ []
      received := l.received ++ [] } := by
  refine hl.after hout ?_ ?_ ?_ ?_ ?_ ?_
  · show inLoop s.loop = true
    rw [hloop]
    exact hl.looping
  · show ∀ e ∈ s.inbound, _
    rw [hinbound]
    exact fun e he => he
  · rw [List.append_nil]
    exact hl.nodup
  · intro k
    rw [List.append_nil, hl.tracked]
    show _ ↔ (Function.update s.requestTasks key _ k).isSome = true
    by_cases hk : k = key
    · subst hk
      rw [Function.update_self, htask]
      simp
    · rw [Function.update_of_ne hk, htasks]
  · intro r
    have hcount := hl.countP_tasks htask htasks phase (isDue r)
    have hdue' := hdue r
    rw [List.append_nil]
    show 0 + (_ + closingDue r l.server.loop) = _ + (_ + closingDue r s.loop)
    rw [hloop]
    omega
  · intro r
    rw [hsubscribed r]
    exact Nat.zero_le _

theorem balanced_request {a : Server.RequestAction} (hl : Balanced l)
    (hhonest : isHonest true (.request key a) = true)
    (h : l.server.stepRequest key a = some server) :
    Balanced { l with server := server, keys := l.keys ++ [], received := l.received ++ [] } := by
  obtain ⟨task, htask, hstep⟩ := Server.stepRequest_inv h
  cases hstep with
  | @dispatch outcome response hphase =>
    obtain ⟨applied, terminals, -, -, heq⟩ :=
      l.server.dispatchRequest_frame task.issuer task.request outcome
    rw [heq]
    refine hl.setRequestPhase htask (List.append_nil _).symm rfl rfl rfl ?_ (fun r => rfl)
    intro r
    show _ = 0 + _
    simp [isDue, hphase]
  | cancelled hphase =>
    refine hl.setRequestPhase htask (List.append_nil _).symm rfl rfl rfl ?_ (fun r => rfl)
    intro r
    show _ = 0 + _
    simp [isDue, hphase]
  | unsent => cases hhonest
  | @respond response hphase =>
    refine hl.setRequestPhase (s := l.server.sendResponse task.requestId response) htask rfl rfl
      rfl rfl ?_ ?_
    · intro r
      rw [answers_singleton]
      show _ = one r task.requestId + _
      by_cases hr : task.requestId = r
      · simp [isDue, hphase, one, hr]
      · simp [isDue, one, hr]
    · intro r
      simp [isSubscribed, ProtocolEnvelope.new]
  | done hphase =>
    refine hl.setRequestPhase
      (s := { l.server with requestDone := l.server.requestDone ++ [task.requestId] }) htask
      (List.append_nil _).symm rfl rfl rfl ?_ (fun r => rfl)
    intro r
    show _ = 0 + _
    simp [isDue, hphase]

theorem balanced_server {a : Server.Action} (hl : Balanced l) (hhonest : isHonest true a = true)
    (h : l.server.step a = some server) :
    Balanced { l with
      server := server
      keys := l.keys ++ spawns l.server server a
      received := l.received ++ takes l.server a } := by
  cases Server.step_inv h with
  | @serve key e rest _ hloop hin hserve =>
    have hclient : isClientFrame e = true := by
      apply hl.inbound
      rw [hin]
      exact List.mem_cons_self
    have htaken : takes l.server (.serve key true) = [e] := by
      simp [takes, hin]
    rw [htaken]
    exact balanced_frame hl hloop hin hclient (Server.serveFrame_inv hserve)
  | @acknowledge requestId id hloop =>
    refine hl.quiet rfl rfl (fun e he => he) (fun key => ⟨rfl, fun r => rfl⟩) ?_ ?_
    · intro r
      rw [hloop, closingDue_closing, answers_singleton]
      show 0 + _ = one r requestId + 0
      omega
    · intro r
      simp [isSubscribed, ProtocolEnvelope.new]
  | unserved | unacknowledged | leave => cases hhonest
  | requestDone | subscriptionDone =>
    exact hl.quiet (List.append_nil _).symm hl.looping (fun e he => he)
      (fun key => ⟨rfl, fun r => rfl⟩) (fun r => rfl) (fun r => Nat.le_refl _)
  | closeTerminals hloop =>
    have hlooping := hl.looping
    rw [hloop] at hlooping
    cases hlooping
  | request => exact balanced_request hl hhonest h
  | task hstep => exact balanced_task hl hstep

variable {encode : ProtocolEnvelope → Except String Bytes} {maximum : Nat} {l' : Line}

/-- The writer task moves a frame that it can encode from the queue to the socket. -/
theorem write_of_fits (hok : l.fits encode maximum .write = true)
    (h : l.write encode maximum = some l') : ∃ e rest, l.server.outbound = e :: rest ∧
      l' =
        { l with server := { l.server with outbound := rest }, written := l.written ++ [e] } := by
  unfold write at h
  split at h
  · rename_i e rest halive hout
    have hfits : (encodeFrameWithLimit encode e maximum).isOk = true := by
      simpa [fits, hout] using hok
    split at h
    · cases h
      exact ⟨e, rest, hout, rfl⟩
    · rename_i error herror
      rw [herror] at hfits
      cases hfits
  · cases h

theorem server_of_step {a : Server.Action} (h : l.step encode maximum (.server a) = some l') :
    ∃ server, isHonest l.alive a = true ∧ l.server.step a = some server ∧ l' = { l with
      server := server
      keys := l.keys ++ spawns l.server server a
      received := l.received ++ takes l.server a } := by
  unfold step at h
  dsimp only at h
  split at h
  · rename_i hhonest
    obtain ⟨server, hstep, rfl⟩ := Option.map_eq_some_iff.mp h
    exact ⟨server, hhonest, hstep, rfl⟩
  · cases h

theorem balanced_step {a : Action} (hl : Balanced l) (hok : l.fits encode maximum a = true)
    (h : l.step encode maximum a = some l') : Balanced l' := by
  cases a with
  | server a =>
    obtain ⟨server, hhonest, hstep, rfl⟩ := server_of_step h
    rw [hl.alive] at hhonest
    exact balanced_server hl hhonest hstep
  | write =>
    obtain ⟨e, rest, hout, rfl⟩ := write_of_fits hok h
    have hstream : l.written ++ [e] ++ rest = l.stream := by
      rw [stream, hout, List.append_assoc]
      rfl
    refine ⟨hl.alive, hl.looping, hl.inbound, hl.nodup, hl.tracked, ?_, ?_⟩
    · intro r
      show asks r l.received = answers r (l.written ++ [e] ++ rest) + l.due r
      rw [hstream]
      exact hl.balance r
    · intro r
      show (l.written ++ [e] ++ rest).countP _ ≤ _
      rw [hstream]
      exact hl.subscribed r

/-! ## Completion -/

/-- Steps that bring answers on: of a request task, of the loop when it owes an
acknowledgement, and of the writer task. -/
def isCompletion : Action → Bool
  | .write => true
  | .server (.serveClosing _) => true
  | .server (.request _ _) => true
  | _ => false

/-- Nothing more is going to happen to the frames taken so far. -/
def Settled (encode : ProtocolEnvelope → Except String Bytes) (maximum : Nat) (l : Line) : Prop :=
  ∀ a, isCompletion a = true → l.step encode maximum a = none

def isRunning (task : Option RequestTask) : Bool :=
  task.any fun task => match task.phase with
    | .running => true
    | _ => false

def isUnfinished (task : Option RequestTask) : Bool :=
  task.any fun task => match task.phase with
    | .finished => false
    | _ => true

def isOpen (task : Option RequestTask) : Bool :=
  task.any fun task => match task.phase with
    | .running => true
    | .responding _ => true
    | _ => false

def isClosing : LoopPhase → Bool
  | .closing _ _ => true
  | _ => false

/-- What is left to do: four steps for a request task in its first phase, and the
frames in the queue. -/
def work (l : Line) : Nat :=
  2 * l.keys.countP (fun key => isOpen (l.server.requestTasks key)) +
    l.keys.countP (fun key => isRunning (l.server.requestTasks key)) +
    l.keys.countP (fun key => isUnfinished (l.server.requestTasks key)) +
    2 * (isClosing l.server.loop).toNat + l.server.outbound.length

theorem settled_outbound (hl : Balanced l) (h : l.Settled encode maximum) :
    l.server.outbound = [] := by
  have hwrite := h .write rfl
  change l.write encode maximum = none at hwrite
  unfold write at hwrite
  cases hout : l.server.outbound with
  | nil => rfl
  | cons e rest =>
    rw [hl.alive, hout] at hwrite
    dsimp only at hwrite
    split at hwrite <;> cases hwrite

theorem settled_closing (hl : Balanced l) (h : l.Settled encode maximum) (r : RequestId) :
    closingDue r l.server.loop = 0 := by
  cases hloop : l.server.loop with
  | closing requestId id =>
    have hclose := h (.server (.serveClosing true)) rfl
    simp [step, isHonest, hl.alive, Server.step, Server.serveClosing, hloop] at hclose
  | _ => rfl

theorem settled_task (hl : Balanced l) (h : l.Settled encode maximum) (r : RequestId)
    (key : Nat) : isDue r (l.server.requestTasks key) = false := by
  cases htask : l.server.requestTasks key with
  | none => rfl
  | some task =>
    cases hphase : task.phase with
    | running =>
      have hstep := h (.server (.request key (.dispatch (.ok [])))) rfl
      simp [step, isHonest, Server.step, Server.stepRequest, htask, hphase] at hstep
    | responding response =>
      have hstep := h (.server (.request key (.respond true))) rfl
      simp [step, isHonest, hl.alive, Server.step, Server.stepRequest, htask, hphase] at hstep
    | responded => simp [isDue, hphase]
    | finished => simp [isDue, hphase]

theorem settled_of_idle (hl : Balanced l) (hwork : l.work = 0) : l.Settled encode maximum := by
  unfold work at hwork
  have hout : l.server.outbound = [] := List.length_eq_zero_iff.mp (by omega)
  have hloop : isClosing l.server.loop = false := by
    cases hclosing : isClosing l.server.loop with
    | false => rfl
    | true =>
      rw [hclosing, Bool.toNat_true] at hwork
      omega
  have htasks : ∀ key ∈ l.keys, isUnfinished (l.server.requestTasks key) = false := by
    have hzero : l.keys.countP (fun key => isUnfinished (l.server.requestTasks key)) = 0 := by
      omega
    intro key hkey
    exact Bool.eq_false_iff.mpr (List.countP_eq_zero.mp hzero key hkey)
  intro a ha
  cases a with
  | write =>
    show l.write encode maximum = none
    unfold write
    rw [hout]
    cases l.alive <;> rfl
  | server a =>
    have hnone : l.server.step a = none := by
      cases a with
      | serveClosing sent =>
        show l.server.serveClosing sent = none
        unfold Server.serveClosing
        split
        · rename_i requestId id hclosing
          rw [hclosing] at hloop
          cases hloop
        · rfl
      | request key a =>
        show l.server.stepRequest key a = none
        unfold Server.stepRequest
        cases htask : l.server.requestTasks key with
        | none => rfl
        | some task =>
          have hkey : key ∈ l.keys := by
            rw [hl.tracked, htask]
            rfl
          have hfinished := htasks key hkey
          rw [htask] at hfinished
          cases hphase : task.phase with
          | finished => simp [hphase]
          | _ => simp [isUnfinished, hphase] at hfinished
      | _ => cases ha
    simp [step, hnone]

theorem work_setRequestPhase (hl : Balanced l) {key : Nat} {task : RequestTask}
    (htask : l.server.requestTasks key = some task) {phase : RequestPhase} {s : Server}
    (htasks : s.requestTasks = l.server.requestTasks) (hloop : s.loop = l.server.loop)
    (hless : 2 * (isOpen (some { task with phase := phase })).toNat +
        (isRunning (some { task with phase := phase })).toNat +
        (isUnfinished (some { task with phase := phase })).toNat + s.outbound.length <
      2 * (isOpen (some task)).toNat + (isRunning (some task)).toNat +
        (isUnfinished (some task)).toNat + l.server.outbound.length)
    (received : List ProtocolEnvelope) :
    work { l with
      server := s.setRequestPhase key task phase, keys := l.keys ++ [], received := received } <
        work l := by
  have hcount := hl.countP_tasks htask htasks phase
  have hopen := hcount isOpen
  have hrunning := hcount isRunning
  have hunfinished := hcount isUnfinished
  have hsameLoop : (s.setRequestPhase key task phase).loop = l.server.loop := hloop
  have hsameOut : (s.setRequestPhase key task phase).outbound = s.outbound := rfl
  unfold work
  dsimp only
  rw [List.append_nil, hsameLoop, hsameOut]
  omega

theorem work_request {key : Nat} {a : Server.RequestAction} (hl : Balanced l)
    (hhonest : isHonest true (.request key a) = true)
    (h : l.server.stepRequest key a = some server) {received : List ProtocolEnvelope} :
    work { l with server := server, keys := l.keys ++ [], received := received } < work l := by
  obtain ⟨task, htask, hstep⟩ := Server.stepRequest_inv h
  cases hstep with
  | @dispatch outcome response hphase =>
    obtain ⟨applied, terminals, -, -, heq⟩ :=
      l.server.dispatchRequest_frame task.issuer task.request outcome
    rw [heq]
    refine work_setRequestPhase
      (s := { l.server with applied := applied, terminals := terminals }) hl htask rfl rfl ?_ _
    simp [isOpen, isRunning, isUnfinished, hphase]
  | cancelled hphase =>
    refine work_setRequestPhase (s := l.server) hl htask rfl rfl ?_ _
    simp [isOpen, isRunning, isUnfinished, hphase]
  | unsent => cases hhonest
  | @respond response hphase =>
    refine work_setRequestPhase (s := l.server.sendResponse task.requestId response) hl htask rfl
      rfl ?_ _
    simp [isOpen, isRunning, isUnfinished, hphase, Server.sendResponse, Server.sendEnvelope]
    omega
  | done hphase =>
    refine work_setRequestPhase
      (s := { l.server with requestDone := l.server.requestDone ++ [task.requestId] }) hl htask
      rfl rfl ?_ _
    simp [isOpen, isRunning, isUnfinished, hphase]

/-- **Completion steps use up the work.** -/
theorem work_step {a : Action} (hl : Balanced l) (ha : isCompletion a = true)
    (hok : l.fits encode maximum a = true) (h : l.step encode maximum a = some l') :
    work l' < work l := by
  cases a with
  | write =>
    obtain ⟨e, rest, hout, rfl⟩ := write_of_fits hok h
    unfold work
    dsimp only
    rw [hout, List.length_cons]
    omega
  | server a =>
    obtain ⟨server, hhonest, hstep, rfl⟩ := server_of_step h
    rw [hl.alive] at hhonest
    cases a with
    | serveClosing sent =>
      have hsent : sent = true := by simpa [isHonest] using hhonest
      subst hsent
      change l.server.serveClosing true = some server at hstep
      unfold Server.serveClosing at hstep
      split at hstep
      · rename_i requestId id hloop
        cases hstep
        unfold work
        simp [spawns, hloop, isClosing, Server.sendResponse, Server.sendEnvelope]
        omega
      · cases hstep
    | request key b => exact work_request hl hhonest hstep
    | _ => cases ha

/-! ## Settled lines -/

/-- **One response for each request** that the loop has taken, once nothing more can
happen to them: also for each `Unsubscribe`, and for each `Subscribe` that was not
accepted. -/
theorem Balanced.settled (hl : Balanced l) (hsettled : l.Settled encode maximum) (r : RequestId) :
    l.written.countP (isResponse r) =
      l.received.countP (isRequest r) + l.received.countP (isUnsubscribe r) +
        (l.received.countP (isSubscribe r) - l.written.countP (isSubscribed r)) := by
  have hout := settled_outbound hl hsettled
  have hdue : l.due r = 0 := by
    have hnone : l.keys.countP (fun key => isDue r (l.server.requestTasks key)) = 0 := by
      rw [List.countP_eq_zero]
      intro key hkey
      rw [settled_task hl hsettled r key]
      rintro ⟨⟩
    unfold due
    rw [hnone, settled_closing hl hsettled r]
  have hstream : l.stream = l.written := by
    rw [stream, hout, List.append_nil]
  have hbalance := hl.balance r
  have hsubscribed := hl.subscribed r
  rw [hstream] at hbalance hsubscribed
  unfold asks answers at hbalance
  omega

theorem written_of_dead {a : Action} (hdead : l.alive = false)
    (h : l.step encode maximum a = some l') : l'.alive = false ∧ l'.written = l.written := by
  cases a with
  | server a =>
    obtain ⟨server, -, -, rfl⟩ := server_of_step h
    exact ⟨hdead, rfl⟩
  | write =>
    change l.write encode maximum = some l' at h
    unfold write at h
    rw [hdead] at h
    cases h

end Line

end TuxStack.Ipc
