import Mathlib.Data.Fintype.EquivFin
import TuxStack.Ipc.Responses

/-!
# Frames that the loop reads

`read_envelope` is one branch of the `select!` in the loop of `serve_client`
(`crates/tuxstack-daemon/src/ipc.rs`), and what it has read of a frame lives in the
future of that branch. When another branch wins while a frame has arrived in part,
the future is dropped, and that part of the frame with it. A `Socket` is a `Line`
with the bytes of the client: `unread` are on their way, `half` is what the read under
way has got.

`one_response_each` accounts for all frames that the client has sent: each is answered
once, or some step towards its answer is possible. This holds as long as every frame of
the daemon fits and no branch wins over a frame that is half read.
`requests_without_answer` shows what happens otherwise.
-/

namespace TuxStack.Ipc

open Vfs Runs Frames

def ProtocolEnvelope.wire (e : ProtocolEnvelope) : WireEnvelope ProtocolBody :=
  ⟨protocolVersion, e.requestId, e.body⟩

/-- The frames of a client are decoded to what they were encoded from. -/
def Cbor.ReadsClients (cbor : Cbor ProtocolBody) : Prop :=
  ∀ e payload, isClientFrame e = true → cbor.encode e.wire = .ok payload →
    cbor.decode payload = .ok (e.wire, payload.length)

/-- `sent` is a history variable, as those of the line are. -/
structure Socket where
  line : Line
  sent : List ProtocolEnvelope
  unread : Bytes
  half : Bytes

namespace Socket

def new : Socket := ⟨.new, [], [], []⟩

/-- The steps of a connection. `read` is one byte for the read under way, `serve` its
end with a frame, and `fail` its end with an error. -/
inductive Action where
  | send (requestId : RequestId) (body : ProtocolBody)
  | read
  | serve (key : Nat) (sent : Bool)
  | fail
  | server (a : Server.Action)
  | write

def isServe : Server.Action → Bool
  | .serve _ _ => true
  | _ => false

/-- The branches of the `select!` beside the read. -/
def isBranch : Server.Action → Bool
  | .takeRequestDone => true
  | .takeSubscriptionDone => true
  | .leave => true
  | _ => false

def arrived : Bytes → List (Arrival UInt8)
  | [] => []
  | byte :: rest => [.data byte rest]

section

variable (cbor : Cbor ProtocolBody) (maximum : Nat)

def encode (e : ProtocolEnvelope) : Except String Bytes := cbor.encode e.wire

/-- What `read_envelope` makes of the bytes it has got. It waits where the stream would
end too early. -/
def frameRead (half : Bytes) : Option (Except FrameError (WireEnvelope ProtocolBody)) :=
  match (daemonReader cbor maximum).read (arrived half) with
  | .ok (e, _) => some (.ok e)
  | .error (.frame e) => some (.error e)
  | .error (.io _) => none

def step (c : Socket) : Action → Option Socket
  | .send requestId body =>
    let e := ProtocolEnvelope.new requestId body
    if isClientFrame e then
      match encodeFrameWithLimit (encode cbor) e maximum with
      | .ok frame => some { c with sent := c.sent ++ [e], unread := c.unread ++ frame }
      | .error _ => none
    else none
  | .read =>
    match c.line.server.loop, frameRead cbor maximum c.half, c.unread with
    | .serving, none, byte :: rest => some { c with unread := rest, half := c.half ++ [byte] }
    | _, _, _ => none
  | .serve key sent =>
    match frameRead cbor maximum c.half with
    | some (.ok e) =>
      let server := { c.line.server with inbound := [.new e.requestId e.body] }
      ({ c.line with server := server }.step (encode cbor) maximum
        (.server (.serve key sent))).map fun line => { c with line := line, half := [] }
    | _ => none
  | .fail =>
    match frameRead cbor maximum c.half with
    | some (.error _) =>
      c.line.server.leave.map fun server =>
        { c with line := { c.line with server := server }, half := [] }
    | _ => none
  | .server a =>
    -- a read that has ended wins, and a branch that wins drops what has been read
    if isServe a || isBranch a && (frameRead cbor maximum c.half).isSome then none
    else
      (c.line.step (encode cbor) maximum (.server a)).map fun line =>
        { c with line := line, half := if isBranch a then [] else c.half }
  | .write =>
    (c.line.step (encode cbor) maximum .write).map fun line => { c with line := line }

def machine : Machine Socket Action where
  init c := c = new
  step := step cbor maximum

def fits (c : Socket) : Action → Bool
  | .write => c.line.fits (encode cbor) maximum .write
  | _ => true

/-- No completion wins over a frame that is half read. -/
def keepsHalf (c : Socket) : Action → Bool
  | .server .takeRequestDone => c.half.isEmpty
  | .server .takeSubscriptionDone => c.half.isEmpty
  | _ => true

/-- A read ends with a frame of a client. -/
def readsClient (c : Socket) : Action → Bool
  | .serve _ _ =>
    match frameRead cbor maximum c.half with
    | some (.ok e) => isClientFrame (.new e.requestId e.body)
    | _ => true
  | .fail => false
  | _ => true

/-- Steps that bring answers on. -/
def isCompletion : Action → Bool
  | .read => true
  | .serve _ _ => true
  | .fail => true
  | .server a => Line.isCompletion (.server a)
  | .write => true
  | _ => false

/-- What is left to do: two steps for a byte, and the work of the line. -/
def work (c : Socket) : Nat × Nat := (2 * c.unread.length + c.half.length, c.line.work)

def Settled (c : Socket) : Prop :=
  ∀ a, isCompletion a = true → c.step cbor maximum a = none

/-- The client has written `frame` for `e`. -/
structure IsSent (e : ProtocolEnvelope) (frame : Bytes) : Prop where
  client : isClientFrame e = true
  issuer : e.issuer = none
  written : encodeFrameWithLimit (encode cbor) e maximum = .ok frame

/-- The frames `es` have been sent and not been taken; their bytes are `frames`. -/
structure Pending (c : Socket) (es : List ProtocolEnvelope) (frames : List Bytes) : Prop where
  sent : c.sent = c.line.received ++ es
  written : List.Forall₂ (IsSent cbor maximum) es frames
  bytes : c.half ++ c.unread = frames.flatten
  half : c.half <+: frames.headD []

structure Aligned (c : Socket) : Prop where
  balanced : c.line.Balanced
  pending : ∃ es frames, c.Pending cbor maximum es frames

end

/-! ## Reading -/

section

variable {cbor : Cbor ProtocolBody} {maximum : Nat} {c c' : Socket}
  {e : ProtocolEnvelope} {es : List ProtocolEnvelope} {frame : Bytes} {frames : List Bytes}

theorem quiet_arrived (half : Bytes) : (daemonReader cbor maximum).Quiet (arrived half) := by
  intro a ha
  cases half with
  | nil => cases ha
  | cons byte rest =>
    rw [arrived, List.mem_singleton] at ha
    exact .inl ⟨byte, rest, ha⟩

theorem items_arrived (half : Bytes) : Reader.items (arrived half) = half := by
  cases half with
  | nil => rfl
  | cons byte rest => simp [arrived, Reader.items]

theorem IsSent.isFrame (h : IsSent cbor maximum e frame) (hcbor : cbor.ReadsClients) :
    (daemonReader cbor maximum).IsFrame e.wire frame := by
  have hframe : encodeFrameWithLimit cbor.encode e.wire maximum = .ok frame := h.written
  exact isFrame_of_encode (fun payload => hcbor e payload h.client) ⟨rfl, rfl, rfl⟩
    (Nat.min_le_left ..) hframe rfl

theorem IsSent.ne_nil (h : IsSent cbor maximum e frame) : frame ≠ [] := by
  have hframe : encodeFrameWithLimit cbor.encode e.wire maximum = .ok frame := h.written
  obtain ⟨payload, -, rfl, -⟩ := encodeFrame_ok hframe
  rintro ⟨⟩

theorem frameRead_frame (h : IsSent cbor maximum e frame) (hcbor : cbor.ReadsClients) :
    frameRead cbor maximum frame = some (.ok e.wire) := by
  have hitems : Reader.items (arrived frame) = frame ++ [] := by
    rw [items_arrived, List.append_nil]
  obtain ⟨rest, hread, -⟩ := Reader.read_frame (h.isFrame hcbor) (quiet_arrived frame) hitems
  unfold frameRead
  rw [hread]

theorem frameRead_part (h : IsSent cbor maximum e frame) (hcbor : cbor.ReadsClients)
    (hpart : c.half <+: frame) (hne : c.half ≠ frame) :
    frameRead cbor maximum c.half = none := by
  have hread := Reader.read_cut (h.isFrame hcbor) (quiet_arrived c.half)
    (by rwa [items_arrived]) (by rwa [items_arrived])
  have heof : ∀ size received, (daemonReader cbor maximum).cut size received = .io "early eof" := by
    intro size received
    unfold Reader.cut
    split <;> rfl
  unfold frameRead
  rw [hread, heof]

theorem frameRead_nil : frameRead cbor maximum [] = none := rfl

/-- **Where a read stands**: it waits for bytes, which arrive if any frame is left, or it
ends with the first of the frames. -/
theorem Pending.read_cases (h : c.Pending cbor maximum es frames) (hcbor : cbor.ReadsClients) :
    (frameRead cbor maximum c.half = none ∧ (c.unread = [] → es = [])) ∨
      ∃ e es' frames', es = e :: es' ∧ frames = c.half :: frames' ∧
        IsSent cbor maximum e c.half ∧ c.unread = frames'.flatten := by
  obtain ⟨-, hwritten, hbytes, hhalf⟩ := h
  cases hwritten with
  | nil =>
    have hnil : c.half = [] := List.prefix_nil.mp hhalf
    rw [hnil]
    exact .inl ⟨frameRead_nil, fun _ => rfl⟩
  | @cons e frame es frames hsent hrest =>
    have hpart : c.half <+: frame := hhalf
    rw [List.flatten_cons] at hbytes
    by_cases heq : c.half = frame
    · subst heq
      exact .inr ⟨e, es, frames, rfl, rfl, hsent, List.append_cancel_left hbytes⟩
    · refine .inl ⟨frameRead_part hsent hcbor hpart heq, ?_⟩
      intro hunread
      rw [hunread, List.append_nil] at hbytes
      have hle := hpart.length_le
      rw [hbytes, List.length_append] at hle
      refine absurd (hpart.eq_of_length_le ?_) heq
      rw [hbytes, List.length_append]
      omega

/-! ## Steps -/

theorem Pending.send (h : c.Pending cbor maximum es frames) (hsent : IsSent cbor maximum e frame) :
    Pending cbor maximum { c with sent := c.sent ++ [e], unread := c.unread ++ frame }
      (es ++ [e]) (frames ++ [frame]) where
  sent := by rw [h.sent, List.append_assoc]
  written := List.rel_append h.written (.cons hsent .nil)
  bytes := by
    show c.half ++ (c.unread ++ frame) = _
    rw [← List.append_assoc, h.bytes, List.flatten_append, List.flatten_singleton]
  half := by
    have hhalf := h.half
    cases frames with
    | nil => exact (List.prefix_nil.mp hhalf) ▸ List.nil_prefix
    | cons first rest => exact hhalf

theorem Pending.read (h : c.Pending cbor maximum es frames) (hcbor : cbor.ReadsClients)
    {byte : UInt8} {rest : Bytes} (hread : frameRead cbor maximum c.half = none)
    (hunread : c.unread = byte :: rest) :
    Pending cbor maximum { c with unread := rest, half := c.half ++ [byte] } es frames := by
  have hbytes : c.half ++ [byte] ++ rest = frames.flatten := by
    rw [← h.bytes, hunread, List.append_assoc]
    rfl
  refine ⟨h.sent, h.written, hbytes, ?_⟩
  obtain ⟨-, hwritten, -, hhalf⟩ := h
  cases hwritten with
  | nil => simp at hbytes
  | @cons e frame es frames hsent hrest =>
    have hpart : c.half <+: frame := hhalf
    have hshort : c.half.length < frame.length := by
      rcases Nat.lt_or_ge c.half.length frame.length with hlt | hge
      · exact hlt
      · rw [hpart.eq_of_length_le hge, frameRead_frame hsent hcbor] at hread
        cases hread
    rw [List.flatten_cons] at hbytes
    refine List.prefix_of_prefix_length_le ⟨rest, hbytes⟩ ⟨frames.flatten, rfl⟩ ?_
    rw [List.length_append]
    exact hshort

theorem received_server {l l' : Line} {encode : ProtocolEnvelope → Except String Bytes}
    {a : Server.Action} (hserve : isServe a = false)
    (h : l.step encode maximum (.server a) = some l') : l'.received = l.received := by
  obtain ⟨server, -, -, rfl⟩ := Line.server_of_step h
  cases a with
  | serve key sent => cases hserve
  | _ => exact List.append_nil _

/-- A step of the loop or of a task, and what becomes of the bytes that have been read. -/
theorem server_of_step {a : Server.Action} (h : c.step cbor maximum (.server a) = some c') :
    isServe a = false ∧ ∃ line, c.line.step (encode cbor) maximum (.server a) = some line ∧
      c' = { c with line := line, half := if isBranch a then [] else c.half } := by
  unfold step at h
  dsimp only at h
  split at h
  · cases h
  · rename_i hno
    rw [Bool.or_eq_true, not_or] at hno
    obtain ⟨line, hline, rfl⟩ := Option.map_eq_some_iff.mp h
    exact ⟨Bool.eq_false_iff.mpr hno.1, line, hline, rfl⟩

theorem serve_of_step {key : Nat} {sent : Bool}
    (h : c.step cbor maximum (.serve key sent) = some c') :
    ∃ w line, frameRead cbor maximum c.half = some (.ok w) ∧
      Line.step (encode cbor) maximum
        { c.line with server := { c.line.server with inbound := [.new w.requestId w.body] } }
        (.server (.serve key sent)) = some line ∧
      line.received = c.line.received ++ [.new w.requestId w.body] ∧
      c' = { c with line := line, half := [] } := by
  unfold step at h
  dsimp only at h
  split at h
  · rename_i w hread
    obtain ⟨line, hline, rfl⟩ := Option.map_eq_some_iff.mp h
    refine ⟨w, line, hread, hline, ?_, rfl⟩
    obtain ⟨server, -, -, rfl⟩ := Line.server_of_step hline
    rfl
  · cases h

theorem send_of_step {requestId : RequestId} {body : ProtocolBody}
    (h : c.step cbor maximum (.send requestId body) = some c') :
    ∃ frame, IsSent cbor maximum (.new requestId body) frame ∧ c' = { c with
      sent := c.sent ++ [.new requestId body], unread := c.unread ++ frame } := by
  unfold step at h
  dsimp only at h
  split at h
  · rename_i hclient
    split at h
    · rename_i frame hframe
      cases h
      exact ⟨frame, ⟨hclient, rfl, hframe⟩, rfl⟩
    · cases h
  · cases h

theorem read_of_step (h : c.step cbor maximum .read = some c') :
    frameRead cbor maximum c.half = none ∧ ∃ byte rest, c.unread = byte :: rest ∧
      c' = { c with unread := rest, half := c.half ++ [byte] } := by
  unfold step at h
  dsimp only at h
  split at h
  · rename_i byte rest hloop hread hunread
    cases h
    exact ⟨hread, byte, rest, hunread, rfl⟩
  · cases h

/-- The accounts of the line, as long as the loop gets frames of a client. -/
theorem balanced_step {a : Action} (hc : c.line.Balanced) (hfits : c.fits cbor maximum a = true)
    (hclient : c.readsClient cbor maximum a = true) (h : c.step cbor maximum a = some c') :
    c'.line.Balanced := by
  cases a with
  | send requestId body =>
    obtain ⟨frame, -, rfl⟩ := send_of_step h
    exact hc
  | read =>
    obtain ⟨-, byte, rest, -, rfl⟩ := read_of_step h
    exact hc
  | serve key sent =>
    obtain ⟨w, line, hread, hline, -, rfl⟩ := serve_of_step h
    simp only [readsClient, hread] at hclient
    have hbefore : Line.Balanced
        { c.line with server := { c.line.server with inbound := [.new w.requestId w.body] } } := by
      obtain ⟨halive, hlooping, -, hnodup, htracked, hbalance, hsubscribed⟩ := hc
      refine ⟨halive, hlooping, ?_, hnodup, htracked, hbalance, hsubscribed⟩
      intro e he
      rw [List.mem_singleton.mp he]
      exact hclient
    exact Line.balanced_step hbefore rfl hline
  | fail => cases hclient
  | server a =>
    obtain ⟨-, line, hline, rfl⟩ := server_of_step h
    exact Line.balanced_step hc rfl hline
  | write =>
    obtain ⟨line, hline, rfl⟩ := Option.map_eq_some_iff.mp h
    have hfits' : c.line.fits (encode cbor) maximum .write = true := hfits
    exact Line.balanced_step hc hfits' hline

theorem Aligned.of_frameRead (hcbor : cbor.ReadsClients) (hc : c.Aligned cbor maximum)
    {result : Except FrameError (WireEnvelope ProtocolBody)}
    (h : frameRead cbor maximum c.half = some result) :
    ∃ e es frames, result = .ok e.wire ∧ c.Pending cbor maximum (e :: es) (c.half :: frames) := by
  obtain ⟨es, frames, hpending⟩ := hc.pending
  rcases hpending.read_cases hcbor with ⟨hnone, -⟩ | ⟨e, es', frames', rfl, rfl, hsent, -⟩
  · rw [hnone] at h
    cases h
  · refine ⟨e, es', frames', ?_, hpending⟩
    rw [frameRead_frame hsent hcbor] at h
    exact (Option.some.inj h).symm

/-- Where the bytes are aligned, the loop gets the frames of the client. -/
theorem Aligned.readsClient (hcbor : cbor.ReadsClients) (hc : c.Aligned cbor maximum) {a : Action}
    (h : c.step cbor maximum a = some c') : c.readsClient cbor maximum a = true := by
  cases a with
  | serve key sent =>
    obtain ⟨w, line, hread, -⟩ := serve_of_step h
    obtain ⟨e, es, frames, hw, hpending⟩ := hc.of_frameRead hcbor hread
    cases hw
    simp only [Socket.readsClient, hread]
    exact (List.forall₂_cons.mp hpending.written).1.client
  | fail =>
    unfold step at h
    dsimp only at h
    split at h
    · rename_i error hread
      obtain ⟨e, es, frames, he, -⟩ := hc.of_frameRead hcbor hread
      cases he
    · cases h
  | _ => rfl

theorem pending_serve {key : Nat} {sent : Bool} (hcbor : cbor.ReadsClients)
    (hc : c.Aligned cbor maximum) (h : c.step cbor maximum (.serve key sent) = some c') :
    ∃ es frames, c'.Pending cbor maximum es frames := by
  obtain ⟨w, line, hread, -, hreceived, rfl⟩ := serve_of_step h
  obtain ⟨e, es, frames, hw, hpending⟩ := hc.of_frameRead hcbor hread
  cases hw
  obtain ⟨hsent, hrest⟩ := List.forall₂_cons.mp hpending.written
  -- the history variable, which is not on the wire, is empty in a client's frame
  have he : ProtocolEnvelope.new e.wire.requestId e.wire.body = e := by
    obtain ⟨requestId, body, issuer⟩ := e
    cases hsent.issuer
    rfl
  rw [he] at hreceived
  refine ⟨es, frames, ?_, hrest, ?_, List.nil_prefix⟩
  · show c.sent = line.received ++ es
    rw [hreceived, hpending.sent, List.append_assoc]
    rfl
  · have hbytes := hpending.bytes
    rw [List.flatten_cons] at hbytes
    exact List.append_cancel_left hbytes

theorem Pending.same (h : c.Pending cbor maximum es frames) {line : Line}
    (hreceived : line.received = c.line.received) :
    Pending cbor maximum { c with line := line } es frames where
  sent := by
    show c.sent = line.received ++ es
    rw [hreceived]
    exact h.sent
  written := h.written
  bytes := h.bytes
  half := h.half

theorem pending_step (hcbor : cbor.ReadsClients) {a : Action} (hc : c.Aligned cbor maximum)
    (hfits : c.fits cbor maximum a = true) (hkeeps : c.keepsHalf a = true)
    (h : c.step cbor maximum a = some c') : ∃ es frames, c'.Pending cbor maximum es frames := by
  obtain ⟨es, frames, hpending⟩ := hc.pending
  cases a with
  | send requestId body =>
    obtain ⟨frame, hsent, rfl⟩ := send_of_step h
    exact ⟨_, _, hpending.send hsent⟩
  | read =>
    obtain ⟨hread, byte, rest, hunread, rfl⟩ := read_of_step h
    exact ⟨es, frames, hpending.read hcbor hread hunread⟩
  | serve key sent => exact pending_serve hcbor hc h
  | fail => cases hc.readsClient hcbor h
  | server a =>
    obtain ⟨hserve, line, hline, rfl⟩ := server_of_step h
    have hhalf : (if isBranch a then [] else c.half) = c.half := by
      cases a with
      | takeRequestDone | takeSubscriptionDone => exact (List.isEmpty_iff.mp hkeeps).symm
      | leave =>
        obtain ⟨server, hhonest, -⟩ := Line.server_of_step hline
        rw [hc.balanced.alive] at hhonest
        cases hhonest
      | _ => rfl
    rw [hhalf]
    exact ⟨es, frames, hpending.same (received_server hserve hline)⟩
  | write =>
    obtain ⟨line, hline, rfl⟩ := Option.map_eq_some_iff.mp h
    have hfits' : c.line.fits (encode cbor) maximum .write = true := hfits
    obtain ⟨e, rest, -, rfl⟩ := Line.write_of_fits hfits' hline
    exact ⟨es, frames, hpending.same rfl⟩

theorem balanced_of_reach (h : (machine cbor maximum).Reach
      (fun c a => c.fits cbor maximum a = true ∧ c.readsClient cbor maximum a = true) c) :
    c.line.Balanced := by
  refine h.invariant (I := fun c => c.line.Balanced) ?_ ?_
  · rintro _ rfl
    exact Line.balanced_new
  · intro c a c' hc hok hstep
    exact balanced_step hc hok.1 hok.2 hstep

theorem aligned_new : Aligned cbor maximum new :=
  ⟨Line.balanced_new, [], [], rfl, .nil, rfl, List.nil_prefix⟩

theorem aligned_of_reach (hcbor : cbor.ReadsClients)
    (h : (machine cbor maximum).Reach
      (fun c a => c.fits cbor maximum a = true ∧ c.keepsHalf a = true) c) :
    c.Aligned cbor maximum := by
  refine h.invariant (I := Aligned cbor maximum) ?_ ?_
  · rintro _ rfl
    exact aligned_new
  · intro c a c' hc hok hstep
    exact ⟨balanced_step hc.balanced hok.1 (hc.readsClient hcbor hstep) hstep,
      pending_step hcbor hc hok.1 hok.2 hstep⟩

/-! ## Completion -/

theorem exists_serveFrame {s : Server} {key : Nat} (hkey : s.requestTasks key = none)
    (e : ProtocolEnvelope) : ∃ s', s.serveFrame key e = some s' := by
  unfold Server.serveFrame
  split
  · unfold Server.serveRequest
    split
    · exact ⟨_, rfl⟩
    · exact ⟨_, rfl⟩
  · split
    · exact ⟨_, rfl⟩
    · exact ⟨_, rfl⟩
  · exact ⟨_, rfl⟩
  · exact ⟨_, rfl⟩
  · exact ⟨_, rfl⟩
  · exact ⟨_, rfl⟩

theorem exists_serve {l : Line} {encode : ProtocolEnvelope → Except String Bytes} {key : Nat}
    {rest : List ProtocolEnvelope} (halive : l.alive = true) (hloop : l.server.loop = .serving)
    (hin : l.server.inbound = e :: rest) (hkey : l.server.requestTasks key = none) :
    ∃ l', l.step encode maximum (.server (.serve key true)) = some l' := by
  obtain ⟨server, hserve⟩ := exists_serveFrame (s := { l.server with inbound := rest }) hkey e
  have hstep : l.server.step (.serve key true) = some server := by
    show l.server.serve key true = some server
    unfold Server.serve
    split
    · rename_i hin'
      cases hin.symm.trans hin'
      exact hserve
    · rename_i hno
      exact absurd hin (hno e rest hloop)
  have hhonest : Line.isHonest l.alive (.serve key true) = true := by
    rw [halive]
    rfl
  unfold Line.step
  dsimp only
  rw [if_pos hhonest, hstep]
  exact ⟨_, rfl⟩

theorem Settled.line (h : c.Settled cbor maximum) : c.line.Settled (encode cbor) maximum := by
  intro a ha
  cases a with
  | server a =>
    have hnone := h (.server a) ha
    have hguard : (isServe a || isBranch a && (frameRead cbor maximum c.half).isSome) = false := by
      cases a with
      | serveClosing sent => rfl
      | request key a => rfl
      | _ => cases ha
    unfold step at hnone
    dsimp only at hnone
    rw [hguard] at hnone
    exact Option.map_eq_none_iff.mp hnone
  | write => exact Option.map_eq_none_iff.mp (h .write rfl)

theorem Settled.serving (h : c.Settled cbor maximum) (hc : c.line.Balanced) :
    c.line.server.loop = .serving := by
  have hlooping := hc.looping
  cases hloop : c.line.server.loop with
  | serving => rfl
  | closing requestId id =>
    have hnone := Line.settled_closing hc h.line requestId
    rw [hloop, Line.closingDue_closing, Line.one, if_pos rfl] at hnone
    cases hnone
  | leaving | left =>
    rw [hloop] at hlooping
    cases hlooping

theorem Aligned.received (hcbor : cbor.ReadsClients) (hc : c.Aligned cbor maximum)
    (h : c.Settled cbor maximum) : c.line.received = c.sent := by
  have hserving := h.serving hc.balanced
  obtain ⟨es, frames, hpending⟩ := hc.pending
  have hnil : es = [] := by
    rcases hpending.read_cases hcbor with ⟨hread, hnil⟩ | ⟨e, es, frames, rfl, rfl, hsent, -⟩
    · cases hunread : c.unread with
      | nil => exact hnil hunread
      | cons byte rest =>
        have hstep := h .read rfl
        simp [step, hserving, hread, hunread] at hstep
    · -- the frame that has been read can be served under any new key
      obtain ⟨key, hkey⟩ := Infinite.exists_notMem_finset c.line.keys.toFinset
      have hfree : c.line.server.requestTasks key = none := by
        rw [List.mem_toFinset, hc.balanced.tracked] at hkey
        exact Option.not_isSome_iff_eq_none.mp hkey
      have hstep := h (.serve key true) rfl
      unfold step at hstep
      rw [frameRead_frame hsent hcbor] at hstep
      have hnone := Option.map_eq_none_iff.mp hstep
      have hserve : ∃ line, Line.step (encode cbor) maximum
          { c.line with server := { c.line.server with inbound := [.new e.requestId e.body] } }
          (.server (.serve key true)) = some line :=
        exists_serve hc.balanced.alive hserving rfl hfree
      obtain ⟨line, hline⟩ := hserve
      exact absurd (hline.symm.trans hnone) (Option.some_ne_none line)
  rw [hpending.sent, hnil, List.append_nil]

/-- A connection whose read waits and whose line has no work is settled. -/
theorem settled_of_waiting (hc : c.line.Balanced) (hwork : c.line.work = 0)
    (hunread : c.unread = []) (hread : frameRead cbor maximum c.half = none) :
    c.Settled cbor maximum := by
  have hline : c.line.Settled (encode cbor) maximum := Line.settled_of_idle hc hwork
  intro a ha
  cases a with
  | send requestId body => cases ha
  | read => simp [step, hunread]
  | serve key sent => simp [step, hread]
  | fail => simp [step, hread]
  | server a =>
    have hnone := hline (.server a) ha
    simp [step, hnone]
  | write =>
    have hnone := hline .write rfl
    simp [step, hnone]

/-- **Completion steps use up the work**: they read bytes, or leave the bytes alone. -/
theorem work_step (hcbor : cbor.ReadsClients) {a : Action} (hc : c.Aligned cbor maximum)
    (ha : isCompletion a = true) (hfits : c.fits cbor maximum a = true)
    (h : c.step cbor maximum a = some c') : Prod.Lex (· < ·) (· < ·) c'.work c.work := by
  cases a with
  | send requestId body => cases ha
  | read =>
    obtain ⟨-, byte, rest, hunread, rfl⟩ := read_of_step h
    apply Prod.Lex.left
    dsimp only
    simp only [hunread, List.length_append, List.length_cons, List.length_nil]
    omega
  | serve key sent =>
    obtain ⟨w, line, hread, -, -, rfl⟩ := serve_of_step h
    obtain ⟨e, es, frames, -, hpending⟩ := hc.of_frameRead hcbor hread
    have hpos : 0 < c.half.length :=
      List.length_pos_iff.mpr (List.forall₂_cons.mp hpending.written).1.ne_nil
    apply Prod.Lex.left
    dsimp only
    rw [List.length_nil]
    omega
  | fail => cases hc.readsClient hcbor h
  | server a =>
    obtain ⟨-, line, hline, rfl⟩ := server_of_step h
    have hbranch : isBranch a = false := by
      cases a with
      | serveClosing sent => rfl
      | request key a => rfl
      | _ => cases ha
    rw [hbranch]
    exact Prod.Lex.right _ (Line.work_step hc.balanced ha rfl hline)
  | write =>
    obtain ⟨line, hline, rfl⟩ := Option.map_eq_some_iff.mp h
    have hfits' : c.line.fits (encode cbor) maximum .write = true := hfits
    exact Prod.Lex.right _ (Line.work_step hc.balanced rfl hfits' hline)

/-- **One response for each request.** In every run in which the writer task can encode
the frames it takes and no completion wins over a frame that is half read: what the
loop has taken is a first part of what the client has sent, and the frames with id `r`
in it that call for an answer are those answered and those whose answer is due. Once
nothing more can happen, the socket has exactly one `Response` for each `Request` and
`Unsubscribe` sent and for each `Subscribe` that was not accepted; and every step
towards that point leaves less to do. -/
theorem one_response_each (hcbor : cbor.ReadsClients)
    (h : (machine cbor maximum).Reach
      (fun c a => c.fits cbor maximum a = true ∧ c.keepsHalf a = true) c) :
    (c.line.received <+: c.sent ∧ ∀ r, Line.asks r c.line.received =
      Line.answers r c.line.stream + c.line.due r) ∧
      (c.Settled cbor maximum → ∀ r, c.line.written.countP (Line.isResponse r) =
        c.sent.countP (Line.isRequest r) + c.sent.countP (Line.isUnsubscribe r) +
          (c.sent.countP (Line.isSubscribe r) - c.line.written.countP (Line.isSubscribed r))) ∧
      ∀ a c', isCompletion a = true → c.fits cbor maximum a = true →
        c.step cbor maximum a = some c' → Prod.Lex (· < ·) (· < ·) c'.work c.work := by
  have hc := aligned_of_reach hcbor h
  refine ⟨⟨?_, hc.balanced.balance⟩, ?_, ?_⟩
  · obtain ⟨es, frames, hpending⟩ := hc.pending
    exact ⟨es, hpending.sent.symm⟩
  · intro hsettled r
    rw [← hc.received hcbor hsettled]
    exact hc.balanced.settled hsettled.line r
  · intro a c' ha hfits hstep
    exact work_step hcbor hc ha hfits hstep

theorem written_of_dead {a : Action} (hdead : c.line.alive = false)
    (h : c.step cbor maximum a = some c') :
    c'.line.alive = false ∧ c'.line.written = c.line.written := by
  cases a with
  | send requestId body =>
    obtain ⟨frame, -, rfl⟩ := send_of_step h
    exact ⟨hdead, rfl⟩
  | read =>
    obtain ⟨-, byte, rest, -, rfl⟩ := read_of_step h
    exact ⟨hdead, rfl⟩
  | serve key sent =>
    obtain ⟨w, line, -, hline, -, rfl⟩ := serve_of_step h
    have hdead' : Line.alive { c.line with
        server := { c.line.server with inbound := [.new w.requestId w.body] } } = false := hdead
    have hkept := Line.written_of_dead hdead' hline
    exact hkept
  | fail =>
    unfold step at h
    dsimp only at h
    split at h
    · obtain ⟨server, -, rfl⟩ := Option.map_eq_some_iff.mp h
      exact ⟨hdead, rfl⟩
    · cases h
  | server a =>
    obtain ⟨-, line, hline, rfl⟩ := server_of_step h
    exact Line.written_of_dead hdead hline
  | write =>
    obtain ⟨line, hline, rfl⟩ := Option.map_eq_some_iff.mp h
    exact Line.written_of_dead hdead hline

end

/-! ## Requests without an answer -/

def envelopeHead (requestId : Nat) : Bytes := (pingCbor protocolVersion requestId).take 36

def requestBody (payload : Bytes) : Bytes :=
  [161, 103, 82, 101, 113, 117, 101, 115, 116] ++ payload

def responseBody (payload : Bytes) : Bytes :=
  [161, 104, 82, 101, 115, 112, 111, 110, 115, 101] ++ payload

/-- The library on service requests and answers with small request ids. -/
def serviceOnly : Cbor ProtocolBody where
  encode e :=
    if e.protocolVersion = protocolVersion ∧ e.requestId < 24 then
      match e.body with
      | .request (.service payload) => .ok (envelopeHead e.requestId ++ requestBody payload)
      | .response (.answer payload) => .ok (envelopeHead e.requestId ++ responseBody payload)
      | _ => .error "not a service request"
    else .error "not a small request id"
  decode bytes :=
    let requestId := (bytes.getD 30 0).toNat
    if requestId < 24 ∧ bytes.take 45 = envelopeHead requestId ++ requestBody [] then
      .ok (⟨protocolVersion, requestId, .request (.service (bytes.drop 45))⟩, bytes.length)
    else .error "not a service request"

theorem serviceOnly_readsClients : serviceOnly.ReadsClients := by
  rintro ⟨requestId, body, issuer⟩ payload hclient h
  change (if protocolVersion = protocolVersion ∧ requestId < 24 then _ else _) = _ at h
  split at h
  · rename_i hsmall
    have hlt : @LT.lt Nat _ requestId 24 := hsmall.2
    cases body with
    | request request =>
      cases request with
      | service bytes =>
        cases h
        show serviceOnly.decode (envelopeHead requestId ++ requestBody bytes) = _
        have hid : ((envelopeHead requestId ++ requestBody bytes).getD 30 0).toNat = requestId := by
          show requestId.toUInt8.toNat = requestId
          simp
          omega
        have hhead : (envelopeHead requestId ++ requestBody bytes).take 45 =
            envelopeHead requestId ++ requestBody [] := rfl
        simp only [serviceOnly, hid, hhead, hlt, and_self, if_true]
        rfl
      | _ => cases h
    | subscribe _ | unsubscribe _ | cancelRequest _ | ping => cases h
    | _ => cases hclient
  · cases h

/-- Two requests of 50 bytes each; the first is answered with 64 bytes. -/
def twoRequests : List Action :=
  [.send 1 (.request (.service [1])), .send 2 (.request (.service [2]))] ++
    List.replicate 50 .read ++ [.serve 0 true] ++ List.replicate 50 .read ++ [.serve 1 true,
      .server (.request 0 (.dispatch (.ok (List.replicate 64 7)))),
      .server (.request 0 (.respond true)), .write]

/-- The second request has arrived in part when the first is taken off the list. -/
def halfReadRequest : List Action :=
  .send 1 (.request (.service [1])) :: List.replicate 50 .read ++ [.serve 0 true,
    .server (.request 0 (.dispatch (.ok []))), .server (.request 0 (.respond true)), .write,
    .server (.request 0 .done), .send 2 (.request (.service [2])), .read,
    .server .takeRequestDone] ++ List.replicate 49 .read

/-- **Two requests without an answer.** With frames of at most 100 bytes, the answer of
one request ends the writer task, and the other is never answered, though its answer
would fit. And where every frame fits: the completion of one request drops the first
byte of the other, and the loop waits for the rest of a frame that nobody has sent. -/
theorem requests_without_answer :
    (∃ c, (machine serviceOnly 100).Reach (fun c a => c.keepsHalf a = true) c ∧
      c.sent.countP (Line.isRequest 2) = 1 ∧
      (encodeFrameWithLimit (encode serviceOnly) (.new 2 (.response (.answer []))) 100).isOk =
        true ∧
      ∀ as c', (machine serviceOnly 100).exec c as = some c' →
        c'.line.written.countP (Line.isResponse 2) = 0) ∧
    ∃ c, (machine serviceOnly maxFrameSize).Reach
        (fun c a => c.fits serviceOnly maxFrameSize a = true) c ∧
      c.sent.countP (Line.isRequest 2) = 1 ∧ c.Settled serviceOnly maxFrameSize ∧
      c.line.written.countP (Line.isResponse 2) = 0 := by
  constructor
  · have hrun : ((machine serviceOnly 100).exec new twoRequests).map (fun c =>
        decide (c.sent.countP (Line.isRequest 2) = 1 ∧ c.line.alive = false ∧
          c.line.written = [])) = some true := by
      decide +kernel
    have hsteps : (machine serviceOnly 100).AllSteps (fun c a => c.keepsHalf a = true) new
        twoRequests := by
      decide +kernel
    obtain ⟨c, hc, hfacts⟩ := Option.map_eq_some_iff.mp hrun
    obtain ⟨hsent, hdead, hwritten⟩ := of_decide_eq_true hfacts
    refine ⟨c, Machine.reach_of_exec (.init rfl) hsteps hc, hsent, by decide +kernel, ?_⟩
    intro as c' hrest
    have hend := Machine.exec_invariant
      (I := fun c' : Socket => c'.line.alive = false ∧ c'.line.written = [])
      (fun c a c' hi (_ : True) hstep => ⟨(written_of_dead hi.1 hstep).1,
        (written_of_dead hi.1 hstep).2.trans hi.2⟩)
      (fun _ _ => trivial) hrest ⟨hdead, hwritten⟩
    rw [hend.2]
    rfl
  · have hrun : ((machine serviceOnly maxFrameSize).exec new halfReadRequest).map (fun c =>
        decide (c.sent.countP (Line.isRequest 2) = 1 ∧ c.unread = [] ∧ c.line.work = 0 ∧
          (frameRead serviceOnly maxFrameSize c.half).isNone = true ∧
          c.line.written.countP (Line.isResponse 2) = 0)) = some true := by
      decide +kernel
    have hsteps : (machine serviceOnly maxFrameSize).AllSteps (fun c a =>
        c.fits serviceOnly maxFrameSize a = true ∧ c.readsClient serviceOnly maxFrameSize a = true)
        new halfReadRequest := by
      decide +kernel
    obtain ⟨c, hc, hfacts⟩ := Option.map_eq_some_iff.mp hrun
    obtain ⟨hsent, hunread, hwork, hread, hwritten⟩ := of_decide_eq_true hfacts
    have hbalanced := balanced_of_reach (Machine.reach_of_exec (.init rfl) hsteps hc)
    have hfits := hsteps.imp fun c a (h : _ ∧ _) => h.1
    exact ⟨c, Machine.reach_of_exec (.init rfl) hfits hc, hsent, settled_of_waiting hbalanced hwork
      hunread (Option.isNone_iff_eq_none.mp hread), hwritten⟩

/-- The two requests with frames of up to 1000 bytes, to the end; the first is taken off
the list between two frames. -/
def twoAnswers : List Action :=
  twoRequests ++ [.server (.request 0 .done), .server .takeRequestDone,
    .server (.request 1 (.dispatch (.ok []))), .server (.request 1 (.respond true)), .write,
    .server (.request 1 .done)]

theorem two_requests_two_answers :
    ∃ c, (machine serviceOnly 1000).exec new twoAnswers = some c ∧
      c.sent.countP (Line.isRequest 2) = 1 ∧ c.line.written.countP (Line.isResponse 2) = 1 := by
  have hrun : ((machine serviceOnly 1000).exec new twoAnswers).map (fun c =>
      decide (c.sent.countP (Line.isRequest 2) = 1 ∧ c.sent.countP (Line.isUnsubscribe 2) = 0 ∧
        c.sent.countP (Line.isSubscribe 2) = 0 ∧ c.line.work = 0 ∧ c.unread = [] ∧
        c.half = [])) = some true := by
    decide +kernel
  have hsteps : (machine serviceOnly 1000).AllSteps (fun c a =>
      c.fits serviceOnly 1000 a = true ∧ c.keepsHalf a = true) new twoAnswers := by
    decide +kernel
  obtain ⟨c, hc, hfacts⟩ := Option.map_eq_some_iff.mp hrun
  obtain ⟨hsent, hunsubscribe, hsubscribe, hwork, hunread, hhalf⟩ := of_decide_eq_true hfacts
  have hreach := Machine.reach_of_exec (.init rfl) hsteps hc
  have hbalanced := (aligned_of_reach serviceOnly_readsClients hreach).balanced
  have hsettled : c.Settled serviceOnly 1000 := by
    refine settled_of_waiting hbalanced hwork hunread ?_
    rw [hhalf]
    exact frameRead_nil
  have hanswered := (one_response_each serviceOnly_readsClients hreach).2.1 hsettled 2
  refine ⟨c, hc, hsent, ?_⟩
  rw [hanswered, hsent, hunsubscribe, hsubscribe]
  exact congrArg (1 + ·) (Nat.zero_sub _)

end Socket

end TuxStack.Ipc
