import TuxStack.Gui.Logs

/-!
# Log streams

`ContainerLogsModel` (`crates/gui/src/bridge/container_live_bridge.rs`): the streams that
`restart_logs` opens for the containers of the selection, and the batches of lines that
arrive from them, also from streams that have been replaced.

The log of a container only grows. A stream begins with the last lines of the log, as many
as it is asked for, at the moment it is opened; it goes on with the later ones if it follows.
-/

namespace TuxStack.Gui

open Queues Runs

/-! ## Streams -/

/-- Where a stream stands in a log: its next line, and where it ends if it does not follow. -/
structure LogCursor where
  next : Nat
  stop : Option Nat
deriving DecidableEq

/-- The stream of one container; it has no cursor until it is opened. -/
structure LogFeed where
  container : String
  options : ContainerLogsOptions
  cursor : Option LogCursor := none
deriving DecidableEq

structure LogStreams where
  generation : UInt64
  feeds : List LogFeed
deriving DecidableEq

/-- A line that a stream delivers, with its place in the log. -/
structure LogItem where
  container : String
  position : Nat
  line : LogLine
deriving DecidableEq

/-- Where a line of the viewport comes from: a message of a line of a log. -/
structure LogOrigin where
  container : String
  position : Nat
  message : Nat
deriving DecidableEq

/-- The page, the logs, the streams that were opened, and the lines accepted since the last
clear with their origins. -/
structure LogsPage where
  state : ContainerLogsState := {}
  logs : String → List LogLine
  streams : List LogStreams := []
  accepted : List (LogOrigin × LogViewportLine) := []

namespace LogFeed

/-- The first line of a log of this length that a stream delivers. -/
def start (tail : Option Nat) (length : Nat) : Nat :=
  match tail with
  | none => 0
  | some count => length - count

def opened (feed : LogFeed) (log : List LogLine) : LogFeed :=
  { feed with
    cursor := some
      { next := start feed.options.tail log.length
        stop := if feed.options.follow then none else some log.length } }

/-- The next line of the stream, if there is one. -/
def read (feed : LogFeed) (log : List LogLine) : Option (LogItem × LogFeed) :=
  feed.cursor.bind fun cursor =>
    if cursor.stop.any (· ≤ cursor.next) then none
    else
      log[cursor.next]?.map fun line =>
        (⟨feed.container, cursor.next, line⟩,
          { feed with cursor := some { cursor with next := cursor.next + 1 } })

end LogFeed

/-- A batch: the next lines of some of the streams, in this order. -/
def readBatch (logs : String → List LogLine) :
    List LogFeed → List Nat → Option (List LogItem × List LogFeed)
  | feeds, [] => some ([], feeds)
  | feeds, place :: places =>
    feeds[place]?.bind fun feed =>
      (feed.read (logs feed.container)).bind fun (item, feed) =>
        (readBatch logs (feeds.set place feed) places).map fun (items, feeds) =>
          (item :: items, feeds)

/-! ## The page -/

inductive LogsAction where
  | call (call : LogsCall)
  | restart (services : Bool)
  | append (container : String) (line : LogLine)
  | openFeed (place feed : Nat)
  | deliver (place : Nat) (feeds : List Nat)

/-- A batch comes from a stream. -/
def LogsCall.isBatch : LogsCall → Bool
  | applyBatch _ _ => true
  | _ => false

namespace LogsPage

variable (x : LogsPage)

/-- `restart_logs`: history is asked for when the viewport is empty. -/
def restartLogs (services : Bool) : LogsPage :=
  let (begun, s) := x.state.beginStream
  match begun with
  | none => { x with state := s }
  | some (generation, targets) =>
    if ¬ services then
      { x with state := (s.applyError generation "Docker Engine is unavailable.").2 }
    else
      let includeHistory := s.entries.isEmpty
      { x with
        state := s
        streams := x.streams ++
          [{ generation
             feeds := targets.map fun target =>
               { container := target.id
                 options := s.dockerOptions target.running includeHistory } }] }

/-- The lines that a batch gives, with their origins. -/
def originsOfBatch [Chrono] : ContainerLogsState → List LogItem →
    List (LogOrigin × LogViewportLine)
  | _, [] => []
  | s, item :: rest =>
    (s.linesOf item.container item.line).mapIdx
        (fun message line => (⟨item.container, item.position, message⟩, line)) ++
      originsOfBatch (s.applyLine item.container item.line) rest

/-- A batch arrives. -/
def receive [Chrono] (generation : UInt64) (items : List LogItem) : LogsPage :=
  { x with
    state := (x.state.applyBatch generation (items.map fun item => (item.container, item.line))).2
    accepted := x.accepted ++
      if generation ≠ x.state.generation ∨ ¬ x.state.shouldStream then []
      else originsOfBatch x.state items }

/-- The streams of one restart are changed. -/
def setFeeds (place : Nat) (streams : LogStreams) (feeds : List LogFeed) : LogsPage :=
  { x with streams := x.streams.set place { streams with feeds } }

def step [Chrono] : LogsAction → Option LogsPage
  | .call call =>
    if call.isBatch then none
    else
      (call.after x.state).map fun t =>
        { x with
          state := t
          accepted := if call.clears x.state then [] else x.accepted }
  | .restart services => some (x.restartLogs services)
  | .append container line =>
    some { x with logs := Function.update x.logs container (x.logs container ++ [line]) }
  | .openFeed place feed =>
    x.streams[place]?.bind fun streams =>
      streams.feeds[feed]?.bind fun f =>
        if f.cursor.isSome then none
        else some (x.setFeeds place streams
          (streams.feeds.set feed (f.opened (x.logs f.container))))
  | .deliver place feeds =>
    x.streams[place]?.bind fun streams =>
      (readBatch x.logs streams.feeds feeds).map fun (items, feeds) =>
        (x.setFeeds place streams feeds).receive streams.generation items

/-- The lines in the viewport or held back, with their origins. -/
def held : List (LogOrigin × LogViewportLine) :=
  x.accepted.drop (x.accepted.length - x.state.items.length)

/-- No line of a log occurs twice in the viewport and what is held back. -/
def NoLineTwice : Prop :=
  x.held.map (·.2) = x.state.entries ++ x.state.pending ∧ (x.held.map (·.1)).Nodup

/-- History is not asked for while lines are held back, and a batch with the current
generation comes from the streams that were opened last. -/
def Proper : LogsAction → Prop
  | .restart _ => x.state.shouldStream → x.state.entries = [] → x.state.pending = []
  | .deliver place _ => ∀ streams ∈ x.streams[place]?,
      streams.generation = x.state.generation → place + 1 = x.streams.length
  | _ => True

instance decidableProper : ∀ action, Decidable (x.Proper action)
  | .call _ => inferInstanceAs (Decidable True)
  | .restart _ => inferInstanceAs (Decidable (_ → _ → _))
  | .append _ _ => inferInstanceAs (Decidable True)
  | .openFeed _ _ => inferInstanceAs (Decidable True)
  | .deliver _ _ => inferInstanceAs (Decidable (∀ _ ∈ _, _))

end LogsPage

/-- Runs of the page, whatever the logs held before. -/
def logsPage [Chrono] : Machine LogsPage LogsAction where
  init x := ∃ logs, x = { logs }
  step x := x.step

/-! ## Streams ahead of what is held -/

/-- A stream delivers only lines that are not held yet. -/
def LogFeed.Ahead (held : List LogOrigin) (feed : LogFeed) : Prop :=
  match feed.cursor with
  | none => feed.options.tail = some 0 ∨ ∀ origin ∈ held, origin.container ≠ feed.container
  | some cursor => ∀ origin ∈ held, origin.container = feed.container →
      origin.position < cursor.next

/-- What is held is in the logs, once, and the streams, one for each container, are ahead of
it. -/
structure StreamsAhead (logs : String → List LogLine) (held : List LogOrigin)
    (feeds : List LogFeed) : Prop where
  nodup : held.Nodup
  present : ∀ origin ∈ held, origin.position < (logs origin.container).length
  containers : (feeds.map (·.container)).Nodup
  feeds : ∀ feed ∈ feeds, feed.Ahead held

section

variable {logs : String → List LogLine} {held held' : List LogOrigin} {feeds feeds' : List LogFeed}
  {feed feed' : LogFeed} {place : Nat} {item : LogItem}

theorem LogFeed.Ahead.mono (h : feed.Ahead held) (hsub : held' ⊆ held) : feed.Ahead held' := by
  unfold LogFeed.Ahead at h ⊢
  split
  · next hcursor =>
    rw [hcursor] at h
    exact h.imp_right fun hnone origin horigin => hnone origin (hsub horigin)
  · next cursor hcursor =>
    rw [hcursor] at h
    exact fun origin horigin => h origin (hsub horigin)

theorem LogFeed.Ahead.append (h : feed.Ahead held) {new : List LogOrigin}
    (hnew : ∀ origin ∈ new, origin.container ≠ feed.container) : feed.Ahead (held ++ new) := by
  unfold LogFeed.Ahead at h ⊢
  split
  · next hcursor =>
    rw [hcursor] at h
    refine h.imp_right fun hnone origin horigin => ?_
    exact (List.mem_append.mp horigin).elim (hnone origin) (hnew origin)
  · next cursor hcursor =>
    rw [hcursor] at h
    intro origin horigin hcontainer
    rcases List.mem_append.mp horigin with hold | hadded
    · exact h origin hold hcontainer
    · exact absurd hcontainer (hnew origin hadded)

theorem StreamsAhead.mono (h : StreamsAhead logs held feeds) (hsub : held'.Sublist held) :
    StreamsAhead logs held' feeds where
  nodup := h.nodup.sublist hsub
  present origin horigin := h.present origin (hsub.subset horigin)
  containers := h.containers
  feeds feed hfeed := (h.feeds feed hfeed).mono hsub.subset

/-- One of the streams goes on, and the others are streams of other containers. -/
theorem StreamsAhead.set (h : StreamsAhead logs held feeds) (hplace : feeds[place]? = some feed)
    (hcontainer : feed'.container = feed.container) {new : List LogOrigin}
    (hnodup : (held ++ new).Nodup)
    (hnew : ∀ origin ∈ new, origin.container = feed.container ∧
      origin.position < (logs feed.container).length)
    (hfeed : feed'.Ahead (held ++ new)) :
    StreamsAhead logs (held ++ new) (feeds.set place feed') := by
  obtain ⟨hlt, hget⟩ := List.getElem?_eq_some_iff.mp hplace
  have hcontainers : (feeds.set place feed').map (·.container) = feeds.map (·.container) := by
    have hname : (feeds.map (·.container))[place]? = some feed.container := by
      rw [List.getElem?_map, hplace]
      rfl
    obtain ⟨hindex, hname⟩ := List.getElem?_eq_some_iff.mp hname
    rw [List.map_set, hcontainer, ← hname, List.set_getElem_self]
  refine ⟨hnodup, fun origin horigin => ?_, by rw [hcontainers]; exact h.containers,
    fun other hother => ?_⟩
  · rcases List.mem_append.mp horigin with hold | hadded
    · exact h.present origin hold
    · rw [(hnew origin hadded).1]
      exact (hnew origin hadded).2
  · obtain ⟨i, hi, rfl⟩ := List.mem_iff_getElem.mp hother
    rw [List.length_set] at hi
    by_cases hsame : place = i
    · subst hsame
      rw [List.getElem_set_self]
      exact hfeed
    · rw [List.getElem_set_ne hsame]
      refine (h.feeds _ (List.getElem_mem hi)).append fun origin horigin heq => hsame ?_
      have hplaced : place < (feeds.map (·.container)).length := by rwa [List.length_map]
      have hother : i < (feeds.map (·.container)).length := by rwa [List.length_map]
      have hnames : (feeds.map (·.container))[place] = (feeds.map (·.container))[i] := by
        rw [List.getElem_map, List.getElem_map, hget, ← (hnew origin horigin).1, heq]
      exact (List.Nodup.getElem_inj_iff h.containers).mp hnames

theorem LogFeed.read_cases {log : List LogLine} (h : feed.read log = some (item, feed')) :
    ∃ cursor, feed.cursor = some cursor ∧ item.container = feed.container ∧
      item.position = cursor.next ∧ cursor.next < log.length ∧
      feed' = { feed with cursor := some { cursor with next := cursor.next + 1 } } := by
  obtain ⟨cursor, hcursor, h⟩ := Option.bind_eq_some_iff.mp h
  split at h
  · cases h
  · obtain ⟨line, hline, heq⟩ := Option.map_eq_some_iff.mp h
    obtain ⟨rfl, rfl⟩ := Prod.mk.inj heq
    exact ⟨cursor, hcursor, rfl, rfl, (List.getElem?_eq_some_iff.mp hline).1, rfl⟩

theorem origins_of_item (item : LogItem) (lines : List LogViewportLine) :
    (lines.mapIdx fun message line => ((⟨item.container, item.position, message⟩ : LogOrigin),
      line)).map (·.1) =
      (List.range lines.length).map fun message => ⟨item.container, item.position, message⟩ := by
  refine List.ext_getElem ?_ fun i _ _ => ?_
  · rw [List.length_map, List.length_mapIdx, List.length_map, List.length_range]
  · rw [List.getElem_map, List.getElem_mapIdx, List.getElem_map, List.getElem_range]

/-- **A line that is read** was not held, and the stream is past it. -/
theorem StreamsAhead.read (h : StreamsAhead logs held feeds) (hplace : feeds[place]? = some feed)
    (hread : feed.read (logs feed.container) = some (item, feed')) (count : Nat) :
    StreamsAhead logs
      (held ++ (List.range count).map fun message => ⟨item.container, item.position, message⟩)
      (feeds.set place feed') := by
  obtain ⟨cursor, hcursor, hcontainer, hposition, hlt, rfl⟩ := LogFeed.read_cases hread
  have hahead := h.feeds feed (List.mem_of_getElem? hplace)
  unfold LogFeed.Ahead at hahead
  rw [hcursor] at hahead
  have hnew : ∀ origin ∈ (List.range count).map fun message =>
      (⟨item.container, item.position, message⟩ : LogOrigin),
      origin.container = feed.container ∧ origin.position = cursor.next := by
    intro origin horigin
    obtain ⟨message, -, rfl⟩ := List.mem_map.mp horigin
    exact ⟨hcontainer, hposition⟩
  have hcontinued : LogFeed.container { feed with
      cursor := some { cursor with next := cursor.next + 1 } } = feed.container := rfl
  refine h.set hplace hcontinued ?_ (fun origin horigin => ?_) ?_
  · refine List.Nodup.append h.nodup (List.nodup_range.map fun a b hab => ?_) ?_
    · exact congrArg LogOrigin.message hab
    · intro origin hold hadded
      obtain ⟨hsame, hnext⟩ := hnew origin hadded
      exact absurd (hahead origin hold hsame) (by omega)
  · obtain ⟨hsame, hnext⟩ := hnew origin horigin
    exact ⟨hsame, by omega⟩
  · show ∀ origin ∈ held ++ _, origin.container = feed.container → origin.position < cursor.next + 1
    intro origin horigin hsame
    rcases List.mem_append.mp horigin with hold | hadded
    · exact Nat.lt_succ_of_lt (hahead origin hold hsame)
    · exact Nat.lt_succ_of_le (Nat.le_of_eq (hnew origin hadded).2)

variable [Chrono]

/-- **A batch** that is read. -/
theorem StreamsAhead.readBatch (places : List Nat) {s : ContainerLogsState}
    {held : List LogOrigin} {feeds feeds' : List LogFeed} {items : List LogItem}
    (h : StreamsAhead logs held feeds)
    (hread : TuxStack.Gui.readBatch logs feeds places = some (items, feeds')) :
    StreamsAhead logs (held ++ (LogsPage.originsOfBatch s items).map (·.1)) feeds' := by
  induction places generalizing s held feeds items with
  | nil =>
    obtain ⟨rfl, rfl⟩ := Prod.mk.inj (Option.some.inj hread)
    rw [LogsPage.originsOfBatch, List.map_nil, List.append_nil]
    exact h
  | cons place places ih =>
    obtain ⟨feed, hplace, hread⟩ := Option.bind_eq_some_iff.mp hread
    obtain ⟨⟨item, feed'⟩, hline, hread⟩ := Option.bind_eq_some_iff.mp hread
    obtain ⟨⟨rest, feeds''⟩, hrest, heq⟩ := Option.map_eq_some_iff.mp hread
    obtain ⟨rfl, rfl⟩ := Prod.mk.inj heq
    rw [LogsPage.originsOfBatch, List.map_append, origins_of_item, ← List.append_assoc]
    exact ih (h.read hplace hline _) hrest

theorem lines_originsOfBatch (items : List LogItem) : ∀ s : ContainerLogsState,
    (LogsPage.originsOfBatch s items).map (·.2) =
      s.linesOfBatch (items.map fun item => (item.container, item.line)) := by
  induction items with
  | nil => exact fun _ => rfl
  | cons item rest ih =>
    intro s
    have hlines : ((s.linesOf item.container item.line).mapIdx fun message line =>
        ((⟨item.container, item.position, message⟩ : LogOrigin), line)).map (·.2) =
        s.linesOf item.container item.line := by
      refine List.ext_getElem ?_ fun i _ _ => ?_
      · rw [List.length_map, List.length_mapIdx]
      · rw [List.getElem_map, List.getElem_mapIdx]
    rw [LogsPage.originsOfBatch, List.map_append, hlines, ih]
    rfl

end

/-! ## What is held -/

namespace LogsPage

variable {x y : LogsPage}

def lastFeeds (x : LogsPage) : List LogFeed := (x.streams.getLast?.map (·.feeds)).getD []

structure Ahead (x : LogsPage) : Prop where
  holds : x.state.Holds (x.accepted.map (·.2))
  targets : (x.state.targets.map (·.id)).Nodup
  ahead : StreamsAhead x.logs (x.held.map (·.1)) x.lastFeeds

theorem Ahead.length_le (h : x.Ahead) : x.state.items.length ≤ x.accepted.length := by
  have hle := h.holds.sound.suffix.length_le
  rwa [List.length_map] at hle

theorem Ahead.held_lines (h : x.Ahead) : x.held.map (·.2) = x.state.items := by
  unfold held
  rw [List.map_drop]
  have hdrop := List.suffix_iff_eq_drop.mp h.holds.sound.suffix
  rw [List.length_map] at hdrop
  exact hdrop.symm

theorem Ahead.noLineTwice (h : x.Ahead) : x.NoLineTwice := ⟨h.held_lines, h.ahead.nodup⟩

theorem held_congr (haccepted : y.accepted = x.accepted) (hitems : y.state.items = x.state.items) :
    y.held = x.held := by
  unfold held
  rw [haccepted, hitems]

theorem Ahead.mono (h : x.Ahead) (hholds : y.state.Holds (y.accepted.map (·.2)))
    (htargets : (y.state.targets.map (·.id)).Nodup) (hlogs : y.logs = x.logs)
    (hfeeds : y.lastFeeds = x.lastFeeds) (hheld : y.held.Sublist x.held) : y.Ahead := by
  refine ⟨hholds, htargets, ?_⟩
  rw [hlogs, hfeeds]
  exact h.ahead.mono (hheld.map _)

theorem Ahead.of_keepsLines (h : x.Ahead) {s : ContainerLogsState}
    (hkeeps : x.state.KeepsLines s) : Ahead { x with state := s } := by
  refine h.mono (h.holds.of_keepsLines hkeeps) ?_ rfl rfl ?_
  · show (s.targets.map (·.id)).Nodup
    rw [hkeeps.targets]
    exact h.targets
  · have hitems : s.items = x.state.items := by
      rw [BoundedQueues.items, hkeeps.queues]
      rfl
    rw [held_congr (y := { x with state := s }) (x := x) rfl hitems]

theorem Ahead.call [Chrono] (h : x.Ahead) {call : LogsCall} {s : ContainerLogsState}
    (hcall : call.isBatch = false) (hafter : call.after x.state = some s) :
    Ahead { x with state := s, accepted := if call.clears x.state then [] else x.accepted } := by
  have hnotBatch : ∀ generation batch, call ≠ .applyBatch generation batch := by
    rintro generation batch rfl
    cases hcall
  have hitems := h.holds.items_after hnotBatch hafter
  have haccepts : call.accepts x.state = [] := by
    cases call with
    | applyBatch generation batch => cases hcall
    | _ => rfl
  have hholds := h.holds.after hafter
  unfold LogsCall.acceptedAfter at hholds
  rw [haccepts, List.append_nil] at hholds
  refine h.mono ?_ (h.holds.nodup_targets h.targets hafter) rfl rfl ?_
  · cases hclears : call.clears x.state with
    | true | false =>
      rw [hclears] at hholds
      exact hholds
  · cases hclears : call.clears x.state with
    | true => exact (List.drop_nil ▸ List.nil_sublist _ : (List.drop _ []).Sublist _)
    | false =>
      rw [hclears] at hitems
      rw [if_neg Bool.false_ne_true] at hitems
      exact held_congr (y := { x with state := s, accepted := x.accepted }) (x := x) rfl hitems ▸
        List.Sublist.refl _

theorem lastFeeds_append {before : List LogStreams} {streams : LogStreams}
    (h : x.streams = before ++ [streams]) : x.lastFeeds = streams.feeds := by
  unfold lastFeeds
  rw [h, List.getLast?_append, List.getLast?_singleton]
  rfl

/-- **A restart** asks for history only when nothing is held. -/
theorem Ahead.restartLogs (h : x.Ahead) {services : Bool} (hproper : x.Proper (.restart services)) :
    (x.restartLogs services).Ahead := by
  unfold LogsPage.restartLogs
  by_cases hstreams : x.state.shouldStream = true
  case neg =>
    have hbegin : x.state.beginStream = (none, { x.state with status := .idle }) := if_pos hstreams
    rw [hbegin]
    exact h.of_keepsLines ⟨rfl, rfl, rfl, rfl⟩
  case pos =>
    have hbegin : x.state.beginStream =
        (some (x.state.generation + 1, x.state.targets), { x.state with
          generation := x.state.generation + 1
          errorMessage := ""
          status := .streaming }) := if_neg (not_not_intro hstreams)
    rw [hbegin]
    dsimp only
    split
    · refine h.of_keepsLines ?_
      unfold ContainerLogsState.applyError
      split
      · exact ⟨rfl, rfl, rfl, rfl⟩
      · exact ⟨rfl, rfl, rfl, rfl⟩
    · refine ⟨h.holds.of_keepsLines ⟨rfl, rfl, rfl, rfl⟩, h.targets, ?_⟩
      rw [lastFeeds_append rfl]
      refine ⟨h.ahead.nodup, h.ahead.present, ?_, fun feed hfeed => ?_⟩
      · rw [List.map_map]
        exact h.targets
      · obtain ⟨target, -, rfl⟩ := List.mem_map.mp hfeed
        cases hentries : x.state.entries with
        | cons line lines => exact .inl rfl
        | nil =>
          refine .inr fun origin horigin => ?_
          have hitems : x.state.items = [] := by
            unfold BoundedQueues.items
            rw [hentries, hproper hstreams hentries]
            rfl
          have hheld : x.held.map (·.2) = [] := h.held_lines.trans hitems
          have horigin : origin ∈ x.held.map (·.1) := horigin
          rw [List.map_eq_nil_iff.mp hheld] at horigin
          cases horigin

theorem Ahead.append (h : x.Ahead) (container : String) (line : LogLine) :
    Ahead { x with
      logs := Function.update x.logs container (x.logs container ++ [line]) } := by
  refine ⟨h.holds, h.targets, h.ahead.nodup, fun origin horigin => ?_, h.ahead.containers,
    h.ahead.feeds⟩
  have hpresent := h.ahead.present origin horigin
  show origin.position <
    (Function.update x.logs container (x.logs container ++ [line]) origin.container).length
  by_cases hsame : origin.container = container
  · rw [hsame, Function.update_self, List.length_append, List.length_singleton]
    rw [hsame] at hpresent
    exact Nat.lt_succ_of_lt hpresent
  · rw [Function.update_of_ne hsame]
    exact hpresent

/-! ## Streams that go on -/

variable {place : ℕ} {streams : LogStreams} {feeds : List LogFeed}

theorem lastFeeds_of_last (hplace : x.streams[place]? = some streams)
    (hlast : place + 1 = x.streams.length) : x.lastFeeds = streams.feeds := by
  unfold lastFeeds
  rw [List.getLast?_eq_getElem?, ← hlast, Nat.add_sub_cancel, hplace]
  rfl

theorem lastFeeds_setFeeds (hplace : x.streams[place]? = some streams) :
    (x.setFeeds place streams feeds).lastFeeds =
      if place + 1 = x.streams.length then feeds else x.lastFeeds := by
  have hlt := (List.getElem?_eq_some_iff.mp hplace).1
  unfold lastFeeds setFeeds
  rw [List.getLast?_eq_getElem?, List.length_set, List.getElem?_set]
  split
  · next hsame =>
    rw [if_pos (by omega)]
    rfl
  · rw [if_neg (by omega), List.getLast?_eq_getElem?]

theorem Ahead.setFeeds (h : x.Ahead) (hplace : x.streams[place]? = some streams)
    (hahead : StreamsAhead x.logs (x.held.map (·.1)) streams.feeds →
      StreamsAhead x.logs (x.held.map (·.1)) feeds) : (x.setFeeds place streams feeds).Ahead := by
  refine ⟨h.holds, h.targets, ?_⟩
  rw [lastFeeds_setFeeds hplace]
  split
  · next hlast => exact hahead (lastFeeds_of_last hplace hlast ▸ h.ahead)
  · exact h.ahead

/-- **A stream is opened** behind what is held only when nothing of its log is held. -/
theorem streamsAhead_opened {logs : String → List LogLine} {held : List LogOrigin}
    {feed : LogFeed} (h : StreamsAhead logs held feeds) (hplace : feeds[place]? = some feed)
    (hclosed : feed.cursor = none) :
    StreamsAhead logs held (feeds.set place (feed.opened (logs feed.container))) := by
  have hopened : (feed.opened (logs feed.container)).container = feed.container := rfl
  have hcursor : LogFeed.Ahead (held ++ []) (feed.opened (logs feed.container)) := by
    rw [List.append_nil]
    have hahead := h.feeds feed (List.mem_of_getElem? hplace)
    unfold LogFeed.Ahead at hahead
    rw [hclosed] at hahead
    show ∀ origin ∈ held, origin.container = feed.container →
      origin.position < LogFeed.start feed.options.tail (logs feed.container).length
    intro origin horigin hsame
    rcases hahead with htail | hnone
    · rw [htail, ← hsame]
      exact h.present origin horigin
    · exact absurd hsame (hnone origin horigin)
  have hnodup : (held ++ []).Nodup := by
    rw [List.append_nil]
    exact h.nodup
  have hset := h.set hplace hopened hnodup (fun origin horigin => (by cases horigin)) hcursor
  rw [List.append_nil] at hset
  exact hset

variable {items : List LogItem} {generation : UInt64}

theorem held_receive [Chrono] (h : x.Ahead)
    (htaken : ¬ (generation ≠ x.state.generation ∨ ¬ x.state.shouldStream)) :
    ((x.receive generation items).held).Sublist (x.held ++ originsOfBatch x.state items) := by
  have hitems : (x.receive generation items).state.items <:+
      x.state.items ++
        x.state.linesOfBatch (items.map fun item => (item.container, item.line)) := by
    show (x.state.applyBatch generation _).2.toBoundedQueues.items <:+ _
    rw [(ContainerLogsState.applyBatch_taken htaken).queues]
    exact (h.holds.applyLines _).2
  have hlength := hitems.length_le
  rw [List.length_append, ← lines_originsOfBatch, List.length_map] at hlength
  have haccepted : (x.receive generation items).accepted =
      x.accepted ++ originsOfBatch x.state items := by
    unfold receive
    rw [if_neg htaken]
  have hle := h.length_le
  unfold held
  rw [haccepted, List.length_append, ← List.drop_append_of_le_length (by omega)]
  exact (List.drop_suffix_drop_left _ (by omega)).sublist

theorem receive_refused [Chrono]
    (hrefused : generation ≠ x.state.generation ∨ ¬ x.state.shouldStream) :
    x.receive generation items = x := by
  unfold receive
  rw [ContainerLogsState.applyBatch_refused hrefused, if_pos hrefused, List.append_nil]

theorem holds_receive [Chrono] (h : x.Ahead)
    (htaken : ¬ (generation ≠ x.state.generation ∨ ¬ x.state.shouldStream)) :
    (x.receive generation items).state.Holds ((x.receive generation items).accepted.map (·.2)) := by
  have hholds := (h.holds.applyLines (items.map fun item => (item.container, item.line))).1
  unfold receive
  rw [if_neg htaken, List.map_append, lines_originsOfBatch]
  exact hholds.of_keepsLines (ContainerLogsState.applyBatch_taken htaken)

/-- **A batch** that is taken comes from the streams that were opened last. -/
theorem Ahead.deliver [Chrono] (h : x.Ahead) {places : List ℕ}
    (hplace : x.streams[place]? = some streams)
    (hread : readBatch x.logs streams.feeds places = some (items, feeds))
    (hproper : x.Proper (.deliver place places)) :
    ((x.setFeeds place streams feeds).receive streams.generation items).Ahead := by
  have hset := h.setFeeds hplace fun hahead =>
    ((hahead.readBatch (s := x.state) places hread).mono (List.sublist_append_left _ _))
  by_cases hrefused : streams.generation ≠ x.state.generation ∨ ¬ x.state.shouldStream
  · rw [receive_refused (x := x.setFeeds place streams feeds) hrefused]
    exact hset
  · have hlast := hproper streams hplace (not_not.mp (not_or.mp hrefused).1)
    refine ⟨holds_receive hset hrefused, ?_, ?_⟩
    · have hafter : (LogsCall.applyBatch streams.generation
          (items.map fun item => (item.container, item.line))).after x.state = some _ := rfl
      exact hset.holds.nodup_targets hset.targets hafter
    · have hfeeds : ((x.setFeeds place streams feeds).receive streams.generation items).lastFeeds =
          feeds := (lastFeeds_setFeeds hplace).trans (if_pos hlast)
      rw [hfeeds]
      have hahead := h.ahead
      rw [lastFeeds_of_last hplace hlast] at hahead
      refine (hahead.readBatch (s := x.state) places hread).mono ?_
      rw [← List.map_append]
      exact (held_receive hset hrefused).map _

/-- **One step** keeps the streams ahead. -/
theorem Ahead.step [Chrono] (h : x.Ahead) {action : LogsAction} (hproper : x.Proper action)
    (hstep : x.step action = some y) : y.Ahead := by
  cases action with
  | call call =>
    rw [LogsPage.step] at hstep
    split at hstep
    · cases hstep
    · next hcall =>
      obtain ⟨t, hafter, rfl⟩ := Option.map_eq_some_iff.mp hstep
      exact h.call (Bool.not_eq_true _ ▸ hcall) hafter
  | restart services =>
    obtain rfl := Option.some.inj hstep
    exact h.restartLogs hproper
  | append container line =>
    obtain rfl := Option.some.inj hstep
    exact h.append container line
  | openFeed place feed =>
    obtain ⟨streams, hplace, hstep⟩ := Option.bind_eq_some_iff.mp hstep
    obtain ⟨f, hfeed, hstep⟩ := Option.bind_eq_some_iff.mp hstep
    split at hstep
    · cases hstep
    · next hclosed =>
      obtain rfl := Option.some.inj hstep
      exact h.setFeeds hplace fun hahead => streamsAhead_opened hahead hfeed
        (Option.not_isSome_iff_eq_none.mp hclosed)
  | deliver place places =>
    obtain ⟨streams, hplace, hstep⟩ := Option.bind_eq_some_iff.mp hstep
    obtain ⟨⟨items, feeds⟩, hread, rfl⟩ := Option.map_eq_some_iff.mp hstep
    exact h.deliver hplace hread hproper

theorem ahead_start (logs : String → List LogLine) : Ahead { logs } where
  holds := ContainerLogsState.holds_cleared rfl
  targets := List.nodup_nil
  ahead := ⟨List.nodup_nil, fun _ h => (by cases h), List.nodup_nil, fun _ h => (by cases h)⟩

theorem ahead_of_reach [Chrono] (h : logsPage.Reach Proper x) : x.Ahead := by
  refine h.invariant (fun x hinit => ?_) fun x action y hahead hproper hstep =>
    hahead.step hproper hstep
  obtain ⟨logs, rfl⟩ := hinit
  exact ahead_start logs

/-- **No log line twice**: in every run in which streams are not restarted with an empty
viewport while lines are held back, and no batch of replaced streams meets its generation
again, the lines of the viewport and those held back are different lines of the logs. -/
theorem no_line_twice [Chrono] (h : logsPage.Reach Proper x) : x.NoLineTwice :=
  (ahead_of_reach h).noLineTwice

/-- A line is shown and the next one is held back; then the tab is left and entered again, and
the new stream brings what is written after it is opened. -/
def heldOverRestart : List LogsAction :=
  [.call (.setSelection "container" "a" ["a"] ["running"] ["alpha"]), .restart true,
    .call (.setActive true), .restart true, .openFeed 0 0,
    .append "a" ⟨none, .stdout, "one"⟩, .deliver 0 [0], .call (.setPaused true),
    .append "a" ⟨none, .stdout, "two"⟩, .deliver 0 [0], .call (.setActive false),
    .call (.setActive true), .restart true, .append "a" ⟨none, .stdout, "unseen"⟩, .openFeed 1 0,
    .append "a" ⟨none, .stdout, "three"⟩, .deliver 1 [0], .call (.setPaused false)]

theorem one_line_of_one_stream :
    letI := timeless
    ∃ x, logsPage.exec { logs := fun _ => [] } heldOverRestart = some x ∧
      x.held.map (·.1) = [⟨"a", 0, 0⟩, ⟨"a", 1, 0⟩, ⟨"a", 3, 0⟩] ∧ x.NoLineTwice := by
  let times := timeless
  have hrun : (logsPage.exec { logs := fun _ => [] } heldOverRestart).map
      (fun x => x.held.map (·.1)) = some [⟨"a", 0, 0⟩, ⟨"a", 1, 0⟩, ⟨"a", 3, 0⟩] := by
    decide +kernel
  have hproper : logsPage.AllSteps Proper { logs := fun _ => [] } heldOverRestart := by
    decide +kernel
  obtain ⟨x, hexec, hheld⟩ := Option.map_eq_some_iff.mp hrun
  exact ⟨x, hexec, hheld,
    no_line_twice (Machine.reach_of_exec (.init ⟨fun _ => [], rfl⟩) hproper hexec)⟩

/-- A line that arrives while the viewport is paused and empty is held back; the tab is left
and entered again, and the new stream delivers the line once more. -/
theorem line_twice_after_tab_switch :
    letI := timeless
    ∃ x, logsPage.exec { logs := fun _ => [] }
      [.call (.setSelection "container" "a" ["a"] ["running"] ["alpha"]), .restart true,
        .call (.setActive true), .restart true, .openFeed 0 0, .call (.setPaused true),
        .append "a" ⟨none, .stdout, "one"⟩, .deliver 0 [0], .call (.setActive false),
        .call (.setActive true), .restart true, .openFeed 1 0, .deliver 1 [0]] = some x ∧
      ¬ x.NoLineTwice := by
  let times := timeless
  refine Exists.imp (p := fun x => logsPage.exec _ _ = some x ∧
    x.held.map (·.1) = [⟨"a", 0, 0⟩, ⟨"a", 0, 0⟩]) (fun x h => ⟨h.1, fun htwice => ?_⟩)
    (Option.map_eq_some_iff.mp ?_)
  · have hnodup := htwice.2
    rw [h.2] at hnodup
    exact absurd hnodup (by decide)
  · decide +kernel

end LogsPage

end TuxStack.Gui
