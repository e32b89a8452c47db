import TuxStack.Gui.Compose
import TuxStack.Lib.BoundedQueues

/-!
# Options and lines of container logs

What `crates/gui/src/controllers/container_logs.rs` reads from the user and from the daemon:
the tail and the time of `ContainerLogsOptions`, the containers of a selection, and the lines
of the viewport that a line of a log gives.
-/

namespace TuxStack.Gui

open Queues

/-! ## Texts -/

/-- What chrono does, with times in nanoseconds since the epoch: the text of a time, the
time of an RFC 3339 text, and the earliest time there is. -/
class Chrono where
  formatTimestamp : Int → String
  parseFromRfc3339 : String → Option Int
  earliest : Int

/-- Where no time is written or read. -/
abbrev timeless : Chrono := ⟨fun _ => "", fun _ => none, -2 ^ 63⟩

/-- `DateTime::timestamp`. -/
def timestampSeconds (time : Int) : Int := time / 10 ^ 9

/-- `str::eq_ignore_ascii_case`. -/
def eqIgnoreAsciiCase (left right : String) : Bool := asciiLowercase left = asciiLowercase right

/-- `usize::from_str`. -/
def parseUsize (text : String) : Option Nat := parseUnsigned 64 text

/-- `i64::from_str`. -/
def parseI64 (text : String) : Option Int :=
  (match text.toList with
    | '+' :: digits => (parseDigits digits).map Int.ofNat
    | '-' :: digits => (parseDigits digits).map (-Int.ofNat ·)
    | digits => (parseDigits digits).map Int.ofNat).filter fun n => -2 ^ 63 ≤ n ∧ n < 2 ^ 63

/-- `str::strip_suffix`. -/
def stripSuffix (text suffix : String) : Option String :=
  if suffix.toList <:+ text.toList then
    some (String.ofList (text.toList.take (text.toList.length - suffix.toList.length)))
  else none

/-- `str::split_terminator`, at line feeds. -/
def splitTerminator (text : String) : List String :=
  let pieces := text.toList.splitOn '\n'
  (if pieces.getLast? = some [] then pieces.dropLast else pieces).map String.ofList

/-! ## Tail and time -/

inductive LogTail where
  | lines (count : Nat)
  | all
deriving DecidableEq

def logTailValues : List Nat := [100, 500, 1000, 5000]

def LogTail.parse (value : String) : Except String LogTail :=
  let value := trim value
  let rejected := Except.error "Tail must be 100, 500, 1000, 5000, or all."
  if eqIgnoreAsciiCase value "all" then .ok .all
  else
    match parseUsize value with
    | none => rejected
    | some count => if count ∈ logTailValues then .ok (.lines count) else rejected

def LogTail.dockerValue : LogTail → Option Nat
  | lines count => some count
  | all => none

inductive LogSince where
  | all
  | timestamp (time : Int)
deriving DecidableEq

def LogSince.dockerValue : LogSince → Option Int
  | all => none
  | timestamp time => some time

/-- `validated_since_timestamp`; chrono has a time for every second of this range. -/
def validatedSinceTimestamp (seconds : Int) : Except String LogSince :=
  if -2 ^ 31 ≤ seconds ∧ seconds < 2 ^ 31 then .ok (.timestamp (seconds * 10 ^ 9))
  else .error "Since is outside the Docker API timestamp range supported here."

/-- The seconds of a unit of time. -/
def secondsPerUnit (unit : String) : Option Int :=
  if unit ∈ ["s", "sec", "secs", "second", "seconds"] then some 1
  else if unit ∈ ["m", "min", "mins", "minute", "minutes"] then some 60
  else if unit ∈ ["h", "hour", "hours"] then some (60 * 60)
  else if unit ∈ ["d", "day", "days"] then some (24 * 60 * 60)
  else none

/-- `TimeDelta::seconds` panics for more. -/
def maxDeltaSeconds : Int := (2 ^ 63 - 1) / 1000

/-- `parse_since_at`; `none` is a panic. -/
def parseSinceAt [Chrono] (input : String) (now : Int) : Option (Except String LogSince) :=
  let rejected := Except.error
    "Since must be all, a Unix timestamp, RFC 3339, or a duration such as 5m, 1h, or 24h."
  if input = "" ∨ eqIgnoreAsciiCase input "all" ∨ eqIgnoreAsciiCase input "all time" then
    some (.ok .all)
  else
    match parseI64 input, Chrono.parseFromRfc3339 input with
    | some seconds, _ => some (validatedSinceTimestamp seconds)
    | none, some time => some (validatedSinceTimestamp (timestampSeconds time))
    | none, none =>
      let lower := asciiLowercase input
      let relative := ((stripSuffix lower " ago").getD lower).toList
      let amount := String.ofList (relative.takeWhile Char.isDigit)
      let unit := String.ofList (relative.dropWhile Char.isDigit)
      match parseI64 amount, secondsPerUnit (trim unit) with
      | some amount, some secondsPerUnit =>
        let seconds := amount * secondsPerUnit
        if amount ≤ 0 ∨ 2 ^ 63 ≤ seconds then some rejected
        else if maxDeltaSeconds < seconds then none
        else
          let time := now - seconds * 10 ^ 9
          if time < Chrono.earliest then some rejected
          else some (validatedSinceTimestamp (timestampSeconds time))
      | _, _ => some rejected

/-- `ContainerLogsOptions` without `until`, which is never set here. -/
structure ContainerLogsOptions where
  stdout : Bool
  stderr : Bool
  timestamps : Bool
  follow : Bool
  tail : Option Nat
  since : Option Int
deriving DecidableEq

/-! ## The containers of a selection -/

structure LogTarget where
  id : String
  name : String
  running : Bool
deriving DecidableEq

inductive LogSelectionKind where
  | none
  | container
  | group
deriving DecidableEq

def normalizeKind (kind : String) : LogSelectionKind :=
  let kind := asciiLowercase (trim kind)
  if kind = "container" then .container else if kind = "group" then .group else .none

/-- The container at a place of the selection. -/
def targetAt (states names : List String) (index : Nat) (id : String) : LogTarget where
  id := id
  name := (names[index]?.filter (· ≠ "")).getD (String.ofList (id.toList.take 12))
  running := (states[index]?.map (eqIgnoreAsciiCase · "running")).getD false

/-- The containers from a place of the selection on, after those of `result`. -/
def addTargets (kind : LogSelectionKind) (states names : List String) :
    Nat → List String → List LogTarget → List LogTarget
  | _, [], result => result
  | index, id :: ids, result =>
    if trim id = "" ∨ result.any (·.id = id) then
      addTargets kind states names (index + 1) ids result
    else
      let result := result ++ [targetAt states names index id]
      if kind = .container then result
      else addTargets kind states names (index + 1) ids result

def buildTargets (kind : LogSelectionKind) (selectionId : String)
    (ids states names : List String) : List LogTarget :=
  if kind = .none ∨ trim selectionId = "" then [] else addTargets kind states names 0 ids []

theorem nodup_addTargets {kind : LogSelectionKind} {states names : List String} (ids : List String)
    {index : Nat} {result : List LogTarget} (h : (result.map (·.id)).Nodup) :
    ((addTargets kind states names index ids result).map (·.id)).Nodup := by
  induction ids generalizing index result with
  | nil => exact h
  | cons id ids ih =>
    unfold addTargets
    split
    · exact ih h
    · next hnew =>
      have hadded : ((result ++ [targetAt states names index id]).map (·.id)).Nodup := by
        rw [List.map_append, List.map_singleton]
        refine h.append (List.nodup_singleton _) fun other hother hid => ?_
        rw [List.mem_singleton.mp hid] at hother
        obtain ⟨target, htarget, heq⟩ := List.mem_map.mp hother
        exact hnew (.inr (List.any_eq_true.mpr ⟨target, htarget, decide_eq_true heq⟩))
      dsimp only
      split
      · exact hadded
      · exact ih hadded

theorem nodup_buildTargets (kind : LogSelectionKind) (selectionId : String)
    (ids states names : List String) :
    ((buildTargets kind selectionId ids states names).map (·.id)).Nodup := by
  unfold buildTargets
  split
  · exact List.nodup_nil
  · exact nodup_addTargets ids List.nodup_nil

/-! ## Lines -/

inductive LogStream where
  | stdout
  | stderr
  | console
  | unknown
deriving DecidableEq

def LogStream.name : LogStream → String
  | stdout => "stdout"
  | stderr => "stderr"
  | console => "console"
  | unknown => "unknown"

structure LogLine where
  timestamp : Option Int
  stream : LogStream
  message : String
deriving DecidableEq

structure LogViewportLine where
  sequence : Nat
  containerId : String
  containerName : String
  stream : String
  timestamp : String
  message : String
  display : String
  byteSize : Nat
deriving DecidableEq

def maxLogLines : Nat := 20000

def maxLogBytes : Nat := 32 * 1024 * 1024

theorem maxLogBytes_lt : 2 * maxLogBytes < 2 ^ 64 - 1 := by decide

/-- What the viewport may hold; counters are 64-bit numbers. -/
def logBudget : Budget := ⟨maxLogLines, maxLogBytes, 2 ^ 64 - 1, maxLogBytes_lt⟩

namespace LogViewportLine

def messages (line : LogLine) : List String :=
  let pieces := (splitTerminator line.message).map fun value => (stripSuffix value "\r").getD value
  if pieces = [] then [""] else pieces

def ofMessage (sequence : Nat) (target : LogTarget) (group : Bool) (stream timestamp : String)
    (message : String) : LogViewportLine :=
  let display := (if group then "[" ++ target.name ++ "] " else "") ++
    (if timestamp = "" then "" else timestamp ++ " ") ++ message
  { sequence
    containerId := target.id
    containerName := target.name
    stream
    timestamp
    message
    display
    byteSize := display.utf8ByteSize + target.id.utf8ByteSize + target.name.utf8ByteSize +
      stream.utf8ByteSize + timestamp.utf8ByteSize }

def fromDomain [Chrono] (sequence : Nat) (target : LogTarget) (group timestamps : Bool)
    (line : LogLine) : List LogViewportLine :=
  let timestamp :=
    if timestamps then (line.timestamp.map Chrono.formatTimestamp).getD "" else ""
  (messages line).mapIdx fun offset message =>
    ofMessage (logBudget.add sequence offset) target group line.stream.name timestamp message

end LogViewportLine

end TuxStack.Gui
