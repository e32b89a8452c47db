import TuxStack.FsHelper.CommandLine
import TuxStack.FsHelper.Confinement
import TuxStack.Lib.ShortReads
import TuxStack.Vfs.Inode

/-!
# The helper's `preview`

`crates/tuxstack-fs-helper/src/preview.rs`: a range of a file in chunks. Each read of the file
gives as much as it likes, and may fail; what was sent before stays sent, and an error line
follows.

The last chunk of a range is marked `eof`. `previewFile_spec` is what is sent: the range cut
into parts, with the mark on the last one, or a front of it and an error.
-/

namespace TuxStack.FsHelper

open Vfs Files FileReads Result

def chunkSize : Nat := 32 * 1024

/-- What a file does when it is opened and read: how it cuts its answers, and where it fails. -/
structure FileAnswers where
  reads : ShortReads
  openFails : Option HelperErrorCode
  readFails : Nat → Option HelperErrorCode

/-- The loop of `run`: the chunks it sends, and the error it ends with, if any. -/
def previewLoop (content : Bytes) (answers : FileAnswers) (truncated : Bool)
    (position remaining : Nat) : List HelperMessage × Option HelperErrorCode :=
  if remaining = 0 then ([], none)
  else
    match answers.readFails position with
    | some code => ([], some code)
    | none =>
      let read := readOnce content answers.reads position (min remaining chunkSize)
      if _hnone : read.length = 0 then ([], none)
      else
        let out := previewLoop content answers truncated (position + read.length)
          (remaining - read.length)
        (.previewChunk (encodeBase64 read) position (remaining - read.length = 0) truncated ::
          out.1, out.2)
termination_by remaining
decreasing_by
  have hsome : 0 < read.length := Nat.pos_of_ne_zero ‹_›
  show remaining - read.length < remaining
  omega

/-- What `run` sends of a regular file. -/
def previewFile (content : Bytes) (answers : FileAnswers) (offset limit : Nat) :
    List HelperMessage × Option HelperErrorCode :=
  let size := content.length
  let stop := min (saturatingAdd offset limit) size
  let truncated : Bool := stop < size
  if limit = 0 ∨ offset ≥ size then
    ([.previewChunk (encodeBase64 []) offset true truncated], none)
  else
    match answers.openFails with
    | some code => ([], some code)
    | none => previewLoop content answers truncated offset (stop - offset)

/-- The lines of a command that sends messages and then fails, or does not. -/
def commandLines (out : List HelperMessage × Option HelperErrorCode) : List HelperMessage :=
  match out with
  | (messages, none) => messages
  | (messages, some code) => messages ++ [.error code]

/-- What `run` of `preview.rs` checks before it reads: the content of the file. -/
def previewedContent (t : FileTree) (rounds : Nat) (flags : CommandFlags) :
    Option (Except HelperErrorCode Bytes) :=
  match resolveToken flags.root flags.token with
  | .error code => some (.error code)
  | .ok rawPath => (confineToRoot t rounds flags.root rawPath).map fun safe => do
      let safe ← safe
      let node ← liftIo (t.metadata safe)
      match node.kind with
      | .directory => .error .isDirectory
      | .regular content => .ok content
      | _ => .error .unsupportedFileType

def preview (t : FileTree) (rounds : Nat) (flags : CommandFlags) (answers : FileAnswers) :
    Option (List HelperMessage) :=
  (previewedContent t rounds flags).map fun content =>
    match content with
    | .error code => [.error code]
    | .ok content => commandLines (previewFile content answers flags.offset flags.readLimit)

/-! ## What is sent -/

/-- The chunks for parts of a file from a position on, none of them marked as the last. -/
def chunksFrom (truncated : Bool) : Nat → List Bytes → List HelperMessage
  | _, [] => []
  | position, part :: parts =>
    .previewChunk (encodeBase64 part) position false truncated ::
      chunksFrom truncated (position + part.length) parts

variable {truncated : Bool} {position : Nat} {answers : FileAnswers} {content : Bytes}

theorem prefix_chunksFrom : ∀ {parts : List Bytes} {position : Nat}
    {lines : List HelperMessage}, lines <+: chunksFrom truncated position parts →
    ∃ front, front <+: parts ∧ lines = chunksFrom truncated position front := by
  intro parts
  induction parts with
  | nil =>
    intro position lines h
    exact ⟨[], List.prefix_rfl, List.prefix_nil.mp h⟩
  | cons part parts ih =>
    intro position lines h
    cases lines with
    | nil => exact ⟨[], List.nil_prefix, rfl⟩
    | cons line lines =>
      obtain ⟨rfl, htail⟩ := List.cons_prefix_cons.mp h
      obtain ⟨front, hfront, rfl⟩ := ih htail
      exact ⟨part :: front, List.cons_prefix_cons.mpr ⟨rfl, hfront⟩, rfl⟩

/-- What a command sends of the bytes `range` of a file at a position: all of it in parts, the
last one marked, or a front of it and an error. -/
inductive Sent (truncated : Bool) (position : Nat) (range : Bytes) :
    List HelperMessage × Option HelperErrorCode → Prop where
  | whole (parts : List Bytes) (last : Bytes) (h : parts.flatten ++ last = range) :
      Sent truncated position range
        (chunksFrom truncated position parts ++
          [.previewChunk (encodeBase64 last) (position + parts.flatten.length) true truncated],
          none)
  | failed (parts : List Bytes) (code : HelperErrorCode) (h : parts.flatten <+: range) :
      Sent truncated position range (chunksFrom truncated position parts, some code)

variable {out : List HelperMessage × Option HelperErrorCode} {range : Bytes} {remaining : Nat}

theorem Sent.cons {part : Bytes} (h : Sent truncated (position + part.length) range out) :
    Sent truncated position (part ++ range)
      (.previewChunk (encodeBase64 part) position false truncated :: out.1, out.2) := by
  cases h with
  | whole parts last h =>
    have hall : (part :: parts).flatten ++ last = part ++ range := by
      rw [List.flatten_cons, List.append_assoc, h]
    have hsent : Sent truncated position (part ++ range) _ := .whole (part :: parts) last hall
    rw [List.flatten_cons, List.length_append, ← Nat.add_assoc] at hsent
    exact hsent
  | failed parts code h =>
    refine Sent.failed (part :: parts) code ?_
    rw [List.flatten_cons]
    exact (List.prefix_append_right_inj part).mpr h

theorem previewLoop_sent (hpos : 0 < remaining) (hle : position + remaining ≤ content.length) :
    Sent truncated position ((content.drop position).take remaining)
      (previewLoop content answers truncated position remaining) := by
  fun_induction previewLoop content answers truncated position remaining with
  | case1 => exact absurd hpos (Nat.lt_irrefl 0)
  | case2 position remaining hmore code hfails => exact .failed [] code List.nil_prefix
  | case3 position remaining hmore hfails read hnone =>
    have hsome : 0 < read.length := length_readOnce_pos answers.reads
      (Nat.lt_min.mpr ⟨hpos, by decide⟩) (by omega)
    omega
  | case4 position remaining hmore hfails read hsome out ih =>
    have hcount : read.length ≤ remaining :=
      Nat.le_trans (length_readOnce_le ..) (Nat.min_le_left ..)
    have hrange : read ++ (content.drop (position + read.length)).take (remaining - read.length) =
        (content.drop position).take remaining := readOnce_append hcount
    rw [← hrange]
    by_cases hlast : remaining - read.length = 0
    · -- this read has given the rest, and the next round sends nothing
      have hout : out = ([], none) := by
        show previewLoop content answers truncated (position + read.length)
          (remaining - read.length) = _
        rw [hlast, previewLoop, if_pos rfl]
      rw [hout, hlast, List.take_zero, List.append_nil]
      exact .whole [] read (List.nil_append _)
    · have hsent : Sent truncated (position + read.length) _ out :=
        ih (Nat.pos_of_ne_zero hlast) (by omega)
      rw [decide_eq_false hlast]
      exact hsent.cons

/-- **What `preview` sends of a file**: the range from the offset up to the limit or the end. -/
theorem previewFile_sent (answers : FileAnswers) (offset limit : Nat)
    (hlen : content.length ≤ u64Max) :
    Sent (min (offset + limit) content.length < content.length) offset
      ((content.drop offset).take limit) (previewFile content answers offset limit) := by
  have hend : min (saturatingAdd offset limit) content.length =
      min (offset + limit) content.length := by
    unfold saturatingAdd
    omega
  simp only [previewFile]
  rw [hend]
  split
  · next hnone =>
    refine .whole [] [] ?_
    rcases hnone with rfl | hend
    · simp
    · rw [List.drop_eq_nil_of_le hend]
      simp
  · next hsome =>
    obtain ⟨hlimit, hoffset⟩ := not_or.mp hsome
    split
    · next code hfails => exact .failed [] code List.nil_prefix
    · next hopens =>
      have hstop : min (offset + limit) content.length - offset =
          min limit (content.length - offset) := by
        omega
      have hrange : (content.drop offset).take limit =
          (content.drop offset).take (min limit (content.length - offset)) := by
        rw [List.take_eq_take_iff, List.length_drop]
        omega
      rw [hstop, hrange]
      exact previewLoop_sent (by omega) (by omega)

/-! ## Without failures -/

/-- Chunks of a range from a position on: each begins where the one before has ended, their data
are the range, the last one and no other is marked `eof`, and all have the one mark
`truncated`. -/
inductive RangeChunks (truncated : Bool) : Nat → Bytes → List HelperMessage → Prop where
  | last {position : Nat} {data last : Bytes} (h : decodeBase64 data = .ok last) :
      RangeChunks truncated position last [.previewChunk data position true truncated]
  | cons {position : Nat} {data part range : Bytes} {messages : List HelperMessage}
      (h : decodeBase64 data = .ok part)
      (rest : RangeChunks truncated (position + part.length) range messages) :
      RangeChunks truncated position (part ++ range)
        (.previewChunk data position false truncated :: messages)

theorem rangeChunks_parts {last : Bytes} : ∀ (parts : List Bytes)
    (position : Nat), RangeChunks truncated position (parts.flatten ++ last)
      (chunksFrom truncated position parts ++
        [.previewChunk (encodeBase64 last) (position + parts.flatten.length) true truncated]) := by
  intro parts
  induction parts with
  | nil => exact fun position => .last (decodeBase64_encode last)
  | cons part parts ih =>
    intro position
    have hrest := ih (position + part.length)
    rw [Nat.add_assoc, ← List.length_append, ← List.flatten_cons] at hrest
    rw [List.flatten_cons, List.append_assoc]
    exact .cons (decodeBase64_encode part) hrest

theorem Sent.rangeChunks (h : Sent truncated position range out) (hok : out.2 = none) :
    RangeChunks truncated position range out.1 := by
  cases h with
  | whole parts last h =>
    rw [← h]
    exact rangeChunks_parts parts position
  | failed parts code h => cases hok

theorem previewLoop_ok (h : ∀ position, answers.readFails position = none) :
    (previewLoop content answers truncated position remaining).2 = none := by
  fun_induction previewLoop content answers truncated position remaining with
  | case1 => rfl
  | case2 position remaining hmore code hfails =>
    rw [h position] at hfails
    cases hfails
  | case3 => rfl
  | case4 position remaining hmore hfails read hsome out ih => exact ih

theorem previewFile_ok (content : Bytes) (offset limit : Nat) (hopen : answers.openFails = none)
    (hread : ∀ position, answers.readFails position = none) :
    (previewFile content answers offset limit).2 = none := by
  simp only [previewFile, hopen]
  split
  · rfl
  · exact previewLoop_ok hread

/-- **A range of a file in chunks.** Of a file that can be opened and read, the `preview`
command sends the bytes from the offset to the limit or the end, however short the reads are,
and says in every chunk whether the file goes on behind them. -/
theorem preview_range (t : FileTree) (rounds : Nat) (flags : CommandFlags) (answers : FileAnswers)
    (content : Bytes) (hcontent : previewedContent t rounds flags = some (.ok content))
    (hlen : content.length ≤ u64Max) (hopen : answers.openFails = none)
    (hread : ∀ position, answers.readFails position = none) :
    ∃ messages, preview t rounds flags answers = some messages ∧
      RangeChunks (min (flags.offset + flags.readLimit) content.length < content.length)
        flags.offset
        ((content.take (min (flags.offset + flags.readLimit) content.length)).drop flags.offset)
        messages := by
  have hsent := previewFile_sent answers flags.offset flags.readLimit hlen
  have hok := previewFile_ok content flags.offset flags.readLimit hopen hread
  have hrange : (content.take (min (flags.offset + flags.readLimit) content.length)).drop
      flags.offset = (content.drop flags.offset).take flags.readLimit := by
    rw [List.drop_take, List.take_eq_take_iff, List.length_drop]
    omega
  refine ⟨(previewFile content answers flags.offset flags.readLimit).1, ?_, ?_⟩
  · unfold preview
    rw [hcontent]
    show some (commandLines (previewFile content answers flags.offset flags.readLimit)) = _
    unfold commandLines
    generalize previewFile content answers flags.offset flags.readLimit = out at hok
    obtain ⟨messages, error⟩ := out
    cases hok
    rfl
  · rw [hrange]
    exact hsent.rangeChunks hok

/-- The first byte of the log file, by the link to it. -/
def logFlags : CommandFlags :=
  { CommandFlags.standard with
    root := ascii "/mnt/data"
    token := ascii "v1:" ++ encodeBase64 (ascii "log")
    readLimit := 1 }

theorem log_range : ∃ messages,
    preview linkedTree 41 logFlags ⟨.single, none, fun _ => none⟩ = some messages ∧
      RangeChunks (min (0 + 1) (ascii "hi").length < (ascii "hi").length) 0
        (((ascii "hi").take (min (0 + 1) (ascii "hi").length)).drop 0) messages := by
  have hcontent : previewedContent linkedTree 41 logFlags = some (.ok (ascii "hi")) := by
    decide +kernel
  exact preview_range linkedTree 41 logFlags ⟨.single, none, fun _ => none⟩ _ hcontent
    (by decide) rfl fun _ => rfl

end TuxStack.FsHelper
