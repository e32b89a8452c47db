import TuxStack.Vfs.Path

/-!
# The content spool

`crates/docker-core/src/vfs_providers/spool.rs`: a file taken out of an archive
is kept in memory up to a threshold and in a temporary file beyond it, within a
limit for one file and one for all files together.

A temporary file is the bytes written to it: file operations succeed and files
return what was written. The release of reservations by dropped backings is not
modelled here.
-/

namespace TuxStack.Docker

open Vfs

structure ContentSpoolLimits where
  memoryThreshold : Nat
  maxSingleBytes : Nat
  maxTotalBytes : Nat
  total_u64 : maxTotalBytes ≤ u64Max

namespace ContentSpoolLimits

def standard : ContentSpoolLimits where
  memoryThreshold := 2 * 1024 * 1024
  maxSingleBytes := 2 * 1024 * 1024 * 1024
  maxTotalBytes := 2 * 1024 * 1024 * 1024
  total_u64 := by decide

def validate (limits : ContentSpoolLimits) : Except VfsError Unit :=
  if limits.memoryThreshold > limits.maxSingleBytes ∨ limits.maxSingleBytes = 0 ∨
      limits.maxSingleBytes > limits.maxTotalBytes then
    .error (.invalidInput "invalid content spool limits")
  else .ok ()

theorem validate_standard : standard.validate = .ok () := by decide

theorem zero_le_standard : 0 ≤ standard.maxTotalBytes := Nat.zero_le _

end ContentSpoolLimits

/-- `ContentSpool`: its constructor checks the limits, and `reserve` never goes
beyond the total. -/
structure ContentSpool where
  limits : ContentSpoolLimits
  valid : limits.validate = .ok ()
  reservedBytes : Nat
  within : reservedBytes ≤ limits.maxTotalBytes

theorem ContentSpool.single_le_total (spool : ContentSpool) :
    spool.limits.maxSingleBytes ≤ spool.limits.maxTotalBytes := by
  have h := spool.valid
  unfold ContentSpoolLimits.validate at h
  split at h
  · cases h
  · omega

/-- `ContentSpoolWriter`; `temporary` is the content of the temporary file. -/
structure ContentSpoolWriter where
  memory : Bytes
  temporary : Option Bytes
  reserved : Nat

inductive ContentBacking where
  | memory (bytes : Bytes)
  | spoolFile (file : Bytes) (completedBytes : Nat)

def ContentSpool.writer (_ : ContentSpool) : ContentSpoolWriter := ⟨[], none, 0⟩

/-- `ContentSpool::reserve`; the total limit is a `u64`, so it covers the
overflow check. -/
def ContentSpool.reserve (spool : ContentSpool) (bytes : Nat) : Except VfsError ContentSpool :=
  if h : spool.reservedBytes + bytes ≤ spool.limits.maxTotalBytes then
    .ok { spool with reservedBytes := spool.reservedBytes + bytes, within := h }
  else .error (.unavailable "total content spool limit exceeded")

namespace ContentSpoolWriter

/-- `ContentSpoolWriter::push`. The first chunk beyond the threshold moves what
is in memory to a file. -/
def push (writer : ContentSpoolWriter) (spool : ContentSpool) (chunk : Bytes) :
    Except VfsError (ContentSpool × ContentSpoolWriter) :=
  let next := writer.reserved + chunk.length
  if next > u64Max then .error (.unavailable "content spool size overflow")
  else if next > spool.limits.maxSingleBytes then
    .error (.unavailable "single content spool limit exceeded")
  else do
    let spool ← spool.reserve chunk.length
    if writer.temporary.isNone ∧ next ≤ spool.limits.memoryThreshold then
      .ok (spool, { writer with memory := writer.memory ++ chunk, reserved := next })
    else
      match writer.temporary with
      | none => .ok (spool, ⟨[], some (writer.memory ++ chunk), next⟩)
      | some file => .ok (spool, ⟨writer.memory, some (file ++ chunk), next⟩)

def finish (writer : ContentSpoolWriter) : ContentBacking :=
  match writer.temporary with
  | none => .memory writer.memory
  | some file => .spoolFile file writer.reserved

def content (writer : ContentSpoolWriter) : Bytes := writer.temporary.getD writer.memory

end ContentSpoolWriter

def ContentBacking.readAt (backing : ContentBacking) (offset size : Nat) : Bytes :=
  match backing with
  | .memory bytes =>
    let start := min offset bytes.length
    let stop := min (start + size) bytes.length
    (bytes.drop start).take (stop - start)
  | .spoolFile file length =>
    if offset ≥ length ∨ size = 0 then []
    else (file.drop offset).take (min size (length - offset))

namespace ContentSpoolWriter

def Counted (writer : ContentSpoolWriter) : Prop := writer.reserved = writer.content.length

theorem counted_writer (spool : ContentSpool) : spool.writer.Counted := rfl

/-- The room a spool has for more bytes of a file. -/
def Room (writer : ContentSpoolWriter) (spool : ContentSpool) (bytes : Nat) : Prop :=
  writer.content.length + bytes ≤ spool.limits.maxSingleBytes ∧
    spool.reservedBytes + bytes ≤ spool.limits.maxTotalBytes

/-- **A chunk that fits is kept.** -/
theorem push_fits {writer : ContentSpoolWriter} {spool : ContentSpool} {chunk : Bytes}
    (hcount : writer.Counted) (hroom : writer.Room spool chunk.length) :
    ∃ spool' writer', writer.push spool chunk = .ok (spool', writer') ∧
      spool'.limits = spool.limits ∧
      spool'.reservedBytes = spool.reservedBytes + chunk.length ∧
      writer'.Counted ∧ writer'.content = writer.content ++ chunk := by
  obtain ⟨hsingle, htotal⟩ := hroom
  have hlimit := spool.single_le_total
  have hu64 := spool.limits.total_u64
  unfold Counted at hcount
  unfold push
  rw [if_neg (by omega), if_neg (by omega)]
  simp only [ContentSpool.reserve, dif_pos htotal, bind, Except.bind]
  cases htemp : writer.temporary with
  | none =>
    have hcontent : writer.content = writer.memory := by simp [content, htemp]
    rw [hcontent] at hcount ⊢
    split
    · exact ⟨_, _, rfl, rfl, rfl, by simp [Counted, content, hcount], by simp [content]⟩
    · exact ⟨_, _, rfl, rfl, rfl, by simp [Counted, content, hcount], by simp [content]⟩
  | some file =>
    have hcontent : writer.content = file := by simp [content, htemp]
    rw [hcontent] at hcount ⊢
    simp only [Option.isNone_some, Bool.false_eq_true, false_and, if_false]
    exact ⟨_, _, rfl, rfl, rfl, by simp [Counted, content, hcount], by simp [content]⟩

/-- **A chunk that does not fit is refused.** -/
theorem push_refused {writer : ContentSpoolWriter} {spool : ContentSpool} {chunk : Bytes}
    (hcount : writer.Counted) (hroom : ¬ writer.Room spool chunk.length) :
    ∃ e, writer.push spool chunk = .error e := by
  unfold Counted at hcount
  unfold push
  dsimp only
  split
  · exact ⟨_, rfl⟩
  · split
    · exact ⟨_, rfl⟩
    · rename_i hsingle
      have htotal : ¬ spool.reservedBytes + chunk.length ≤ spool.limits.maxTotalBytes := by
        intro htotal
        exact hroom ⟨by omega, htotal⟩
      simp only [ContentSpool.reserve, dif_neg htotal]
      exact ⟨_, rfl⟩

/-- **Reading back**: a finished writer answers with the bytes pushed into it. -/
theorem readAt_finish {writer : ContentSpoolWriter} (hcount : writer.Counted) (offset size : Nat) :
    writer.finish.readAt offset size = (writer.content.drop offset).take size := by
  unfold Counted at hcount
  unfold finish
  cases htemp : writer.temporary with
  | none =>
    have hcontent : writer.content = writer.memory := by simp [content, htemp]
    rw [hcontent]
    by_cases hend : offset ≤ writer.memory.length
    · have hstart : min offset writer.memory.length = offset := Nat.min_eq_left hend
      simp only [ContentBacking.readAt, hstart]
      rw [List.take_eq_take_iff, List.length_drop]
      omega
    · have hstart : min offset writer.memory.length = writer.memory.length := by omega
      simp only [ContentBacking.readAt, hstart]
      rw [List.drop_length, List.drop_eq_nil_of_le (by omega)]
      simp
  | some file =>
    have hcontent : writer.content = file := by simp [content, htemp]
    rw [hcontent] at hcount ⊢
    simp only [ContentBacking.readAt, hcount]
    split
    · rename_i hnone
      rcases hnone with hend | rfl
      · rw [List.drop_eq_nil_of_le hend]
        simp
      · simp
    · rw [List.take_eq_take_iff, List.length_drop]
      omega

end ContentSpoolWriter

end TuxStack.Docker
