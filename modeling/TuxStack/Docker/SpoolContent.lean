import TuxStack.Docker.Spool
import TuxStack.Lib.Result
import TuxStack.Lib.ShortReads
import TuxStack.Vfs.Inode

/-!
# Reading back what was spooled

`crates/docker-core/src/vfs_providers/spool.rs`: the content of a backing that a
`ContentSpoolWriter` has finished, by the two read paths of `ContentBacking::read_at`.

Content in memory is cut by saturating `usize` arithmetic; content in a file is read in a
loop of positioned reads that may each be short. Each push meets the spool in the state
that other writers have left.
-/

namespace TuxStack.Docker

open Vfs FileReads Result

/-- Addition of `u64`s as compiled for release. -/
def wrappingAdd (a b : Nat) : Nat := (a + b) % 2 ^ 64

/-- `usize::try_from` of a `u64`, on a 64-bit target. -/
def usizeOf (value : Nat) : Option Nat := if value ≤ u64Max then some value else none

def readFileAt (file : Bytes) (reads : ShortReads) (length offset size : Nat) : Bytes :=
  if offset ≥ length ∨ size = 0 then []
  else
    let wanted := min size (length - offset)
    fillFrom file reads (fun filled => wrappingAdd offset filled) wanted []

namespace ContentBacking

def len : ContentBacking → Nat
  | .memory bytes => bytes.length
  | .spoolFile _ completedBytes => completedBytes

/-- `ContentBacking::read_at`, with the reads its file answers. -/
def readAtBy (backing : ContentBacking) (reads : ShortReads) (offset size : Nat) : Bytes :=
  match backing with
  | .memory bytes =>
    let start := min ((usizeOf offset).getD bytes.length) bytes.length
    let stop := min (saturatingAdd start size) bytes.length
    bytes.extract start stop
  | .spoolFile file completedBytes => readFileAt file reads completedBytes offset size

end ContentBacking

/-- Bytes of `content` from `offset` up to `min (offset + size) len`. -/
def contentRange (content : Bytes) (offset size : Nat) : Bytes :=
  content.extract offset (min (offset + size) content.length)

theorem contentRange_past {content : Bytes} {offset size : Nat} (h : content.length ≤ offset) :
    contentRange content offset size = [] := by
  rw [contentRange, List.extract_eq_take_drop, List.drop_eq_nil_of_le h]
  simp

theorem contentRange_eq (content : Bytes) (offset size : Nat) :
    contentRange content offset size = (content.drop offset).take size := by
  rw [contentRange, List.extract_eq_take_drop, List.take_eq_take_iff, List.length_drop]
  omega

/-- The file path: short reads of a file of the right length. -/
theorem readFileAt_eq {file : Bytes} (reads : ShortReads) (hlen : file.length ≤ u64Max)
    (offset size : Nat) :
    readFileAt file reads file.length offset size = contentRange file offset size := by
  unfold readFileAt
  split
  · rename_i hnone
    rcases hnone with hend | rfl
    · rw [contentRange_past hend]
    · rw [contentRange_eq]
      simp
  · rename_i hsome
    have hposition : ∀ filled, filled < min size (file.length - offset) →
        wrappingAdd offset filled = offset + filled := by
      intro filled hfilled
      have hmax : u64Max < 2 ^ 64 := by decide
      exact Nat.mod_eq_of_lt (by omega)
    rw [fillFrom_eq reads hposition (Nat.zero_le _), contentRange_eq]
    simp only [List.nil_append, List.length_nil, Nat.add_zero, Nat.sub_zero]
    rw [List.take_eq_take_iff, List.length_drop]
    omega

/-- The memory path: saturation never shows. -/
theorem readAtBy_memory {bytes : Bytes} (reads : ShortReads) (hlen : bytes.length ≤ u64Max)
    (offset size : Nat) :
    (ContentBacking.memory bytes).readAtBy reads offset size =
      contentRange bytes offset size := by
  have hstart : min ((usizeOf offset).getD bytes.length) bytes.length =
      min offset bytes.length := by
    unfold usizeOf
    split
    · rfl
    · rw [Option.getD_none]
      omega
  have hstop : min (saturatingAdd (min offset bytes.length) size) bytes.length =
      min (min offset bytes.length + size) bytes.length := by
    unfold saturatingAdd
    omega
  simp only [ContentBacking.readAtBy, hstart, hstop]
  by_cases hend : offset ≤ bytes.length
  · rw [Nat.min_eq_left hend, contentRange]
  · rw [contentRange_past (by omega), Nat.min_eq_right (by omega), List.extract_eq_take_drop,
      List.drop_length]
    simp

namespace ContentSpoolWriter

def pushEach (writer : ContentSpoolWriter) :
    List (ContentSpool × Bytes) → Except VfsError ContentSpoolWriter
  | [] => .ok writer
  | (spool, chunk) :: pushes => do
      let (_, writer) ← writer.push spool chunk
      writer.pushEach pushes

/-- A writer whose count is right and fits a `u64`. -/
structure Sound (writer : ContentSpoolWriter) : Prop where
  counted : writer.Counted
  fits : writer.content.length ≤ u64Max

theorem sound_writer (spool : ContentSpool) : spool.writer.Sound :=
  ⟨counted_writer spool, Nat.zero_le _⟩

variable {writer writer' : ContentSpoolWriter}

theorem push_ok {spool spool' : ContentSpool} {chunk : Bytes} (hsound : writer.Sound)
    (h : writer.push spool chunk = .ok (spool', writer')) :
    writer'.Sound ∧ writer'.content = writer.content ++ chunk := by
  by_cases hroom : writer.Room spool chunk.length
  · obtain ⟨_, _, hpush, -, -, hcount, hcontent⟩ := push_fits hsound.counted hroom
    rw [hpush] at h
    cases h
    have hsingle := hroom.1
    have hlimit := spool.single_le_total
    have hu64 := spool.limits.total_u64
    refine ⟨⟨hcount, ?_⟩, hcontent⟩
    rw [hcontent, List.length_append]
    omega
  · obtain ⟨e, hrefused⟩ := push_refused hsound.counted hroom
    rw [hrefused] at h
    cases h

theorem pushEach_ok {pushes : List (ContentSpool × Bytes)} (hsound : writer.Sound)
    (h : writer.pushEach pushes = .ok writer') :
    writer'.Sound ∧ writer'.content = writer.content ++ (pushes.map Prod.snd).flatten := by
  induction pushes generalizing writer with
  | nil =>
    cases h
    exact ⟨hsound, by simp⟩
  | cons head pushes ih =>
    obtain ⟨spool, chunk⟩ := head
    obtain ⟨⟨spool', next⟩, hpush, hrest⟩ := bind_eq_ok.mp h
    obtain ⟨hnext, hcontent⟩ := push_ok hsound hpush
    obtain ⟨hlast, hall⟩ := ih hnext hrest
    refine ⟨hlast, ?_⟩
    rw [hall, hcontent, List.append_assoc]
    rfl

theorem finish_readAtBy (hsound : writer.Sound) (reads : ShortReads) (offset size : Nat) :
    writer.finish.len = writer.content.length ∧
      writer.finish.readAtBy reads offset size = contentRange writer.content offset size := by
  obtain ⟨hcount, hfits⟩ := hsound
  unfold Counted at hcount
  unfold finish
  cases htemp : writer.temporary with
  | none =>
    have hcontent : writer.content = writer.memory := by simp [content, htemp]
    rw [hcontent] at hfits ⊢
    exact ⟨rfl, readAtBy_memory reads hfits offset size⟩
  | some file =>
    have hcontent : writer.content = file := by simp [content, htemp]
    rw [hcontent] at hcount hfits ⊢
    refine ⟨hcount, ?_⟩
    rw [ContentBacking.readAtBy, hcount]
    exact readFileAt_eq reads hfits offset size

/-- Short reads and saturation do not show: `readAt` is what a finished writer answers. -/
theorem finish_readAtBy_eq (hsound : writer.Sound) (reads : ShortReads) (offset size : Nat) :
    writer.finish.readAtBy reads offset size = writer.finish.readAt offset size := by
  rw [(finish_readAtBy hsound reads offset size).2, readAt_finish hsound.counted,
    contentRange_eq]

end ContentSpoolWriter

/-- **Spooled content reads back.** Whatever chunks a writer accepts, under whatever
limits, `finish` gives a backing that is as long as all of them together and answers every
read with that range of them, however its file cuts its answers. -/
theorem finish_reads_chunks (spool : ContentSpool) (pushes : List (ContentSpool × Bytes))
    (writer : ContentSpoolWriter) (h : spool.writer.pushEach pushes = .ok writer) :
    writer.finish.len = (pushes.map Prod.snd).flatten.length ∧
      ∀ (reads : ShortReads) (offset size : Nat),
        writer.finish.readAtBy reads offset size =
          contentRange (pushes.map Prod.snd).flatten offset size := by
  obtain ⟨hsound, hcontent⟩ := ContentSpoolWriter.pushEach_ok
    (ContentSpoolWriter.sound_writer spool) h
  have hall : writer.content = (pushes.map Prod.snd).flatten := by
    rw [hcontent]
    rfl
  rw [← hall]
  exact ⟨(ContentSpoolWriter.finish_readAtBy hsound .whole 0 0).1,
    fun reads offset size => (ContentSpoolWriter.finish_readAtBy hsound reads offset size).2⟩

/-- A spool with a threshold of three bytes. -/
def smallSpool : ContentSpool where
  limits := ⟨3, 64, 64, by decide⟩
  valid := rfl
  reservedBytes := 0
  within := Nat.zero_le _

/-- `abcd` and `efgh` cross the threshold and are read back from the file. -/
theorem spilled_reads_chunks :
    let writer : ContentSpoolWriter := ⟨[], some [97, 98, 99, 100, 101, 102, 103, 104], 8⟩
    writer.finish.len = 8 ∧
      writer.finish.readAtBy .single 5 10 = [102, 103, 104] := by
  have h := finish_reads_chunks smallSpool
    [(smallSpool, [97, 98, 99, 100]), (smallSpool, [101, 102, 103, 104])]
    ⟨[], some [97, 98, 99, 100, 101, 102, 103, 104], 8⟩ (by rfl)
  exact ⟨h.1, h.2 .single 5 10⟩

end TuxStack.Docker
