import TuxStack.Tar.Members

/-!
# Reading and skipping a body

`read_body_chunk`, `skip_entry_body` and `complete_consumed_body` of
`crates/docker-core/src/vfs_providers/tar_index.rs`, after a `next_entry`. A body is followed
by a padding up to the next block, which depends on the whole size of the body.

A body that is read leaves the same source as a body that is skipped. `complete_consumed_body`
is told the whole size and ends at the next header. `skip_entry_body` takes the padding of what
is left of the body: after chunks that are no whole blocks it ends elsewhere (`body_protocol`).
-/

namespace TuxStack.Tar.TarStreamReader

open Vfs Result Chunks

/-- Calls of `read_body_chunk` with these maxima, and the bytes that they return. -/
def readBodyChunks : List Nat → ReaderM Bytes
  | [] => pure []
  | maximum :: maxima => do
      let chunk ← readBodyChunk maximum
      let rest ← readBodyChunks maxima
      return chunk.getD [] ++ rest

/-! ## A chunk is a part of the body -/

/-- The reader after `consumed` bytes of a body of `size` bytes, which it can skip to the
source `body`. -/
structure Within (r : TarStreamReader) (size : Nat) (body : Source VfsError UInt8)
    (consumed : Nat) (r' : TarStreamReader) : Prop where
  frame : r' = { r with source := r'.source, currentSize := some (size - consumed) }
  consumed_le : consumed ≤ size
  left : r'.source.left = r.source.left.drop consumed
  skips : r'.source.skipExact (policy r.limits) (size - consumed) = .ok body

variable {r r' r₀ r₁ : TarStreamReader} {size consumed : Nat} {body : Source VfsError UInt8}

theorem within_start (hsize : r.currentSize = some size)
    (hskip : r.source.skipExact (policy r.limits) size = .ok body) : Within r size body 0 r where
  frame := by
    rw [Nat.sub_zero, ← hsize]
  consumed_le := Nat.zero_le _
  left := List.drop_zero.symm
  skips := hskip

theorem fill_of_source {s : Source VfsError UInt8}
    (h : r.source.fill (policy r.limits) = .ok s) : fill r = .ok ((), { r with source := s }) := by
  unfold fill onSource
  dsimp only
  rw [h]
  rfl

theorem Within.readBodyChunk (h : Within r size body consumed r') (maximum : Nat) :
    ∃ chunk r'', TarStreamReader.readBodyChunk maximum r' = .ok (chunk, r'') ∧
      (chunk.getD []) = r'.source.left.take (chunk.getD []).length ∧
      Within r size body (consumed + (chunk.getD []).length) r'' := by
  have hlimits : r'.limits = r.limits := by
    rw [h.frame]
  have hcurrent : r'.currentSize = some (size - consumed) := by
    rw [h.frame]
  unfold TarStreamReader.readBodyChunk
  rw [hcurrent]
  dsimp only
  by_cases hdone : size - consumed = 0
  · rw [if_pos hdone]
    exact ⟨none, r', rfl, rfl, h⟩
  · rw [if_neg hdone]
    obtain ⟨hle, -⟩ := Source.skipExact_ok h.skips
    -- the skip of the rest fills the buffer as the chunk does
    cases hfill : r'.source.fill (policy r.limits) with
    | error e =>
      have hskips := h.skips
      obtain ⟨m, hm⟩ := Nat.exists_eq_succ_of_ne_zero hdone
      rw [hm, Source.skipExact, Source.skipLoop, if_neg (Nat.succ_ne_zero m), hfill] at hskips
      cases hskips
    | ok s =>
      have hleft := Source.fill_ok hfill
      have hrun : fill r' = .ok ((), { r' with source := s }) :=
        fill_of_source (hlimits ▸ hfill)
      have hbuffer : s.buffer ≠ [] := by
        intro hempty
        have hskips := h.skips
        obtain ⟨m, hm⟩ := Nat.exists_eq_succ_of_ne_zero hdone
        rw [hm, Source.skipExact, Source.skipLoop, if_neg (Nat.succ_ne_zero m), hfill] at hskips
        simp [hempty] at hskips
      have hlength := List.length_pos_of_ne_nil hbuffer
      let take := min (min (max maximum 1) s.buffer.length) (size - consumed)
      have htake : take ≤ s.buffer.length := by omega
      have hrest : take ≤ size - consumed := by omega
      have hchunk : s.buffer.take take = r'.source.left.take take := by
        rw [← hleft, Source.take_left htake]
      have hlen : (s.buffer.take take).length = take := by
        rw [List.length_take]
        omega
      refine ⟨some (s.buffer.take take), { r' with
          source := { s with buffer := s.buffer.drop take }
          currentSize := some (size - consumed - take) }, ?_, ?_, ?_, ?_, ?_, ?_⟩
      · rw [hrun]
        simp [bind, Except.bind, hbuffer, take]
      · rw [Option.getD_some, hlen]
        exact hchunk
      · rw [Option.getD_some, hlen, h.frame, Nat.sub_sub]
      · rw [Option.getD_some, hlen]
        have := h.consumed_le
        omega
      · rw [Option.getD_some, hlen]
        show Source.left { s with buffer := s.buffer.drop take } = _
        rw [Source.left_drop_buffer htake, hleft, h.left, List.drop_drop]
      · rw [Option.getD_some, hlen, ← h.skips,
          Source.skipExact_drop hfill (by omega) hrest htake, Nat.sub_sub]

/-- **Any number of chunks**: they are the bytes of the body, from where the reader is. -/
theorem Within.readBodyChunks : ∀ (maxima : List Nat) {consumed : Nat} {r' : TarStreamReader},
    Within r size body consumed r' →
      ∃ bytes r'', TarStreamReader.readBodyChunks maxima r' = .ok (bytes, r'') ∧
        bytes = r'.source.left.take bytes.length ∧
        Within r size body (consumed + bytes.length) r''
  | [], consumed, r', h => ⟨[], r', rfl, rfl, h⟩
  | maximum :: maxima, consumed, r', h => by
      obtain ⟨chunk, r₂, hchunk, hbytes, hwithin⟩ := h.readBodyChunk maximum
      obtain ⟨rest, r₃, hrest, hbytes', hwithin'⟩ := hwithin.readBodyChunks maxima
      have hleft : r₂.source.left = r'.source.left.drop (chunk.getD []).length := by
        rw [hwithin.left, h.left, List.drop_drop]
      refine ⟨chunk.getD [] ++ rest, r₃, ?_, ?_, ?_⟩
      · exact run_bind_eq_ok.mpr ⟨chunk, r₂, hchunk,
          run_bind_eq_ok.mpr ⟨rest, r₃, hrest, rfl⟩⟩
      · rw [List.length_append, List.take_add, ← hbytes, ← hleft, ← hbytes']
      · rw [List.length_append, ← Nat.add_assoc]
        exact hwithin'

/-! ## The end of a body -/

/-- What is left of the body can be skipped; then comes the padding of what is left. -/
theorem Within.skipEntryBody (h : Within r size body consumed r') :
    TarStreamReader.skipEntryBody r' =
      skipExact (padding (size - consumed)) { r with source := body, currentSize := none } := by
  have hcurrent : r'.currentSize = some (size - consumed) := by
    rw [h.frame]
  have hframe : { r' with currentSize := none } =
      { r with source := r'.source, currentSize := none } := by
    conv_lhs => rw [h.frame]
  have hskip : skipExact (size - consumed) { r' with currentSize := none } =
      .ok ((), { r with source := body, currentSize := none }) := by
    rw [hframe]
    unfold skipExact onSource
    dsimp only
    rw [h.skips]
    rfl
  unfold TarStreamReader.skipEntryBody
  rw [hcurrent]
  show (skipExact (size - consumed) >>= fun _ => skipExact (padding (size - consumed)))
    { r' with currentSize := none } = _
  rw [run_bind_of_ok hskip]

theorem Within.completeConsumedBody (h : Within r size body size r') (originalSize : Nat) :
    TarStreamReader.completeConsumedBody originalSize r' =
      skipExact (padding originalSize) { r with source := body, currentSize := none } := by
  have hcurrent : r'.currentSize = some 0 := by
    rw [h.frame, Nat.sub_self]
  have hsource : r'.source = body := by
    have hskips := h.skips
    rw [Nat.sub_self] at hskips
    exact Except.ok.inj hskips
  have hframe : { r' with currentSize := none } =
      { r with source := body, currentSize := none } := by
    conv_lhs => rw [h.frame, hsource]
  unfold TarStreamReader.completeConsumedBody
  rw [hcurrent]
  dsimp only
  rw [if_neg (not_not_intro rfl), hframe]

theorem eq_of_skipExact {n n' : Nat} (h : skipExact n r = .ok ((), r₀))
    (h' : skipExact n' r = .ok ((), r₁)) (hleft : r₀.source.left = r₁.source.left) : n = n' := by
  obtain ⟨s, rfl, hle, hs⟩ := skipExact_ok h
  obtain ⟨s', rfl, hle', hs'⟩ := skipExact_ok h'
  have hlength := congrArg List.length hleft
  dsimp only at hlength
  rw [hs, hs', List.length_drop, List.length_drop] at hlength
  omega

/-- The padding of what is left of a body is that of the body after whole blocks only. -/
theorem padding_sub (h : consumed ≤ size) :
    padding (size - consumed) = padding size ↔ consumed % tarBlock = 0 := by
  unfold padding tarBlock
  omega

/-- **The protocol of a body.** After an entry whose body can be skipped at once, any number of
chunks can be read, and they are a prefix of the body. A skip after them ends where the skip at
once ends if they are whole blocks, and at other bytes or with an error if they are not. A body
that was read to its end and completed ends where the skip ends. -/
theorem body_protocol {entry : TarEntry} (hentry : nextEntry r₀ = .ok (some entry, r))
    (hbody : TarStreamReader.skipEntryBody r = .ok ((), r₁)) (maxima : List Nat) :
    ∃ bytes r', readBodyChunks maxima r = .ok (bytes, r') ∧
      r'.currentSize = some (entry.size - bytes.length) ∧
      bytes <+: r.source.left.take entry.size ∧
      (TarStreamReader.skipEntryBody r' = .ok ((), r₁) ↔ bytes.length % tarBlock = 0) ∧
      (bytes.length % tarBlock ≠ 0 → ∀ r₂, TarStreamReader.skipEntryBody r' = .ok ((), r₂) →
        r₂.source.left ≠ r₁.source.left) ∧
      (bytes.length = entry.size →
        TarStreamReader.completeConsumedBody entry.size r' = .ok ((), r₁)) := by
  have hsize := nextEntry_currentSize hentry
  have hwhole := hbody
  unfold TarStreamReader.skipEntryBody at hwhole
  rw [hsize] at hwhole
  obtain ⟨u, r₂, hskip, -⟩ := run_bind_eq_ok.mp hwhole
  obtain ⟨body, hskips, -⟩ := skipExact_source hskip
  have hstart := within_start hsize hskips
  obtain ⟨bytes, r', hbytes, hfront, hwithin⟩ := hstart.readBodyChunks maxima
  rw [Nat.zero_add] at hwithin
  rw [hstart.skipEntryBody, Nat.sub_zero] at hbody
  refine ⟨bytes, r', hbytes, by rw [hwithin.frame], ?_⟩
  rw [hwithin.skipEntryBody, ← padding_sub hwithin.consumed_le]
  refine ⟨?_, ⟨fun hsame => ?_, fun hpadding => ?_⟩, fun hpart r₂ hr₂ hleft => ?_,
    fun hend => ?_⟩
  · rw [hfront]
    exact List.take_prefix_take_left hwithin.consumed_le
  · exact eq_of_skipExact hsame hbody rfl
  · rw [hpadding, hbody]
  · exact hpart ((padding_sub hwithin.consumed_le).mp (eq_of_skipExact hr₂ hbody hleft))
  · rw [hend] at hwithin
    rw [hwithin.completeConsumedBody, hbody]

def oneByteFile : Bytes := archive [member (ascii "a") 48 [120], member (ascii "b") 48 []]

/-- What the two ways over the body do: the names that are found and the bytes that are left. -/
theorem oneByteFile_runs :
    ((nextEntry (new [.ok oneByteFile] TarLimits.standard)).bind fun first =>
      (TarStreamReader.skipEntryBody first.2).bind fun skipped =>
        (readBodyChunks [1] first.2).bind fun chunk =>
          (TarStreamReader.skipEntryBody chunk.2).bind fun late =>
            (nextEntry skipped.2).map fun second =>
              (first.1.map fun e => (e.rawPath, e.size), second.1.map TarEntry.rawPath, chunk.1,
                skipped.2.source.left.length, late.2.source.left.length)) =
      .ok (some (ascii "a", 1), some (ascii "b"), [120], 1536, 2047) := by
  decide +kernel

/-- The byte is read and the rest is skipped: the padding is not, and the reader is not where
the skip of the whole body leaves it, at the second file. -/
theorem skip_after_chunk_misses_header : ∃ entry r r' r₁ second,
    nextEntry (new [.ok oneByteFile] TarLimits.standard) = .ok (some entry, r) ∧
      TarStreamReader.skipEntryBody r = .ok ((), r₁) ∧ nextEntry r₁ = .ok second ∧
      second.1.isSome = true ∧ readBodyChunks [1] r = .ok ([120], r') ∧
      ¬ ∃ r₂, TarStreamReader.skipEntryBody r' = .ok ((), r₂) ∧
        r₂.source.left = r₁.source.left := by
  obtain ⟨⟨entry, r⟩, hentry, hrest⟩ := bind_eq_ok.mp oneByteFile_runs
  obtain ⟨⟨⟨⟩, r₁⟩, hskip, hrest⟩ := bind_eq_ok.mp hrest
  obtain ⟨⟨bytes, r'⟩, hbytes, hrest⟩ := bind_eq_ok.mp hrest
  obtain ⟨⟨⟨⟩, late⟩, hlate, hrest⟩ := bind_eq_ok.mp hrest
  cases hsecond : nextEntry r₁ with
  | error e =>
    rw [hsecond] at hrest
    cases hrest
  | ok second =>
    rw [hsecond] at hrest
    simp only [Except.map, Except.ok.injEq, Prod.mk.injEq, Option.map_eq_some_iff] at hrest
    obtain ⟨⟨e, rfl, -⟩, ⟨found, hfound, -⟩, rfl, hlength, hlateLength⟩ := hrest
    refine ⟨e, r, r', r₁, second, hentry, hskip, hsecond, ?_, hbytes, ?_⟩
    · rw [hfound]
      rfl
    · rintro ⟨r₂, hr₂, hleft⟩
      rw [hlate] at hr₂
      cases hr₂
      rw [hleft, hlength] at hlateLength
      exact absurd hlateLength (by decide)

/-- The byte is read and the body completed: the reader is where the skip leaves it. -/
theorem completed_body_reaches_header : ∃ entry r r' r₁,
    nextEntry (new [.ok oneByteFile] TarLimits.standard) = .ok (some entry, r) ∧
      TarStreamReader.skipEntryBody r = .ok ((), r₁) ∧ readBodyChunks [1] r = .ok ([120], r') ∧
      TarStreamReader.completeConsumedBody entry.size r' = .ok ((), r₁) := by
  obtain ⟨⟨entry, r⟩, hentry, hrest⟩ := bind_eq_ok.mp oneByteFile_runs
  obtain ⟨⟨⟨⟩, r₁⟩, hskip, hrest⟩ := bind_eq_ok.mp hrest
  obtain ⟨⟨bytes, r'⟩, hbytes, hrest⟩ := bind_eq_ok.mp hrest
  obtain ⟨⟨⟨⟩, late⟩, -, hrest⟩ := bind_eq_ok.mp hrest
  cases hsecond : nextEntry r₁ with
  | error e =>
    rw [hsecond] at hrest
    cases hrest
  | ok second =>
    rw [hsecond] at hrest
    simp only [Except.map, Except.ok.injEq, Prod.mk.injEq, Option.map_eq_some_iff] at hrest
    obtain ⟨⟨e, rfl, -, hsize⟩, -, rfl, -⟩ := hrest
    obtain ⟨bytes, r₂, hread, -, -, -, -, hcomplete⟩ := body_protocol hentry hskip [1]
    rw [hbytes] at hread
    cases hread
    exact ⟨e, r, r', r₁, hentry, hskip, hbytes, hcomplete hsize.symm⟩

end TuxStack.Tar.TarStreamReader
