import TuxStack.Lib.ChunkSource
import TuxStack.Lib.Runs
import TuxStack.Tar.Header

/-!
# The tar stream reader

`TarStreamReader` of `crates/docker-core/src/vfs_providers/tar_index.rs`. The
byte loops (`fill`, `read_exact`, `skip_exact`, `ensure_zero_tail`) are those of
`Lib/ChunkSource` with the limits and messages of the reader; everything above
them is written here as the source has it.

A method is a computation in `ReaderM`: it ends with an error, or with a value
and the reader it leaves behind. Every caller in the repository gives up on the
first error, so the reader an error leaves behind is not kept.
-/

namespace TuxStack.Tar

open Vfs Result Runs Chunks

structure TarStreamReader where
  source : Source VfsError UInt8
  limits : TarLimits
  archiveFinished : Bool
  currentSize : Option Nat
  globalPax : PaxValues
  pendingPax : PaxValues
  pendingLongName : Option Bytes
  pendingLongLink : Option Bytes

/-- `ArchiveByteStream`, as the chunks it is going to hand out. -/
abbrev ArchiveByteStream : Type := List (Except VfsError Bytes)

abbrev ReaderM : Type → Type := StateT TarStreamReader (Except VfsError)

namespace TarStreamReader

def new (stream : ArchiveByteStream) (limits : TarLimits) : TarStreamReader where
  source := Source.ofStream stream
  limits := limits
  archiveFinished := false
  currentSize := none
  globalPax := PaxValues.empty
  pendingPax := PaxValues.empty
  pendingLongName := none
  pendingLongLink := none

/-! ## Bytes -/

/-- The two ways `fill` can refuse a chunk, an overflow of the `u64` counter and
the archive limit, have one message; the limit is a `u64`, so the second covers
the first. -/
def policy (limits : TarLimits) : Policy VfsError where
  budget := limits.maxArchiveBytes
  overBudget := .unavailable "tar byte limit exceeded"
  truncated := .io "truncated tar archive"

/-- Run a computation on the source. -/
def onSource {α : Type} (f : Policy VfsError → Source VfsError UInt8 →
    Except VfsError (α × Source VfsError UInt8)) : ReaderM α :=
  fun r => (f (policy r.limits) r.source).map fun x => (x.1, { r with source := x.2 })

def fill : ReaderM Unit := onSource fun p s => (s.fill p).map fun s => ((), s)

def readExact (length : Nat) : ReaderM Bytes := onSource fun p s => s.readExact p length

def skipExact (length : Nat) : ReaderM Unit :=
  onSource fun p s => (s.skipExact p length).map fun s => ((), s)

def ensureZeroTail : ReaderM Unit :=
  onSource fun p s =>
    (s.drain p (· = 0) (.io "non-zero bytes after tar end marker")).map fun s => ((), s)

def padding (originalSize : Nat) : Nat := (tarBlock - originalSize % tarBlock) % tarBlock

/-- `TarStreamReader::read_extension`. -/
def readExtension (size : Nat) : ReaderM Bytes := fun r =>
  if size > r.limits.maxExtensionBytes then
    .error (.unavailable "tar extension limit exceeded")
  else
    (do
      let data ← readExact size
      skipExact (padding size)
      return data : ReaderM Bytes) r

/-! ## Entries -/

def validateHardlink (kind : TarEntryKind) (target : Option Bytes) (limits : TarLimits) :
    Except VfsError Unit :=
  if kind ≠ .hardlink then .ok ()
  else
    match target with
    | none => .error (.io "hardlink has no target")
    | some target => do
        let _ ← TarPath.fromTarBytes target limits
        .ok ()

/-- The entry of a member header, given the extension values in force: PAX
values first, GNU long values next, the header's own last. -/
def memberEntry (limits : TarLimits) (header : RawHeader) (pax : PaxValues)
    (longName longLink : Option Bytes) : Except VfsError TarEntry := do
  let rawPath := (pax.path <|> longName).getD header.path
  let linkTarget := pax.linkPath <|> longLink <|> header.linkTarget
  validateLinkTarget linkTarget limits
  validateHardlink header.kind linkTarget limits
  let size := pax.size.getD header.size
  if size > limits.maxEntryBytes then
    .error (.unavailable "tar entry size limit exceeded")
  else
    let path ← TarPath.fromTarBytes rawPath limits
    let mode ← checkedU32 header.mode "tar mode"
    let uid ← checkedU32 (pax.uid.getD header.uid) "tar uid"
    let gid ← checkedU32 (pax.gid.getD header.gid) "tar gid"
    let deviceMajor ← header.deviceMajor.mapM fun value => checkedU32 value "device major"
    let deviceMinor ← header.deviceMinor.mapM fun value => checkedU32 value "device minor"
    .ok
      { rawPath := rawPath
        path := path
        kind := header.kind
        size := size
        mode := mode
        uid := uid
        gid := gid
        mtime := pax.mtime.getD header.mtime
        linkTarget := linkTarget
        deviceMajor := deviceMajor
        deviceMinor := deviceMinor
        synthetic := false }

/-- The end of `next_entry` on a member header. The `or_else` chains are lazy: a
pending GNU value is taken only when no PAX value is there for its field. -/
def finishEntry (header : RawHeader) : ReaderM (Option TarEntry) := fun r => do
  let pax := r.globalPax.overlay r.pendingPax
  let entry ← memberEntry r.limits header pax r.pendingLongName r.pendingLongLink
  .ok (some entry,
    { r with
      pendingPax := PaxValues.empty
      pendingLongName := if pax.path.isSome then r.pendingLongName else none
      pendingLongLink := if pax.linkPath.isSome then r.pendingLongLink else none
      currentSize := some entry.size })

inductive Extension where
  | globalPax (values : PaxValues)
  | pax (values : PaxValues)
  | longName (value : Bytes)
  | longLink (value : Bytes)
deriving DecidableEq

/-- What reading an extension header does to the reader. -/
def record (r : TarStreamReader) : Extension → TarStreamReader
  | .globalPax values => { r with globalPax := r.globalPax.overlay values }
  | .pax values => { r with pendingPax := r.pendingPax.overlay values }
  | .longName value => { r with pendingLongName := some value }
  | .longLink value => { r with pendingLongLink := some value }

/-- The extension a header announces, if it announces one. -/
def readHeaderExtension (header : RawHeader) : ReaderM (Option Extension) := do
  if header.typeFlag = 120 ∨ header.typeFlag = 103 then
    let payload ← readExtension header.size
    let pax ← parsePax payload
    return some (if header.typeFlag = 103 then .globalPax pax else .pax pax)
  else if header.typeFlag = 76 ∨ header.typeFlag = 75 then
    let payload ← readExtension header.size
    let value ← parseLongValue payload
    return some (if header.typeFlag = 76 then .longName value else .longLink value)
  else return none

/-- The end of the archive, after its first zero block. -/
def finishArchive : ReaderM (Option TarEntry) := do
  let second ← readExact tarBlock
  if second.any (· ≠ 0) then
    throw (.io "non-zero tar header after end marker")
  else
    ensureZeroTail
    modify fun r => { r with archiveFinished := true }
    return none

/-- The loop of `next_entry`. Every round reads a block, so there are never more
rounds than bytes left (`nextLoop_rounds`). -/
def nextLoop : Nat → ReaderM (Option TarEntry)
  | 0 => pure none
  | rounds + 1 => do
      let block ← readExact tarBlock
      if block.all (· = 0) then finishArchive
      else
        let header ← parseHeader block
        match ← readHeaderExtension header with
        | some extension => do
            modify fun r => r.record extension
            nextLoop rounds
        | none => finishEntry header

def nextEntry : ReaderM (Option TarEntry) := fun r =>
  if r.currentSize.isSome then
    .error (.invalidInput "previous tar body was not consumed")
  else if r.archiveFinished then .ok (none, r)
  else nextLoop (r.source.left.length + 1) r

/-! ## Bodies -/

def readBodyChunk (maximum : Nat) : ReaderM (Option Bytes) := fun r =>
  match r.currentSize with
  | none => .error (.invalidInput "no current tar body")
  | some remaining =>
    if remaining = 0 then .ok (none, r)
    else do
      let ((), r) ← fill r
      if r.source.buffer.isEmpty then .error (.io "truncated tar archive")
      else
        let take := min (min (max maximum 1) r.source.buffer.length) remaining
        .ok (some (r.source.buffer.take take),
          { r with
            source := { r.source with buffer := r.source.buffer.drop take }
            currentSize := some (remaining - take) })

def skipEntryBody : ReaderM Unit := fun r =>
  match r.currentSize with
  | none => .error (.invalidInput "no current tar body")
  | some size =>
    (do
      skipExact size
      skipExact (padding size) : ReaderM Unit) { r with currentSize := none }

def completeConsumedBody (originalSize : Nat) : ReaderM Unit := fun r =>
  match r.currentSize with
  | none => .error (.invalidInput "no current tar body")
  | some remaining =>
    if remaining ≠ 0 then .error (.invalidInput "tar body is incomplete")
    else skipExact (padding originalSize) { r with currentSize := none }

/-! ## Readers that read the same -/

/-- Readers related by `R` read the same bytes and stay related. -/
structure ReadAlike (R : TarStreamReader → TarStreamReader → Prop) : Prop where
  limits : ∀ r r', R r r' → r.limits = r'.limits
  readExact : ∀ length, Sim R (readExact length) (readExact length)
  skipExact : ∀ length, Sim R (skipExact length) (skipExact length)

variable {R : TarStreamReader → TarStreamReader → Prop}

theorem ReadAlike.readExtension (hR : ReadAlike R) (size : Nat) :
    Sim R (readExtension size) (readExtension size) := by
  intro r r' h
  unfold TarStreamReader.readExtension
  rw [hR.limits r r' h]
  split
  · exact rfl
  · exact ((hR.readExact size).bind fun data =>
    (hR.skipExact (padding size)).bind fun _ => Sim.pure data) r r' h

theorem ReadAlike.readHeaderExtension (hR : ReadAlike R) (header : RawHeader) :
    Sim R (readHeaderExtension header) (readHeaderExtension header) := by
  unfold TarStreamReader.readHeaderExtension
  split
  · exact (hR.readExtension header.size).bind fun payload =>
    (Sim.lift (parsePax payload)).bind fun pax => Sim.pure _
  · split
    · exact (hR.readExtension header.size).bind fun payload =>
      (Sim.lift (parseLongValue payload)).bind fun value => Sim.pure _
    · exact Sim.pure none

/-! ## The rounds of the loop -/

variable {r r' : TarStreamReader} {length : Nat} {u : Unit}

theorem onSource_ok {α : Type} {f : Policy VfsError → Source VfsError UInt8 →
    Except VfsError (α × Source VfsError UInt8)} {a : α} (h : onSource f r = .ok (a, r')) :
    ∃ s, f (policy r.limits) r.source = .ok (a, s) ∧ r' = { r with source := s } := by
  unfold onSource at h
  cases hf : f (policy r.limits) r.source with
  | error e =>
    rw [hf] at h
    cases h
  | ok x =>
    rw [hf] at h
    cases h
    exact ⟨x.2, rfl, rfl⟩

/-- A successful `read_exact` moves the source on and changes nothing else. -/
theorem readExact_ok {data : Bytes} (h : readExact length r = .ok (data, r')) :
    ∃ s, r' = { r with source := s } ∧ length ≤ r.source.left.length ∧
      data = r.source.left.take length ∧ s.left = r.source.left.drop length := by
  obtain ⟨s, hs, rfl⟩ := onSource_ok h
  exact ⟨s, rfl, Source.readExact_ok hs⟩

theorem skipExact_source (h : skipExact length r = .ok (u, r')) :
    ∃ s, r.source.skipExact (policy r.limits) length = .ok s ∧ r' = { r with source := s } := by
  obtain ⟨s, hs, hr'⟩ := onSource_ok h
  cases hskip : r.source.skipExact (policy r.limits) length with
  | error e =>
    rw [hskip] at hs
    cases hs
  | ok s' =>
    rw [hskip] at hs
    cases hs
    exact ⟨s, rfl, hr'⟩

theorem skipExact_ok (h : skipExact length r = .ok (u, r')) :
    ∃ s, r' = { r with source := s } ∧ length ≤ r.source.left.length ∧
      s.left = r.source.left.drop length := by
  obtain ⟨s, hskip, hr'⟩ := skipExact_source h
  exact ⟨s, hr', Source.skipExact_ok hskip⟩

theorem readExtension_ok {size : Nat} {data : Bytes} (h : readExtension size r = .ok (data, r')) :
    ∃ s, r' = { r with source := s } ∧ s.left.length ≤ r.source.left.length := by
  unfold readExtension at h
  split at h
  · cases h
  · obtain ⟨data', r₁, hread, h⟩ := run_bind_eq_ok.mp h
    obtain ⟨u, r₂, hskip, h⟩ := run_bind_eq_ok.mp h
    cases h
    obtain ⟨s₁, rfl, -, -, hleft₁⟩ := readExact_ok hread
    obtain ⟨s₂, rfl, -, hleft₂⟩ := skipExact_ok hskip
    refine ⟨s₂, rfl, ?_⟩
    dsimp only at hleft₂
    rw [hleft₂, hleft₁, List.length_drop, List.length_drop]
    omega

theorem lift_ok {α : Type} {x : Except VfsError α} {a : α}
    (h : (liftM x : ReaderM α) r = .ok (a, r')) : x = .ok a ∧ r' = r := by
  cases x with
  | error e => cases h
  | ok b =>
    cases h
    exact ⟨rfl, rfl⟩

theorem readHeaderExtension_ok {header : RawHeader} {e : Option Extension}
    (h : readHeaderExtension header r = .ok (e, r')) :
    ∃ s, r' = { r with source := s } ∧ s.left.length ≤ r.source.left.length := by
  unfold readHeaderExtension at h
  split at h
  · obtain ⟨payload, r₁, hread, hrest⟩ := run_bind_eq_ok.mp h
    obtain ⟨pax, r₂, hparse, hend⟩ := run_bind_eq_ok.mp hrest
    obtain ⟨-, rfl⟩ := lift_ok hparse
    cases hend
    exact readExtension_ok hread
  · split at h
    · obtain ⟨payload, r₁, hread, hrest⟩ := run_bind_eq_ok.mp h
      obtain ⟨value, r₂, hparse, hend⟩ := run_bind_eq_ok.mp hrest
      obtain ⟨-, rfl⟩ := lift_ok hparse
      cases hend
      exact readExtension_ok hread
    · cases h
      exact ⟨_, rfl, le_rfl⟩

theorem record_source (r : TarStreamReader) (e : Extension) : (record r e).source = r.source := by
  cases e <;> rfl

theorem header_left {block : Bytes} {r₁ : TarStreamReader} {header : RawHeader}
    {e : Option Extension} (hread : readExact tarBlock r = .ok (block, r₁))
    (hext : readHeaderExtension header r₁ = .ok (e, r')) :
    r'.source.left.length < r.source.left.length := by
  obtain ⟨s₁, rfl, hlen, -, hleft₁⟩ := readExact_ok hread
  obtain ⟨s₂, rfl, hleft₂⟩ := readHeaderExtension_ok hext
  dsimp only at hleft₂ ⊢
  rw [hleft₁, List.length_drop] at hleft₂
  unfold tarBlock at hlen hleft₂
  omega

theorem finishArchive_ok {out : Option TarEntry} (h : finishArchive r = .ok (out, r')) :
    out = none ∧ ∃ s, r' = { r with source := s, archiveFinished := true } := by
  obtain ⟨second, r₁, hread, hrest⟩ := run_bind_eq_ok.mp h
  obtain ⟨s₁, rfl, -⟩ := readExact_ok hread
  split at hrest
  · cases hrest
  · obtain ⟨u, r₂, hzero, hrest⟩ := run_bind_eq_ok.mp hrest
    obtain ⟨s₂, -, rfl⟩ := onSource_ok hzero
    cases hrest
    exact ⟨rfl, s₂, rfl⟩

/-- **What one round of `next_entry` can do**: end the archive, record an
extension and go on, or build an entry. -/
theorem nextLoop_cases {rounds : Nat} {out : Option TarEntry}
    (h : nextLoop (rounds + 1) r = .ok (out, r')) :
    ∃ block r₁, readExact tarBlock r = .ok (block, r₁) ∧
      ((block.all (· = 0) = true ∧ finishArchive r₁ = .ok (out, r')) ∨
        (block.all (· = 0) = false ∧ ∃ header e r₂, parseHeader block = .ok header ∧
          readHeaderExtension header r₁ = .ok (e, r₂) ∧
          match e with
          | some e => nextLoop rounds (r₂.record e) = .ok (out, r')
          | none => finishEntry header r₂ = .ok (out, r'))) := by
  obtain ⟨block, r₁, hread, hrest⟩ := run_bind_eq_ok.mp h
  refine ⟨block, r₁, hread, ?_⟩
  split at hrest
  · rename_i hzero
    exact .inl ⟨hzero, hrest⟩
  · rename_i hzero
    obtain ⟨header, r₂, hparse, hafter⟩ := run_bind_eq_ok.mp hrest
    obtain ⟨hheader, rfl⟩ := lift_ok hparse
    obtain ⟨e, r₃, hext, hend⟩ := run_bind_eq_ok.mp hafter
    refine .inr ⟨by simpa using hzero, header, e, r₃, hheader, hext, ?_⟩
    cases e with
    | none => exact hend
    | some e =>
      obtain ⟨u, r₄, hmodify, hend⟩ := run_bind_eq_ok.mp hend
      cases hmodify
      exact hend

/-- **The loop of `next_entry` ends by itself**: more rounds than bytes left
change nothing. -/
theorem nextLoop_rounds : ∀ (rounds more : Nat) (r : TarStreamReader),
    r.source.left.length < rounds → nextLoop (rounds + more) r = nextLoop rounds r
  | 0, _, _, h => absurd h (Nat.not_lt_zero _)
  | rounds + 1, more, r, h => by
      rw [Nat.add_right_comm]
      unfold nextLoop
      refine run_bind_congr fun block r₁ hread => ?_
      split
      · rfl
      · refine run_bind_congr fun header r₂ hparse => ?_
        obtain ⟨-, rfl⟩ := lift_ok hparse
        refine run_bind_congr fun e r₃ hext => ?_
        have hless := header_left hread hext
        cases e with
        | none => rfl
        | some e =>
          refine nextLoop_rounds rounds more (record r₃ e) ?_
          rw [record_source]
          omega

/-- `next_entry` returns no entry only at the end of the archive. -/
theorem nextLoop_none : ∀ {rounds : Nat} {r r' : TarStreamReader},
    r.source.left.length < rounds → nextLoop rounds r = .ok (none, r') →
      r'.archiveFinished = true
  | 0, _, _, h, _ => absurd h (Nat.not_lt_zero _)
  | rounds + 1, r, r', hlt, h => by
      obtain ⟨block, r₁, hread, ⟨-, hend⟩ | ⟨-, header, e, r₂, -, hext, hend⟩⟩ :=
        nextLoop_cases h
      · obtain ⟨-, s, rfl⟩ := finishArchive_ok hend
        rfl
      · have hless := header_left hread hext
        cases e with
        | none =>
          obtain ⟨entry, -, hend⟩ := bind_eq_ok.mp hend
          cases hend
        | some e =>
          refine nextLoop_none ?_ hend
          rw [record_source]
          omega

theorem nextLoop_left : ∀ {rounds : Nat} {r r' : TarStreamReader} {entry : TarEntry},
    nextLoop rounds r = .ok (some entry, r') →
      r'.source.left.length < r.source.left.length
  | 0, _, _, _, h => by cases h
  | rounds + 1, r, r', entry, h => by
      obtain ⟨block, r₁, hread, ⟨-, hend⟩ | ⟨-, header, e, r₂, -, hext, hend⟩⟩ :=
        nextLoop_cases h
      · obtain ⟨hnone, -⟩ := finishArchive_ok hend
        cases hnone
      · have hless := header_left hread hext
        cases e with
        | none =>
          obtain ⟨entry', -, hdone⟩ := bind_eq_ok.mp hend
          cases hdone
          exact hless
        | some e =>
          have hrest := nextLoop_left hend
          rw [record_source] at hrest
          exact hrest.trans hless

theorem nextEntry_left {entry : TarEntry} (h : nextEntry r = .ok (some entry, r')) :
    r'.source.left.length < r.source.left.length := by
  unfold nextEntry at h
  split at h
  · cases h
  · split at h
    · cases h
    · exact nextLoop_left h

theorem skipEntryBody_left (h : skipEntryBody r = .ok (u, r')) :
    r'.source.left.length ≤ r.source.left.length := by
  unfold skipEntryBody at h
  split at h
  · cases h
  · obtain ⟨u₁, r₁, hbody, hpad⟩ := run_bind_eq_ok.mp h
    obtain ⟨s₁, rfl, -, hleft₁⟩ := skipExact_ok hbody
    obtain ⟨s₂, rfl, -, hleft₂⟩ := skipExact_ok hpad
    dsimp only at hleft₂ ⊢
    rw [hleft₂, hleft₁, List.length_drop, List.length_drop]
    dsimp only
    omega

end TarStreamReader

end TuxStack.Tar
