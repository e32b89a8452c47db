import Mathlib.Data.List.AList
import TuxStack.Docker.Spool
import TuxStack.Lib.Text
import TuxStack.Tar.Members

/-!
# Reading a container through its archives

`crates/docker-core/src/vfs_providers/archive.rs`: every operation asks Docker
for an archive of the requested path and looks for the requested node in it.
Docker names the entries after the last component of the path, so the node is
found by its base name; before that the provider tries the full path.

The source is a function from paths to streams. Timeouts are left out: an
operation that times out is a source that fails.
-/

namespace TuxStack.Docker

open Vfs Tar Tar.TarStreamReader Result

/-! ## The provider -/

def validateObjectId (objectId : String) : Except VfsError Unit :=
  if objectId.toList.all isWhitespace ∨ Char.ofNat 0 ∈ objectId.toList then
    .error (.invalidInput "empty or NUL-containing Docker object ID")
  else .ok ()

abbrev ContainerArchiveSource : Type :=
  String → VirtualPath → Except VfsError ArchiveByteStream

/-- `ContainerArchiveProvider`: its constructor checks the limits. -/
structure ContainerArchiveProvider where
  objectId : String
  source : ContainerArchiveSource
  spool : ContentSpool
  limits : TarLimits
  valid : limits.validate = .ok ()
  nextHandle : Nat
  handles : AList fun _ : Nat => ContentBacking

/-- `select_archive_root`: the entry at the full path, else the one entry at the
top that has the base name. -/
def selectArchiveRoot (index : TarIndex) (requested : VirtualPath) : Except VfsError TarEntry :=
  if requested.isRoot then
    match index.get TarPath.root with
    | some entry => .ok entry
    | none => .error .notFound
  else
    match index.get (TarPath.fromVirtual requested) with
    | some entry => .ok entry
    | none =>
      match requested.fileName with
      | none => .error .notFound
      | some name =>
        let candidates := (index.entries.toList.map Prod.snd).filter fun entry =>
          entry.path.depth = 1 && entry.path.name = some name.bytes
        match candidates with
        | [] => .error .notFound
        | [entry] => .ok entry
        | _ => .error (.io "ambiguous Docker archive root")

/-- The body of an entry goes to a spool writer in chunks. Every round takes at
least a byte, so one round more than bytes is enough. -/
def copyBody : Nat → ContentSpool → ContentSpoolWriter →
    ReaderM (ContentSpool × ContentSpoolWriter)
  | 0, spool, writer => pure (spool, writer)
  | rounds + 1, spool, writer => do
      match ← TarStreamReader.readBodyChunk (128 * 1024) with
      | none => return (spool, writer)
      | some chunk => do
          let next ← writer.push spool chunk
          copyBody rounds next.1 next.2

def notRegular (kind : TarEntryKind) : VfsError :=
  if kind = .characterDevice ∨ kind = .blockDevice ∨ kind = .namedPipe ∨ kind = .other then
    .specialFile
  else .invalidInput "archive entry is not a regular file"

/-- The loop of `extract_regular_file`; `entries` counts the entries seen. -/
def extractLoop (requested : VirtualPath) (requestedName : VirtualFileName) (maxEntries : Nat) :
    Nat → Nat → ContentSpool → Option ContentBacking →
      ReaderM (ContentSpool × Option ContentBacking)
  | 0, _, spool, result => pure (spool, result)
  | rounds + 1, entries, spool, result => do
      match ← TarStreamReader.nextEntry with
      | none => return (spool, result)
      | some entry =>
        if entries + 1 > maxEntries then throw (.unavailable "tar entry limit exceeded")
        else if ¬ (entry.path = TarPath.fromVirtual requested ∨
            (entry.path.depth = 1 ∧ entry.path.name = some requestedName.bytes)) then do
          TarStreamReader.skipEntryBody
          extractLoop requested requestedName maxEntries rounds (entries + 1) spool result
        else if result.isSome then throw (.io "ambiguous Docker file archive")
        else if entry.kind = .directory then throw .isDirectory
        else if entry.kind ≠ .regularFile then throw (notRegular entry.kind)
        else do
          let copied ← copyBody (entry.size + 1) spool spool.writer
          TarStreamReader.completeConsumedBody entry.size
          extractLoop requested requestedName maxEntries rounds (entries + 1) copied.1
            (some copied.2.finish)

/-- `extract_regular_file`, with the spool it leaves behind. -/
def extractRegularFile (stream : ArchiveByteStream) (requested : VirtualPath)
    (limits : TarLimits) (spool : ContentSpool) :
    Except VfsError (ContentSpool × ContentBacking) :=
  match requested.fileName with
  | none => .error .isDirectory
  | some name => do
      let reader := TarStreamReader.new stream limits
      let out ← extractLoop requested name limits.maxEntries (reader.source.left.length + 1) 0
        spool none reader
      match out.1.2 with
      | none => .error .notFound
      | some backing => .ok (out.1.1, backing)

namespace ContainerArchiveProvider

def new (objectId : String) (source : ContainerArchiveSource) (spool : ContentSpool)
    (limits : TarLimits) : Except VfsError ContainerArchiveProvider := do
  validateObjectId objectId
  match h : limits.validate with
  | .error e => .error e
  | .ok () =>
    .ok
      { objectId := objectId
        source := source
        spool := spool
        limits := limits
        valid := h
        nextHandle := 1
        handles := ∅ }

def operationIndex (p : ContainerArchiveProvider) (path : VirtualPath) :
    Except VfsError TarIndex := do
  let stream ← p.source p.objectId path
  TarIndex.fromStream stream p.limits

def identityPrefix (p : ContainerArchiveProvider) (path : VirtualPath) : Bytes :=
  p.objectId.toUTF8.data.toList ++ [0] ++ path.asBytes

def metadataFor (p : ContainerArchiveProvider) (index : TarIndex) (entry : TarEntry)
    (path : VirtualPath) : Except VfsError VirtualMetadata :=
  index.metadata entry.path (p.identityPrefix path) 0

/-- `getattr`, behind `lookup` too. -/
def getattr (p : ContainerArchiveProvider) (path : VirtualPath) :
    Except VfsError VirtualMetadata :=
  if path.isRoot then .ok (VirtualMetadata.directory (p.identityPrefix path))
  else do
    let index ← p.operationIndex path
    let entry ← selectArchiveRoot index path
    p.metadataFor index entry path

/-- One row of `read_dir`. -/
def childEntry (p : ContainerArchiveProvider) (index : TarIndex) (path : VirtualPath)
    (child : TarEntry) : Except VfsError VirtualDirectoryEntry :=
  match child.path.name with
  | none => .error .notFound
  | some raw => do
      let name ← VirtualFileName.new raw
      let childPath ← path.join name
      let metadata ← p.metadataFor index child childPath
      .ok ⟨name, metadata⟩

def readDir (p : ContainerArchiveProvider) (path : VirtualPath) :
    Except VfsError (List VirtualDirectoryEntry) := do
  let index ← p.operationIndex path
  let archiveRoot ← selectArchiveRoot index path
  if archiveRoot.kind ≠ .directory then .error .notDirectory
  else
    let entries ← (index.children archiveRoot.path).mapM (p.childEntry index path)
    .ok (entries.mergeSort fun left right => (compare left.name.bytes right.name.bytes).isLE)

def readLink (p : ContainerArchiveProvider) (path : VirtualPath) :
    Except VfsError VirtualPathBytes := do
  let index ← p.operationIndex path
  let entry ← selectArchiveRoot index path
  if entry.kind ≠ .symlink then .error (.invalidInput "node is not a symlink")
  else VirtualPathBytes.new (entry.linkTarget.getD [])

def toProvider (p : ContainerArchiveProvider) : Provider where
  lookup parent name := do
    let path ← parent.join name
    p.getattr path
  getattr := p.getattr
  readDir := p.readDir
  readLink := p.readLink

def operationContent (p : ContainerArchiveProvider) (path : VirtualPath) :
    Except VfsError (ContentSpool × ContentBacking) := do
  let stream ← p.source p.objectId path
  extractRegularFile stream path p.limits p.spool

/-- `open`, with the provider it leaves behind. -/
def openFile (p : ContainerArchiveProvider) (path : VirtualPath) (flags : BitVec 32) :
    Except VfsError (ProviderFileHandle × ContainerArchiveProvider) :=
  if !isReadOnlyOpen flags then .error .readOnly
  else do
    let content ← p.operationContent path
    .ok (⟨p.nextHandle, path, 0⟩,
      { p with
        spool := content.1
        nextHandle := p.nextHandle + 1
        handles := p.handles.insert p.nextHandle content.2 })

def readAt (p : ContainerArchiveProvider) (handle : ProviderFileHandle) (offset size : Nat) :
    Except VfsError Bytes :=
  match p.handles.lookup handle.id with
  | none => .error .badHandle
  | some backing => .ok (backing.readAt offset size)

def close (p : ContainerArchiveProvider) (handle : ProviderFileHandle) :
    Except VfsError ContainerArchiveProvider :=
  if handle.id ∈ p.handles then .ok { p with handles := p.handles.erase handle.id }
  else .error .badHandle

end ContainerArchiveProvider

/-! ## What extraction leaves in the spool -/

theorem run_lift_ok {α β : Type} {x : Except VfsError α} {a : α} (hx : x = .ok a)
    {f : α → ReaderM β} {r : TarStreamReader} : ((liftM x : ReaderM α) >>= f) r = f a r := by
  rw [hx]
  rfl

/-- Copying a body into the spool: it is all there in the end, or it does not fit. -/
theorem copyBody_left : ∀ {rounds : Nat} {body rest : Bytes} {r : TarStreamReader}
    {spool : ContentSpool} {writer : ContentSpoolWriter}, body.length < rounds →
    r.currentSize = some body.length → r.source.Clean (policy r.limits) →
    r.source.left = body ++ rest → writer.Counted →
    writer.content.length ≤ spool.limits.maxSingleBytes →
    (writer.Room spool body.length ∧ ∃ spool' writer' s, copyBody rounds spool writer r =
          .ok ((spool', writer'), { r with source := s, currentSize := some 0 }) ∧
        writer'.Counted ∧ writer'.content = writer.content ++ body ∧
        s.Clean (policy r.limits) ∧ s.left = rest) ∨
      (¬ writer.Room spool body.length ∧ ∃ e, copyBody rounds spool writer r = .error e)
  | 0, _, _, _, _, _, hlt, _, _, _, _, _ => absurd hlt (Nat.not_lt_zero _)
  | rounds + 1, body, rest, r, spool, writer, hlt, hsize, hclean, hleft, hcount, hsingle => by
      unfold copyBody
      by_cases hbody : body = []
      · subst hbody
        have hdone : readBodyChunk (128 * 1024) r = .ok (none, r) := by
          unfold readBodyChunk
          rw [hsize]
          rfl
        rw [run_bind_of_ok hdone]
        refine .inl ⟨⟨by simpa using hsingle, by simpa using spool.within⟩, spool, writer,
          r.source, ?_, hcount, by simp, hclean, by simpa using hleft⟩
        have hr : r = { r with currentSize := some 0 } := by
          rw [← show r.currentSize = some 0 from hsize]
        conv_lhs => rw [hr]
        rfl
      · obtain ⟨chunk, more, s, hchunk, hpieces, hne, hclean', hleft'⟩ :=
          readBodyChunk_left (128 * 1024) hsize hclean hleft hbody
        have hlen : body.length = chunk.length + more.length := by
          rw [hpieces, List.length_append]
        have hpos := List.length_pos_of_ne_nil hne
        rw [run_bind_of_ok hchunk]
        dsimp only
        by_cases hroom : writer.Room spool chunk.length
        · obtain ⟨spool₁, writer₁, hpush, hlimits, hreserved, hcount₁, hcontent₁⟩ :=
            ContentSpoolWriter.push_fits hcount hroom
          rw [run_lift_ok hpush]
          have hlen₁ : writer₁.content.length = writer.content.length + chunk.length := by
            rw [hcontent₁, List.length_append]
          -- once the chunk is in, the rest has room just if the whole body had
          have hiff : writer₁.Room spool₁ more.length ↔ writer.Room spool body.length := by
            unfold ContentSpoolWriter.Room
            rw [hlimits, hreserved, hlen₁, hlen]
            omega
          have hsingle₁ : writer₁.content.length ≤ spool₁.limits.maxSingleBytes := by
            rw [hlen₁, hlimits]
            exact hroom.1
          have hlt' : more.length < rounds := by omega
          rcases copyBody_left
              (r := { r with source := s, currentSize := some more.length }) hlt' rfl
              hclean' hleft' hcount₁ hsingle₁ with
            ⟨hfits, spool', writer', s', hrun, hcount', hcontent', hclean'', hleft''⟩ |
            ⟨hnot, e, hrun⟩
          · refine .inl ⟨hiff.mp hfits, spool', writer', s', hrun, hcount', ?_, hclean'',
              hleft''⟩
            rw [hcontent', hcontent₁, hpieces, List.append_assoc]
          · exact .inr ⟨fun h => hnot (hiff.mpr h), e, hrun⟩
        · obtain ⟨e, he⟩ := ContentSpoolWriter.push_refused hcount hroom
          refine .inr ⟨fun h => hroom ⟨?_, ?_⟩, e, ?_⟩
          · exact le_trans (by omega) h.1
          · exact le_trans (by omega) h.2
          · rw [he]
            rfl

/-- **Taking the one file out of an archive**: its content is spooled, or it does
not fit the spool. -/
theorem extractLoop_file {requested : VirtualPath} {name : VirtualFileName} {maxEntries : Nat}
    {rounds : Nat} {spool : ContentSpool} {r : TarStreamReader} {entry : TarEntry} {body : Bytes}
    (hholds : r.Holds [(entry, body)]) (hkind : entry.kind = .regularFile)
    (hpath : entry.path = ⟨[name.bytes]⟩) (hmax : 1 ≤ maxEntries) (hrounds : 2 ≤ rounds) :
    (spool.writer.Room spool body.length ∧ ∃ spool' writer r',
        extractLoop requested name maxEntries rounds 0 spool none r =
          .ok ((spool', some (ContentSpoolWriter.finish writer)), r') ∧
        writer.Counted ∧ writer.content = body) ∨
      (¬ spool.writer.Room spool body.length ∧
        ∃ e, extractLoop requested name maxEntries rounds 0 spool none r = .error e) := by
  obtain ⟨rounds, rfl⟩ : ∃ k, rounds = k + 2 := ⟨rounds - 2, by omega⟩
  cases hholds with
  | @cons _ r₁ r₂ _ _ _ hclean hnext hbody hsize hskip hrest =>
    have hclean₁ := nextEntry_clean hclean hnext
    have hcurrent := nextEntry_currentSize hnext
    obtain ⟨hle, hleft₂, hr₂⟩ := skipEntryBody_ok hcurrent hskip
    have hleft₁ : r₁.source.left = body ++ r₁.source.left.drop entry.size := by
      rw [← hbody, List.take_append_drop]
    have hmatch : entry.path = TarPath.fromVirtual requested ∨
        (entry.path.depth = 1 ∧ entry.path.name = some name.bytes) := by
      rw [hpath]
      exact .inr ⟨rfl, rfl⟩
    have hstart : extractLoop requested name maxEntries (rounds + 2) 0 spool none r =
        (do
          let copied ← copyBody (entry.size + 1) spool spool.writer
          TarStreamReader.completeConsumedBody entry.size
          extractLoop requested name maxEntries (rounds + 1) 1 copied.1
            (some copied.2.finish) : ReaderM (ContentSpool × Option ContentBacking)) r₁ := by
      rw [extractLoop, run_bind_of_ok hnext]
      dsimp only
      rw [if_neg (by omega), if_neg (not_not_intro hmatch), if_neg (by simp),
        if_neg (by simp [hkind]), if_neg (by simp [hkind])]
    rw [hstart]
    rcases @copyBody_left (entry.size + 1) body _ r₁ spool spool.writer
        (by omega) (by rw [hcurrent, hsize]) hclean₁ hleft₁
        (ContentSpoolWriter.counted_writer spool) (Nat.zero_le _) with
      ⟨hfits, spool', writer, s, hcopy, hcount, hcontent, hclean', hleft'⟩ | ⟨hnot, e, hcopy⟩
    · refine .inl ⟨hfits, spool', writer, ?_⟩
      have hpad : padding entry.size ≤ s.left.length := by
        rw [hleft', List.length_drop]
        omega
      obtain ⟨s', hskip', hclean'', hleft''⟩ :=
        skipExact_left (r := { r₁ with source := s, currentSize := none }) hclean'
          (List.take_append_drop (padding entry.size) s.left).symm
      rw [List.length_take, Nat.min_eq_left hpad] at hskip'
      -- behind the copied body the reader is where skipping it would have led
      have hsame : SameLeft r₂ { r₁ with source := s', currentSize := none } := by
        have hlimits : r₂.limits = r₁.limits := by rw [hr₂]
        refine ⟨hrest.clean, by rw [hlimits]; exact hclean'', ?_, ?_⟩
        · rw [hleft₂, hleft'', hleft', List.drop_drop]
        · rw [hr₂]
      cases hrest.sameLeft hsame with
      | @nil _ r₃ _ hend =>
        refine ⟨r₃, ?_, hcount, hcontent⟩
        have hcomplete : completeConsumedBody entry.size
            { r₁ with source := s, currentSize := some 0 } =
              .ok ((), { r₁ with source := s', currentSize := none }) := hskip'
        rw [run_bind_of_ok hcopy]
        dsimp only
        rw [run_bind_of_ok hcomplete, extractLoop, run_bind_of_ok hend]
        rfl
    · refine .inr ⟨hnot, e, ?_⟩
      change (copyBody _ _ _ r₁ >>= _) = _
      rw [hcopy]
      rfl

end TuxStack.Docker
