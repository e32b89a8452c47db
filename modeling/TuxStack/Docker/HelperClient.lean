import TuxStack.Docker.HelperCore
import TuxStack.Docker.SpoolContent
import TuxStack.FsHelper.Preview
import TuxStack.Gui.Text

/-!
# The client of the helper

`crates/docker-core/src/services/filesystem/client.rs` and the end of
`HelperProviderCore::read_at` (`vfs_providers/support.rs`): what is made of the lines that a
helper command has written, when the connection or the helper may end after any of them.

A listing ends with an end line and a range with a chunk that is marked `eof`. Neither is
looked for, so a listing and a read are right exactly if nothing of the output is missing
(`listing_whole_iff`, `read_whole_iff`).
-/

namespace TuxStack.Docker

open Vfs FsHelper Files Result Tar

/-- A line as `serde_json` reads it: a message, or none if it does not parse. -/
abbrev HelperLine := Option HelperMessage

/-- The errors of the client, without their texts. -/
inductive FilesystemError where
  | pathNotFound
  | permissionDenied
  | isDirectory
  | notDirectory
  | invalidPathToken
  | pathEscapeRejected
  | unsupportedFileType
  | execFailed
  | helperProtocolError
deriving DecidableEq

def mapHelperError : HelperErrorCode → FilesystemError
  | .notFound => .pathNotFound
  | .permissionDenied => .permissionDenied
  | .isDirectory => .isDirectory
  | .notDirectory => .notDirectory
  | .invalidToken => .invalidPathToken
  | .pathEscapeRejected => .pathEscapeRejected
  | .symlinkLoop => .unsupportedFileType
  | .unsupportedFileType => .unsupportedFileType
  | .io => .execFailed
  | .invalidArgs => .helperProtocolError

/-! ## Listings -/

inductive FilesystemEntryType where
  | directory
  | regularFile
  | symbolicLink
  | socket
  | fifo
  | blockDevice
  | characterDevice
  | unknown
deriving DecidableEq

def FilesystemEntryType.fromProtocol : HelperFileType → FilesystemEntryType
  | .directory => .directory
  | .file => .regularFile
  | .symlink => .symbolicLink
  | .socket => .socket
  | .fifo => .fifo
  | .blockDevice => .blockDevice
  | .characterDevice => .characterDevice
  | .unknown => .unknown

/-- An entry of a listing, over the dates of the calendar in use. -/
structure FilesystemEntry (Date : Type) where
  nameRaw : Bytes
  displayName : String
  pathToken : Bytes
  entryType : FilesystemEntryType
  sizeBytes : Option Nat
  modifiedAt : Option Date
  mode : Option Nat
  uid : Option Nat
  gid : Option Nat
  symlinkTargetRaw : Option Bytes
  symlinkTargetDisplay : Option String
  readable : Bool
  hidden : Bool

structure ListDirectoryResult (Date : Type) where
  entries : List (FilesystemEntry Date)
  truncated : Bool
  nextCursor : Option Bytes

section Listing

variable {Date : Type} (dateOf : Int → Option Date)

/-- `FilesystemEntry::from_protocol_entry`; a time without a date in the calendar is none. -/
def fromProtocolEntry : HelperMessage → Option (FilesystemEntry Date)
  | .entry nameB64 pathToken fields =>
    (decodeBase64 nameB64).toOption.map fun nameRaw =>
      let symlinkTargetRaw := fields.symlinkTargetB64.bind fun b64 => (decodeBase64 b64).toOption
      { nameRaw := nameRaw
        displayName := Gui.fromUtf8Lossy nameRaw
        pathToken := pathToken
        entryType := .fromProtocol fields.fileType
        sizeBytes := fields.size
        modifiedAt := fields.mtime.bind dateOf
        mode := fields.mode
        uid := fields.uid
        gid := fields.gid
        symlinkTargetRaw := symlinkTargetRaw
        symlinkTargetDisplay := symlinkTargetRaw.map Gui.fromUtf8Lossy
        readable := fields.readable
        hidden := nameRaw.head? = some dot }
  | _ => none

def parseListLine (result : ListDirectoryResult Date) :
    HelperLine → Except FilesystemError (ListDirectoryResult Date)
  | none => .error .helperProtocolError
  | some (.entry nameB64 pathToken fields) =>
    match fromProtocolEntry dateOf (.entry nameB64 pathToken fields) with
    | some entry => .ok { result with entries := result.entries ++ [entry] }
    | none => .ok result
  | some (.finish truncated nextCursor) =>
    .ok { result with truncated := truncated, nextCursor := nextCursor }
  | some (.error code) => .error (mapHelperError code)
  | some _ => .ok result

def parseListOutput (lines : List HelperLine) :
    Except FilesystemError (ListDirectoryResult Date) :=
  lines.foldlM (parseListLine dateOf) ⟨[], false, none⟩

end Listing

/-! ## Reads -/

structure PreviewChunk where
  dataB64 : Bytes
  offset : Nat
  eof : Bool
  truncated : Bool
deriving DecidableEq

structure PreviewResult where
  chunks : List PreviewChunk
  totalLength : Nat
  truncated : Bool

def parsePreviewLine (result : PreviewResult) : HelperLine → Except FilesystemError PreviewResult
  | some (.previewChunk dataB64 offset eof truncated) =>
    .ok
      { chunks := result.chunks ++ [⟨dataB64, offset, eof, truncated⟩]
        totalLength := wrappingAdd offset dataB64.length
        truncated := truncated }
  | some (.error code) => .error (mapHelperError code)
  | _ => .ok result

def parsePreviewOutput (lines : List HelperLine) : Except FilesystemError PreviewResult :=
  lines.foldlM parsePreviewLine ⟨[], 0, false⟩

/-- The loop of `read_at` over the chunks. -/
def assembleChunks (size : Nat) : List PreviewChunk → Nat → Bytes → Except VfsError Bytes
  | [], _, bytes => .ok bytes
  | chunk :: chunks, expectedOffset, bytes =>
    if chunk.offset ≠ expectedOffset then
      .error (.io "helper returned a non-contiguous read range")
    else
      match decodeBase64 chunk.dataB64 with
      | .error message =>
        .error (.io ("invalid helper content: " ++ Gui.fromUtf8Lossy message))
      | .ok decoded =>
        if saturatingAdd bytes.length decoded.length > size then
          .error (.io "helper exceeded requested read range")
        else
          assembleChunks size chunks (saturatingAdd expectedOffset decoded.length)
            (bytes ++ decoded)

/-- Why a read fails: the client's error, which `map_filesystem_error` turns into another, or
one of the provider. -/
inductive ReadError where
  | client (error : FilesystemError)
  | provider (error : VfsError)

/-- `HelperProviderCore::read_at` of a valid handle, from the lines of its helper command. -/
def helperReadAt (offset size : Nat) (lines : List HelperLine) : Except ReadError Bytes :=
  if size > maxRemoteReadBytes then
    .error (.provider (.invalidInput "helper read request is too large"))
  else
    match parsePreviewOutput lines with
    | .error error => .error (.client error)
    | .ok result => (assembleChunks size result.chunks offset []).mapError .provider

/-! ## The lines of a listing -/

def IsEntry (message : HelperMessage) : Prop :=
  ∃ name pathToken fields, message = .entry (encodeBase64 name) pathToken fields

def isEntryMessage : HelperMessage → Bool
  | .entry .. => true
  | _ => false

variable {message : HelperMessage} {t : FileTree} {truncated : Bool}

theorem pageMessage_isEntry {dir relative name : Bytes}
    (h : pageMessage t dir relative name = .ok message) : IsEntry message := by
  obtain ⟨node, -, hentry⟩ := bind_eq_ok.mp h
  obtain ⟨fields, -, htoken⟩ := bind_eq_ok.mp hentry
  obtain ⟨token, -, hmessage⟩ := bind_eq_ok.mp htoken
  cases hmessage
  exact ⟨name, token, fields, rfl⟩

theorem emitPage_entries (t : FileTree) (dir relative : Bytes) (page : List Bytes) :
    ∀ message ∈ (emitPage t dir relative page).1, IsEntry message := by
  induction page with
  | nil => simp [emitPage]
  | cons name page ih =>
    intro message hmem
    rw [emitPage] at hmem
    cases hmessage : pageMessage t dir relative name with
    | error code =>
      rw [hmessage] at hmem
      cases hmem
    | ok first =>
      rw [hmessage] at hmem
      rcases List.mem_cons.mp hmem with rfl | hmem
      · exact pageMessage_isEntry hmessage
      · exact ih message hmem

/-- **What `list` emits**: entries, and an end line or an error line. -/
theorem list_emits {flags : Flags} {emitted : List HelperMessage} (h : list t flags = some emitted)
    : ∃ entries last, emitted = entries ++ [last] ∧
      (∀ message ∈ entries, IsEntry message) ∧
      ((∃ truncated nextCursor, last = .finish truncated nextCursor) ∨
        ∃ code, last = .error code) := by
  unfold list at h
  split at h
  · next code hnames =>
    cases h
    exact ⟨[], .error code, rfl, by simp, .inr ⟨code, rfl⟩⟩
  · next dir relative names hnames =>
    obtain ⟨⟨page, truncated, nextCursor⟩, -, hlines⟩ := Option.map_eq_some_iff.mp h
    dsimp only at hlines
    have hentries := emitPage_entries t dir relative page
    split at hlines
    · next messages code hemit =>
      rw [hemit] at hentries
      exact ⟨messages, _, hlines.symm, hentries, .inr ⟨code, rfl⟩⟩
    · next messages hemit =>
      rw [hemit] at hentries
      exact ⟨messages, _, hlines.symm, hentries, .inl ⟨truncated, nextCursor, rfl⟩⟩

section Listing

variable {Date : Type} (dateOf : Int → Option Date)

theorem parse_entries : ∀ {messages : List HelperMessage} (result : ListDirectoryResult Date),
    (∀ message ∈ messages, IsEntry message) →
    ∃ entries, (messages.map some).foldlM (parseListLine dateOf) result =
        .ok { result with entries := result.entries ++ entries } ∧
      entries.map some = messages.map (fromProtocolEntry dateOf) := by
  intro messages
  induction messages with
  | nil =>
    intro result _
    exact ⟨[], by rw [List.append_nil]; rfl, rfl⟩
  | cons message messages ih =>
    intro result h
    obtain ⟨name, token, fields, rfl⟩ := h message List.mem_cons_self
    obtain ⟨entry, hentry⟩ : ∃ entry,
        fromProtocolEntry dateOf (.entry (encodeBase64 name) token fields) = some entry := by
      rw [fromProtocolEntry, decodeBase64_encode]
      exact ⟨_, rfl⟩
    obtain ⟨entries, hparse, hentries⟩ :=
      ih { result with entries := result.entries ++ [entry] }
        fun other hother => h other (List.mem_cons_of_mem _ hother)
    refine ⟨entry :: entries, ?_, by rw [List.map_cons, List.map_cons, hentry, hentries]⟩
    rw [List.map_cons, List.foldlM_cons, parseListLine, hentry]
    show (messages.map some).foldlM (parseListLine dateOf) _ = _
    rw [hparse, List.append_assoc]
    rfl

/-- A listing that is not taken for complete before its end, and then is complete. -/
structure WholeListing (emitted lines : List HelperMessage) : Prop where
  ended : ∀ result, parseListOutput dateOf (lines.map some) = .ok result →
    (∃ truncated nextCursor, .finish truncated nextCursor ∈ lines) ∧
      result.entries.map some = (emitted.filter isEntryMessage).map (fromProtocolEntry dateOf)
  cut : lines ≠ emitted → ∃ error, parseListOutput dateOf (lines.map some) = .error error

theorem filter_entries {messages : List HelperMessage} (h : ∀ message ∈ messages, IsEntry message) :
    messages.filter isEntryMessage = messages := by
  refine List.filter_eq_self.mpr fun message hmem => ?_
  obtain ⟨name, token, fields, rfl⟩ := h message hmem
  rfl

/-- **A listing is whole** exactly if no line of it is missing: a front of it is taken for a
complete listing, wherever it ends. -/
theorem listing_whole_iff {t : FileTree} {flags : Flags} {emitted lines : List HelperMessage}
    (h : list t flags = some emitted) (hlines : lines <+: emitted) :
    WholeListing dateOf emitted lines ↔ lines = emitted := by
  obtain ⟨messages, last, rfl, hentries, hlast⟩ := list_emits h
  constructor
  · intro hwhole
    by_contra hcut
    -- a front without the last line has entries only, and is read without an error
    obtain ⟨error, herror⟩ := hwhole.cut hcut
    have hfront : lines <+: messages := (List.prefix_concat_iff.mp hlines).resolve_left hcut
    obtain ⟨entries, hparse, -⟩ := parse_entries dateOf ⟨[], false, none⟩ fun message hmem =>
      hentries message (hfront.subset hmem)
    rw [parseListOutput, hparse] at herror
    cases herror
  · rintro rfl
    refine ⟨fun result hresult => ?_, fun hne => absurd rfl hne⟩
    obtain ⟨entries, hparse, hmap⟩ := parse_entries dateOf ⟨[], false, none⟩ hentries
    rw [parseListOutput, List.map_append, List.foldlM_append, hparse] at hresult
    rcases hlast with ⟨truncated, nextCursor, rfl⟩ | ⟨code, rfl⟩
    · cases hresult
      refine ⟨⟨truncated, nextCursor, by simp⟩, ?_⟩
      rw [List.filter_append, filter_entries hentries]
      simpa [isEntryMessage] using hmap
    · cases hresult

end Listing

def volumeLines : List HelperMessage :=
  [.entry (encodeBase64 (ascii "app.log")) (ascii "v1:YXBwLmxvZw==") logFields, .finish false none]

theorem volume_listing_whole : WholeListing some volumeLines volumeLines := by
  have hlist : list volumeTree volumeFlags = some volumeLines := by decide +kernel
  exact (listing_whole_iff some hlist List.prefix_rfl).mpr rfl

/-- **A listing that was cut off is taken for complete**: without any line, the listing of the
volume is that of an empty directory. -/
theorem cut_listing_taken :
    list volumeTree volumeFlags = some volumeLines ∧ ([] : List HelperMessage) <+: volumeLines ∧
    parseListOutput some (([] : List HelperMessage).map some) =
      .ok (⟨[], false, none⟩ : ListDirectoryResult Int) ∧
    ¬ WholeListing some volumeLines [] := by
  refine ⟨by decide +kernel, List.nil_prefix, rfl, fun hwhole => ?_⟩
  obtain ⟨error, herror⟩ := hwhole.cut (by simp [volumeLines])
  cases herror

/-! ## The lines of a read -/

def lineChunk : HelperLine → Option PreviewChunk
  | some (.previewChunk dataB64 offset eof truncated) => some ⟨dataB64, offset, eof, truncated⟩
  | _ => none

/-- What the client has of the lines that were sent before the end: these lines, and perhaps
one that is torn. -/
def received (lines : List HelperMessage) (torn : Bool) : List HelperLine :=
  lines.map some ++ if torn then [none] else []

def partChunks (truncated : Bool) : Nat → List Bytes → List PreviewChunk
  | _, [] => []
  | position, part :: parts =>
    ⟨encodeBase64 part, position, false, truncated⟩ ::
      partChunks truncated (position + part.length) parts

theorem parse_chunks : ∀ {lines : List HelperLine} (result : PreviewResult),
    (∀ code, some (.error code) ∉ lines) → ∃ totalLength truncated,
      lines.foldlM parsePreviewLine result =
        .ok ⟨result.chunks ++ lines.filterMap lineChunk, totalLength, truncated⟩ := by
  intro lines
  induction lines with
  | nil =>
    intro result _
    exact ⟨result.totalLength, result.truncated, by rw [List.filterMap_nil, List.append_nil]; rfl⟩
  | cons line lines ih =>
    intro result h
    obtain ⟨next, hnext, hchunks⟩ : ∃ next, parsePreviewLine result line = .ok next ∧
        next.chunks = result.chunks ++ (lineChunk line).toList := by
      cases line with
      | none => exact ⟨result, rfl, (List.append_nil _).symm⟩
      | some message =>
        cases message with
        | previewChunk dataB64 offset eof truncated => exact ⟨_, rfl, rfl⟩
        | error code => exact absurd List.mem_cons_self (h code)
        | entry | stat | finish => exact ⟨result, rfl, (List.append_nil _).symm⟩
    obtain ⟨totalLength, truncated, hrest⟩ :=
      ih next fun code hmem => h code (List.mem_cons_of_mem _ hmem)
    refine ⟨totalLength, truncated, ?_⟩
    rw [List.foldlM_cons, hnext]
    show lines.foldlM parsePreviewLine next = _
    rw [hrest, hchunks, List.append_assoc]
    cases hchunk : lineChunk line with
    | none => rw [List.filterMap_cons_none hchunk]; rfl
    | some chunk => rw [List.filterMap_cons_some hchunk]; rfl

theorem filterMap_received (lines : List HelperMessage) (torn : Bool) :
    (received lines torn).filterMap lineChunk = (lines.map some).filterMap lineChunk := by
  unfold received
  rw [List.filterMap_append]
  cases torn with
  | false | true => exact List.append_nil _

theorem filterMap_chunksFrom (truncated : Bool) : ∀ (parts : List Bytes) (position : Nat),
    ((chunksFrom truncated position parts).map some).filterMap lineChunk =
      partChunks truncated position parts := by
  intro parts
  induction parts with
  | nil => exact fun _ => rfl
  | cons part parts ih =>
    intro position
    have hchunk : lineChunk (some (.previewChunk (encodeBase64 part) position false truncated)) =
        some ⟨encodeBase64 part, position, false, truncated⟩ := rfl
    rw [chunksFrom, List.map_cons, partChunks, List.filterMap_cons_some hchunk, ih]

theorem mem_chunksFrom : ∀ {parts : List Bytes}
    {position : Nat}, message ∈ chunksFrom truncated position parts →
    ∃ data offset, message = .previewChunk data offset false truncated := by
  intro parts
  induction parts with
  | nil => exact fun h => nomatch h
  | cons part parts ih =>
    intro position h
    rcases List.mem_cons.mp h with rfl | h
    · exact ⟨_, _, rfl⟩
    · exact ih h

theorem mem_received {lines : List HelperMessage} {torn : Bool} :
    some message ∈ received lines torn ↔ message ∈ lines := by
  unfold received
  cases torn with
  | false => simp
  | true => simp

/-- **Chunks in a row** are put together. -/
theorem assembleChunks_parts {size : Nat} (rest : List PreviewChunk) :
    ∀ {parts : List Bytes} {position : Nat} {bytes : Bytes},
    bytes.length + parts.flatten.length ≤ size → position + parts.flatten.length ≤ u64Max →
    assembleChunks size (partChunks truncated position parts ++ rest) position bytes =
      assembleChunks size rest (position + parts.flatten.length) (bytes ++ parts.flatten) := by
  intro parts
  induction parts with
  | nil =>
    intro position bytes _ _
    rw [partChunks, List.flatten_nil, List.append_nil]
    rfl
  | cons part parts ih =>
    intro position bytes hfits hend
    rw [List.flatten_cons, List.length_append] at hfits hend
    have hlength : ¬ saturatingAdd bytes.length part.length > size := by
      unfold saturatingAdd
      omega
    have hposition : saturatingAdd position part.length = position + part.length := by
      unfold saturatingAdd
      omega
    rw [partChunks, List.cons_append, assembleChunks, if_neg (not_not.mpr rfl)]
    simp only [decodeBase64_encode]
    rw [if_neg hlength, hposition,
      ih (by rw [List.length_append]; omega) (by omega), List.flatten_cons, List.append_assoc,
      List.length_append, Nat.add_assoc]

theorem helperReadAt_ok {offset size : Nat} (hsize : size ≤ maxRemoteReadBytes)
    {lines : List HelperLine} (hclean : ∀ code, some (.error code) ∉ lines) {bytes : Bytes}
    (h : assembleChunks size (lines.filterMap lineChunk) offset [] = .ok bytes) :
    helperReadAt offset size lines = .ok bytes := by
  obtain ⟨totalLength, truncated, hparse⟩ := parse_chunks ⟨[], 0, false⟩ hclean
  rw [List.nil_append] at hparse
  unfold helperReadAt parsePreviewOutput
  rw [if_neg (Nat.not_lt.mpr hsize), hparse]
  dsimp only
  rw [h]
  rfl

section Read

variable {content : Bytes} {offset size : Nat} (hlen : content.length ≤ u64Max)
  (hoffset : offset ≤ u64Max) (hsize : size ≤ maxRemoteReadBytes)

include hlen hoffset

theorem range_bounds {front : Bytes} (h : front <+: (content.drop offset).take size) :
    front.length ≤ size ∧ offset + front.length ≤ u64Max := by
  have hle := h.length_le
  rw [List.length_take, List.length_drop] at hle
  omega

include hsize

variable {parts : List Bytes} {torn truncated : Bool}

/-- **A read of lines without an end**: what is there is put together and returned. -/
theorem helperReadAt_front (h : parts.flatten <+: (content.drop offset).take size) :
    helperReadAt offset size (received (chunksFrom truncated offset parts) torn) =
      .ok parts.flatten := by
  obtain ⟨hfits, hend⟩ := range_bounds hlen hoffset h
  have hclean : ∀ code, some (.error code) ∉ received (chunksFrom truncated offset parts) torn := by
    intro code hmem
    obtain ⟨_, _, hmessage⟩ := mem_chunksFrom (mem_received.mp hmem)
    cases hmessage
  refine helperReadAt_ok hsize hclean ?_
  rw [filterMap_received, filterMap_chunksFrom,
    ← List.append_nil (partChunks truncated offset parts),
    assembleChunks_parts [] (by simpa using hfits) hend]
  rfl

theorem helperReadAt_whole {last : Bytes}
    (h : parts.flatten ++ last = (content.drop offset).take size) :
    helperReadAt offset size (received (chunksFrom truncated offset parts ++
      [.previewChunk (encodeBase64 last) (offset + parts.flatten.length) true truncated]) torn) =
      .ok (parts.flatten ++ last) := by
  have hprefix : parts.flatten ++ last <+: (content.drop offset).take size := by rw [h]
  obtain ⟨hfits, hend⟩ := range_bounds hlen hoffset hprefix
  rw [List.length_append] at hfits hend
  have hclean : ∀ code, some (.error code) ∉ received (chunksFrom truncated offset parts ++
      [.previewChunk (encodeBase64 last) (offset + parts.flatten.length) true truncated]) torn := by
    intro code hmem
    rcases List.mem_append.mp (mem_received.mp hmem) with hmem | hmem
    · obtain ⟨_, _, hmessage⟩ := mem_chunksFrom hmem
      cases hmessage
    · cases List.mem_singleton.mp hmem
  have hlength : ¬ saturatingAdd parts.flatten.length last.length > size := by
    unfold saturatingAdd
    omega
  refine helperReadAt_ok hsize hclean ?_
  rw [filterMap_received, List.map_append, List.filterMap_append, filterMap_chunksFrom]
  show assembleChunks size (partChunks truncated offset parts ++
    [⟨encodeBase64 last, offset + parts.flatten.length, true, truncated⟩]) offset [] = _
  rw [assembleChunks_parts _ (by rw [List.length_nil]; omega) (by omega), List.nil_append,
    assembleChunks, if_neg (not_not.mpr rfl)]
  simp only [decodeBase64_encode]
  rw [if_neg hlength]
  rfl

end Read

theorem helperReadAt_failed (offset size : Nat) (truncated torn : Bool) (parts : List Bytes)
    (code : HelperErrorCode) : ∃ error, helperReadAt offset size
      (received (chunksFrom truncated offset parts ++ [.error code]) torn) = .error error := by
  have hclean : ∀ code, some (.error code) ∉ (chunksFrom truncated offset parts).map some := by
    intro code hmem
    obtain ⟨message, hmem, heq⟩ := List.mem_map.mp hmem
    obtain ⟨_, _, rfl⟩ := mem_chunksFrom hmem
    cases heq
  obtain ⟨totalLength, flag, hparse⟩ := parse_chunks ⟨[], 0, false⟩ hclean
  have herror : parsePreviewOutput
      (received (chunksFrom truncated offset parts ++ [.error code]) torn) =
        .error (mapHelperError code) := by
    unfold parsePreviewOutput received
    rw [List.map_append, List.append_assoc, List.foldlM_append, hparse]
    rfl
  unfold helperReadAt
  split
  · exact ⟨_, rfl⟩
  · rw [herror]
    exact ⟨_, rfl⟩

/-- A read that returns the range of the file or fails, and fails without the chunk that is
marked `eof`. -/
structure NoTornRead (content : Bytes) (offset size : Nat) (lines : List HelperLine) : Prop where
  exact : ∀ bytes, helperReadAt offset size lines = .ok bytes →
    bytes = contentRange content offset size
  complete : (∀ dataB64 position truncated,
      some (.previewChunk dataB64 position true truncated) ∉ lines) →
    ∃ error, helperReadAt offset size lines = .error error

/-- **A read is whole** exactly if no line of the output is missing: the front of an output is
taken for the whole range, wherever it ends, and whether the next line is torn or not. -/
theorem read_whole_iff {content : Bytes} {offset size : Nat} (hlen : content.length ≤ u64Max)
    (hoffset : offset ≤ u64Max) (hsize : size ≤ maxRemoteReadBytes) (answers : FileAnswers)
    {lines : List HelperMessage}
    (hlines : lines <+: commandLines (previewFile content answers offset size)) (torn : Bool) :
    NoTornRead content offset size (received lines torn) ↔
      lines = commandLines (previewFile content answers offset size) := by
  have hsent := previewFile_sent answers offset size hlen
  generalize decide (min (offset + size) content.length < content.length) = truncated at hsent
  generalize previewFile content answers offset size = out at hsent hlines
  -- a front without the last line is read without an error, and no chunk of it is marked
  have hfront : ∀ {parts : List Bytes}, parts.flatten <+: (content.drop offset).take size →
      lines <+: chunksFrom truncated offset parts →
      ¬ NoTornRead content offset size (received lines torn) := by
    intro parts hparts hprefix hwhole
    obtain ⟨front, ⟨back, rfl⟩, rfl⟩ := prefix_chunksFrom hprefix
    rw [List.flatten_append] at hparts
    obtain ⟨error, herror⟩ := hwhole.complete fun data position flag hmem => by
      obtain ⟨_, _, hmessage⟩ := mem_chunksFrom (mem_received.mp hmem)
      cases hmessage
    rw [helperReadAt_front hlen hoffset hsize ((List.prefix_append _ _).trans hparts)] at herror
    cases herror
  cases hsent with
  | whole parts last h =>
    have hparts : parts.flatten <+: (content.drop offset).take size := ⟨last, h⟩
    constructor
    · intro hwhole
      by_contra hcut
      exact hfront hparts ((List.prefix_concat_iff.mp hlines).resolve_left hcut) hwhole
    · rintro rfl
      refine ⟨fun bytes hbytes => ?_, fun hnone => ?_⟩
      · change helperReadAt offset size (received (_ ++ [_]) torn) = _ at hbytes
        rw [helperReadAt_whole hlen hoffset hsize h] at hbytes
        cases hbytes
        rw [h, contentRange_eq]
      · refine absurd (mem_received.mpr ?_)
          (hnone (encodeBase64 last) (offset + parts.flatten.length) truncated)
        exact List.mem_append_right _ (List.mem_singleton.mpr rfl)
  | failed parts code h =>
    constructor
    · intro hwhole
      by_contra hcut
      exact hfront h ((List.prefix_concat_iff.mp hlines).resolve_left hcut) hwhole
    · rintro rfl
      obtain ⟨error, herror⟩ := helperReadAt_failed offset size truncated torn parts code
      change helperReadAt offset size
        (received (commandLines (chunksFrom truncated offset parts, some code)) torn) = _ at herror
      refine ⟨fun bytes hbytes => ?_, fun _ => ⟨error, herror⟩⟩
      rw [herror] at hbytes
      cases hbytes

def singleAnswers : FileAnswers := ⟨.single, none, fun _ => none⟩

def hiChunks : List HelperMessage :=
  [.previewChunk (encodeBase64 [104]) 0 false false,
    .previewChunk (encodeBase64 [105]) 1 true false]

theorem hi_sent : commandLines (previewFile [104, 105] singleAnswers 0 2) = hiChunks := by
  have hend : previewLoop [104, 105] singleAnswers false 2 0 = ([], none) := by
    rw [previewLoop, if_pos rfl]
  have hsecond : previewLoop [104, 105] singleAnswers false 1 1 =
      ([.previewChunk (encodeBase64 [105]) 1 true false], none) := by
    rw [previewLoop, if_neg (by decide)]
    show (HelperMessage.previewChunk _ _ _ _ :: (previewLoop _ _ _ 2 0).1,
      (previewLoop _ _ _ 2 0).2) = _
    rw [hend]
    rfl
  have hfirst : previewLoop [104, 105] singleAnswers false 0 2 = (hiChunks, none) := by
    rw [previewLoop, if_neg (by decide)]
    show (HelperMessage.previewChunk _ _ _ _ :: (previewLoop _ _ _ 1 1).1,
      (previewLoop _ _ _ 1 1).2) = _
    rw [hsecond]
    rfl
  show commandLines (previewLoop [104, 105] singleAnswers false 0 2) = hiChunks
  rw [hfirst]
  rfl

/-- Both chunks of a file of two bytes are the file. -/
theorem hi_read_whole : NoTornRead [104, 105] 0 2 (received hiChunks false) := by
  have hprefix : hiChunks <+: commandLines (previewFile [104, 105] singleAnswers 0 2) := by
    rw [hi_sent]
  exact (read_whole_iff (by decide) (by decide) (by decide) singleAnswers hprefix false).mpr
    hi_sent.symm

/-- **A torn read**: the first chunk of two is returned as the whole range. -/
theorem torn_read_returned :
    hiChunks.take 1 <+: commandLines (previewFile [104, 105] singleAnswers 0 2) ∧
    helperReadAt 0 2 (received (hiChunks.take 1) false) = .ok [104] ∧
    contentRange [104, 105] 0 2 = [104, 105] ∧
    ¬ NoTornRead [104, 105] 0 2 (received (hiChunks.take 1) false) := by
  have hread : helperReadAt 0 2 (received (hiChunks.take 1) false) = .ok [104] := by rfl
  refine ⟨?_, hread, by decide, fun hwhole => ?_⟩
  · rw [hi_sent]
    exact List.take_prefix 1 hiChunks
  · have hsame : [104] = contentRange [104, 105] 0 2 := hwhole.exact [104] hread
    exact absurd hsame (by decide)

end TuxStack.Docker
