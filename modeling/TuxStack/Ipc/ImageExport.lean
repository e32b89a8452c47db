import TuxStack.Ipc.Protocol
import TuxStack.Lib.HostFiles
import TuxStack.Lib.PathComponents
import TuxStack.Lib.Utf8

/-!
# Exporting an image

`export_image_locally` and the task of its request in `serve_client`
(`crates/tuxstack-daemon/src/ipc.rs`): the chunks of a stream go to a temporary file beside
the destination, and the finished file is renamed.

The request can be cancelled at any await. The export notices it where it waits for a chunk,
or the task drops it where it stands. A file operation that nobody waits for any more may
still be executed. `ImageExport` says how every await of a run goes.

The export removes its temporary file after an error, but not when it is dropped
(`dropped_export_leaves_file`); `noDebris_iff` says when nothing is left.
-/

namespace TuxStack.Ipc

open Effect
open Files (Name isAbsolute fileName)
open HostFiles (Place IoError Node Files)
open HostFiles.Files (attempt tryIo)
open Utf8

/-- How the future of an export ends when it does not succeed. -/
inductive ExportStop where
  | dropped
  | failed (error : ProtocolError)
deriving DecidableEq, Repr

/-- How an await of a file operation goes. -/
inductive FileAwait where
  | done (fault : Option IoError)
  /-- The export is dropped here, and the operation is executed or not. -/
  | dropped (executed : Bool)
deriving DecidableEq, Repr

def FileAwait.executed : FileAwait → Bool
  | done fault => fault.isNone
  | dropped executed => executed

/-- A write that does not end well leaves what it has `kept` of the chunk. -/
inductive ChunkWrite where
  | written
  | failed (error : IoError) (kept : Nat)
  | dropped (kept : Nat)
deriving DecidableEq, Repr

/-- What an export gets where it waits for the stream. -/
inductive ExportItem where
  | chunk (bytes : List UInt8) (write : ChunkWrite)
  /-- An error of the stream, as `docker_protocol_error` gives it. -/
  | failed (error : ProtocolError)
  | cancelled
  | dropped
deriving DecidableEq, Repr

structure ImageExport where
  /-- The request is not dropped before the export begins. -/
  begins : Bool
  /-- Where the parent of the destination leads. -/
  parent : Place
  processId : Nat
  counter : Nat
  opened : FileAwait
  items : List ExportItem
  flushed : FileAwait
  synced : FileAwait
  renamed : FileAwait
  removed : FileAwait

inductive ExportResponse where
  | completed (destination : List UInt8) (bytesWritten : Nat)
  | error (error : ProtocolError)
deriving DecidableEq, Repr

def exportIoError (error : IoError) : ProtocolError where
  code := if error = .permissionDenied then .permissionDenied else .internal
  message := "image export destination failed: " ++ error.display
  retryable := false

/-- `u64::saturating_add` -/
def saturatingAdd (n m : Nat) : Nat := min (n + m) (2 ^ 64 - 1)

/-- The checks of `export_image_locally` before it opens a file. -/
def checkDestination (destination : List UInt8) : Except ProtocolError Name := do
  if !isAbsolute destination || (fileName destination).isNone then
    throw ⟨.invalidRequest, "image export destination must be an absolute file path", false⟩
  if (Files.parent destination).isNone then
    throw ⟨.invalidRequest, "image export destination has no parent directory", false⟩
  let some name := (fileName destination).filter fun name => (fromUtf8 name).isOk
    | throw ⟨.invalidRequest, "image export destination is not valid UTF-8", false⟩
  pure name

/-! ## The run -/

def awaitFiles (await : FileAwait) (operation : Files → Except IoError Files) :
    Effects ExportStop Files Unit :=
  match await with
  | .done fault => tryIo (fun error => .failed (exportIoError error)) fault operation
  | .dropped executed => do
      if executed then modify fun files => files.ignore (operation files)
      throw .dropped

def writeChunk (temporary : Place) (content bytes : List UInt8) :
    ChunkWrite → Effects ExportStop Files Unit
  | .written => awaitFiles (.done none) (·.writeFile (content ++ bytes) temporary)
  | .failed error kept => do
      modify fun files => files.ignore (files.writeFile (content ++ bytes.take kept) temporary)
      throw (.failed (exportIoError error))
  | .dropped kept => do
      modify fun files => files.ignore (files.writeFile (content ++ bytes.take kept) temporary)
      throw .dropped

def receiveChunks (temporary : Place) :
    List ExportItem → List UInt8 → Nat → Effects ExportStop Files Nat
  | [], _, written => pure written
  | .chunk bytes write :: items, content, written => do
      writeChunk temporary content bytes write
      receiveChunks temporary items (content ++ bytes) (saturatingAdd written bytes.length)
  | .failed error :: _, _, _ => throw (.failed error)
  | .cancelled :: _, _, _ => throw (.failed ⟨.cancelled, "image export cancelled", true⟩)
  | .dropped :: _, _, _ => throw .dropped

namespace ImageExport

variable (run : ImageExport)

def temporaryName (name : Name) : Name :=
  encodeText ".".toList ++ name ++ encodeText (".tuxstack-" ++ toString run.processId ++ "-" ++
    toString run.counter ++ ".part").toList

def temporary (name : Name) : Place := run.temporaryName name :: run.parent

def destination (name : Name) : Place := name :: run.parent

/-- The awaited block of `export_image_locally`. -/
def transfer (name : Name) : Effects ExportStop Files Nat := do
  awaitFiles run.opened (·.createNew (run.temporary name))
  let written ← receiveChunks (run.temporary name) run.items [] 0
  awaitFiles run.flushed .ok
  awaitFiles run.synced .ok
  awaitFiles run.renamed (·.rename (run.temporary name) (run.destination name))
  pure written

/-- The removal after an error. A future that is dropped does not get here. -/
def cleanUp (name : Name) : ExportStop → Effects ExportStop Files Nat
  | .dropped => throw .dropped
  | .failed error => do
      match run.removed with
      | .done fault =>
        modify fun files => files.ignore (attempt fault (files.removeFile (run.temporary name)))
      | .dropped executed =>
        awaitFiles (.dropped executed) (·.removeFile (run.temporary name))
      throw (.failed error)

def exportImageLocally (destination : List UInt8) : Effects ExportStop Files Nat := do
  let name ← MonadExcept.ofExcept ((checkDestination destination).mapError .failed)
  tryCatch (run.transfer name) (run.cleanUp name)

/-- The task of the request: the response that it sends. -/
def serve (destination : List UInt8) (files : Files) : ExportResponse × Files :=
  let cancelled : ExportResponse := .error ⟨.cancelled, "request cancelled", true⟩
  if run.begins then
    match exec (run.exportImageLocally destination) files with
    | (.ok written, after) => (.completed destination written, after)
    | (.error (.failed error), after) => (.error error, after)
    | (.error .dropped, after) => (cancelled, after)
  else (cancelled, files)

/-! ## No debris -/

def chunks (items : List ExportItem) : List UInt8 := items.flatMap fun
  | .chunk bytes _ => bytes
  | _ => []

def content : List UInt8 := chunks run.items

/-- With a success the destination holds the chunks, with an error what it held before, and
a temporary file of the request is gone. -/
def NoDebris (destination : List UInt8) (files : Files) : Prop :=
  let (response, after) := run.serve destination files
  match checkDestination destination with
  | .error _ => after = files
  | .ok name =>
    after.at_ (run.destination name) =
      (match response with
        | .completed _ _ => some (.file run.content)
        | .error _ => files.at_ (run.destination name)) ∧
    (after.at_ (run.temporary name) = none ∨
      after.at_ (run.temporary name) = files.at_ (run.temporary name))

/-- The request creates its temporary file. -/
structure Creates (name : Name) (files : Files) : Prop where
  begins : run.begins = true
  executed : run.opened.executed = true
  vacant : files.at_ (run.temporary name) = none
  inside : files.at_ run.parent = some .directory

end ImageExport

def FileAwait.halt : FileAwait → Option ExportStop
  | done none => none
  | done (some error) => some (.failed (exportIoError error))
  | dropped _ => some .dropped

def ExportItem.halt : ExportItem → Option ExportStop
  | chunk _ .written => none
  | chunk _ (.failed error _) => some (.failed (exportIoError error))
  | chunk _ (.dropped _) => some .dropped
  | failed error => some (.failed error)
  | cancelled => some (.failed ⟨.cancelled, "image export cancelled", true⟩)
  | dropped => some .dropped

namespace ImageExport

variable (run : ImageExport)

/-- How the run ends between the creation of the temporary file and the rename. -/
def halt : Option ExportStop :=
  run.items.findSome? ExportItem.halt <|> run.flushed.halt <|> run.synced.halt

/-- What has to go well from the rename on. -/
def RenamesWell (name : Name) (files : Files) : Prop :=
  match run.renamed with
  | .done none =>
    files.at_ (run.destination name) = some .directory → run.removed.executed = true
  | .done (some _) => run.removed.executed = true
  | .dropped executed =>
    executed = true ∧ files.at_ (run.destination name) = some (.file run.content)

/-- What has to go well once the temporary file is there. -/
def CleansUp (name : Name) (files : Files) : Prop :=
  run.opened = .done none ∧
  match run.halt with
  | some .dropped => False
  | some (.failed _) => run.removed.executed = true
  | none => run.RenamesWell name files

/-! ## The temporary file -/

section Temporary

variable {run} {name : Name} {files made after : Files} {content : List UInt8}
  {stop : ExportStop}

theorem temporary_ne_destination : run.temporary name ≠ run.destination name := by
  intro h
  have hlength := congrArg List.length (List.cons.inj h).1
  simp only [temporaryName, List.length_append] at hlength
  have hdot : (encodeText ".".toList).length = 1 := rfl
  omega

def WithPart (run : ImageExport) (name : Name) (files : Files) (content : List UInt8)
    (made : Files) : Prop :=
  ∀ other, made.at_ other =
    if other = run.temporary name then some (.file content) else files.at_ other

theorem WithPart.temporary (h : run.WithPart name files content made) :
    made.at_ (run.temporary name) = some (.file content) := by
  rw [h, if_pos rfl]

theorem WithPart.destination (h : run.WithPart name files content made) :
    made.at_ (run.destination name) = files.at_ (run.destination name) := by
  rw [h, if_neg temporary_ne_destination.symm]

theorem WithPart.parent (h : run.WithPart name files content made) :
    made.at_ run.parent = some .directory := by
  refine Files.parent_of_at (run.temporaryName name) ?_
  rw [show made.at_ (run.temporaryName name :: run.parent) = _ from h.temporary]
  exact nofun

theorem WithPart.write (h : run.WithPart name files content made) (bytes : List UInt8) :
    ∃ after, made.writeFile bytes (run.temporary name) = .ok after ∧
      run.WithPart name files bytes after := by
  have hfree : made.at_ (run.temporary name) ≠ some .directory := by
    rw [h.temporary]
    exact nofun
  obtain ⟨after, hafter, hat⟩ := Files.exists_writeFile h.parent hfree bytes
  refine ⟨after, hafter, fun other => (hat other).trans ?_⟩
  change (if other = run.temporary name then _ else _) = _
  split
  · rfl
  · next hother => rw [h other, if_neg hother]

theorem Creates.part (h : run.Creates name files) :
    ∃ made, files.createNew (run.temporary name) = .ok made ∧ run.WithPart name files [] made := by
  have hfree : files.at_ (run.temporary name) ≠ some .directory := by
    rw [h.vacant]
    exact (Option.some_ne_none _).symm
  obtain ⟨made, hmade, hat⟩ := Files.exists_writeFile h.inside hfree []
  refine ⟨made, ?_, hat⟩
  unfold Files.createNew
  rw [if_pos h.vacant]
  exact hmade

theorem createNew_fails (h : ¬ (files.at_ (run.temporary name) = none ∧
    files.at_ run.parent = some .directory)) :
    ∃ error, files.createNew (run.temporary name) = .error error := by
  unfold Files.createNew
  by_cases hvacant : files.at_ (run.temporary name) = none
  · rw [if_pos hvacant]
    cases hwrite : files.writeFile [] (run.temporary name) with
    | error error => exact ⟨error, rfl⟩
    | ok after =>
      have hat := (Files.writeFile_eq_ok hwrite).2
      have hthere : after.at_ (run.temporary name) = some (.file []) := by
        rw [hat, if_pos rfl]
      have hparent : after.at_ run.parent = some .directory :=
        Files.parent_of_at (run.temporaryName name) (Option.ne_none_iff_exists'.mpr
          ⟨_, hthere⟩)
      have hne : run.parent ≠ run.temporary name := (List.cons_ne_self _ _).symm
      rw [hat, if_neg hne] at hparent
      exact absurd ⟨hvacant, hparent⟩ h
  · rw [if_neg hvacant]
    exact ⟨_, rfl⟩

/-! ## The stream -/

theorem saturatingAdd_add (written n m : Nat) :
    saturatingAdd (saturatingAdd written n) m = saturatingAdd written (n + m) := by
  unfold saturatingAdd
  omega

/-- **The loop over the stream** writes all chunks, or stops with a part of them. -/
theorem exec_receiveChunks : ∀ (items : List ExportItem) (content : List UInt8) (written : Nat)
    (made : Files), run.WithPart name files content made → written ≤ 2 ^ 64 - 1 →
    ∃ part after, exec (receiveChunks (run.temporary name) items content written) made =
        (match items.findSome? ExportItem.halt with
          | none => .ok (saturatingAdd written (chunks items).length)
          | some stop => .error stop, after) ∧
      run.WithPart name files part after ∧
      (items.findSome? ExportItem.halt = none → part = content ++ chunks items)
  | [], content, written, made, h, hwritten => by
      refine ⟨content, made, ?_, h, fun _ => (List.append_nil content).symm⟩
      have hsum : saturatingAdd written 0 = written := Nat.min_eq_left hwritten
      exact congrArg (fun n => (Except.ok n, made)) hsum.symm
  | .chunk bytes write :: items, content, written, made, h, hwritten => by
      cases write with
      | written =>
        obtain ⟨next, hnext, hpart⟩ := h.write (content ++ bytes)
        obtain ⟨part, after, hexec, hafter, hcontent⟩ := exec_receiveChunks items
          (content ++ bytes) (saturatingAdd written bytes.length) next hpart
          (Nat.min_le_right _ _)
        have hwrite : exec (writeChunk (run.temporary name) content bytes .written) made =
            (.ok (), next) := by
          refine (Files.exec_tryIo ..).trans ?_
          rw [Files.attempt_none, hnext]
        refine ⟨part, after, ?_, hafter, fun hall => ?_⟩
        · refine (exec_bind_ok hwrite).trans (hexec.trans ?_)
          rw [saturatingAdd_add, ← List.length_append]
          rfl
        · rw [hcontent hall, List.append_assoc]
          rfl
      | failed error kept | dropped kept =>
        obtain ⟨next, hnext, hpart⟩ := h.write (content ++ bytes.take kept)
        refine ⟨_, next, ?_, hpart, nofun⟩
        refine exec_bind_error (?_ : exec (writeChunk _ _ _ _) made = (_, next))
        refine (exec_bind_ok (exec_modify _ made)).trans ?_
        rw [hnext]
        rfl
  | .failed error :: items, content, written, made, h, hwritten
  | .cancelled :: items, content, written, made, h, hwritten
  | .dropped :: items, content, written, made, h, hwritten =>
    ⟨content, made, rfl, h, nofun⟩

/-! ## From the creation to the rename -/

theorem exec_awaitFiles_ok (await : FileAwait) (files : Files) :
    exec (awaitFiles await .ok) files =
      (match await.halt with
        | none => .ok ()
        | some stop => .error stop, files) := by
  cases await with
  | done fault =>
    cases fault with
    | none => rfl
    | some error => rfl
  | dropped executed =>
    cases executed with
    | true => rfl
    | false => rfl

/-- Everything of `transfer` before the rename. -/
theorem exec_transfer (h : run.Creates name files) (hopened : run.opened = .done none) :
    ∃ part made, run.WithPart name files part made ∧
      match run.halt with
      | some stop => exec (run.transfer name) files = (.error stop, made)
      | none => part = run.content ∧ exec (run.transfer name) files =
          exec (do
            awaitFiles run.renamed (·.rename (run.temporary name) (run.destination name))
            pure (saturatingAdd 0 run.content.length)) made := by
  obtain ⟨created, hcreate, hcreated⟩ := h.part
  have hopen : exec (awaitFiles run.opened (·.createNew (run.temporary name))) files =
      (.ok (), created) := by
    rw [hopened]
    refine (Files.exec_tryIo ..).trans ?_
    rw [Files.attempt_none, hcreate]
  obtain ⟨part, made, hreceive, hpart, hcontent⟩ := exec_receiveChunks run.items [] 0 created
    hcreated (Nat.zero_le _)
  have htransfer : exec (run.transfer name) files = exec (do
      let written ← receiveChunks (run.temporary name) run.items [] 0
      awaitFiles run.flushed .ok
      awaitFiles run.synced .ok
      awaitFiles run.renamed (·.rename (run.temporary name) (run.destination name))
      pure written) created := exec_bind_ok hopen
  refine ⟨part, made, hpart, ?_⟩
  rw [htransfer]
  unfold halt
  cases hitems : run.items.findSome? ExportItem.halt with
  | some stop =>
    rw [hitems] at hreceive
    exact exec_bind_error hreceive
  | none =>
    rw [hitems] at hreceive
    rw [exec_bind_ok hreceive, exec_bind, exec_awaitFiles_ok]
    cases run.flushed.halt with
    | some stop => rfl
    | none =>
      dsimp only
      rw [exec_bind, exec_awaitFiles_ok]
      cases run.synced.halt with
      | some stop => rfl
      | none => exact ⟨(hcontent hitems).trans (List.nil_append _), rfl⟩

def Renamed (run : ImageExport) (name : Name) (files after : Files) : Prop :=
  ∀ other, after.at_ other =
    if other = run.destination name then some (.file run.content)
    else if other = run.temporary name then none else files.at_ other

theorem WithPart.rename (h : run.WithPart name files run.content made)
    (hfree : files.at_ (run.destination name) ≠ some .directory) :
    ∃ after, made.rename (run.temporary name) (run.destination name) = .ok after ∧
      run.Renamed name files after := by
  have hfree' : made.at_ (run.destination name) ≠ some .directory := by
    rw [h.destination]
    exact hfree
  obtain ⟨after, hafter, hat⟩ := Files.exists_rename h.temporary temporary_ne_destination h.parent
    hfree'
  refine ⟨after, hafter, fun other => (hat other).trans ?_⟩
  change (if other = run.destination name then _ else _) = _
  split
  · rfl
  · split
    · rfl
    · next hother => rw [h other, if_neg hother]

/-- A run that creates nothing leaves the files alone until it cleans up. -/
theorem exec_transfer_of_not_creates (hbegins : run.begins = true)
    (h : ¬ run.Creates name files) :
    ∃ stop, exec (run.transfer name) files = (.error stop, files) := by
  suffices ∃ stop, exec (awaitFiles run.opened (·.createNew (run.temporary name))) files =
      (.error stop, files) by
    obtain ⟨stop, hstop⟩ := this
    exact ⟨stop, exec_bind_error hstop⟩
  cases hopened : run.opened with
  | done fault =>
    cases fault with
    | some error => exact ⟨_, rfl⟩
    | none =>
      obtain ⟨error, herror⟩ := createNew_fails fun hroom =>
        h ⟨hbegins, by rw [hopened]; rfl, hroom.1, hroom.2⟩
      refine ⟨.failed (exportIoError error), (Files.exec_tryIo ..).trans ?_⟩
      rw [Files.attempt_none, herror]
  | dropped executed =>
    cases executed with
    | false => exact ⟨_, rfl⟩
    | true =>
      obtain ⟨error, herror⟩ := createNew_fails fun hroom =>
        h ⟨hbegins, by rw [hopened]; rfl, hroom.1, hroom.2⟩
      refine ⟨.dropped, (exec_bind_ok (exec_modify _ files)).trans ?_⟩
      show (_, files.ignore (files.createNew (run.temporary name))) = _
      rw [herror]
      rfl

/-! ## The response -/

theorem exec_cleanUp_failed (run : ImageExport) (name : Name) (error : ProtocolError)
    (made : Files) :
    ∃ stop, exec (run.cleanUp name (.failed error)) made =
      (.error stop, if run.removed.executed = true then
        made.ignore (made.removeFile (run.temporary name)) else made) := by
  unfold cleanUp
  cases run.removed with
  | done fault =>
    cases fault with
    | none | some error => exact ⟨_, rfl⟩
  | dropped executed =>
    cases executed with
    | true | false => exact ⟨_, rfl⟩

variable {destination : List UInt8}

theorem serve_of_error (h : exec (run.exportImageLocally destination) files = (.error stop, after))
    (hbegins : run.begins = true) :
    ∃ error, run.serve destination files = (.error error, after) := by
  unfold serve
  rw [hbegins, h]
  cases stop with
  | dropped | failed error => exact ⟨_, rfl⟩

section

variable (hcheck : checkDestination destination = .ok name)
include hcheck

theorem exec_exportImageLocally (run : ImageExport) (files : Files) :
    exec (run.exportImageLocally destination) files =
      match exec (run.transfer name) files with
      | (.ok written, after) => (.ok written, after)
      | (.error stop, after) => exec (run.cleanUp name stop) after := by
  unfold exportImageLocally
  rw [exec_ofExcept_bind, hcheck]
  show exec (tryCatch (run.transfer name) (run.cleanUp name)) files = _
  rw [exec_tryCatch]
  rcases exec (run.transfer name) files with ⟨_ | _, after⟩
  · rfl
  · rfl

theorem noDebris_of_error {error : ProtocolError}
    (h : run.serve destination files = (.error error, after)) :
    run.NoDebris destination files ↔
      after.at_ (run.destination name) = files.at_ (run.destination name) ∧
      (after.at_ (run.temporary name) = none ∨
        after.at_ (run.temporary name) = files.at_ (run.temporary name)) := by
  unfold NoDebris
  rw [h, hcheck]

/-- A drop leaves the files as they are then. -/
theorem noDebris_of_dropped (hbegins : run.begins = true)
    (h : exec (run.transfer name) files = (.error .dropped, after)) :
    run.NoDebris destination files ↔
      after.at_ (run.destination name) = files.at_ (run.destination name) ∧
      (after.at_ (run.temporary name) = none ∨
        after.at_ (run.temporary name) = files.at_ (run.temporary name)) := by
  have hexec := exec_exportImageLocally hcheck run files
  rw [h] at hexec
  obtain ⟨error, hserve⟩ := serve_of_error hexec hbegins
  exact noDebris_of_error hcheck hserve

theorem WithPart.not_noDebris (h : run.WithPart name files content made)
    (hcreates : run.Creates name files)
    (hexec : exec (run.transfer name) files = (.error .dropped, made)) :
    ¬ run.NoDebris destination files := by
  rw [noDebris_of_dropped hcheck hcreates.begins hexec, h.temporary, hcreates.vacant]
  rintro ⟨-, hgone | hgone⟩
  · cases hgone
  · cases hgone

theorem WithPart.nothing_left_iff (h : run.WithPart name files content made)
    (hcreates : run.Creates name files) {error : ProtocolError}
    (hexec : exec (run.transfer name) files = (.error (.failed error), made)) :
    run.NoDebris destination files ↔ run.removed.executed = true := by
  have hexport := exec_exportImageLocally hcheck run files
  obtain ⟨stop, hclean⟩ := exec_cleanUp_failed run name error made
  rw [hexec] at hexport
  obtain ⟨error, hserve⟩ := serve_of_error (hexport.trans hclean) hcreates.begins
  rw [noDebris_of_error hcheck hserve]
  by_cases hexecuted : run.removed.executed = true
  · obtain ⟨after, hafter, hat⟩ := Files.exists_removeFile h.temporary
    rw [if_pos hexecuted, hafter]
    refine ⟨fun _ => hexecuted, fun _ => ⟨?_, .inl ((hat _).trans (if_pos rfl))⟩⟩
    exact (hat _).trans ((if_neg temporary_ne_destination.symm).trans h.destination)
  · rw [if_neg hexecuted, h.temporary, hcreates.vacant]
    refine ⟨?_, fun hyes => absurd hyes hexecuted⟩
    rintro ⟨-, hgone | hgone⟩
    · cases hgone
    · cases hgone

theorem noDebris_of_not_creates (hbegins : run.begins = true) (h : ¬ run.Creates name files) :
    run.NoDebris destination files := by
  obtain ⟨stop, hexec⟩ := exec_transfer_of_not_creates hbegins h
  cases stop with
  | dropped =>
    rw [noDebris_of_dropped hcheck hbegins hexec]
    exact ⟨rfl, .inr rfl⟩
  | failed error =>
    have hexport := exec_exportImageLocally hcheck run files
    obtain ⟨stop, hclean⟩ := exec_cleanUp_failed run name error files
    rw [hexec] at hexport
    obtain ⟨error, hserve⟩ := serve_of_error (hexport.trans hclean) hbegins
    rw [noDebris_of_error hcheck hserve]
    split
    · refine ⟨Files.at_ignore_attempt none (fun _ => Files.removeFile_eq_ok)
        temporary_ne_destination.symm, ?_⟩
      cases hremove : files.removeFile (run.temporary name) with
      | error error => exact .inr rfl
      | ok after => exact .inl ((Files.removeFile_eq_ok hremove _).trans (if_pos rfl))
    · exact ⟨rfl, .inr rfl⟩

/-- How the rename decides, when everything before it has gone well. -/
theorem WithPart.noDebris_renamed (h : run.WithPart name files run.content made)
    (hcreates : run.Creates name files)
    {written : Nat}
    (hexec : exec (run.transfer name) files = exec (do
      awaitFiles run.renamed (·.rename (run.temporary name) (run.destination name))
      pure written) made) :
    run.NoDebris destination files ↔ run.RenamesWell name files := by
  unfold RenamesWell
  cases hrenamed : run.renamed with
  | done fault =>
    rw [hrenamed] at hexec
    cases fault with
    | some error => exact h.nothing_left_iff hcheck hcreates hexec
    | none =>
      -- the rename fails on a directory alone
      by_cases hdirectory : files.at_ (run.destination name) = some .directory
      · have hfails := Files.rename_to_directory h.temporary (h.destination.trans hdirectory)
        have hstop : exec (run.transfer name) files =
            (.error (.failed (exportIoError .isADirectory)), made) := by
          rw [hexec]
          refine exec_bind_error ((Files.exec_tryIo ..).trans ?_)
          rw [Files.attempt_none, hfails]
        rw [h.nothing_left_iff hcheck hcreates hstop]
        exact ⟨fun hremoved _ => hremoved, fun hremoved => hremoved hdirectory⟩
      · obtain ⟨after, hafter, hat⟩ := h.rename hdirectory
        have hdone : exec (run.transfer name) files = (.ok written, after) := by
          rw [hexec]
          refine (exec_bind_ok (a := ()) ((Files.exec_tryIo ..).trans ?_)).trans (exec_pure ..)
          rw [Files.attempt_none, hafter]
        refine ⟨fun _ hyes => absurd hyes hdirectory, fun _ => ?_⟩
        have hexport := exec_exportImageLocally hcheck run files
        rw [hdone] at hexport
        unfold NoDebris serve
        rw [hcreates.begins, hexport, hcheck]
        refine ⟨(hat _).trans (if_pos rfl), .inl ((hat _).trans ?_)⟩
        rw [if_neg temporary_ne_destination, if_pos rfl]
  | dropped executed =>
    rw [hrenamed] at hexec
    cases executed with
    | false => exact ⟨fun hall => absurd hall (h.not_noDebris hcheck hcreates hexec), nofun⟩
    | true =>
      have hstop : exec (run.transfer name) files = (.error .dropped,
          made.ignore (made.rename (run.temporary name) (run.destination name))) := hexec
      by_cases hdirectory : files.at_ (run.destination name) = some .directory
      · have hfails := Files.rename_to_directory h.temporary (h.destination.trans hdirectory)
        rw [hfails] at hstop
        refine ⟨fun hall => absurd hall (h.not_noDebris hcheck hcreates hstop), ?_⟩
        rintro ⟨-, hfile⟩
        rw [hdirectory] at hfile
        cases hfile
      · obtain ⟨after, hafter, hat⟩ := h.rename hdirectory
        rw [hafter] at hstop
        have harchive : after.at_ (run.destination name) = some (.file run.content) :=
          (hat _).trans (if_pos rfl)
        have hgone : after.at_ (run.temporary name) = none := by
          rw [hat, if_neg temporary_ne_destination, if_pos rfl]
        rw [noDebris_of_dropped hcheck hcreates.begins hstop]
        show after.at_ _ = _ ∧ (after.at_ _ = _ ∨ _) ↔ _
        rw [harchive]
        exact ⟨fun hall => ⟨rfl, hall.1.symm⟩, fun hall => ⟨hall.2.symm, .inl hgone⟩⟩

theorem Creates.nothing_left_iff (h : run.Creates name files) :
    run.NoDebris destination files ↔ run.CleansUp name files := by
  unfold CleansUp
  cases hopened : run.opened with
  | dropped executed =>
    obtain ⟨made, hcreate, hpart⟩ := h.part
    have hexecuted := h.executed
    rw [hopened] at hexecuted
    cases hexecuted
    have hexec : exec (run.transfer name) files = (.error .dropped, made) := by
      refine exec_bind_error (?_ : exec (awaitFiles _ _) files = (_, made))
      rw [hopened]
      refine (exec_bind_ok (exec_modify _ files)).trans ?_
      show (_, files.ignore (files.createNew (run.temporary name))) = _
      rw [hcreate]
      rfl
    exact ⟨fun hall => absurd hall (hpart.not_noDebris hcheck h hexec), nofun⟩
  | done fault =>
    have hexecuted := h.executed
    rw [hopened] at hexecuted
    cases fault with
    | some error => cases hexecuted
    | none =>
      obtain ⟨part, made, hpart, hexec⟩ := exec_transfer h hopened
      rw [and_iff_right rfl]
      cases hhalt : run.halt with
      | some stop =>
        rw [hhalt] at hexec
        cases stop with
        | dropped => exact iff_false_intro (hpart.not_noDebris hcheck h hexec)
        | failed error => exact hpart.nothing_left_iff hcheck h hexec
      | none =>
        rw [hhalt] at hexec
        obtain ⟨rfl, hexec⟩ := hexec
        exact hpart.noDebris_renamed hcheck h hexec

end

/-- **Nothing is left of an export** exactly if it creates no temporary file, or goes on in
one of the ways of `CleansUp`: it is not dropped before the rename, and what it creates gets
its name or is removed. -/
theorem noDebris_iff (run : ImageExport) (destination : List UInt8) (files : Files) :
    run.NoDebris destination files ↔
      ∀ name, checkDestination destination = .ok name → run.Creates name files →
        run.CleansUp name files := by
  cases hcheck : checkDestination destination with
  | error error =>
    refine ⟨fun _ => nofun, fun _ => ?_⟩
    have hexec : exec (run.exportImageLocally destination) files =
        (.error (.failed error), files) := by
      unfold exportImageLocally
      rw [exec_ofExcept_bind, hcheck]
      rfl
    unfold NoDebris serve
    rw [hcheck, hexec]
    cases run.begins with
    | true => rfl
    | false => rfl
  | ok name =>
    suffices run.NoDebris destination files ↔ (run.Creates name files → run.CleansUp name files) by
      rw [this]
      constructor
      · intro hclean other hother
        cases hother
        exact hclean
      · exact fun hall => hall name rfl
    by_cases hcreates : run.Creates name files
    · rw [hcreates.nothing_left_iff hcheck]
      exact ⟨fun hclean _ => hclean, fun hclean => hclean hcreates⟩
    · refine ⟨fun _ hyes => absurd hyes hcreates, fun _ => ?_⟩
      cases hbegins : run.begins with
      | true => exact noDebris_of_not_creates hcheck hbegins hcreates
      | false =>
        have hserve : run.serve destination files =
            (.error ⟨.cancelled, "request cancelled", true⟩, files) := by
          unfold serve
          rw [hbegins]
          rfl
        rw [noDebris_of_error hcheck hserve]
        exact ⟨rfl, .inr rfl⟩

end Temporary

end ImageExport

/-! ## An export that is dropped -/

/-- The request is cancelled while the export waits for the first chunk, and its task takes
the branch of the `select!` that drops the export. -/
def droppedExport : ImageExport where
  begins := true
  parent := [[111]]
  processId := 7
  counter := 1
  opened := .done none
  items := [.dropped]
  flushed := .done none
  synced := .done none
  renamed := .done none
  removed := .done none

/-- `/o/i.tar` -/
def droppedDestination : List UInt8 := Files.absolute [[111], encodeText "i.tar".toList]

/-- The host with the directory `/o`. -/
def droppedHost : Files :=
  Files.root.put [111] [] .directory Files.root_at_root Files.root_at_name

theorem checkDestination_dropped :
    checkDestination droppedDestination = .ok (encodeText "i.tar".toList) := by
  have hname : fileName droppedDestination = some (encodeText "i.tar".toList) := by decide
  have htext : (fromUtf8 (encodeText "i.tar".toList)).isOk = true := by
    rw [fromUtf8_encodeText]
    rfl
  have hfile : (!isAbsolute droppedDestination ||
      (fileName droppedDestination).isNone) = false := by
    decide
  have hparent : (Files.parent droppedDestination).isNone = false := by decide
  unfold checkDestination
  rw [hfile, hparent, hname]
  dsimp only [Option.filter]
  rw [if_pos htext]
  rfl

/-- The response says that the request was cancelled, and the temporary file stays. -/
theorem dropped_export_leaves_file : ¬ droppedExport.NoDebris droppedDestination droppedHost := by
  have hcreates : droppedExport.Creates (encodeText "i.tar".toList) droppedHost :=
    ⟨rfl, rfl, by decide, by decide⟩
  rw [hcreates.nothing_left_iff checkDestination_dropped]
  exact fun hclean => hclean.2

end TuxStack.Ipc
