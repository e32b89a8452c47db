import Mathlib.Data.List.DropRight
import TuxStack.Lib.Result
import TuxStack.Vfs.Provider
import TuxStack.Vfs.Symlink

/-!
# Tar records

The data types and the pure parsers of
`crates/docker-core/src/vfs_providers/tar_index.rs`: limits, paths, entries,
header blocks, PAX records and GNU long values. Numbers are `Nat` with the
checks the Rust code makes on its `u64`, `u32` and `i64`.

A `TarPath` keeps raw byte components, as the source does; `from_tar_bytes` only
lets through components that are file names (`valid_fromTarBytes`).
-/

namespace TuxStack.Tar

open Vfs Result

def tarBlock : Nat := 512

/-! ## Limits -/

structure TarLimits where
  maxArchiveBytes : Nat
  maxEntries : Nat
  maxPathBytes : Nat
  maxExtensionBytes : Nat
  maxEntryBytes : Nat
  archive_u64 : maxArchiveBytes ≤ u64Max
deriving DecidableEq

namespace TarLimits

def standard : TarLimits where
  maxArchiveBytes := 8 * 1024 * 1024 * 1024
  maxEntries := 100000
  maxPathBytes := 16 * 1024
  maxExtensionBytes := 1024 * 1024
  maxEntryBytes := 2 * 1024 * 1024 * 1024
  archive_u64 := by decide

def validate (l : TarLimits) : Except VfsError Unit :=
  if l.maxArchiveBytes < tarBlock * 2 ∨ l.maxEntries = 0 ∨ l.maxPathBytes = 0 ∨
      l.maxExtensionBytes = 0 ∨ l.maxEntryBytes = 0 ∨ l.maxArchiveBytes < l.maxEntryBytes then
    .error (.invalidInput "invalid tar resource limits")
  else .ok ()

theorem validate_standard : standard.validate = .ok () := by decide

end TarLimits

/-! ## Paths -/

@[ext] structure TarPath where
  components : List Bytes
deriving DecidableEq, Repr

namespace TarPath

def root : TarPath := ⟨[]⟩

def isRoot (p : TarPath) : Bool := p.components.isEmpty

def depth (p : TarPath) : Nat := p.components.length

def encodedLen (p : TarPath) : Nat :=
  if p.isRoot then 1 else (p.components.map fun c => c.length + 1).sum

/-- The loop body of `from_tar_bytes` on one piece between slashes. -/
def component (components : List Bytes) (raw : Bytes) : Except VfsError (List Bytes) :=
  if raw = [] ∨ raw = [dot] then .ok components
  else if raw = dotDot then .error .symlinkEscape
  else do
    let name ← VirtualFileName.new raw
    .ok (components ++ [name.bytes])

def fromTarBytes (raw : Bytes) (limits : TarLimits) : Except VfsError TarPath :=
  if raw.length > limits.maxPathBytes then .error .pathTooLong
  else if raw.head? = some slash then .error (.invalidInput "absolute tar entry path")
  else if 0 ∈ raw then .error (.invalidInput "NUL in tar entry path")
  else do
    let components ← (raw.splitOn slash).foldlM component []
    let path : TarPath := ⟨components⟩
    if path.encodedLen > limits.maxPathBytes then .error .pathTooLong else .ok path

def fromVirtual (path : VirtualPath) : TarPath := ⟨texts path.components⟩

def toVirtual (p : TarPath) : Except VfsError VirtualPath := do
  let names ← p.components.mapM VirtualFileName.new
  VirtualPath.fromComponents names

def parent (p : TarPath) : Option TarPath :=
  if p.isRoot then none else some ⟨p.components.dropLast⟩

def name (p : TarPath) : Option Bytes := p.components.getLast?

def startsWith (p pre : TarPath) : Bool := pre.components.isPrefixOf p.components

def isDescendantOf (p parent : TarPath) : Bool :=
  parent.depth < p.depth && p.startsWith parent

def Valid (p : TarPath) : Prop := ∀ c ∈ p.components, ∃ name, VirtualFileName.new c = .ok name

variable {raw : Bytes} {limits : TarLimits} {p : TarPath}

theorem valid_component {cs out : List Bytes}
    (hcs : ∀ c ∈ cs, ∃ name, VirtualFileName.new c = .ok name) (h : component cs raw = .ok out) :
    ∀ c ∈ out, ∃ name, VirtualFileName.new c = .ok name := by
  unfold component at h
  split at h
  · cases h
    exact hcs
  · split at h
    · cases h
    · obtain ⟨name, -, h⟩ := bind_eq_ok.mp h
      cases h
      intro c hc
      rcases List.mem_append.mp hc with hc | hc
      · exact hcs c hc
      · cases List.mem_singleton.mp hc
        exact ⟨name, VirtualFileName.new_bytes name⟩

theorem valid_components : ∀ {raws cs out : List Bytes},
    (∀ c ∈ cs, ∃ name, VirtualFileName.new c = .ok name) →
      raws.foldlM component cs = .ok out →
        ∀ c ∈ out, ∃ name, VirtualFileName.new c = .ok name
  | [], cs, out, hcs, h => by
      cases h
      exact hcs
  | raw :: raws, cs, out, hcs, h => by
      rw [List.foldlM_cons] at h
      obtain ⟨mid, hmid, h⟩ := bind_eq_ok.mp h
      exact valid_components (valid_component hcs hmid) h

/-- **Accepted paths are made of file names.** -/
theorem valid_fromTarBytes (h : fromTarBytes raw limits = .ok p) : p.Valid := by
  unfold fromTarBytes at h
  split at h
  · cases h
  · split at h
    · cases h
    · split at h
      · cases h
      · obtain ⟨cs, hcs, h⟩ := bind_eq_ok.mp h
        dsimp only at h
        split at h
        · cases h
        · cases h
          exact valid_components (by simp) hcs

theorem fits_fromTarBytes (h : fromTarBytes raw limits = .ok p) :
    p.encodedLen ≤ limits.maxPathBytes := by
  unfold fromTarBytes at h
  split at h
  · cases h
  · split at h
    · cases h
    · split at h
      · cases h
      · obtain ⟨cs, -, h⟩ := bind_eq_ok.mp h
        dsimp only at h
        split at h
        · cases h
        · rename_i hfits
          cases h
          exact Nat.le_of_not_lt hfits

end TarPath

/-! ## Entries -/

inductive TarEntryKind where
  | regularFile
  | directory
  | symlink
  | hardlink
  | characterDevice
  | blockDevice
  | namedPipe
  | other
deriving DecidableEq, Repr

structure TarEntry where
  rawPath : Bytes
  path : TarPath
  kind : TarEntryKind
  size : Nat
  mode : Nat
  uid : Nat
  gid : Nat
  mtime : Int
  linkTarget : Option Bytes
  deviceMajor : Option Nat
  deviceMinor : Option Nat
  synthetic : Bool
deriving DecidableEq, Repr

namespace TarEntry

def syntheticDirectory (path : TarPath) : TarEntry where
  rawPath := [slash].intercalate path.components
  path := path
  kind := .directory
  size := 0
  mode := 0o755
  uid := 0
  gid := 0
  mtime := 0
  linkTarget := none
  deviceMajor := none
  deviceMinor := none
  synthetic := true

def root : TarEntry := { syntheticDirectory TarPath.root with rawPath := [dot] }

/-- The file type `TarEntry::metadata` reports. -/
def fileType (e : TarEntry) : VirtualFileType :=
  match e.kind with
  | .regularFile | .hardlink => .regularFile
  | .directory => .directory
  | .symlink => .symlink
  | .characterDevice => .characterDevice
  | .blockDevice => .blockDevice
  | .namedPipe => .namedPipe
  | .other => .socket

def metadata (e : TarEntry) (identityPrefix : Bytes) (generation : Nat) : VirtualMetadata where
  nodeId := identityPrefix ++ [0] ++ e.rawPath
  fileType := e.fileType
  size := e.size
  nlink := if e.kind = .hardlink then 2 else 1
  mtime := e.mtime
  original := ⟨e.mode, e.uid, e.gid⟩
  deviceId :=
    match e.deviceMajor, e.deviceMinor with
    | some major, some minor => some (major <<< 32 ||| minor)
    | _, _ => none
  generation := generation

end TarEntry

/-! ## Header blocks -/

structure RawHeader where
  path : Bytes
  linkTarget : Option Bytes
  typeFlag : UInt8
  kind : TarEntryKind
  size : Nat
  mode : Nat
  uid : Nat
  gid : Nat
  mtime : Int
  deviceMajor : Option Nat
  deviceMinor : Option Nat
deriving DecidableEq

/-- `&block[start..stop]`. -/
def field (block : Bytes) (start stop : Nat) : Bytes := (block.drop start).take (stop - start)

def textField (field : Bytes) : Bytes := field.takeWhile (· ≠ 0)

/-- NUL or blank, the padding of number fields. -/
def isBlank (byte : UInt8) : Bool := byte = 0 || byte = 32

/-- `value * base + digit`, accumulated over the digits of a number. -/
def digits (base : Nat) (value : Nat) (text : Bytes) : Nat :=
  text.foldl (fun value byte => value * base + (byte.toNat - 48)) value

/-- One byte of a base-256 number. -/
def base256Step (label : String) (value : Nat) (byte : UInt8) : Except VfsError Nat :=
  if value * 256 + byte.toNat > u64Max then .error (.io ("tar " ++ label ++ " overflow"))
  else .ok (value * 256 + byte.toNat)

/-- `tar_number`: base 256 when the top bit is set, padded octal otherwise. -/
def tarNumber (field : Bytes) (label : String) : Except VfsError Nat :=
  match field with
  | [] => .error (.io ("empty tar " ++ label))
  | first :: rest =>
    if first &&& 0x80 ≠ 0 then
      if first &&& 0x40 ≠ 0 then .error (.io ("negative tar " ++ label))
      else rest.foldlM (base256Step label) (first &&& 0x3f).toNat
    else
      let value := ((first :: rest).dropWhile isBlank).takeWhile fun byte => !isBlank byte
      if value.isEmpty then .ok 0
      else if !value.all fun byte => 48 ≤ byte && byte ≤ 55 then
        .error (.io ("invalid octal tar " ++ label))
      else if digits 8 0 value > u64Max then .error (.io ("tar " ++ label ++ " overflow"))
      else .ok (digits 8 0 value)

def optionalTarNumber (field : Bytes) (label : String) : Except VfsError (Option Nat) :=
  if field.all isBlank then .ok none
  else do
    let value ← tarNumber field label
    .ok (some value)

/-- The sum of `verify_checksum`: the checksum field itself counts as blanks. -/
def blockSum (block : Bytes) : Nat :=
  (block.zipIdx.map fun b => if 148 ≤ b.2 ∧ b.2 < 156 then 32 else b.1.toNat).sum

def verifyChecksum (block : Bytes) : Except VfsError Unit := do
  let expected ← tarNumber (field block 148 156) "checksum"
  if blockSum block ≠ expected then .error (.io "tar checksum mismatch") else .ok ()

def kindOf (typeFlag : UInt8) : TarEntryKind :=
  if typeFlag = 0 ∨ typeFlag = 48 ∨ typeFlag = 55 then .regularFile
  else if typeFlag = 53 then .directory
  else if typeFlag = 50 then .symlink
  else if typeFlag = 49 then .hardlink
  else if typeFlag = 51 then .characterDevice
  else if typeFlag = 52 then .blockDevice
  else if typeFlag = 54 then .namedPipe
  else .other

/-- The name field below its prefix field. -/
def headerPath (name pre : Bytes) : Bytes :=
  if pre = [] then name else if name = [] then pre else pre ++ [slash] ++ name

/-- `i64::MAX`. -/
def i64Max : Nat := 2 ^ 63 - 1

def parseHeader (block : Bytes) : Except VfsError RawHeader :=
  if block.length ≠ tarBlock then .error (.io "truncated tar header")
  else do
    verifyChecksum block
    let path := headerPath (textField (field block 0 100)) (textField (field block 345 500))
    if path = [] then .error (.io "empty tar entry path")
    else
      let typeFlag := block.getD 156 0
      let link := textField (field block 157 257)
      let size ← tarNumber (field block 124 136) "size"
      let mode ← tarNumber (field block 100 108) "mode"
      let uid ← tarNumber (field block 108 116) "uid"
      let gid ← tarNumber (field block 116 124) "gid"
      let mtime ← tarNumber (field block 136 148) "mtime"
      if mtime > i64Max then .error (.io "tar mtime overflow")
      else
        let deviceMajor ← optionalTarNumber (field block 329 337) "device major"
        let deviceMinor ← optionalTarNumber (field block 337 345) "device minor"
        .ok
          { path := path
            linkTarget := if link = [] then none else some link
            typeFlag := typeFlag
            kind := kindOf typeFlag
            size := size
            mode := mode
            uid := uid
            gid := gid
            mtime := mtime
            deviceMajor := deviceMajor
            deviceMinor := deviceMinor }

/-! ## PAX records -/

structure PaxValues where
  path : Option Bytes
  linkPath : Option Bytes
  size : Option Nat
  uid : Option Nat
  gid : Option Nat
  mtime : Option Int
deriving DecidableEq

namespace PaxValues

def empty : PaxValues := ⟨none, none, none, none, none, none⟩

/-- `PaxValues::overlay`: values that are present replace. -/
def overlay (self other : PaxValues) : PaxValues where
  path := other.path <|> self.path
  linkPath := other.linkPath <|> self.linkPath
  size := other.size <|> self.size
  uid := other.uid <|> self.uid
  gid := other.gid <|> self.gid
  mtime := other.mtime <|> self.mtime

end PaxValues

def isDigit (byte : UInt8) : Bool := 48 ≤ byte && byte ≤ 57

/-- `str::parse` on digits after an optional sign has been taken off. -/
def parseDigits (text : Bytes) : Option Nat :=
  if text = [] ∨ !text.all isDigit then none else some (digits 10 0 text)

/-- `str::parse::<u64>`, which also takes a leading `+`. -/
def parseU64 (text : Bytes) : Option Nat :=
  let unsigned := if text.head? = some 43 then text.tail else text
  (parseDigits unsigned).filter fun n => n ≤ u64Max

/-- `str::parse::<i64>`. -/
def parseI64 (text : Bytes) : Option Int :=
  if text.head? = some 45 then
    ((parseDigits text.tail).filter fun n => n ≤ i64Max + 1).map fun n => -(n : Int)
  else
    let unsigned := if text.head? = some 43 then text.tail else text
    ((parseDigits unsigned).filter fun n => n ≤ i64Max).map fun n => (n : Int)

def decimalU64 (value : Bytes) (label : String) : Except VfsError Nat :=
  if value = [] ∨ !value.all isDigit then .error (.io ("invalid " ++ label))
  else
    match parseU64 value with
    | none => .error (.io (label ++ " overflow"))
    | some n => .ok n

/-- `pax_mtime`: the part before the first `.`. -/
def paxMtime (value : Bytes) : Except VfsError Int :=
  match parseI64 (value.takeWhile (· ≠ dot)) with
  | none => .error (.io "invalid PAX mtime")
  | some n => .ok n

/-- One `length key=value` record, and where the next one starts. -/
structure PaxRecord where
  key : Bytes
  value : Bytes
  next : Nat

/-- The part of the loop of `parse_pax` that cuts out a record. -/
def paxRecord (data : Bytes) (offset : Nat) : Except VfsError PaxRecord :=
  match (data.drop offset).findIdx? (· = 32) with
  | none => .error (.io "PAX record has no length")
  | some position =>
    let space := position + offset
    match parseU64 ((data.drop offset).take position) with
    | none => .error (.io "invalid PAX record length")
    | some length =>
      if offset + length > u64Max then .error (.io "PAX record overflow")
      else
        let stop := offset + length
        if stop > data.length ∨ stop ≤ space + 2 ∨ data.getD (stop - 1) 0 ≠ 10 then
          .error (.io "invalid PAX record boundary")
        else
          let record := field data (space + 1) (stop - 1)
          match record.findIdx? (· = 61) with
          | none => .error (.io "invalid PAX key/value")
          | some equals =>
            let value := record.drop (equals + 1)
            if 0 ∈ value then .error (.io "NUL in PAX value")
            else .ok ⟨record.take equals, value, stop⟩

def PaxValues.set (result : PaxValues) (key value : Bytes) : Except VfsError PaxValues :=
  if key = ascii "path" then .ok { result with path := some value }
  else if key = ascii "linkpath" then .ok { result with linkPath := some value }
  else if key = ascii "size" then do
    let n ← decimalU64 value "PAX size"
    .ok { result with size := some n }
  else if key = ascii "uid" then do
    let n ← decimalU64 value "PAX uid"
    .ok { result with uid := some n }
  else if key = ascii "gid" then do
    let n ← decimalU64 value "PAX gid"
    .ok { result with gid := some n }
  else if key = ascii "mtime" then do
    let n ← paxMtime value
    .ok { result with mtime := some n }
  else .ok result

/-- The loop of `parse_pax`. Every record moves the offset on, so as many rounds
as there are bytes are enough (`parsePaxLoop_rounds`). -/
def parsePaxLoop (data : Bytes) : Nat → Nat → PaxValues → Except VfsError PaxValues
  | 0, _, result => .ok result
  | rounds + 1, offset, result =>
    if offset < data.length then do
      let record ← paxRecord data offset
      let result ← result.set record.key record.value
      parsePaxLoop data rounds record.next result
    else .ok result

def parsePax (data : Bytes) : Except VfsError PaxValues :=
  parsePaxLoop data data.length 0 PaxValues.empty

variable {data : Bytes}

theorem offset_lt_next {offset : Nat} {record : PaxRecord}
    (h : paxRecord data offset = .ok record) :
    offset < record.next ∧ record.next ≤ data.length := by
  unfold paxRecord at h
  split at h
  · cases h
  · dsimp only at h
    split at h
    · cases h
    · split at h
      · cases h
      · split at h
        · cases h
        · rename_i hbounds
          split at h
          · cases h
          · split at h
            · cases h
            · cases h
              simp only [not_or] at hbounds
              dsimp only
              omega

/-- **The loop of `parse_pax` ends by itself**: rounds beyond the bytes that are
left change nothing. -/
theorem parsePaxLoop_rounds : ∀ (rounds more offset : Nat) (result : PaxValues),
    data.length - offset ≤ rounds →
      parsePaxLoop data (rounds + more) offset result = parsePaxLoop data rounds offset result
  | 0, 0, _, _, _ => rfl
  | 0, more + 1, offset, result, h => by
      unfold parsePaxLoop
      rw [if_neg (by omega)]
  | rounds + 1, more, offset, result, h => by
      rw [Nat.add_right_comm]
      unfold parsePaxLoop
      split
      · cases hrec : paxRecord data offset with
        | error e => rfl
        | ok record =>
          have hnext := offset_lt_next hrec
          change (result.set record.key record.value >>= fun result =>
            parsePaxLoop data (rounds + more) record.next result) = _
          congr 1
          funext result'
          exact parsePaxLoop_rounds rounds more record.next result' (by omega)
      · rfl

/-! ## GNU long values, link targets, narrow integers -/

/-- `parse_long_value`: up to the first NUL, less trailing newlines. -/
def parseLongValue (data : Bytes) : Except VfsError Bytes :=
  let value := data.takeWhile (· ≠ 0)
  if (data.drop value.length).any fun byte => !(byte = 0 || byte = 10) then
    .error (.io "invalid GNU long-name tail")
  else .ok (value.rdropWhile (· = 10))

def validateLinkTarget (target : Option Bytes) (limits : TarLimits) : Except VfsError Unit :=
  match target with
  | none => .ok ()
  | some target =>
    if target.length > limits.maxPathBytes then .error .pathTooLong
    else if 0 ∈ target then .error (.invalidInput "NUL in tar link target")
    else do
      let _ ← VirtualPathBytes.new target
      .ok ()

def checkedU32 (value : Nat) (label : String) : Except VfsError Nat :=
  if value ≥ 2 ^ 32 then .error (.io (label ++ " overflow")) else .ok value

/-! ## Writing blocks

What the unit tests of the source write their archives with. -/

/-- The last `width` octal digits of a number. -/
def octalDigits : Nat → Nat → Bytes
  | 0, _ => []
  | width + 1, value => octalDigits width (value / 8) ++ [(48 + value % 8).toUInt8]

def writeOctal (width value : Nat) : Bytes := octalDigits (width - 1) value ++ [0]

/-- `bytes` filled up with NULs. -/
def padTo (length : Nat) (bytes : Bytes) : Bytes :=
  bytes ++ List.replicate (length - bytes.length) 0

def header (name : Bytes) (kind : UInt8) (size : Nat) (link : Bytes) : Bytes :=
  let front := padTo 100 name ++ writeOctal 8 0o644 ++ writeOctal 8 12 ++ writeOctal 8 34 ++
    writeOctal 12 size ++ writeOctal 12 7
  let back := padTo 356 ([kind] ++ padTo 100 link ++ ascii "ustar" ++ [0] ++ ascii "00")
  let sum := (front.map UInt8.toNat).sum + 8 * 32 + (back.map UInt8.toNat).sum
  front ++ writeOctal 8 sum ++ back

def member (name : Bytes) (kind : UInt8) (body : Bytes) : Bytes :=
  header name kind body.length [] ++
    padTo (body.length + (tarBlock - body.length % tarBlock) % tarBlock) body

def archive (members : List Bytes) : Bytes :=
  members.flatten ++ List.replicate (tarBlock * 2) 0

end TuxStack.Tar
