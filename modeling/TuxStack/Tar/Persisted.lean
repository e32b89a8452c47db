import TuxStack.Lib.KeyedMaps
import TuxStack.Tar.Tree

/-!
# The index on disk

`validate_persisted`, `entry_map_serde` and the derived `Serialize` of the entries, of
`crates/docker-core/src/vfs_providers/tar_index.rs`. `load_cache` of the image provider
takes an index from disk only when it deserializes and passes `validate_persisted`, and
`persist_cache` stores every index that `from_stream` returns.

`Intact` is what the validation asks for, and the builder establishes each part of it:
the validation accepts exactly the intact indexes that fit `max_entries + 1`
(`validatePersisted_iff`). That sum is a `usize`. With overflow checks it panics at
`usize::MAX`; here it wraps, as it does in a release build.
-/

namespace TuxStack.Tar

open Vfs Result KeyedMaps

namespace TarIndex

/-! ## Validation -/

def checkPath (limits : TarLimits) (path : TarPath) (entry : TarEntry) : Except VfsError Unit :=
  if path ≠ entry.path ∨ path.encodedLen > limits.maxPathBytes then
    .error (.invalidInput "corrupt tar index path")
  else .ok ()

def checkParent (index : TarIndex) (path : TarPath) : Except VfsError Unit :=
  match path.parent with
  | none => .ok ()
  | some parent =>
    if (index.get parent).isSome then .ok ()
    else .error (.invalidInput "corrupt tar index parent")

def checkHardlink (limits : TarLimits) (entry : TarEntry) : Except VfsError Unit :=
  if entry.kind ≠ .hardlink then .ok ()
  else
    match entry.linkTarget with
    | none => .error (.invalidInput "corrupt hardlink target")
    | some target => (TarPath.fromTarBytes target limits).map fun _ => ()

/-- The loop body of `validate_persisted`. -/
def checkEntry (index : TarIndex) (limits : TarLimits) (row : TarPath × TarEntry) :
    Except VfsError Unit := do
  checkPath limits row.1 row.2
  index.checkParent row.1
  checkHardlink limits row.2

/-- The size and the root; the sum is a `usize`. -/
def checkRoot (index : TarIndex) (limits : TarLimits) : Except VfsError Unit :=
  if index.len > (limits.maxEntries + 1) % (u64Max + 1) ∨
      (index.get TarPath.root).map TarEntry.kind ≠ some .directory then
    .error (.invalidInput "corrupt tar index")
  else .ok ()

def validatePersisted (index : TarIndex) (limits : TarLimits) : Except VfsError Unit := do
  limits.validate
  index.checkRoot limits
  index.entries.toList.forM (index.checkEntry limits)

/-! ## Serialization -/

section Serde

variable {Json : Type}

/-- `entry_map_serde::serialize`: the entries in key order. -/
def serialize (toJson : TarEntry → Json) (index : TarIndex) : List Json :=
  (index.entries.toList.map Prod.snd).map toJson

/-- `entry_map_serde::deserialize`. -/
def deserialize (ofJson : Json → Except String TarEntry) (document : List Json) :
    Except String TarIndex := do
  let entries ← document.mapM ofJson
  let map ← entries.foldlM (putNew TarEntry.path "duplicate persisted tar path") ∅
  .ok ⟨map⟩

/-- The derived `PartialEq`: two maps are equal when their pairs are, in key order. -/
def Same (left right : TarIndex) : Prop := left.entries.toList = right.entries.toList

end Serde

/-! ## What the validation asks for -/

/-- An index that can be used: every path is that of its entry and short enough, every
parent is present, and every hardlink names a legal path. -/
structure Intact (limits : TarLimits) (index : TarIndex) : Prop where
  root : ∃ e, index.get TarPath.root = some e ∧ e.kind = .directory
  keyed : ∀ p e, index.get p = some e → e.path = p
  fits : ∀ p e, index.get p = some e → p.encodedLen ≤ limits.maxPathBytes
  parents : ∀ p e parent, index.get p = some e → p.parent = some parent →
    (index.get parent).isSome = true
  hardlinks : ∀ p e, index.get p = some e → e.kind = .hardlink → ∃ target path,
    e.linkTarget = some target ∧ TarPath.fromTarBytes target limits = .ok path

variable {limits : TarLimits} {index : TarIndex}

variable {e : TarEntry} {p : TarPath}

theorem checkPath_iff :
    checkPath limits p e = .ok () ↔ e.path = p ∧ p.encodedLen ≤ limits.maxPathBytes := by
  unfold checkPath
  split
  · rename_i hbad
    refine iff_of_false (fun h => by cases h) ?_
    rintro ⟨rfl, hfits⟩
    rcases hbad with hne | hlong
    · exact hne rfl
    · omega
  · rename_i hgood
    push Not at hgood
    exact iff_of_true rfl ⟨hgood.1.symm, hgood.2⟩

theorem checkParent_iff : index.checkParent p = .ok () ↔
      ∀ parent, p.parent = some parent → (index.get parent).isSome = true := by
  unfold checkParent
  cases hparent : p.parent with
  | none => exact iff_of_true rfl fun parent h => (by cases h)
  | some parent =>
    dsimp only
    split
    · rename_i hsome
      refine iff_of_true rfl fun parent' h => ?_
      cases h
      exact hsome
    · rename_i hnone
      exact iff_of_false (fun h => by cases h) fun h => hnone (h parent rfl)

theorem checkHardlink_iff : checkHardlink limits e = .ok () ↔ (e.kind = .hardlink → ∃ target path,
      e.linkTarget = some target ∧ TarPath.fromTarBytes target limits = .ok path) := by
  unfold checkHardlink
  split
  · rename_i hkind
    exact iff_of_true rfl fun h => absurd h hkind
  · rename_i hkind
    have hkind' : e.kind = .hardlink := not_not.mp hkind
    cases htarget : e.linkTarget with
    | none =>
      refine iff_of_false (fun h => by cases h) fun h => ?_
      obtain ⟨target, path, h', -⟩ := h hkind'
      cases h'
    | some target =>
      dsimp only
      cases hpath : TarPath.fromTarBytes target limits with
      | error e =>
        refine iff_of_false (fun h => by cases h) fun h => ?_
        obtain ⟨target', path, htarget', hpath'⟩ := h hkind'
        cases htarget'
        rw [hpath] at hpath'
        cases hpath'
      | ok path => exact iff_of_true rfl fun _ => ⟨target, path, rfl, hpath⟩

theorem checkEntry_iff {row : TarPath × TarEntry} :
    index.checkEntry limits row = .ok () ↔
      checkPath limits row.1 row.2 = .ok () ∧ index.checkParent row.1 = .ok () ∧
        checkHardlink limits row.2 = .ok () := by
  unfold checkEntry
  constructor
  · intro h
    obtain ⟨⟨⟩, hpath, h⟩ := bind_eq_ok.mp h
    obtain ⟨⟨⟩, hparent, h⟩ := bind_eq_ok.mp h
    exact ⟨hpath, hparent, h⟩
  · rintro ⟨hpath, hparent, hhardlink⟩
    exact bind_eq_ok.mpr ⟨(), hpath, bind_eq_ok.mpr ⟨(), hparent, hhardlink⟩⟩

theorem checkRoot_iff :
    index.checkRoot limits = .ok () ↔
      index.len ≤ (limits.maxEntries + 1) % (u64Max + 1) ∧
        ∃ e, index.get TarPath.root = some e ∧ e.kind = .directory := by
  unfold checkRoot
  split
  · rename_i hbad
    refine iff_of_false (fun h => by cases h) ?_
    rintro ⟨hlen, e, he, hkind⟩
    rcases hbad with hlong | hroot
    · omega
    · exact hroot (by rw [he, Option.map_some, hkind])
  · rename_i hgood
    push Not at hgood
    exact iff_of_true rfl ⟨hgood.1, Option.map_eq_some_iff.mp hgood.2⟩

/-- **What the validation accepts.** -/
theorem validatePersisted_iff :
    index.validatePersisted limits = .ok () ↔
      limits.validate = .ok () ∧ index.len ≤ (limits.maxEntries + 1) % (u64Max + 1) ∧
        Intact limits index := by
  have hrows : index.entries.toList.forM (index.checkEntry limits) = .ok () ↔
      ∀ p e, index.get p = some e → index.checkEntry limits (p, e) = .ok () := by
    rw [forM_eq_ok]
    constructor
    · exact fun h p e he => h _ (Std.TreeMap.mem_toList_iff_getElem?_eq_some.mpr he)
    · exact fun h row hrow => h row.1 row.2 (Std.TreeMap.mem_toList_iff_getElem?_eq_some.mp hrow)
  unfold validatePersisted
  constructor
  · intro h
    obtain ⟨⟨⟩, hvalidate, h⟩ := bind_eq_ok.mp h
    obtain ⟨⟨⟩, hroot, h⟩ := bind_eq_ok.mp h
    obtain ⟨hlen, hroot⟩ := checkRoot_iff.mp hroot
    have hentry := fun p e he => checkEntry_iff.mp (hrows.mp h p e he)
    refine ⟨hvalidate, hlen, hroot, fun p e he => ?_, fun p e he => ?_, fun p e parent he => ?_,
      fun p e he => ?_⟩
    · exact (checkPath_iff.mp (hentry p e he).1).1
    · exact (checkPath_iff.mp (hentry p e he).1).2
    · exact checkParent_iff.mp (hentry p e he).2.1 parent
    · exact checkHardlink_iff.mp (hentry p e he).2.2
  · rintro ⟨hvalidate, hlen, hintact⟩
    refine bind_eq_ok.mpr ⟨(), hvalidate, ?_⟩
    refine bind_eq_ok.mpr ⟨(), checkRoot_iff.mpr ⟨hlen, hintact.root⟩, ?_⟩
    refine hrows.mpr fun p e he => checkEntry_iff.mpr ⟨?_, ?_, ?_⟩
    · exact checkPath_iff.mpr ⟨hintact.keyed p e he, hintact.fits p e he⟩
    · exact checkParent_iff.mpr fun parent hparent => hintact.parents p e parent he hparent
    · exact checkHardlink_iff.mpr (hintact.hardlinks p e he)

/-! ## What the builder establishes -/

variable {members : List TarEntry}

theorem fits_of_get (hlimits : 1 ≤ limits.maxPathBytes)
    (haccepted : ∀ m ∈ members, Accepted limits m) (hget : ∀ p, index.get p = archiveGet members p)
    (he : index.get p = some e) : p.encodedLen ≤ limits.maxPathBytes := by
  by_cases hroot : p.isRoot = true
  · rw [TarPath.encodedLen, if_pos hroot]
    exact hlimits
  · rw [hget] at he
    obtain ⟨m, hm, hat⟩ := (archiveGet_isSome_iff (by simpa using hroot)).mp
      (by simp [he] : (archiveGet members p).isSome = true)
    rcases hat with rfl | hup
    · exact (haccepted m hm).fits
    · exact encodedLen_le_of_prefix hlimits (TarPath.mem_ancestors.mp hup).1 (haccepted m hm).fits

theorem intact_of_members (hlimits : 1 ≤ limits.maxPathBytes)
    (haccepted : ∀ m ∈ members, Accepted limits m)
    (hget : ∀ p, index.get p = archiveGet members p) : Intact limits index where
  root := ⟨TarEntry.root, by rw [hget]; rfl, rfl⟩
  keyed := keyed_of_get hget
  fits _ _ := fits_of_get hlimits haccepted hget
  parents p e parent he hparent := by
    rw [hget] at he ⊢
    exact archiveGet_closed (by rw [he]; rfl) (TarPath.parent_mem_ancestors hparent)
  hardlinks p e he hkind := by
    rw [hget] at he
    rcases archiveGet_cases he with hdir | hmem
    · rw [hdir] at hkind
      cases hkind
    · exact (haccepted e hmem).hardlink hkind

theorem maxPathBytes_of_validate (h : limits.validate = .ok ()) : 1 ≤ limits.maxPathBytes := by
  unfold TarLimits.validate at h
  split at h
  · cases h
  · omega

/-- **The builder's output is intact** and within its entry limit, the root not counted. -/
theorem intact_of_fromStream {stream : ArchiveByteStream}
    (h : fromStream stream limits = .ok index) :
    limits.validate = .ok () ∧ index.len ≤ limits.maxEntries + 1 ∧ Intact limits index := by
  obtain ⟨⟨⟩, hvalidate, -⟩ := bind_eq_ok.mp h
  obtain ⟨members, hmembers, hproper, hfold⟩ := fromStream_ok h
  obtain ⟨hget, hlen, -⟩ := get_of_fold hproper hfold
  exact ⟨hvalidate, hlen, intact_of_members (maxPathBytes_of_validate hvalidate)
    (archiveMembers_accepted hmembers) hget⟩

/-! ## The round trip -/

variable {Json : Type} {toJson : TarEntry → Json} {ofJson : Json → Except String TarEntry}

/-- Every keyed index comes back from disk. -/
theorem deserialize_serialize
    (hfaithful : ∀ p e, index.get p = some e → ofJson (toJson e) = .ok e)
    (hkeyed : ∀ p e, index.get p = some e → e.path = p) :
    ∃ restored, deserialize ofJson (serialize toJson index) = .ok restored ∧
      Same restored index := by
  obtain ⟨map, hfold, hsame⟩ := foldlM_putNew_values index.entries hkeyed
    "duplicate persisted tar path"
  have hentries : (serialize toJson index).mapM ofJson =
      .ok (index.entries.toList.map Prod.snd) := by
    refine mapM_eq_ok.mpr ?_
    unfold serialize
    rw [List.forall₂_map_left_iff, List.forall₂_same]
    exact fun e he => hfaithful e.path e ((mem_values hkeyed).mp he)
  exact ⟨⟨map⟩, bind_eq_ok.mpr ⟨_, hentries, bind_eq_ok.mpr ⟨map, hfold, rfl⟩⟩, hsame⟩

theorem len_pos_of_root (h : index.get TarPath.root = some e) : 0 < index.len := by
  unfold len
  refine Nat.pos_of_ne_zero fun hzero => ?_
  have hmem : TarPath.root ∈ index.entries := by
    rw [Std.TreeMap.mem_iff_isSome_getElem?]
    exact Option.isSome_iff_exists.mpr ⟨e, h⟩
  have hempty : index.entries.isEmpty = true := by
    rw [Std.TreeMap.isEmpty_eq_size_eq_zero, hzero]
    rfl
  exact Std.TreeMap.not_mem_of_isEmpty hempty hmem

end TarIndex

/-! ## The shape of the entries on disk -/

inductive JsonValue where
  | null
  | bool (value : Bool)
  | number (value : Int)
  | string (text : String)
  | array (items : List JsonValue)
  | object (fields : List (String × JsonValue))

namespace JsonValue

/-- An integer between two bounds. -/
def toInt (least greatest : Int) : JsonValue → Except String Int
  | .number value =>
    if least ≤ value ∧ value ≤ greatest then .ok value else .error "integer out of range"
  | _ => .error "expected an integer"

def toNat (greatest : Nat) (value : JsonValue) : Except String Nat :=
  (value.toInt 0 greatest).map Int.toNat

def toBool : JsonValue → Except String Bool
  | .bool value => .ok value
  | _ => .error "expected a boolean"

def ofByte (byte : UInt8) : JsonValue := .number byte.toNat

def toByte (value : JsonValue) : Except String UInt8 := (value.toNat 255).map UInt8.ofNat

/-- A `Vec` of what the element decoder reads. -/
def toList {α : Type} (element : JsonValue → Except String α) : JsonValue → Except String (List α)
  | .array items => items.mapM element
  | _ => .error "expected a sequence"

def ofBytes (bytes : Bytes) : JsonValue := .array (bytes.map ofByte)

def toBytes : JsonValue → Except String Bytes := toList toByte

/-- An `Option` is `null` or the value itself. -/
def ofOption {α : Type} (element : α → JsonValue) : Option α → JsonValue
  | none => .null
  | some a => element a

def toOption {α : Type} (element : JsonValue → Except String α) :
    JsonValue → Except String (Option α)
  | .null => .ok none
  | value => (element value).map some

/-- A field of a struct. -/
def field (value : JsonValue) (name : String) : Except String JsonValue :=
  match value with
  | .object fields =>
    match fields.find? fun entry => entry.1 = name with
    | some entry => .ok entry.2
    | none => .error ("missing field " ++ name)
  | _ => .error "expected a struct"

theorem toNat_number {n greatest : Nat} (h : n ≤ greatest) :
    (number n).toNat greatest = .ok n := by
  have hbounds : (0 : Int) ≤ n ∧ (n : Int) ≤ greatest := by omega
  simp [toNat, toInt, hbounds, Except.map]

theorem toInt_number {least greatest value : Int} (h : least ≤ value ∧ value ≤ greatest) :
    (number value).toInt least greatest = .ok value := if_pos h

theorem toBytes_ofBytes (bytes : Bytes) : (ofBytes bytes).toBytes = .ok bytes := by
  change (bytes.map ofByte).mapM toByte = .ok bytes
  rw [mapM_eq_ok, List.forall₂_map_left_iff, List.forall₂_same]
  intro byte _
  have hbyte : byte.toNat ≤ 255 := Nat.le_of_lt_succ byte.toNat_lt
  unfold toByte ofByte
  rw [toNat_number hbyte]
  exact congrArg Except.ok (UInt8.ofNat_toNat)

theorem toOption_ofOption {α : Type} {encode : α → JsonValue}
    {decode : JsonValue → Except String α} (hnull : ∀ a, encode a ≠ .null) {o : Option α}
    (h : ∀ a, o = some a → decode (encode a) = .ok a) :
    toOption decode (ofOption encode o) = .ok o := by
  cases o with
  | none => rfl
  | some a =>
    have hdecode := h a rfl
    have hne := hnull a
    unfold ofOption
    dsimp only
    cases hvalue : encode a with
    | null => exact absurd hvalue hne
    | _ =>
      rw [hvalue] at hdecode
      simp [toOption, hdecode, Except.map]

end JsonValue

open JsonValue

namespace TarEntryKind

def toJson : TarEntryKind → JsonValue
  | .regularFile => .string "RegularFile"
  | .directory => .string "Directory"
  | .symlink => .string "Symlink"
  | .hardlink => .string "Hardlink"
  | .characterDevice => .string "CharacterDevice"
  | .blockDevice => .string "BlockDevice"
  | .namedPipe => .string "NamedPipe"
  | .other => .string "Other"

def ofJson : JsonValue → Except String TarEntryKind
  | .string "RegularFile" => .ok .regularFile
  | .string "Directory" => .ok .directory
  | .string "Symlink" => .ok .symlink
  | .string "Hardlink" => .ok .hardlink
  | .string "CharacterDevice" => .ok .characterDevice
  | .string "BlockDevice" => .ok .blockDevice
  | .string "NamedPipe" => .ok .namedPipe
  | .string "Other" => .ok .other
  | _ => .error "unknown variant"

theorem ofJson_toJson (kind : TarEntryKind) : ofJson kind.toJson = .ok kind := by
  cases kind <;> rfl

end TarEntryKind

namespace TarPath

def toJson (path : TarPath) : JsonValue :=
  .object [("components", .array (path.components.map ofBytes))]

def ofJson (value : JsonValue) : Except String TarPath := do
  let components ← (← value.field "components").toList toBytes
  .ok ⟨components⟩

theorem ofJson_toJson (path : TarPath) : ofJson path.toJson = .ok path := by
  have hcomponents : (JsonValue.array (path.components.map ofBytes)).toList toBytes =
      .ok path.components := by
    change (path.components.map ofBytes).mapM toBytes = .ok path.components
    rw [mapM_eq_ok, List.forall₂_map_left_iff, List.forall₂_same]
    exact fun component _ => toBytes_ofBytes component
  exact bind_eq_ok.mpr ⟨_, rfl, bind_eq_ok.mpr ⟨_, hcomponents, rfl⟩⟩

end TarPath

namespace TarEntry

def u32Max : Nat := 2 ^ 32 - 1

/-- The derived `Serialize` of an entry. -/
def toJson (e : TarEntry) : JsonValue :=
  .object
    [("raw_path", ofBytes e.rawPath),
      ("path", e.path.toJson),
      ("kind", e.kind.toJson),
      ("size", .number e.size),
      ("mode", .number e.mode),
      ("uid", .number e.uid),
      ("gid", .number e.gid),
      ("mtime", .number e.mtime),
      ("link_target", ofOption ofBytes e.linkTarget),
      ("device_major", ofOption (fun major => .number (major : Nat)) e.deviceMajor),
      ("device_minor", ofOption (fun minor => .number (minor : Nat)) e.deviceMinor),
      ("synthetic", .bool e.synthetic)]

/-- The derived `Deserialize`, for documents that name every field, as the derived
`Serialize` writes them. -/
def ofJson (value : JsonValue) : Except String TarEntry := do
  let rawPath ← (← value.field "raw_path").toBytes
  let path ← TarPath.ofJson (← value.field "path")
  let kind ← TarEntryKind.ofJson (← value.field "kind")
  let size ← (← value.field "size").toNat u64Max
  let mode ← (← value.field "mode").toNat u32Max
  let uid ← (← value.field "uid").toNat u32Max
  let gid ← (← value.field "gid").toNat u32Max
  let mtime ← (← value.field "mtime").toInt (-2 ^ 63) (2 ^ 63 - 1)
  let linkTarget ← (← value.field "link_target").toOption toBytes
  let deviceMajor ← (← value.field "device_major").toOption (JsonValue.toNat u32Max)
  let deviceMinor ← (← value.field "device_minor").toOption (JsonValue.toNat u32Max)
  let synthetic ← (← value.field "synthetic").toBool
  .ok
    { rawPath := rawPath
      path := path
      kind := kind
      size := size
      mode := mode
      uid := uid
      gid := gid
      mtime := mtime
      linkTarget := linkTarget
      deviceMajor := deviceMajor
      deviceMinor := deviceMinor
      synthetic := synthetic }

/-- The numbers of an entry fit their types. -/
structure InRange (e : TarEntry) : Prop where
  size : e.size ≤ u64Max
  mode : e.mode ≤ u32Max
  uid : e.uid ≤ u32Max
  gid : e.gid ≤ u32Max
  mtime : -2 ^ 63 ≤ e.mtime ∧ e.mtime ≤ 2 ^ 63 - 1
  deviceMajor : ∀ major, e.deviceMajor = some major → major ≤ u32Max
  deviceMinor : ∀ minor, e.deviceMinor = some minor → minor ≤ u32Max

theorem inRange_syntheticDirectory (path : TarPath) : (syntheticDirectory path).InRange where
  size := Nat.zero_le _
  mode := by
    change 0o755 ≤ u32Max
    decide
  uid := Nat.zero_le _
  gid := Nat.zero_le _
  mtime := by
    change -2 ^ 63 ≤ (0 : Int) ∧ (0 : Int) ≤ 2 ^ 63 - 1
    decide
  deviceMajor := by rintro _ ⟨⟩
  deviceMinor := by rintro _ ⟨⟩

theorem inRange_root : root.InRange :=
  let h := inRange_syntheticDirectory TarPath.root
  ⟨h.size, h.mode, h.uid, h.gid, h.mtime, h.deviceMajor, h.deviceMinor⟩

/-- **The derived shape loses nothing** of an entry whose numbers fit their types. -/
theorem ofJson_toJson {e : TarEntry} (h : InRange e) : ofJson e.toJson = .ok e := by
  have hoption : ∀ o : Option Nat, (∀ n, o = some n → n ≤ u32Max) →
      (ofOption (fun n => .number (n : Nat)) o).toOption (JsonValue.toNat u32Max) = .ok o :=
    fun o ho => toOption_ofOption (fun _ => JsonValue.noConfusion) fun n hn =>
      toNat_number (ho n hn)
  have htarget : (ofOption ofBytes e.linkTarget).toOption toBytes = .ok e.linkTarget :=
    toOption_ofOption (fun _ => JsonValue.noConfusion) fun target _ => toBytes_ofBytes target
  unfold ofJson
  refine bind_eq_ok.mpr ⟨_, rfl, bind_eq_ok.mpr ⟨_, toBytes_ofBytes _, ?_⟩⟩
  refine bind_eq_ok.mpr ⟨_, rfl, bind_eq_ok.mpr ⟨_, TarPath.ofJson_toJson _, ?_⟩⟩
  refine bind_eq_ok.mpr ⟨_, rfl, bind_eq_ok.mpr ⟨_, TarEntryKind.ofJson_toJson _, ?_⟩⟩
  refine bind_eq_ok.mpr ⟨_, rfl, bind_eq_ok.mpr ⟨_, toNat_number h.size, ?_⟩⟩
  refine bind_eq_ok.mpr ⟨_, rfl, bind_eq_ok.mpr ⟨_, toNat_number h.mode, ?_⟩⟩
  refine bind_eq_ok.mpr ⟨_, rfl, bind_eq_ok.mpr ⟨_, toNat_number h.uid, ?_⟩⟩
  refine bind_eq_ok.mpr ⟨_, rfl, bind_eq_ok.mpr ⟨_, toNat_number h.gid, ?_⟩⟩
  refine bind_eq_ok.mpr ⟨_, rfl, bind_eq_ok.mpr ⟨_, toInt_number h.mtime, ?_⟩⟩
  refine bind_eq_ok.mpr ⟨_, rfl, bind_eq_ok.mpr ⟨_, htarget, ?_⟩⟩
  refine bind_eq_ok.mpr ⟨_, rfl, bind_eq_ok.mpr ⟨_, hoption _ h.deviceMajor, ?_⟩⟩
  refine bind_eq_ok.mpr ⟨_, rfl, bind_eq_ok.mpr ⟨_, hoption _ h.deviceMinor, ?_⟩⟩
  exact bind_eq_ok.mpr ⟨_, rfl, rfl⟩

end TarEntry

/-! ## Surviving on disk -/

namespace TarIndex

variable {limits : TarLimits} {index : TarIndex} {members : List TarEntry}

/-- **When a built index survives on disk.** For every stream and limits of a 64-bit
machine on which `from_stream` succeeds, the index passes the validation and is read back
as it was, unless the entry limit is `usize::MAX`: then `max_entries + 1` overflows in the
validation, where `ensure_capacity` subtracts instead. -/
theorem persisted_iff {stream : ArchiveByteStream} (hmax : limits.maxEntries ≤ u64Max)
    (h : fromStream stream limits = .ok index)
    (hfaithful : ∀ p e, index.get p = some e → ofJson (toJson e) = .ok e) :
    (index.validatePersisted limits = .ok () ∧
      ∃ restored, deserialize ofJson (serialize toJson index) = .ok restored ∧
        Same restored index) ↔ limits.maxEntries ≠ u64Max := by
  obtain ⟨hvalidate, hlen, hintact⟩ := intact_of_fromStream h
  have hback := deserialize_serialize hfaithful hintact.keyed
  constructor
  · rintro ⟨hvalid, -⟩ heq
    obtain ⟨-, hwrapped, -⟩ := validatePersisted_iff.mp hvalid
    obtain ⟨e, hroot, -⟩ := hintact.root
    have hpos := len_pos_of_root hroot
    rw [heq, Nat.mod_self] at hwrapped
    omega
  · intro hne
    refine ⟨validatePersisted_iff.mpr ⟨hvalidate, ?_, hintact⟩, hback⟩
    rw [Nat.mod_eq_of_lt (by omega)]
    exact hlen

/-- Limits that `validate` accepts, with the largest entry limit there is. -/
def unlimited : TarLimits := { TarLimits.standard with maxEntries := u64Max }

/-- The index of an empty archive is refused as corrupt. -/
theorem unlimited_index_refused :
    ∃ index, fromStream [.ok (archive [])] unlimited = .ok index ∧
      index.validatePersisted unlimited = .error (.invalidInput "corrupt tar index") := by
  have hrefused : ((fromStream [.ok (archive [])] unlimited).map fun index =>
      index.validatePersisted unlimited) =
        .ok (.error (.invalidInput "corrupt tar index")) := by
    decide +kernel
  cases hindex : fromStream [.ok (archive [])] unlimited with
  | error e =>
    rw [hindex] at hrefused
    cases hrefused
  | ok index =>
    rw [hindex] at hrefused
    exact ⟨index, rfl, Except.ok.inj hrefused⟩

theorem inRange_of_get (hmembers : ∀ m ∈ members, m.InRange)
    (hget : ∀ p, index.get p = archiveGet members p) {p : TarPath} {e : TarEntry}
    (he : index.get p = some e) : e.InRange := by
  rw [hget] at he
  unfold archiveGet at he
  split at he
  · cases he
    exact TarEntry.inRange_root
  · split at he
    · rename_i hfind
      cases he
      exact hmembers _ (List.mem_of_find?_eq_some hfind)
    · split at he
      · cases he
        exact TarEntry.inRange_syntheticDirectory p
      · cases he

/-- A file and its late directory, with the default limits and the derived shape. -/
theorem late_directory_survives :
    ∃ index, fromStream [.ok childBeforeParent] TarLimits.standard = .ok index ∧
      index.validatePersisted TarLimits.standard = .ok () ∧
      ∃ restored, deserialize TarEntry.ofJson (serialize TarEntry.toJson index) = .ok restored ∧
        Same restored index := by
  have hok : (fromStream [.ok childBeforeParent] TarLimits.standard).toBool = true := by
    decide +kernel
  cases hindex : fromStream [.ok childBeforeParent] TarLimits.standard with
  | error e =>
    rw [hindex] at hok
    cases hok
  | ok index =>
    obtain ⟨members, hmembers, hproper, hfold⟩ := fromStream_ok hindex
    have hlist : archiveMembers [.ok childBeforeParent] TarLimits.standard =
        .ok childAndParent := by
      decide +kernel
    rw [hlist] at hmembers
    cases hmembers
    have hrange : ∀ m ∈ childAndParent, m.InRange := by
      intro m hm
      rcases List.mem_pair.mp hm with rfl | rfl <;>
        exact ⟨by decide, by decide, by decide, by decide, by decide, by rintro _ ⟨⟩,
          by rintro _ ⟨⟩⟩
    have hfaithful : ∀ p e, index.get p = some e → TarEntry.ofJson e.toJson = .ok e :=
      fun p e he => TarEntry.ofJson_toJson
        (inRange_of_get hrange (get_of_fold hproper hfold).1 he)
    exact ⟨index, rfl, (persisted_iff (by decide) hindex hfaithful).mpr (by decide)⟩

end TarIndex

end TuxStack.Tar
