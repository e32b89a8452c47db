import Mathlib.Tactic.Ring
import TuxStack.Tar.Members

/-!
# Writing archives

The ustar writer of
`crates/docker-core/src/services/filesystem/volume_provider.rs`, and what the
reader of `tar_index.rs` makes of its archives. A header block is laid out field
after field; `write_octal` panics when a number does not fit its field, which is
`none` here.

The two sides share no code: the writer pads octal texts and sums the block with
a blanked checksum field, the reader takes fields out by position, trims them and
sums again. `fromStream_writeArchive` is the round trip.
-/

namespace TuxStack.Tar

open Vfs Result Chunks Tar.TarStreamReader

/-! ## The writer -/

namespace VolumeProvider

def writeOctal (length value : Nat) : Option Bytes :=
  if value < 8 ^ (length - 1) then some (Tar.writeOctal length value) else none

def writeUstarHeader (name : Bytes) (mode size : Nat) (isDir : Bool) : Option Bytes := do
  let mode ← writeOctal 8 mode
  let uid ← writeOctal 8 0
  let gid ← writeOctal 8 0
  let size ← writeOctal 12 (if isDir then 0 else size)
  let mtime ← writeOctal 12 0
  let front := padTo 100 (name.take 100) ++ mode ++ uid ++ gid ++ size ++ mtime
  let back := (if isDir then 53 else 48) :: List.replicate 100 0 ++ ascii "ustar" ++ [0] ++
    ascii "00" ++ List.replicate 247 0
  let checksum ← writeOctal 8
    ((front.map UInt8.toNat).sum + ((ascii "        ").map UInt8.toNat).sum +
      (back.map UInt8.toNat).sum)
  some (front ++ checksum ++ back)

/-- A regular file as `build_layer_tar` writes it: header, data, padding. -/
def writeFile (name : Bytes) (mode : Nat) (data : Bytes) : Option Bytes := do
  let header ← writeUstarHeader name mode data.length false
  some (header ++ data ++ List.replicate ((512 - data.length % 512) % 512) 0)

def writeTarEntry (name data : Bytes) : Option Bytes := writeFile name 0o644 data

end VolumeProvider

/-! ## Numbers and fields read back -/

theorem length_octalDigits : ∀ width value : Nat, (octalDigits width value).length = width
  | 0, _ => rfl
  | width + 1, value => by simp [octalDigits, length_octalDigits width]

variable {components : List VirtualFileName} {files : List ArchiveFile} {front rest : Bytes}
  {n width : Nat}

theorem length_writeOctal (h : 0 < width) (value : Nat) :
    (writeOctal width value).length = width := by
  simp only [writeOctal, List.length_append, length_octalDigits, List.length_singleton]
  omega

theorem digits_append (base value : Nat) (a b : Bytes) :
    digits base value (a ++ b) = digits base (digits base value a) b := by
  simp [digits, List.foldl_append]

theorem octal_digit (value : Nat) : ((48 + value % 8).toUInt8).toNat = 48 + value % 8 := by
  have hlt : 48 + value % 8 < 256 := by omega
  simpa [Nat.toUInt8] using hlt

theorem digits_octalDigits : ∀ (width value start : Nat), value < 8 ^ width →
    digits 8 start (octalDigits width value) = start * 8 ^ width + value
  | 0, value, start, h => by
      obtain rfl : value = 0 := by simpa using h
      simp [octalDigits, digits]
  | width + 1, value, start, h => by
      have hdiv : value / 8 < 8 ^ width := by
        rw [Nat.div_lt_iff_lt_mul (by decide)]
        rwa [pow_succ] at h
      have hlast : ∀ acc, digits 8 acc [(48 + value % 8).toUInt8] = acc * 8 + value % 8 := by
        intro acc
        show acc * 8 + ((48 + value % 8).toUInt8.toNat - 48) = acc * 8 + value % 8
        rw [octal_digit]
        omega
      rw [octalDigits, digits_append, digits_octalDigits width _ _ hdiv, hlast, pow_succ]
      have hsplit := Nat.div_add_mod value 8
      calc (start * 8 ^ width + value / 8) * 8 + value % 8
          = start * (8 ^ width * 8) + (8 * (value / 8) + value % 8) := by ring
        _ = start * (8 ^ width * 8) + value := by rw [hsplit]

variable {bytes : Bytes} {byte : UInt8}

theorem mem_octalDigits : ∀ {width value : Nat}, byte ∈ octalDigits width value →
    48 ≤ byte.toNat ∧ byte.toNat ≤ 55
  | 0, _, h => by cases h
  | width + 1, value, h => by
      rcases List.mem_append.mp h with h | h
      · exact mem_octalDigits h
      · obtain rfl := List.mem_singleton.mp h
        rw [octal_digit]
        omega

theorem not_isBlank_of_digit (h : 48 ≤ byte.toNat ∧ byte.toNat ≤ 55) : isBlank byte = false := by
  have h₁ : byte ≠ 0 := by
    rintro rfl
    simp at h
  have h₂ : byte ≠ 32 := by
    rintro rfl
    simp at h
  simp [isBlank, h₁, h₂]

theorem top_bit_of_digit (h : byte.toNat ≤ 55) : byte &&& 0x80 = 0 := by
  have hall : ∀ n : Fin 56, UInt8.ofNat n.val &&& 0x80 = 0 := by decide
  simpa using hall ⟨byte.toNat, by omega⟩

/-- **Octal fields read back**: `tar_number` undoes `write_octal`. -/
theorem tarNumber_writeOctal {value : Nat} (hwidth : 1 < width) (hvalue : value < 8 ^ (width - 1))
    (hsmall : value ≤ u64Max) (label : String) :
    tarNumber (writeOctal width value) label = .ok value := by
  have hdigit : ∀ byte ∈ octalDigits (width - 1) value, 48 ≤ byte.toNat ∧ byte.toNat ≤ 55 :=
    fun _ h => mem_octalDigits h
  have hvalue' : digits 8 0 (octalDigits (width - 1) value) = value := by
    rw [digits_octalDigits _ _ _ hvalue]
    omega
  have hlen := length_octalDigits (width - 1) value
  unfold writeOctal
  generalize octalDigits (width - 1) value = text at hdigit hvalue' hlen
  cases text with
  | nil =>
    rw [List.length_nil] at hlen
    omega
  | cons first rest =>
    have hfirst := hdigit first (by simp)
    have hnotBlank : ∀ byte ∈ first :: rest, isBlank byte = false :=
      fun byte h => not_isBlank_of_digit (hdigit byte h)
    have hkeep : (first :: (rest ++ [0])).dropWhile isBlank = first :: (rest ++ [0]) := by
      rw [List.dropWhile_cons_of_neg (by simp [hnotBlank first (by simp)])]
    have hcut : (first :: (rest ++ [0])).takeWhile (fun byte => !isBlank byte) =
        first :: rest := by
      rw [← List.cons_append, List.takeWhile_append_of_pos]
      · simp [isBlank]
      · intro byte h
        simp [hnotBlank byte h]
    have hoctal : ((first :: rest).all fun byte => 48 ≤ byte && byte ≤ 55) = true := by
      rw [List.all_eq_true]
      intro byte h
      obtain ⟨hlow, hhigh⟩ := hdigit byte h
      simp only [Bool.and_eq_true, decide_eq_true_eq, UInt8.le_iff_toNat_le]
      exact ⟨hlow, hhigh⟩
    rw [List.cons_append, tarNumber]
    simp only [top_bit_of_digit hfirst.2, ne_eq, not_true_eq_false, if_false, hkeep, hcut, hoctal,
      List.isEmpty_cons, Bool.false_eq_true, Bool.not_true, hvalue']
    rw [if_neg (by omega)]

/-! ### Taking a block apart -/

/-- A field behind `n` bytes that are laid out before it. -/
theorem field_skip {start stop : Nat} (hlen : front.length = n) (hn : n ≤ start) :
    field (front ++ rest) start stop = field rest (start - n) (stop - n) := by
  subst hlen
  unfold field
  rw [List.drop_append, List.drop_eq_nil_of_le hn, List.nil_append]
  congr 1
  omega

theorem field_here (hlen : bytes.length = n) : field (bytes ++ rest) 0 n = bytes := by
  subst hlen
  simp [field]

theorem textField_padTo {name : Bytes} (h : 0 ∉ name) (length : Nat) :
    textField (padTo length name) = name := by
  unfold textField padTo
  rw [List.takeWhile_append_of_pos]
  · simp
  · intro byte hbyte
    have hne : byte ≠ 0 := fun heq => h (heq ▸ hbyte)
    simp [hne]

theorem textField_replicate (n : Nat) : textField (List.replicate n 0) = [] := by
  simp [textField]

theorem optionalTarNumber_replicate (n : Nat) (label : String) :
    optionalTarNumber (List.replicate n 0) label = .ok none := by
  simp [optionalTarNumber, isBlank]

theorem sum_outside {k : Nat} (h : bytes.length + k ≤ 148 ∨ 156 ≤ k) :
    ((bytes.zipIdx k).map fun b =>
      if 148 ≤ b.2 ∧ b.2 < 156 then 32 else b.1.toNat).sum = (bytes.map UInt8.toNat).sum := by
  have hmap : ((bytes.zipIdx k).map fun b =>
      if 148 ≤ b.2 ∧ b.2 < 156 then 32 else b.1.toNat) =
      (bytes.zipIdx k).map fun b => b.1.toNat := by
    refine List.map_congr_left fun b hb => ?_
    have hlow := List.le_snd_of_mem_zipIdx hb
    have hhigh := List.snd_lt_of_mem_zipIdx hb
    rw [if_neg (by omega)]
  have hfst : ((bytes.zipIdx k).map fun b => b.1.toNat) =
      ((bytes.zipIdx k).map Prod.fst).map UInt8.toNat := by
    rw [List.map_map]
    rfl
  rw [hmap, hfst, List.zipIdx_map_fst]

theorem sum_inside (h : bytes.length = 8) : ((bytes.zipIdx 148).map fun b =>
      if 148 ≤ b.2 ∧ b.2 < 156 then 32 else b.1.toNat).sum = 8 * 32 := by
  have hmap : ((bytes.zipIdx 148).map fun b =>
      if 148 ≤ b.2 ∧ b.2 < 156 then 32 else b.1.toNat) =
      (bytes.zipIdx 148).map fun _ => 32 := by
    refine List.map_congr_left fun b hb => ?_
    have hlow := List.le_snd_of_mem_zipIdx hb
    have hhigh := List.snd_lt_of_mem_zipIdx hb
    rw [if_pos (by omega)]
  rw [hmap, List.map_const', List.sum_replicate, List.length_zipIdx, h]
  rfl

theorem blockSum_append {checksum back : Bytes} (hfront : front.length = 148)
    (hchecksum : checksum.length = 8) : blockSum (front ++ (checksum ++ back)) =
      (front.map UInt8.toNat).sum + 8 * 32 + (back.map UInt8.toNat).sum := by
  unfold blockSum
  rw [List.zipIdx_append, List.map_append, List.sum_append, List.zipIdx_append, List.map_append,
    List.sum_append, sum_outside (.inl (by omega)), Nat.zero_add, hfront, sum_inside hchecksum,
    sum_outside (.inr (by omega)), Nat.add_assoc]

theorem sum_bytes_le (bytes : Bytes) : (bytes.map UInt8.toNat).sum ≤ bytes.length * 255 := by
  induction bytes with
  | nil => simp
  | cons byte bytes ih =>
    have hbyte := byte.toNat_lt
    simp only [List.map_cons, List.sum_cons, List.length_cons]
    omega

/-! ## A written header -/

/-- The header that reading a written block gives. -/
def writtenHeader (name : Bytes) (mode size : Nat) (isDir : Bool) : RawHeader where
  path := name
  linkTarget := none
  typeFlag := if isDir then 53 else 48
  kind := if isDir then .directory else .regularFile
  size := if isDir then 0 else size
  mode := mode
  uid := 0
  gid := 0
  mtime := 0
  deviceMajor := none
  deviceMinor := none

/-- The layout of a header block, the checksum left open. -/
def layout (name : Bytes) (mode size checksum : Nat) (isDir : Bool) : Bytes :=
  padTo 100 name ++ (writeOctal 8 mode ++ (writeOctal 8 0 ++ (writeOctal 8 0 ++
    (writeOctal 12 (if isDir then 0 else size) ++ (writeOctal 12 0 ++ (writeOctal 8 checksum ++
    ([if isDir then 53 else 48] ++ (List.replicate 100 0 ++ (ascii "ustar" ++ ([0] ++
    (ascii "00" ++ (List.replicate 64 0 ++ (List.replicate 8 0 ++ (List.replicate 8 0 ++
    (List.replicate 155 0 ++ List.replicate 12 0)))))))))))))))

theorem length_padTo {length : Nat} (h : bytes.length ≤ length) :
    (padTo length bytes).length = length := by
  simp only [padTo, List.length_append, List.length_replicate]
  omega

theorem getD_eq_field (block : Bytes) (n : Nat) :
    block.getD n 0 = (field block n (n + 1)).headD 0 := by
  simp only [field, Nat.add_sub_cancel_left]
  induction block generalizing n with
  | nil => simp
  | cons byte block ih =>
    cases n with
    | zero => simp
    | succ n => simpa using ih n

section Layout

variable {name : Bytes} {mode size checksum : Nat} {isDir : Bool}

theorem length_layout (hname : name.length ≤ 100) :
    (layout name mode size checksum isDir).length = tarBlock := by
  simp only [layout, List.length_append, length_padTo hname, length_writeOctal (by decide : 0 < 8),
    length_writeOctal (by decide : 0 < 12), List.length_replicate, List.length_singleton]
  rfl

/-- **Where the reader finds the fields of a block.** -/
theorem field_layout (hname : name.length ≤ 100) :
    let block := layout name mode size checksum isDir
    field block 0 100 = padTo 100 name ∧
    field block 100 108 = writeOctal 8 mode ∧
    field block 108 116 = writeOctal 8 0 ∧
    field block 116 124 = writeOctal 8 0 ∧
    field block 124 136 = writeOctal 12 (if isDir then 0 else size) ∧
    field block 136 148 = writeOctal 12 0 ∧
    field block 148 156 = writeOctal 8 checksum ∧
    field block 156 157 = [if isDir then 53 else 48] ∧
    field block 157 257 = List.replicate 100 0 ∧
    field block 329 337 = List.replicate 8 0 ∧
    field block 337 345 = List.replicate 8 0 ∧
    field block 345 500 = List.replicate 155 0 := by
  have h100 : (padTo 100 name).length = 100 := length_padTo hname
  have h8 : ∀ v, (writeOctal 8 v).length = 8 := length_writeOctal (by decide)
  have h12 : ∀ v, (writeOctal 12 v).length = 12 := length_writeOctal (by decide)
  have hlink : (List.replicate 100 (0 : UInt8)).length = 100 := List.length_replicate
  have hgap : (List.replicate 64 (0 : UInt8)).length = 64 := List.length_replicate
  have hdevice : (List.replicate 8 (0 : UInt8)).length = 8 := List.length_replicate
  have hprefix : (List.replicate 155 (0 : UInt8)).length = 155 := List.length_replicate
  have hflag : ∀ flag : UInt8, [flag].length = 1 := fun _ => rfl
  unfold layout
  dsimp only
  refine ⟨field_here h100, ?_, ?_, ?_, ?_, ?_, ?_, ?_, ?_, ?_, ?_, ?_⟩
  all_goals rw [field_skip h100 (by decide)]
  · exact field_here (h8 _)
  all_goals rw [field_skip (h8 _) (by decide)]
  · exact field_here (h8 _)
  all_goals rw [field_skip (h8 _) (by decide)]
  · exact field_here (h8 _)
  all_goals rw [field_skip (h8 _) (by decide)]
  · exact field_here (h12 _)
  all_goals rw [field_skip (h12 _) (by decide)]
  · exact field_here (h12 _)
  all_goals rw [field_skip (h12 _) (by decide)]
  · exact field_here (h8 _)
  all_goals rw [field_skip (h8 _) (by decide)]
  · exact field_here (hflag _)
  all_goals rw [field_skip (hflag _) (by decide)]
  · exact field_here hlink
  all_goals rw [field_skip hlink (by decide),
    field_skip (by rfl : (ascii "ustar").length = 5) (by decide),
    field_skip (by rfl : [(0 : UInt8)].length = 1) (by decide),
    field_skip (by rfl : (ascii "00").length = 2) (by decide),
    field_skip hgap (by decide)]
  · exact field_here hdevice
  all_goals rw [field_skip hdevice (by decide)]
  · exact field_here hdevice
  rw [field_skip hdevice (by decide)]
  exact field_here hprefix

def layoutSum (name : Bytes) (mode size : Nat) (isDir : Bool) : Nat :=
  blockSum (layout name mode size 0 isDir)

theorem blockSum_layout (hname : name.length ≤ 100) :
    blockSum (layout name mode size checksum isDir) = layoutSum name mode size isDir ∧
      layoutSum name mode size isDir < 8 ^ 7 := by
  let front := padTo 100 name ++ (writeOctal 8 mode ++ (writeOctal 8 0 ++ (writeOctal 8 0 ++
    (writeOctal 12 (if isDir then 0 else size) ++ writeOctal 12 0))))
  let back := [if isDir then 53 else 48] ++ (List.replicate 100 0 ++ (ascii "ustar" ++ ([0] ++
    (ascii "00" ++ (List.replicate 64 0 ++ (List.replicate 8 0 ++ (List.replicate 8 0 ++
    (List.replicate 155 0 ++ List.replicate 12 (0 : UInt8)))))))))
  have hlayout : ∀ sum, layout name mode size sum isDir = front ++ (writeOctal 8 sum ++ back) := by
    intro sum
    simp only [layout, front, back, List.append_assoc]
  have hfront : front.length = 148 := by
    simp only [front, List.length_append, length_padTo hname,
      length_writeOctal (by decide : 0 < 8), length_writeOctal (by decide : 0 < 12)]
  have hback : back.length = 356 := by
    simp only [back, List.length_append, List.length_replicate, List.length_singleton]
    rfl
  have hsum : ∀ sum, blockSum (layout name mode size sum isDir) =
      (front.map UInt8.toNat).sum + 8 * 32 + (back.map UInt8.toNat).sum := by
    intro sum
    rw [hlayout, blockSum_append hfront (length_writeOctal (by decide) _)]
  refine ⟨by rw [layoutSum, hsum, hsum], ?_⟩
  have hf := sum_bytes_le front
  have hb := sum_bytes_le back
  rw [layoutSum, hsum]
  rw [hfront] at hf
  rw [hback] at hb
  omega

/-- **A written header parses**: every field comes back. -/
theorem parseHeader_layout (hname : name.length ≤ 100) (hne : name ≠ []) (hnul : 0 ∉ name)
    (hmode : mode < 8 ^ 7) (hsize : size < 8 ^ 11) :
    parseHeader (layout name mode size (layoutSum name mode size isDir) isDir) =
      .ok (writtenHeader name mode size isDir) := by
  obtain ⟨fname, fmode, fuid, fgid, fsize, fmtime, fsum, fflag, flink, fmajor, fminor, fprefix⟩ :=
    @field_layout name mode size (layoutSum name mode size isDir) isDir hname
  obtain ⟨hsum, hsmall⟩ :=
    @blockSum_layout name mode size (layoutSum name mode size isDir) isDir hname
  have hlen := @length_layout name mode size (layoutSum name mode size isDir) isDir hname
  generalize layout name mode size (layoutSum name mode size isDir) isDir = block at *
  have h64 : ∀ v, v < 8 ^ 11 → v ≤ u64Max := by
    intro v hv
    unfold u64Max
    omega
  have hsize' : (if isDir then 0 else size) < 8 ^ 11 := by
    split <;> omega
  have hchecksum : verifyChecksum block = .ok () := by
    unfold verifyChecksum
    rw [fsum, tarNumber_writeOctal (by decide) hsmall (h64 _ (by omega)), hsum]
    simp [bind, Except.bind]
  have hpath : headerPath (textField (field block 0 100))
      (textField (field block 345 500)) = name := by
    rw [fname, fprefix, textField_padTo hnul, textField_replicate]
    rfl
  have hflag : block.getD 156 0 = if isDir then 53 else 48 := by
    rw [getD_eq_field, fflag]
    rfl
  unfold parseHeader
  rw [if_neg (by simp [hlen])]
  simp only [hchecksum, hpath, hne, if_false, fsize, fmode, fuid, fgid, fmtime, flink,
    fmajor, fminor,
    textField_replicate, optionalTarNumber_replicate, hflag,
    tarNumber_writeOctal (by decide : 1 < 12) hsize' (h64 _ hsize'),
    tarNumber_writeOctal (by decide : 1 < 8) hmode (h64 _ (by omega)),
    tarNumber_writeOctal (by decide : 1 < 8) (by decide : 0 < 8 ^ 7) (by decide),
    tarNumber_writeOctal (by decide : 1 < 12) (by decide : 0 < 8 ^ 11) (by decide),
    bind, Except.bind]
  cases isDir <;> rfl

/-- What `write_ustar_header` writes, for numbers that fit their fields. -/
theorem writeUstarHeader_eq (hname : name.length ≤ 100) (hmode : mode < 8 ^ 7)
    (hsize : size < 8 ^ 11) :
    VolumeProvider.writeUstarHeader name mode size isDir =
      some (layout name mode size (layoutSum name mode size isDir) isDir) := by
  have hoctal : ∀ length value, value < 8 ^ (length - 1) →
      VolumeProvider.writeOctal length value = some (writeOctal length value) :=
    fun _ _ h => if_pos h
  have hsize' : (if isDir then 0 else size) < 8 ^ (12 - 1) := by
    split <;> omega
  have hsmall := (@blockSum_layout name mode size 0 isDir hname).2
  unfold VolumeProvider.writeUstarHeader
  rw [List.take_of_length_le hname, hoctal 8 mode hmode, hoctal 8 0 (by decide),
    hoctal 12 _ hsize', hoctal 12 0 (by decide)]
  simp only [Option.bind_eq_bind, Option.bind_some]
  obtain ⟨front, hfrontEq⟩ : ∃ front, front = padTo 100 name ++ writeOctal 8 mode ++
    writeOctal 8 0 ++ writeOctal 8 0 ++ writeOctal 12 (if isDir then 0 else size) ++
    writeOctal 12 0 := ⟨_, rfl⟩
  obtain ⟨back, hbackEq⟩ : ∃ back, back = (if isDir then 53 else 48) :: List.replicate 100 0 ++
    ascii "ustar" ++ [0] ++ ascii "00" ++ List.replicate 247 0 := ⟨_, rfl⟩
  rw [← hfrontEq, ← hbackEq]
  have hzeros : (List.replicate 247 0 : Bytes) = List.replicate 64 0 ++ (List.replicate 8 0 ++
      (List.replicate 8 0 ++ (List.replicate 155 0 ++ List.replicate 12 0))) := by
    simp only [List.replicate_append_replicate]
  have hlayout : ∀ sum, layout name mode size sum isDir = front ++ (writeOctal 8 sum ++ back) := by
    intro sum
    simp only [layout, hfrontEq, hbackEq, hzeros, List.append_assoc, List.cons_append,
      List.nil_append]
  have hfront : front.length = 148 := by
    simp only [hfrontEq, List.length_append, length_padTo hname,
      length_writeOctal (by decide : 0 < 8), length_writeOctal (by decide : 0 < 12)]
  have hsum : (front.map UInt8.toNat).sum + ((ascii "        ").map UInt8.toNat).sum +
      (back.map UInt8.toNat).sum = layoutSum name mode size isDir := by
    rw [layoutSum, hlayout, blockSum_append hfront (length_writeOctal (by decide) _)]
    rfl
  rw [hsum, hoctal 8 _ hsmall, hlayout, Option.bind_some, List.append_assoc]

end Layout

/-! ## Entries -/

def relativeName (components : List VirtualFileName) : Bytes :=
  [slash].intercalate (texts components)

theorem relativeName_cons (c d : VirtualFileName) (cs : List VirtualFileName) :
    relativeName (c :: d :: cs) = c.bytes ++ slash :: relativeName (d :: cs) := by
  simp [relativeName, List.intercalate_cons_cons]

theorem noNul_relativeName : ∀ components : List VirtualFileName, 0 ∉ relativeName components
  | [] => by simp [relativeName]
  | [c] => by simpa [relativeName] using c.noNul
  | c :: d :: cs => by
      rw [relativeName_cons, List.mem_append, List.mem_cons]
      rintro (h | h | h)
      · exact c.noNul h
      · exact absurd h (by decide)
      · exact noNul_relativeName (d :: cs) h

theorem splitOn_relativeName (components : List VirtualFileName) (hne : components ≠ []) :
    (relativeName components).splitOn slash = texts components := by
  have hnames : ∀ text ∈ texts components, slash ∉ text := by
    intro text htext
    obtain ⟨c, -, rfl⟩ := List.mem_map.mp htext
    exact c.noSlash
  exact List.splitOn_intercalate slash hnames (by simpa [texts] using hne)

theorem head?_relativeName : (relativeName components).head? ≠ some slash := by
  intro h
  have hcomponent : ∀ c : VirtualFileName, ∀ rest, (c.bytes ++ rest).head? ≠ some slash := by
    intro c rest hc
    obtain ⟨byte, bytes, hbytes⟩ := List.exists_cons_of_ne_nil c.nonempty
    rw [hbytes, List.cons_append, List.head?_cons, Option.some.injEq] at hc
    exact c.noSlash (by rw [hbytes, hc]; simp)
  cases components with
  | nil => simp [relativeName] at h
  | cons c cs =>
    cases cs with
    | nil =>
      apply hcomponent c []
      simpa [relativeName] using h
    | cons d cs => exact hcomponent c _ (relativeName_cons c d cs ▸ h)

theorem length_relativeName : ∀ components : List VirtualFileName, components ≠ [] →
    ((texts components).map fun c => c.length + 1).sum = (relativeName components).length + 1
  | [], h => absurd rfl h
  | [c], _ => by simp [relativeName, texts]
  | c :: d :: cs, _ => by
      have ih := length_relativeName (d :: cs) (by simp)
      rw [relativeName_cons, List.length_append, List.length_cons, ← ih]
      simp [texts]
      omega

theorem foldlM_component_texts : ∀ (cs : List VirtualFileName) (before : List Bytes),
    (texts cs).foldlM TarPath.component before = .ok (before ++ texts cs)
  | [], before => by
      simp only [texts, List.map_nil, List.foldlM_nil, List.append_nil]
      rfl
  | c :: cs, before => by
      have hstep : TarPath.component before c.bytes = .ok (before ++ [c.bytes]) := by
        have h₁ : ¬ (c.bytes = [] ∨ c.bytes = [dot]) := by
          rintro (h | h)
          · exact c.nonempty h
          · exact c.notDots (.inl h)
        have h₂ : c.bytes ≠ dotDot := fun h => c.notDots (.inr h)
        rw [TarPath.component, if_neg h₁, if_neg h₂, VirtualFileName.new_bytes]
        rfl
      show (c.bytes :: texts cs).foldlM TarPath.component before = _
      rw [List.foldlM_cons, hstep]
      show (texts cs).foldlM TarPath.component (before ++ [c.bytes]) = _
      rw [foldlM_component_texts cs]
      simp [texts]

/-- **A relative name parses to its components.** -/
theorem fromTarBytes_relativeName (hne : components ≠ []) {limits : TarLimits}
    (hshort : (relativeName components).length < limits.maxPathBytes) :
    TarPath.fromTarBytes (relativeName components) limits = .ok ⟨texts components⟩ := by
  have hlen : (⟨texts components⟩ : TarPath).encodedLen ≤ limits.maxPathBytes := by
    rw [TarPath.encodedLen, if_neg (by simp [TarPath.isRoot, hne]), length_relativeName _ hne]
    omega
  unfold TarPath.fromTarBytes
  rw [if_neg (by omega), if_neg head?_relativeName, if_neg (noNul_relativeName components),
    splitOn_relativeName _ hne, foldlM_component_texts]
  show (if (⟨[] ++ texts components⟩ : TarPath).encodedLen > limits.maxPathBytes then _ else _) = _
  rw [List.nil_append, if_neg (by omega)]

/-- What goes into an archive: a regular file with any body, or a directory. The
fields carry what the octal fields and the name field can hold. -/
structure ArchiveFile where
  components : List VirtualFileName
  isDir : Bool
  mode : Nat
  body : Bytes
  nonempty : components ≠ []
  name_short : (relativeName components).length ≤ 100
  mode_fits : mode < 8 ^ 7
  body_fits : body.length ≤ TarLimits.standard.maxEntryBytes
  dir_empty : isDir = true → body = []

namespace ArchiveFile

def name (f : ArchiveFile) : Bytes := relativeName f.components

def write (f : ArchiveFile) : Option Bytes :=
  if f.isDir then VolumeProvider.writeUstarHeader f.name f.mode 0 true
  else VolumeProvider.writeFile f.name f.mode f.body

def entry (f : ArchiveFile) : TarEntry where
  rawPath := f.name
  path := ⟨texts f.components⟩
  kind := if f.isDir then .directory else .regularFile
  size := f.body.length
  mode := f.mode
  uid := 0
  gid := 0
  mtime := 0
  linkTarget := none
  deviceMajor := none
  deviceMinor := none
  synthetic := false

def block (f : ArchiveFile) : Bytes :=
  layout f.name f.mode f.body.length (layoutSum f.name f.mode f.body.length f.isDir) f.isDir

/-- The body and its padding. -/
def content (f : ArchiveFile) : Bytes :=
  f.body ++ List.replicate (padding f.body.length) 0

theorem body_lt (f : ArchiveFile) : f.body.length < 8 ^ 11 := by
  have h := f.body_fits
  simp only [TarLimits.standard] at h
  omega

theorem write_eq (f : ArchiveFile) : f.write = some (f.block ++ f.content) := by
  unfold write content
  cases hdir : f.isDir with
  | true =>
    have hnil := f.dir_empty hdir
    have hheader := @writeUstarHeader_eq f.name f.mode f.body.length true f.name_short
      f.mode_fits f.body_lt
    rw [if_pos rfl]
    rw [hnil] at hheader
    rw [List.length_nil] at hheader
    simp [block, hdir, hnil, hheader, padding, tarBlock]
  | false =>
    have hheader := @writeUstarHeader_eq f.name f.mode f.body.length false f.name_short
      f.mode_fits f.body_lt
    rw [if_neg (by simp), VolumeProvider.writeFile, hheader]
    simp [block, hdir, padding, tarBlock]

theorem name_ne_nil (f : ArchiveFile) : f.name ≠ [] := by
  intro h
  have hlen := length_relativeName _ f.nonempty
  obtain ⟨c, cs, hcs⟩ := List.exists_cons_of_ne_nil f.nonempty
  have hpos := List.length_pos_of_ne_nil c.nonempty
  change (relativeName f.components) = [] at h
  rw [h, hcs] at hlen
  simp [texts] at hlen
  omega

theorem parseHeader_block (f : ArchiveFile) :
    parseHeader f.block = .ok (writtenHeader f.name f.mode f.body.length f.isDir) :=
  parseHeader_layout f.name_short f.name_ne_nil (noNul_relativeName _) f.mode_fits f.body_lt

theorem memberEntry_written (f : ArchiveFile) :
    memberEntry TarLimits.standard (writtenHeader f.name f.mode f.body.length f.isDir)
      PaxValues.empty none none = .ok f.entry := by
  have hpath : TarPath.fromTarBytes f.name TarLimits.standard = .ok ⟨texts f.components⟩ :=
    fromTarBytes_relativeName f.nonempty
      (lt_of_le_of_lt f.name_short (by simp [TarLimits.standard]))
  have hmode : checkedU32 f.mode "tar mode" = .ok f.mode := by
    have h := f.mode_fits
    rw [checkedU32, if_neg (by omega)]
  have hsize : (writtenHeader f.name f.mode f.body.length f.isDir).size = f.body.length := by
    cases hdir : f.isDir with
    | true => simp [writtenHeader, f.dir_empty hdir]
    | false => rfl
  have hkind : (writtenHeader f.name f.mode f.body.length f.isDir).kind ≠ .hardlink := by
    cases f.isDir <;> simp [writtenHeader]
  have hsmall : ¬ (PaxValues.empty.size.getD
      (writtenHeader f.name f.mode f.body.length f.isDir).size) >
        TarLimits.standard.maxEntryBytes := by
    show ¬ (writtenHeader f.name f.mode f.body.length f.isDir).size > _
    rw [hsize]
    exact Nat.not_lt.mpr f.body_fits
  unfold memberEntry
  refine bind_eq_ok.mpr ⟨(), rfl, bind_eq_ok.mpr ⟨(), if_pos hkind, ?_⟩⟩
  dsimp only
  rw [if_neg hsmall]
  refine bind_eq_ok.mpr ⟨_, hpath, bind_eq_ok.mpr ⟨_, hmode, ?_⟩⟩
  refine bind_eq_ok.mpr ⟨0, rfl, bind_eq_ok.mpr ⟨0, rfl, ?_⟩⟩
  refine bind_eq_ok.mpr ⟨none, rfl, bind_eq_ok.mpr ⟨none, rfl, ?_⟩⟩
  show Except.ok _ = Except.ok f.entry
  have hsize' : PaxValues.empty.size.getD
      (writtenHeader f.name f.mode f.body.length f.isDir).size = f.body.length := hsize
  rw [hsize']
  rfl

/-! ## Reading a written archive -/

theorem block_not_zero (f : ArchiveFile) : f.block.all (· = 0) = false := by
  by_contra h
  have hzero : ∀ byte ∈ f.block, byte = 0 := by simpa using h
  have hflag : field f.block 156 157 = [if f.isDir then 53 else 48] :=
    (field_layout f.name_short).2.2.2.2.2.2.2.1
  have hmem : (if f.isDir then 53 else 48 : UInt8) ∈ f.block := by
    have hin : (if f.isDir then 53 else 48 : UInt8) ∈ field f.block 156 157 := by simp [hflag]
    exact List.mem_of_mem_drop (List.mem_of_mem_take hin)
  have hbad := hzero _ hmem
  revert hbad
  cases f.isDir <;> decide

theorem length_block (f : ArchiveFile) : f.block.length = tarBlock := length_layout f.name_short

/-- A reader between two members of an archive without extensions. -/
structure Ready (r : TarStreamReader) (bytes : Bytes) : Prop where
  limits : r.limits = TarLimits.standard
  clean : r.source.Clean (policy r.limits)
  left : r.source.left = bytes
  notFinished : r.archiveFinished = false
  noBody : r.currentSize = none
  noGlobal : r.globalPax = PaxValues.empty
  noPax : r.pendingPax = PaxValues.empty
  noName : r.pendingLongName = none
  noLink : r.pendingLongLink = none

variable {r : TarStreamReader}

/-- **One written entry is read**: `next_entry` returns it and stands before its
body, and skipping the body leads to what comes after it. -/
theorem Ready.nextEntry {f : ArchiveFile} {rest : Bytes}
    (h : Ready r (f.block ++ (f.content ++ rest))) :
    ∃ r₁ r₂, TarStreamReader.nextEntry r = .ok (some f.entry, r₁) ∧
      r₁.source.left = f.content ++ rest ∧
      skipEntryBody r₁ = .ok ((), r₂) ∧ Ready r₂ rest := by
  obtain ⟨s, hread, hclean, hleft⟩ := readExact_left h.clean h.left
  rw [f.length_block] at hread
  let r₁ : TarStreamReader := { r with source := s, currentSize := some f.entry.size }
  have hext : readHeaderExtension (writtenHeader f.name f.mode f.body.length f.isDir)
      { r with source := s } = .ok (none, { r with source := s }) := by
    cases f.isDir <;> rfl
  have hfinish : finishEntry (writtenHeader f.name f.mode f.body.length f.isDir)
      { r with source := s } = .ok (some f.entry, r₁) := by
    unfold finishEntry
    refine bind_eq_ok.mpr ⟨f.entry, ?_, ?_⟩
    · simp only [h.limits, h.noGlobal, h.noPax, h.noName, h.noLink]
      exact f.memberEntry_written
    · simp [r₁, h.noName, h.noLink, h.noPax]
  have hnext : TarStreamReader.nextEntry r = .ok (some f.entry, r₁) := by
    unfold TarStreamReader.nextEntry
    rw [if_neg (by simp [h.noBody]), if_neg (by simp [h.notFinished])]
    refine run_bind_eq_ok.mpr ⟨_, _, hread, ?_⟩
    rw [if_neg (by simp [f.block_not_zero])]
    refine run_bind_eq_ok.mpr ⟨_, _, ?_, run_bind_eq_ok.mpr ⟨_, _, hext, hfinish⟩⟩
    rw [f.parseHeader_block]
    rfl
  have hleft' : r₁.source.left = f.body ++ (List.replicate (padding f.body.length) 0 ++ rest) := by
    show s.left = _
    rw [hleft, content, List.append_assoc]
  obtain ⟨s₂, hskip, hclean₂, hleft₂⟩ :=
    skipEntryBody_left_eq (r := r₁) rfl hclean List.length_replicate hleft'
  exact ⟨r₁, _, hnext, hleft, hskip, ⟨h.limits, hclean₂, hleft₂, h.notFinished, rfl, h.noGlobal,
    h.noPax, h.noName, h.noLink⟩⟩

theorem Ready.endOfArchive (h : Ready r (List.replicate (tarBlock * 2) 0)) :
    ∃ r', TarStreamReader.nextEntry r = .ok (none, r') := by
  have hsplit : (List.replicate (tarBlock * 2) 0 : Bytes) =
      List.replicate tarBlock 0 ++ (List.replicate tarBlock 0 ++ []) := by
    rw [List.append_nil, List.replicate_append_replicate]
    rfl
  obtain ⟨s₁, hread₁, hclean₁, hleft₁⟩ := readExact_left h.clean (h.left.trans hsplit)
  obtain ⟨s₂, hread₂, hclean₂, hleft₂⟩ :=
    readExact_left (r := { r with source := s₁ }) hclean₁ hleft₁
  rw [List.length_replicate] at hread₁ hread₂
  rcases Source.drain_clean (· = 0) (.io "non-zero bytes after tar end marker") hclean₂ with
    ⟨-, s₃, hdrain, -, -⟩ | ⟨hbad, -⟩
  · refine ⟨{ r with source := s₃, archiveFinished := true }, ?_⟩
    unfold TarStreamReader.nextEntry
    rw [if_neg (by simp [h.noBody]), if_neg (by simp [h.notFinished])]
    refine run_bind_eq_ok.mpr ⟨_, _, hread₁, ?_⟩
    rw [if_pos (by simp)]
    refine run_bind_eq_ok.mpr ⟨_, _, hread₂, ?_⟩
    rw [if_neg (by simp)]
    refine run_bind_eq_ok.mpr ⟨(), { r with source := s₃ }, ?_, rfl⟩
    unfold ensureZeroTail onSource
    dsimp only
    rw [hdrain]
    rfl
  · rw [hleft₂] at hbad
    cases hbad

/-- **A written archive holds its files.** -/
theorem Ready.holds : ∀ {files : List ArchiveFile} {r : TarStreamReader},
    Ready r ((files.flatMap fun f => f.block ++ f.content) ++ List.replicate (tarBlock * 2) 0) →
      r.Holds (files.map fun f => (f.entry, f.body))
  | [], r, h => by
      obtain ⟨r', hnext⟩ := Ready.endOfArchive h
      exact .nil h.clean hnext
  | f :: files, r, h => by
      rw [List.flatMap_cons, List.append_assoc, List.append_assoc] at h
      obtain ⟨r₁, r₂, hnext, hleft, hskip, hready⟩ := Ready.nextEntry h
      refine .cons h.clean hnext ?_ rfl hskip (Ready.holds hready)
      rw [hleft, content, List.append_assoc]
      exact List.take_left

end ArchiveFile

/-! ## The round trip -/

def writeArchive (files : List ArchiveFile) : Option Bytes := do
  let members ← files.mapM ArchiveFile.write
  some (members.flatten ++ List.replicate 1024 0)

theorem writeArchive_eq (files : List ArchiveFile) :
    writeArchive files =
      some ((files.flatMap fun f => f.block ++ f.content) ++ List.replicate (tarBlock * 2) 0) := by
  have hmembers : files.mapM ArchiveFile.write =
      some (files.map fun f => f.block ++ f.content) := by
    have hwrite : ArchiveFile.write = fun f => some (f.block ++ f.content) :=
      funext ArchiveFile.write_eq
    rw [hwrite]
    exact List.mapM_pure
  rw [writeArchive, hmembers, List.flatMap_def]
  rfl

/-- The index has the root, the files, a synthetic directory for every other
ancestor of a file, and nothing else. -/
structure HasExactly (index : TarIndex) (files : List ArchiveFile) : Prop where
  root : index.get TarPath.root = some TarEntry.root
  present : ∀ f ∈ files, index.get f.entry.path = some f.entry
  missing : ∀ f ∈ files, ∀ p ∈ f.entry.path.ancestors, p.isRoot = false →
    (∀ g ∈ files, g.entry.path ≠ p) → index.get p = some (TarEntry.syntheticDirectory p)
  nothingElse : ∀ p, (index.get p).isSome = true →
    p.isRoot = true ∨ ∃ f ∈ files, f.entry.path = p ∨ p ∈ f.entry.path.ancestors

theorem hasExactly_of_get {index : TarIndex} (hproper : ∀ m ∈ files.map ArchiveFile.entry, Proper m)
    (hnodup : ((files.map ArchiveFile.entry).map TarEntry.path).Nodup)
    (hget : ∀ p, index.get p = archiveGet (files.map ArchiveFile.entry) p) :
    HasExactly index files where
  root := by
    rw [hget]
    rfl
  present f hf := by
    rw [hget]
    exact archiveGet_of_mem hproper hnodup (List.mem_map.mpr ⟨f, hf, rfl⟩)
  missing f hf p hp hroot hother := by
    have hfind : (files.map ArchiveFile.entry).find? (fun m => m.path = p) = none := by
      rw [List.find?_eq_none]
      intro m hm hpath
      obtain ⟨g, hg, rfl⟩ := List.mem_map.mp hm
      exact hother g hg (by simpa using hpath)
    have hany : ((files.map ArchiveFile.entry).any fun m => m.path.isDescendantOf p) = true := by
      rw [List.any_eq_true]
      exact ⟨f.entry, List.mem_map.mpr ⟨f, hf, rfl⟩, TarPath.mem_ancestors_iff.mp hp⟩
    rw [hget]
    simp [archiveGet, hroot, hfind, hany]
  nothingElse p hp := by
    by_cases hroot : p.isRoot = true
    · exact .inl hroot
    · rw [hget] at hp
      obtain ⟨m, hm, hat⟩ := (archiveGet_isSome_iff (by simpa using hroot)).mp hp
      obtain ⟨f, hf, rfl⟩ := List.mem_map.mp hm
      exact .inr ⟨f, hf, hat⟩

/-- However its bytes are cut into chunks, a written archive holds its files. -/
theorem holds_of_written (hbytes : writeArchive files = some bytes)
    (hsize : bytes.length ≤ TarLimits.standard.maxArchiveBytes) {chunks : List Bytes}
    (hchunks : chunks.flatten = bytes) :
    (TarStreamReader.new (chunks.map .ok) TarLimits.standard).Holds
      (files.map fun f => (f.entry, f.body)) := by
  rw [writeArchive_eq, Option.some.injEq] at hbytes
  subst hbytes
  have hready : ArchiveFile.Ready (TarStreamReader.new (chunks.map .ok) TarLimits.standard)
      ((files.flatMap fun f => f.block ++ f.content) ++ List.replicate (tarBlock * 2) 0) :=
    { limits := rfl
      clean := clean_chunks (by rw [hchunks]; exact hsize)
      left := by
        show [] ++ Source.items (chunks.map Except.ok) = _
        rw [items_chunks, hchunks, List.nil_append]
      notFinished := rfl
      noBody := rfl
      noGlobal := rfl
      noPax := rfl
      noName := rfl
      noLink := rfl }
  exact hready.holds

/-- **Round trip.** Files with distinct paths, within the default limits, are
written without a panic, and however the bytes are cut into chunks `from_stream`
accepts them and finds exactly those files. -/
theorem fromStream_writeArchive {files : List ArchiveFile}
    (hdistinct : (files.map ArchiveFile.components).Nodup)
    (hroom : (nodesOf (files.map ArchiveFile.entry)).length ≤ TarLimits.standard.maxEntries) :
    ∃ bytes, writeArchive files = some bytes ∧
      (bytes.length ≤ TarLimits.standard.maxArchiveBytes →
        ∀ chunks : List Bytes, chunks.flatten = bytes →
          ∃ index, TarIndex.fromStream (chunks.map .ok) TarLimits.standard = .ok index ∧
            HasExactly index files) := by
  refine ⟨_, writeArchive_eq files, fun hsize chunks hchunks => ?_⟩
  have hholds := holds_of_written (writeArchive_eq files) hsize hchunks
  have hfst : (files.map fun f => (f.entry, f.body)).map Prod.fst =
      files.map ArchiveFile.entry := by
    rw [List.map_map]
    rfl
  have hroots : ∀ m ∈ files.map fun f => (f.entry, f.body), m.1.path.isRoot = false := by
    intro m hm
    obtain ⟨f, -, rfl⟩ := List.mem_map.mp hm
    simp [ArchiveFile.entry, TarPath.isRoot, f.nonempty]
  have hindexed : indexed (files.map fun f => (f.entry, f.body)) = files.map ArchiveFile.entry :=
    (indexed_eq hroots).trans hfst
  have hnodup : ((files.map ArchiveFile.entry).map TarEntry.path).Nodup := by
    have hinj : Function.Injective fun cs : List VirtualFileName => (⟨texts cs⟩ : TarPath) := by
      intro a b hab
      exact texts_injective (congrArg TarPath.components hab)
    have hpaths := hdistinct.map hinj
    rw [List.map_map] at hpaths ⊢
    exact hpaths
  obtain ⟨index, hindex, hget⟩ := fromStream_of_holds (by decide) hholds
    (by rw [hindexed]; exact hnodup) (by rw [hindexed]; exact hroom)
  rw [hindexed] at hget
  refine ⟨index, hindex, hasExactly_of_get ?_ ?_ hget⟩
  · intro m hm
    obtain ⟨f, hf, rfl⟩ := List.mem_map.mp hm
    obtain ⟨hvalid, hreal⟩ := hholds.proper (f.entry, f.body) (List.mem_map.mpr ⟨f, hf, rfl⟩)
    exact ⟨hvalid, by simp [ArchiveFile.entry, TarPath.isRoot, f.nonempty], hreal⟩
  · exact hnodup

/-- `usr/bin/helper` with a body, and its directory `usr/bin` after it. -/
def helperLayer : List ArchiveFile :=
  [{ components := (pathOf "/usr/bin/helper").components
     isDir := false
     mode := 0o755
     body := ascii "binary"
     nonempty := by decide
     name_short := by decide
     mode_fits := by decide
     body_fits := by decide
     dir_empty := by decide },
   { components := (pathOf "/usr/bin").components
     isDir := true
     mode := 0o755
     body := []
     nonempty := by decide
     name_short := by decide
     mode_fits := by decide
     body_fits := by decide
     dir_empty := by decide }]

/-- The round trip of `helperLayer`, in one chunk. -/
theorem helperLayer_roundTrip :
    ∃ bytes index, writeArchive helperLayer = some bytes ∧
      TarIndex.fromStream [.ok bytes] TarLimits.standard = .ok index ∧
      HasExactly index helperLayer := by
  obtain ⟨bytes, hbytes, hread⟩ := @fromStream_writeArchive helperLayer (by decide) (by decide)
  have hlen : ∀ bytes ∈ writeArchive helperLayer,
      bytes.length ≤ TarLimits.standard.maxArchiveBytes := by
    decide +kernel
  obtain ⟨index, hindex, hfiles⟩ := hread (hlen bytes hbytes) [bytes] (by simp)
  exact ⟨bytes, index, hbytes, hindex, hfiles⟩

end TuxStack.Tar
