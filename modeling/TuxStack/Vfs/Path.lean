import Mathlib.Algebra.GroupWithZero.Nat
import Mathlib.Algebra.Order.BigOperators.Group.List
import Mathlib.Algebra.Order.Group.Nat
import Mathlib.Data.List.Infix
import TuxStack.Lib.Separated

/-!
# Names and paths of the virtual filesystem

`crates/tuxstack-vfs/src/path.rs` and `error.rs`. A file name is a byte string
that `VirtualFileName::new` accepts, a path is a list of names whose text fits
`DEFAULT_MAX_PATH_BYTES`, a link target is NUL-free and fits the same bound.
All three carry their check as a field, so the constructors below are the only
way to one and an existing value never has to be checked again.

Bytes are `UInt8`; the byte constants carry the character they stand for.
-/

namespace TuxStack.Vfs

/-! ## Errors -/

inductive VfsError where
  | notFound
  | notDirectory
  | isDirectory
  | readOnly
  | permissionDenied
  | invalidInput (message : String)
  | nameTooLong
  | pathTooLong
  | invalidEncoding
  | tooManyHandles
  | badHandle
  | stale
  | symlinkLoop
  | symlinkEscape
  | specialFile
  | timedOut
  | unsupported (message : String)
  | unavailable (message : String)
  | io (message : String)
deriving DecidableEq, Repr

abbrev Bytes : Type := List UInt8

/-- The byte `/`. -/
def slash : UInt8 := 47

/-- The byte `.`. -/
def dot : UInt8 := 46

/-- `u64::MAX`. -/
def u64Max : Nat := 2 ^ 64 - 1

def maxNameBytes : Nat := 255

def defaultMaxPathBytes : Nat := 16 * 1024

/-! ## File names -/

/-- A path component: what `VirtualFileName::new` lets through. -/
structure VirtualFileName where
  bytes : Bytes
  nonempty : bytes ≠ []
  noNul : 0 ∉ bytes
  notDots : ¬ (bytes = [dot] ∨ bytes = [dot, dot])
  noSlash : slash ∉ bytes
  short : bytes.length ≤ maxNameBytes
deriving DecidableEq

theorem VirtualFileName.ext {a b : VirtualFileName} (h : a.bytes = b.bytes) : a = b := by
  cases a
  cases b
  cases h
  rfl

/-- `VirtualFileName::new`: the checks in the order of the source. -/
def VirtualFileName.new (bytes : Bytes) : Except VfsError VirtualFileName :=
  if h₁ : bytes = [] then .error (.invalidInput "an empty name is not a component")
  else if h₂ : 0 ∈ bytes then .error (.invalidInput "NUL is not allowed in file names")
  else if h₃ : bytes = [dot] ∨ bytes = [dot, dot] then
    .error (.invalidInput "dot components are not file names")
  else if h₄ : slash ∈ bytes then
    .error (.invalidInput "slash is not allowed in a component")
  else if h₅ : maxNameBytes < bytes.length then .error .nameTooLong
  else .ok ⟨bytes, h₁, h₂, h₃, h₄, Nat.le_of_not_lt h₅⟩

@[simp] theorem VirtualFileName.new_bytes (n : VirtualFileName) : new n.bytes = .ok n := by
  simp [new, n.nonempty, n.noNul, n.notDots, n.noSlash, Nat.not_lt.mpr n.short]

theorem VirtualFileName.bytes_of_new {bytes : Bytes} {n : VirtualFileName}
    (h : new bytes = .ok n) : n.bytes = bytes := by
  unfold new at h
  split_ifs at h
  cases h
  rfl

/-! ## Paths -/

/-- The length of the text of a path: `byte_len` as `from_components` computes
it, one byte for the root and a slash before each component otherwise. -/
def pathByteLen (components : List VirtualFileName) : Nat :=
  1 + (components.map fun c => c.bytes.length + 1).sum - (if components = [] then 0 else 1)

theorem pathByteLen_of_ne_nil {cs : List VirtualFileName} (h : cs ≠ []) :
    pathByteLen cs = (cs.map fun c => c.bytes.length + 1).sum := by
  simp [pathByteLen, h]

/-- `VirtualPath`: components whose text fits the path bound. -/
structure VirtualPath where
  components : List VirtualFileName
  bounded : pathByteLen components ≤ defaultMaxPathBytes
deriving DecidableEq

namespace VirtualPath

theorem ext {p q : VirtualPath} (h : p.components = q.components) : p = q := by
  cases p
  cases q
  cases h
  rfl

def root : VirtualPath := ⟨[], by decide⟩

def fromComponents (components : List VirtualFileName) : Except VfsError VirtualPath :=
  if h : pathByteLen components ≤ defaultMaxPathBytes then .ok ⟨components, h⟩
  else .error .pathTooLong

def isRoot (p : VirtualPath) : Bool := p.components.isEmpty

def depth (p : VirtualPath) : Nat := p.components.length

def fileName (p : VirtualPath) : Option VirtualFileName := p.components.getLast?

theorem fromComponents_ok {cs : List VirtualFileName} {p : VirtualPath}
    (h : fromComponents cs = .ok p) : p.components = cs := by
  unfold fromComponents at h
  split at h
  · cases h
    rfl
  · cases h

@[simp] theorem fromComponents_components (p : VirtualPath) :
    fromComponents p.components = .ok p := by
  simp [fromComponents, p.bounded]

/-- A sublist of the components of a path fits the bound too; this is why the
`expect`s of `parent` and `strip_prefix` never fire. -/
theorem pathByteLen_sublist {cs ds : List VirtualFileName} (h : cs.Sublist ds) :
    pathByteLen cs ≤ max 1 (pathByteLen ds) := by
  have hsum := (h.map fun c => c.bytes.length + 1).sum_le_sum (by simp)
  unfold pathByteLen
  by_cases h₁ : cs = []
  · simp [h₁]
  · have h₂ : ds ≠ [] := fun h₂ => h₁ (List.sublist_nil.mp (h₂ ▸ h))
    simp only [if_neg h₁, if_neg h₂]
    omega

theorem bounded_sublist {p : VirtualPath} {cs : List VirtualFileName}
    (h : cs.Sublist p.components) : pathByteLen cs ≤ defaultMaxPathBytes :=
  (pathByteLen_sublist h).trans
    (max_le (by simp [defaultMaxPathBytes]) p.bounded)

def parent (p : VirtualPath) : Option VirtualPath :=
  if p.components = [] then none
  else some ⟨p.components.dropLast, bounded_sublist (List.dropLast_sublist _)⟩

def join (p : VirtualPath) (name : VirtualFileName) : Except VfsError VirtualPath :=
  fromComponents (p.components ++ [name])

/-- `VirtualPath::starts_with`: a prefix of whole components. -/
def startsWith (p pre : VirtualPath) : Bool := pre.components.isPrefixOf p.components

theorem startsWith_iff {p pre : VirtualPath} :
    p.startsWith pre = true ↔ pre.components <+: p.components :=
  List.isPrefixOf_iff_prefix

def stripPrefix (p pre : VirtualPath) : Option VirtualPath :=
  if p.startsWith pre then
    some ⟨p.components.drop pre.depth, bounded_sublist (List.drop_sublist _ _)⟩
  else none

def asBytes (p : VirtualPath) : Bytes :=
  if p.components = [] then [slash] else p.components.flatMap fun c => slash :: c.bytes

/-- The loop body of `from_absolute_with_limit` on one piece between slashes. -/
def absorb (path : VirtualPath) (raw : Bytes) : Except VfsError VirtualPath :=
  if raw = [] ∨ raw = [dot] then .ok path
  else if raw = [dot, dot] then
    match path.parent with
    | some p => .ok p
    | none => .error .symlinkEscape
  else do
    let name ← VirtualFileName.new raw
    path.join name

def fromAbsoluteWithLimit (bytes : Bytes) (maxBytes : Nat) : Except VfsError VirtualPath :=
  if 0 ∈ bytes then .error (.invalidInput "NUL is not allowed in paths")
  else if bytes.head? ≠ some slash then .error (.invalidInput "VirtualPath must be absolute")
  else if maxBytes < bytes.length then .error .pathTooLong
  else ((bytes.splitOn slash).drop 1).foldlM absorb root

def fromAbsolute (bytes : Bytes) : Except VfsError VirtualPath :=
  fromAbsoluteWithLimit bytes defaultMaxPathBytes

/-! ### The text of a path parses back -/

theorem splitOn_flatMap_slash (cs : List VirtualFileName) :
    (cs.flatMap fun c => slash :: c.bytes).splitOn slash = [] :: cs.map VirtualFileName.bytes := by
  have hnames : ∀ bytes ∈ cs.map VirtualFileName.bytes, slash ∉ bytes := by
    intro bytes hbytes
    obtain ⟨c, -, rfl⟩ := List.mem_map.mp hbytes
    exact c.noSlash
  rw [← Separated.splitOn_flatMap hnames, List.flatMap_map]

theorem absorb_name (path : VirtualPath) (name : VirtualFileName) :
    path.absorb name.bytes = path.join name := by
  have h₁ : ¬ (name.bytes = [] ∨ name.bytes = [dot]) := by
    rintro (h | h)
    · exact name.nonempty h
    · exact name.notDots (.inl h)
  have h₂ : name.bytes ≠ [dot, dot] := fun h => name.notDots (.inr h)
  rw [absorb, if_neg h₁, if_neg h₂, VirtualFileName.new_bytes]
  rfl

theorem foldlM_absorb_names : ∀ (cs : List VirtualFileName) (path : VirtualPath)
    (h : pathByteLen (path.components ++ cs) ≤ defaultMaxPathBytes),
    (cs.map VirtualFileName.bytes).foldlM absorb path = .ok ⟨path.components ++ cs, h⟩
  | [], path, _ => by
      simp only [List.map_nil, List.foldlM_nil, List.append_nil]
      rfl
  | c :: cs, path, h => by
      have hc : pathByteLen (path.components ++ [c]) ≤ defaultMaxPathBytes :=
        bounded_sublist (p := ⟨path.components ++ c :: cs, h⟩) (by simp)
      rw [List.map_cons, List.foldlM_cons, absorb_name, join, fromComponents, dif_pos hc]
      refine (foldlM_absorb_names cs ⟨path.components ++ [c], hc⟩ (by simpa using h)).trans ?_
      simp

theorem length_asBytes (p : VirtualPath) : p.asBytes.length = pathByteLen p.components := by
  unfold asBytes
  split
  · rename_i h
    simp [h, pathByteLen]
  · rename_i h
    rw [pathByteLen_of_ne_nil h, List.length_flatMap]
    simp

theorem not_nul_mem_asBytes (p : VirtualPath) : 0 ∉ p.asBytes := by
  unfold asBytes
  split
  · decide
  · intro h
    obtain ⟨c, -, hc⟩ := List.mem_flatMap.mp h
    rcases List.mem_cons.mp hc with hc | hc
    · exact absurd hc (by decide)
    · exact c.noNul hc

theorem head?_asBytes (p : VirtualPath) : p.asBytes.head? = some slash := by
  unfold asBytes
  split
  · rfl
  · rename_i h
    obtain ⟨c, cs, hcs⟩ := List.exists_cons_of_ne_nil h
    simp [hcs]

/-- **Round trip**: parsing the text of a path gives the path. -/
theorem fromAbsolute_asBytes (p : VirtualPath) : fromAbsolute p.asBytes = .ok p := by
  unfold fromAbsolute fromAbsoluteWithLimit
  rw [if_neg (not_nul_mem_asBytes p), if_neg (by simp [head?_asBytes]),
    if_neg (by rw [length_asBytes]; exact Nat.not_lt.mpr p.bounded)]
  unfold asBytes
  split
  · rename_i h
    refine (congrArg Except.ok (?_ : root = p))
    exact ext (by simp [root, h])
  · rw [splitOn_flatMap_slash, List.drop_one, List.tail_cons]
    exact (foldlM_absorb_names p.components root (by simpa [root] using p.bounded)).trans
      (by simp [root])

end VirtualPath

/-! ## Link targets -/

structure VirtualPathBytes where
  bytes : Bytes
  noNul : 0 ∉ bytes
  short : bytes.length ≤ defaultMaxPathBytes
deriving DecidableEq

namespace VirtualPathBytes

theorem ext {a b : VirtualPathBytes} (h : a.bytes = b.bytes) : a = b := by
  cases a
  cases b
  cases h
  rfl

def new (bytes : Bytes) : Except VfsError VirtualPathBytes :=
  if h₁ : 0 ∈ bytes then .error (.invalidInput "NUL is not allowed in link targets")
  else if h₂ : defaultMaxPathBytes < bytes.length then .error .pathTooLong
  else .ok ⟨bytes, h₁, Nat.le_of_not_lt h₂⟩

theorem bytes_of_new {bytes : Bytes} {t : VirtualPathBytes} (h : new bytes = .ok t) :
    t.bytes = bytes := by
  unfold new at h
  split_ifs at h
  cases h
  rfl

def isAbsolute (t : VirtualPathBytes) : Bool := t.bytes.head? = some slash

theorem new_asBytes (p : VirtualPath) :
    ∃ t, new p.asBytes = .ok t ∧ t.bytes = p.asBytes ∧ t.isAbsolute = true := by
  have h₂ : ¬ defaultMaxPathBytes < p.asBytes.length := by
    rw [VirtualPath.length_asBytes]
    exact Nat.not_lt.mpr p.bounded
  refine ⟨⟨p.asBytes, p.not_nul_mem_asBytes, Nat.le_of_not_lt h₂⟩, ?_, rfl, ?_⟩
  · rw [new, dif_neg p.not_nul_mem_asBytes, dif_neg h₂]
  · simp [isAbsolute, p.head?_asBytes]

end VirtualPathBytes

/-! ## Literals -/

def ascii (text : String) : Bytes := text.toList.map fun c => c.toNat.toUInt8

/-- A path literal, the `path(b"/...")` of the Rust tests. -/
def pathOf (text : String) : VirtualPath :=
  ((VirtualPath.fromAbsolute (ascii text)).toOption).getD VirtualPath.root

def targetOf (text : String) : VirtualPathBytes :=
  ((VirtualPathBytes.new (ascii text)).toOption).getD ⟨[], by decide, by decide⟩

end TuxStack.Vfs
